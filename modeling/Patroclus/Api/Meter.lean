import Patroclus.Api.Answer
import Patroclus.Api.Standing

/-!
# What requests charge to their sessions

Where nothing but access requests for one action and one resource has come, a session
amounts to a meter: how many of them it has answered, and the window in which it counts
them. Which rule comes first for a request does not depend on sessions; whether this rule
allows the request is read off the meter of the session that the request names, and no
other meter changes.
-/

namespace Patroclus

open Foundation

/-- The conditions of a rule on a session that has answered so many requests for an action. -/
def Rule.allowsAfter (rule : Rule) (action : String) (calls : Nat) : Bool :=
  (rule.maxActionsInSession.all fun maxActions => decide (calls < maxActions)) &&
  (rule.maxSpend.all fun maxSpend => !(F64.ge 0 maxSpend)) &&
  (rule.minTrustLevel.all fun minTrust => F64.ge 1 minTrust) &&
  (rule.requirePriorAction.all fun prior => decide (0 < calls) && prior == action)

structure Meter where
  calls : Nat
  window : Option (Window Instant)

namespace Meter

def zero : Meter := ⟨0, none⟩

/-- The window has room for one more request under a rule. -/
def hasRoom (meter : Meter) (rule : Rule) (now : Instant) : Bool :=
  rule.rateLimitPerMinute.all fun maxPerMinute =>
    (Window.answer minuteAfter maxPerMinute now meter.window).1

/-- The meter after a request, given the rule that comes first for it. -/
def charge (first : Option Rule) (action : String) (now : Instant) (meter : Meter) : Meter where
  calls := meter.calls + 1
  window :=
    if first.any fun rule => rule.rateLimitPerMinute.isSome && rule.allowsAfter action meter.calls
    then some (Window.push minuteAfter now meter.window) else meter.window

end Meter

/-- The session has answered so many requests for an action, and nothing else. -/
structure SessionState.Charged (session : SessionState) (action : String) (calls : Nat) :
    Prop where
  alive : session.killed = false
  spend : session.spendTotal = 0
  trust : session.trustLevel = 1
  count : session.actionsCount = calls
  actions : ∀ prior, (∃ event ∈ session.trajectory, event.action = prior) ↔
    0 < calls ∧ prior = action

/-- The session under a key has, and none is as good as a new one. -/
def SessionStore.ChargedAt (store : SessionStore) (key action : String) (calls : Nat) : Prop :=
  match store.sessions.lookup key with
  | none => calls = 0
  | some session => session.Charged action calls

/-- The session under a key amounts to a meter. -/
structure SessionStore.Metered (store : SessionStore) (key action resource : String)
    (meter : Meter) : Prop where
  session : store.ChargedAt key action meter.calls
  window : (store.rateLimits.lookup (Rule.rateLimitKey key action resource)).map
    RateLimitState.toWindow = meter.window

/-! ## Sessions -/

section

variable {rule : Rule} {session : SessionState} {store store' : SessionStore}
  {key action resource : String} {calls : Nat}

theorem SessionState.charged_new (sessionId : String) (agentId : Uuid) (principalId : Option Uuid)
    (now : Instant) : (SessionState.new sessionId agentId principalId now).Charged action 0 where
  alive := rfl
  spend := rfl
  trust := rfl
  count := rfl
  actions prior := by simp [SessionState.new]

theorem SessionState.Charged.recordAction (charged : session.Charged action calls)
    {event : TrajectoryEvent} (same : event.action = action) (now : Instant) :
    (session.recordAction event now).Charged action (calls + 1) where
  alive := charged.alive
  spend := charged.spend
  trust := charged.trust
  count := congrArg (· + 1) charged.count
  actions prior := by
    have htrajectory : (session.recordAction event now).standing.trajectory =
        (session.standing.trajectory ++ [event]).rtake 1000 := by
      rw [session.standing_recordAction, Standing.trajectory_enter]
    show (∃ found ∈ (session.recordAction event now).standing.trajectory, _) ↔ _
    rw [htrajectory]
    constructor
    · rintro ⟨found, hfound, rfl⟩
      refine ⟨Nat.succ_pos calls, ?_⟩
      obtain hearlier | hlast := List.mem_append.mp (mem_of_mem_rtake hfound)
      · exact ((charged.actions found.action).mp ⟨found, hearlier, rfl⟩).2
      · rw [List.mem_singleton.mp hlast]
        exact same
    · rintro ⟨-, rfl⟩
      exact ⟨event, mem_rtake_concat (by decide) _ _, same⟩

theorem SessionState.Charged.allows_iff (charged : session.Charged action calls) :
    rule.SessionAllows session ↔ rule.allowsAfter action calls = true := by
  have hprior (prior : String) : (∃ event ∈ session.trajectory, event.action = prior) ↔
      0 < calls ∧ (prior == action) = true := by
    rw [charged.actions, beq_iff_eq]
  simp only [Rule.allowsAfter, Bool.and_eq_true, Option.all_eq_true, Bool.not_eq_true',
    decide_eq_true_iff]
  constructor
  · intro h
    refine ⟨⟨⟨?_, ?_⟩, ?_⟩, ?_⟩
    · intro maxActions hmax
      rw [← charged.count]
      exact h.actions maxActions hmax
    · intro maxSpend hmax
      rw [← charged.spend]
      exact h.spend maxSpend hmax
    · intro minTrust hmin
      rw [← charged.trust]
      exact h.trust minTrust hmin
    · intro prior hrequired
      exact (hprior prior).mp (h.prior prior hrequired)
  · rintro ⟨⟨⟨hactions, hspend⟩, htrust⟩, hprior'⟩
    exact {
      alive := charged.alive
      actions := by rw [charged.count]; exact hactions
      spend := by rw [charged.spend]; exact hspend
      trust := by rw [charged.trust]; exact htrust
      prior := fun prior hrequired => (hprior prior).mpr (hprior' prior hrequired) }

namespace SessionStore

theorem chargedAt_congr (h : store.sessions = store'.sessions) :
    store.ChargedAt key action calls ↔ store'.ChargedAt key action calls := by
  rw [ChargedAt, ChargedAt, h]

theorem ChargedAt.sessionFor {req : AccessRequest}
    (charged : store.ChargedAt req.sessionKey action calls) :
    (store.sessionFor req).Charged action calls := by
  rw [ChargedAt] at charged
  rw [SessionStore.sessionFor]
  cases hlookup : store.sessions.lookup req.sessionKey with
  | none =>
      rw [hlookup] at charged
      rw [charged]
      exact SessionState.charged_new _ _ _ _
  | some session =>
      rw [hlookup] at charged
      exact charged

/-- Opening a session charges nothing. -/
theorem chargedAt_getOrCreateSession (sessionId : String) (agentId : Uuid)
    (principalId : Option Uuid) (now : Instant) (store : SessionStore) :
    (store.getOrCreateSession sessionId agentId principalId now).2.ChargedAt key action calls ↔
      store.ChargedAt key action calls := by
  rw [getOrCreateSession]
  cases hlookup : store.sessions.lookup sessionId with
  | some session => exact Iff.rfl
  | none =>
      by_cases hkey : key = sessionId
      · rw [ChargedAt, ChargedAt, hkey, hlookup, AList.lookup_insert]
        constructor
        · intro charged
          exact charged.count.symm
        · rintro rfl
          exact SessionState.charged_new _ _ _ _
      · rw [ChargedAt, ChargedAt, AList.lookup_insert_ne hkey]

/-- An action is charged to the session that it is recorded in. -/
theorem ChargedAt.recordAction {sessionId : String} {event : TrajectoryEvent}
    (charged : store.ChargedAt key action calls) (same : event.action = action)
    (opened : (store.sessions.lookup sessionId).isSome = true) (now : Instant) :
    (store.recordAction sessionId event now).ChargedAt key action
      (if key = sessionId then calls + 1 else calls) := by
  rw [ChargedAt] at charged
  rw [ChargedAt, SessionStore.recordAction]
  by_cases hkey : key = sessionId
  · obtain ⟨session, hsession⟩ := Option.isSome_iff_exists.mp opened
    rw [hkey, hsession] at charged
    rw [if_pos hkey, hkey, lookup_modifyAt_self, hsession]
    exact charged.recordAction same now
  · rw [if_neg hkey, lookup_modifyAt_of_ne hkey]
    exact charged

end SessionStore

end

/-! ## Requests -/

/-- What the decision on a request rests on apart from its session. -/
def AppState.grounds (app : AppState) : List AgentRow × YamlEngine × Finset Uuid :=
  (app.db.agents, app.policyEngine, app.sessionStore.killedAgents)

theorem AppState.firstRule_congr {app app' : AppState} (h : app.grounds = app'.grounds)
    (req : AccessRequest) : app.firstRule req = app'.firstRule req := by
  obtain ⟨hagents, hrest⟩ := Prod.mk.inj h
  obtain ⟨hengine, -⟩ := Prod.mk.inj hrest
  rw [firstRule, firstRule, hagents, hengine]

section

variable {p : Platform} {s finish : Serving} {auth : Option Uuid} {req : AccessRequest}
  {response : AccessResponse} {now : Instant} {key action : String} {calls : Nat} {meter : Meter}

theorem ignoresGrants_grounds : IgnoresGrants fun s : Serving => s.app.grounds :=
  ⟨fun _ => rfl, fun _ _ => rfl, fun _ _ => rfl, fun _ _ => rfl⟩

/-- Requests leave the grounds of other requests as they are. -/
theorem keeps_requestAccess_grounds :
    (requestAccess p auth req).Keeps fun s => s.app.grounds := by
  have hsessions : IgnoresSessions fun s : Serving => s.app.grounds := fun s store h => by
    simp [AppState.grounds, h]
  have htick := ignoresGrants_grounds.tick
  have hrecord (caller : Caller) (eval : PolicyEvaluation) (response : AccessResponse) :
      (recordDecision p caller req eval response).Keeps fun s => s.app.grounds := by
    refine (keeps_utcNow htick).bind fun _ => ?_
    refine (keeps_utcNow htick).bind fun _ => ?_
    refine Action.Keeps.bind (fun s => hsessions s _ rfl) fun _ => ?_
    exact (Database.keeps_createAuditEntry htick fun _ _ _ => rfl).bind fun _ => .pure _
  rw [requestAccess_eq_decideAccess]
  refine (keeps_decideAccess (keeps_getOrCreateSession htick hsessions) ignoresGrants_grounds
    (keeps_evalEngine htick hsessions) auth req).bind ?_
  rintro ⟨response, decided⟩
  cases decided with
  | none => exact .pure _
  | some decided => exact (hrecord _ _ _).bind fun _ => .pure _

/-- The requests that are charged to a session are those whose decision is entered in it. -/
theorem requestAccess_chargedAt (charged : s.app.sessionStore.ChargedAt key req.action calls) :
    (requestAccess p auth req).WP (fun _ finish => finish.app.sessionStore.ChargedAt key req.action
      (if key = req.sessionKey ∧ enteredDecision p auth req s ≠ none then calls + 1
        else calls)) s := by
  have hkept {outcome : Except Failure (AccessResponse × Option (Caller × PolicyEvaluation))}
      {middle : Serving} (run : decideAccess p auth req s = (outcome, middle)) :
      middle.app.sessionStore.ChargedAt key req.action calls := by
    have hkeeps : (decideAccess p auth req).Keeps
        fun s => s.app.sessionStore.ChargedAt key req.action calls := by
      apply keeps_decideAccess
      · exact fun _ _ _ _ => propext (SessionStore.chargedAt_getOrCreateSession _ _ _ _ _)
      · exact ⟨fun _ => rfl, fun _ _ => rfl, fun _ _ => rfl, fun _ _ => rfl⟩
      · exact fun _ _ => propext (SessionStore.chargedAt_congr YamlEngine.sessions_evaluate)
    exact cast (hkeeps.eq run).symm charged
  rw [requestAccess_eq_decideAccess, enteredDecision]
  apply Action.WP.bind_of
  · rintro ⟨response, decided⟩ middle hrun
    rw [hrun]
    cases decided with
    | none =>
        rw [if_neg fun h => h.2 rfl]
        exact hkept hrun
    | some decided =>
        obtain ⟨caller, eval⟩ := decided
        obtain ⟨hkey, hopen⟩ := decideAccess_opened hrun
        apply wp_wrap
        refine (recordDecision_enters caller req eval response middle).mono ?_
        rintro outcome finish hfinish
        have hopened : (middle.app.sessionStore.sessions.lookup req.sessionKey).isSome = true := by
          rw [hopen]
          rfl
        simp only [ne_eq, reduceCtorEq, not_false_eq_true, and_true]
        rw [hfinish, hkey]
        exact (hkept hrun).recordAction rfl hopened _
  · rintro e finish hrun
    rw [hrun, if_neg fun h => h.2 rfl]
    exact hkept hrun

/-! ## Answered requests -/

theorem AccessDecided.decideAccess {caller : Caller} {s₁ s₂ s₃ : Serving} {eval : PolicyEvaluation}
    (h : AccessDecided p auth req s caller s₁ eval s₂ response s₃ finish) :
    decideAccess p auth req s = (.ok (response, some (caller, eval)), s₃) := by
  refine Action.bind_ok_iff.mpr ⟨caller, s₁, h.resolved, ?_⟩
  rw [if_neg (by simp [h.sessionAlive])]
  refine Action.bind_ok_iff.mpr ⟨_, s₁, rfl, ?_⟩
  rw [if_neg (by simpa [SessionStore.isAgentKilled] using h.agentAlive)]
  refine Action.bind_ok_iff.mpr ⟨eval, s₂, h.evaluated, ?_⟩
  exact Action.bind_ok_iff.mpr ⟨response, s₃, h.enacted, rfl⟩

/-- After its evaluation a decided request counts nothing more. -/
theorem AccessDecided.rateLimits {caller : Caller} {s₁ s₂ s₃ : Serving} {eval : PolicyEvaluation}
    (h : AccessDecided p auth req s caller s₁ eval s₂ response s₃ finish) :
    finish.app.sessionStore.rateLimits = s₂.app.sessionStore.rateLimits := by
  have henacted := enactDecision_sessionStore h.enacted
  have hrecorded := recordDecision_enters (p := p) caller req eval response s₃
  rw [Action.WP, h.recorded] at hrecorded
  rw [hrecorded, SessionStore.recordAction, ← henacted]

/-- The window of a meter has room if the window of its key has. -/
theorem Meter.hasRoom_iff {store : SessionStore} {rule : Rule}
    (window : (store.rateLimits.lookup key).map RateLimitState.toWindow = meter.window) :
    meter.hasRoom rule now = true ↔ rule.RateAllows store now key := by
  rw [hasRoom, Rule.RateAllows, Option.all_eq_true, ← window]
  refine forall₂_congr fun maxPerMinute _ => ?_
  cases store.rateLimits.lookup key with
  | none => simp [Window.answer]
  | some state =>
      simp only [Option.map_some, Window.answer, RateLimitState.toWindow, minuteAfter_lt_iff,
        Option.some.injEq, forall_eq']
      split
      · rename_i hover
        exact iff_of_true rfl (.inl hover)
      · rename_i hlasts
        rw [decide_eq_true_iff, or_iff_right hlasts]

/-- A call that is counted pushes the window of the meter. -/
theorem Meter.toWindow_tally {store : SessionStore} {maxPerMinute : Nat}
    (window : (store.rateLimits.lookup key).map RateLimitState.toWindow = meter.window) :
    (SessionStore.tally key maxPerMinute now (store.rateLimits.lookup key)).2.toWindow =
      Window.push minuteAfter now meter.window := by
  have hadmit := tally_admit key maxPerMinute now (store.rateLimits.lookup key)
  rw [window] at hadmit
  exact (congrArg Prod.snd hadmit).symm.trans Window.answer_snd

/-- The rule that decides a request is read off the meter of its session. -/
theorem SessionStore.Metered.decides_iff {app : AppState} {rule : Rule}
    (metered : app.sessionStore.Metered req.sessionKey req.action req.resource meter)
    (alive : req.agentId ∉ app.sessionStore.killedAgents) :
    rule.Decides app req now ↔ app.firstRule req = some rule ∧
      rule.allowsAfter req.action meter.calls = true ∧ meter.hasRoom rule now = true := by
  rw [AppState.firstRule_eq_some, ← metered.session.sessionFor.allows_iff,
    Meter.hasRoom_iff metered.window]
  exact ⟨fun h => ⟨h.first, h.session, h.rate⟩, fun h => ⟨alive, h.1, h.2.1, h.2.2⟩⟩

/-- A found caller has been given a session with the charges of the session of the request. -/
theorem CallerFound.charged {caller : Caller} {s₁ : Serving} (h : CallerFound p req s caller s₁)
    (charged : s.app.sessionStore.ChargedAt req.sessionKey action calls) :
    caller.session.Charged action calls := by
  obtain ⟨opened, hsession, -⟩ := h.session
  rw [SessionStore.ChargedAt] at charged
  rw [hsession, SessionStore.getOrCreateSession]
  cases hlookup : s.app.sessionStore.sessions.lookup req.sessionKey with
  | none =>
      rw [hlookup] at charged
      rw [charged]
      exact SessionState.charged_new _ _ _ _
  | some session =>
      rw [hlookup] at charged
      exact charged

/-- The engine selects for a found caller the rule that comes first for the request. -/
theorem CallerFound.firstMatch {caller : Caller} {s₁ : Serving}
    (h : CallerFound p req s caller s₁) :
    s₁.app.policyEngine.firstMatch (caller.context req) = s.app.firstRule req := by
  obtain ⟨row, now₁, now₂, hrow, hagent⟩ := h.agent
  have htype : (caller.context req).agent.principalType = row.principalType := by
    rw [Caller.context, hagent]
    rfl
  apply Option.ext
  intro rule
  rw [YamlEngine.firstMatch_eq_some_iff, AppState.firstRule_eq_some, htype, h.policyEngine,
    Rule.ComesFirstFor, hrow]
  simp only [Option.some.injEq, exists_eq_left']
  exact Iff.rfl

/-- An answered request of a living agent with a living session has been decided. -/
theorem AccessDecided.of_charged (run : requestAccess p auth req s = (.ok response, finish))
    (alive : req.agentId ∉ s.app.sessionStore.killedAgents)
    (charged : s.app.sessionStore.ChargedAt req.sessionKey action calls) :
    ∃ caller s₁ eval s₂ s₃, AccessDecided p auth req s caller s₁ eval s₂ response s₃ finish := by
  rcases requestAccess_eq_ok.mp run with ⟨caller, hresolved, hkilled, -⟩ |
    ⟨caller, hresolved, -, hstopped, -⟩ | hdecided
  · have halive := ((resolveCaller_found hresolved).charged charged).alive
    rw [hkilled] at halive
    cases halive
  · have hfound := resolveCaller_found hresolved
    rw [hfound.agentId, hfound.killedAgents] at hstopped
    exact absurd hstopped alive
  · exact hdecided

/-- The evaluation of a decided request pushes the window of its session, if the rule that
comes first has a rate limit and the session does not refuse. -/
theorem AccessDecided.window {caller : Caller} {s₁ s₂ s₃ : Serving} {eval : PolicyEvaluation}
    (h : AccessDecided p auth req s caller s₁ eval s₂ response s₃ finish)
    (clock : ∀ n, s.tape.now n = now)
    (metered : s.app.sessionStore.Metered req.sessionKey req.action req.resource meter) :
    (finish.app.sessionStore.rateLimits.lookup
      (Rule.rateLimitKey req.sessionKey req.action req.resource)).map RateLimitState.toWindow =
        (meter.charge (s.app.firstRule req) req.action now).window := by
  have hfound := resolveCaller_found h.resolved
  obtain ⟨-, hs₂⟩ := evalEngine_eq_ok.mp h.evaluated
  have hsessionId : (caller.context req).sessionId = some req.sessionKey :=
    congrArg some hfound.sessionId
  have hkey : (caller.context req).rateKey =
      some (Rule.rateLimitKey req.sessionKey req.action req.resource) := by
    rw [PolicyContext.rateKey, hsessionId]
    rfl
  have htemporal (rule : Rule) :
      rule.checkTemporalConditions s₁.app.sessionStore (caller.context req) = none ↔
        rule.allowsAfter req.action meter.calls = true := by
    rw [Rule.checkTemporalConditions_eq_none hsessionId hfound.lookup]
    exact (hfound.charged metered.session).allows_iff
  rw [h.rateLimits, hs₂]
  show ((s₁.app.policyEngine.evaluate s₁.app.sessionStore (s₁.tape.now s₁.tick)
    (caller.context req)).2.rateLimits.lookup _).map _ = _
  rw [hfound.tape, clock, Meter.charge]
  by_cases hcounted : ∃ rule m, s.app.firstRule req = some rule ∧ rule.rateLimitPerMinute = some m ∧
      rule.allowsAfter req.action meter.calls = true
  · obtain ⟨rule, m, hfirst, hlimit, hallows⟩ := hcounted
    have hlimitOf : rule.limitOf (caller.context req) =
        some (m, Rule.rateLimitKey req.sessionKey req.action req.resource) := by
      rw [Rule.limitOf, hlimit, hkey]
    rw [YamlEngine.evaluate_counts (hfound.firstMatch.trans hfirst) ((htemporal rule).mpr hallows)
      hlimitOf, hfound.rateLimits, Option.map_some, Meter.toWindow_tally metered.window, hfirst]
    simp [hlimit, hallows]
  · rw [YamlEngine.evaluate_frame, hfound.rateLimits, metered.window]
    · refine (if_neg ?_).symm
      intro hany
      obtain ⟨rule, hfirst, hcounts⟩ := (Option.any_eq_true _ _).mp hany
      rw [Bool.and_eq_true] at hcounts
      obtain ⟨m, hlimit⟩ := Option.isSome_iff_exists.mp hcounts.1
      exact hcounted ⟨rule, m, hfirst, hlimit, hcounts.2⟩
    · rintro ⟨rule, m, hmatch, hpassed, hlimitOf⟩
      obtain ⟨limit, hlimit⟩ :=
        Option.ne_none_iff_exists'.mp (Rule.rateLimitPerMinute_of_limitOf hlimitOf)
      exact hcounted ⟨rule, limit, hfound.firstMatch.symm.trans hmatch, hlimit,
        (htemporal rule).mp hpassed⟩

section

variable (run : requestAccess p auth req s = (.ok response, finish))
  (clock : ∀ n, s.tape.now n = now) (alive : req.agentId ∉ s.app.sessionStore.killedAgents)

include run

/-- A decided request is charged to its session. -/
theorem chargedAt_of_decided {caller : Caller} {s₁ s₂ s₃ : Serving} {eval : PolicyEvaluation}
    (decided : AccessDecided p auth req s caller s₁ eval s₂ response s₃ finish)
    (charged : s.app.sessionStore.ChargedAt key req.action calls) :
    finish.app.sessionStore.ChargedAt key req.action
      (if key = req.sessionKey then calls + 1 else calls) := by
  have hcharged : (requestAccess p auth req).WP _ s := requestAccess_chargedAt charged
  have hentered : enteredDecision p auth req s = some eval.decision := by
    rw [enteredDecision, decided.decideAccess]
  rw [Action.WP, run, hentered] at hcharged
  simpa only [ne_eq, reduceCtorEq, not_false_eq_true, and_true] using hcharged

include clock alive

/-- An answered request is allowed exactly if the rule that comes first allows it and the
meter of its session has room. -/
theorem allowed_iff_of_metered
    (metered : s.app.sessionStore.Metered req.sessionKey req.action req.resource meter) :
    response.decision = "allow" ↔ ∃ rule, s.app.firstRule req = some rule ∧
      rule.decision = "allow" ∧ rule.allowsAfter req.action meter.calls = true ∧
      meter.hasRoom rule now = true := by
  have hname (rule : Rule) : rule.decisionOf.name = "allow" ↔ rule.decision = "allow" := by
    rw [Decision.name_eq_allow, Rule.decisionOf_eq_allow]
  obtain ⟨rule, hdecides, hdecision⟩ | ⟨hnone, hdecision⟩ := requestAccess_decided clock run
  · rw [hdecision, hname]
    rw [metered.decides_iff alive] at hdecides
    obtain ⟨hfirst, hallows, hroom⟩ := hdecides
    constructor
    · intro hallow
      exact ⟨rule, hfirst, hallow, hallows, hroom⟩
    · rintro ⟨rule', hfirst', hallow, -⟩
      rw [hfirst] at hfirst'
      rw [Option.some.inj hfirst']
      exact hallow
  · rw [hdecision]
    refine iff_of_false (by decide) ?_
    rintro ⟨rule, hfirst, -, hallows, hroom⟩
    exact hnone ⟨rule, (metered.decides_iff alive).mpr ⟨hfirst, hallows, hroom⟩⟩

/-- An answered request charges the meter of its session. -/
theorem metered_charge
    (metered : s.app.sessionStore.Metered req.sessionKey req.action req.resource meter) :
    finish.app.sessionStore.Metered req.sessionKey req.action req.resource
      (meter.charge (s.app.firstRule req) req.action now) := by
  obtain ⟨caller, s₁, eval, s₂, s₃, hdecided⟩ :=
    AccessDecided.of_charged run alive metered.session
  have hcharged := chargedAt_of_decided run hdecided metered.session
  rw [if_pos rfl] at hcharged
  exact ⟨hcharged, hdecided.window clock metered⟩

omit clock in
/-- It leaves the meters of other sessions as they are. -/
theorem metered_of_ne
    (charged : s.app.sessionStore.ChargedAt req.sessionKey req.action calls)
    (other : key ≠ req.sessionKey)
    (metered : s.app.sessionStore.Metered key req.action req.resource meter) :
    finish.app.sessionStore.Metered key req.action req.resource meter := by
  obtain ⟨caller, s₁, eval, s₂, s₃, hdecided⟩ := AccessDecided.of_charged run alive charged
  have hcharged := chargedAt_of_decided run hdecided metered.session
  rw [if_neg other] at hcharged
  refine ⟨hcharged, ?_⟩
  have hfound := resolveCaller_found hdecided.resolved
  obtain ⟨-, hs₂⟩ := evalEngine_eq_ok.mp hdecided.evaluated
  rw [hdecided.rateLimits, hs₂]
  show ((s₁.app.policyEngine.evaluate s₁.app.sessionStore _
    (caller.context req)).2.rateLimits.lookup _).map _ = _
  rw [YamlEngine.evaluate_frame, hfound.rateLimits, metered.window]
  rintro ⟨rule, m, -, -, hlimitOf⟩
  have hkey : some (Rule.rateLimitKey caller.sessionId req.action req.resource) =
      some (Rule.rateLimitKey key req.action req.resource) := Rule.rateKey_of_limitOf hlimitOf
  rw [hfound.sessionId] at hkey
  exact other (Rule.rateLimitKey_inj.mp (Option.some.inj hkey)).symm

end

end

end Patroclus
