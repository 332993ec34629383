import Patroclus.Api.Sessions
import Patroclus.Api.Standing

/-!
# Sessions over whole runs

What every session of a reachable site looks like, and what becomes of it until the next
restart. A session is stored under its own id and never closed, what is added to its
trajectory stays there until a thousand later actions have been added, and no call ever
changes its trust level. So a rule that asks for a trust level asks for nothing, or refuses
every session.
-/

namespace Patroclus

open Foundation

/-! ## One session -/

/-- What an operation does to a session that it changes. -/
inductive SessionState.Step (s : SessionState) : SessionState → Prop where
  | marked (killed : Bool) : Step s { s with killed := killed }
  | acted (event : TrajectoryEvent) (now : Instant) : Step s (s.recordAction event now)
  | spent (amount : F64) : Step s (s.recordSpend amount)

/-- What an operation does to the place of a session. -/
inductive SlotStep (key : String) : Option SessionState → Option SessionState → Prop where
  | kept (slot : Option SessionState) : SlotStep key slot slot
  | opened (agentId : Uuid) (principalId : Option Uuid) (now : Instant) :
      SlotStep key none (some (.new key agentId principalId now))
  | stepped {s s' : SessionState} (step : s.Step s') : SlotStep key (some s) (some s')

/-- What is true of every session that has been stored under a key. Its trajectory has as many
events as it has counted actions, a thousand at most. -/
structure SessionState.Settled (key : String) (s : SessionState) : Prop where
  sessionId : s.sessionId = key
  trajectory : s.trajectory.length = min s.actionsCount 1000
  trustLevel : s.trustLevel = 1
  tokensUsed : s.tokensUsed = 0

/-- A later state of a session: whose it is stays fixed, and one event has been added to its
trajectory for each action that it has counted since. Once there are some, the trajectory is
the latest thousand of what was there and what has been added. -/
structure SessionState.Updates (s s' : SessionState) : Prop where
  sessionId : s'.sessionId = s.sessionId
  agentId : s'.agentId = s.agentId
  principalId : s'.principalId = s.principalId
  createdAt : s'.createdAt = s.createdAt
  trajectory : ∃ added : List TrajectoryEvent,
    s'.actionsCount = s.actionsCount + added.length ∧
    (added = [] → s'.trajectory = s.trajectory) ∧
    (added ≠ [] → s'.trajectory = (s.trajectory ++ added).rtake 1000)

namespace SessionState

variable {key : String} {s s' s'' : SessionState}

theorem settled_new (key : String) (agentId : Uuid) (principalId : Option Uuid) (now : Instant) :
    (SessionState.new key agentId principalId now).Settled key :=
  ⟨rfl, (Nat.zero_min 1000).symm, rfl, rfl⟩

theorem recordAction_trajectory (event : TrajectoryEvent) (now : Instant) (s : SessionState) :
    (s.recordAction event now).trajectory = (s.trajectory ++ [event]).rtake 1000 := by
  have hstanding := congrArg Standing.trajectory (standing_recordAction event now s)
  rwa [Standing.trajectory_enter] at hstanding

theorem Settled.step (h : s.Settled key) (step : s.Step s') : s'.Settled key := by
  cases step with
  | marked killed => exact ⟨h.sessionId, h.trajectory, h.trustLevel, h.tokensUsed⟩
  | acted event now =>
      refine ⟨h.sessionId, ?_, h.trustLevel, h.tokensUsed⟩
      have hlength := h.trajectory
      have hcount : (s.recordAction event now).actionsCount = s.actionsCount + 1 := rfl
      rw [recordAction_trajectory, hcount, List.rtake, List.length_drop, List.length_append,
        List.length_singleton]
      omega
  | spent amount => exact ⟨h.sessionId, h.trajectory, h.trustLevel, h.tokensUsed⟩

/-- Nothing is added by an update that leaves the trajectory and the count as they are. -/
theorem Updates.of_eq (sessionId : s'.sessionId = s.sessionId) (agentId : s'.agentId = s.agentId)
    (principalId : s'.principalId = s.principalId) (createdAt : s'.createdAt = s.createdAt)
    (trajectory : s'.trajectory = s.trajectory) (actionsCount : s'.actionsCount = s.actionsCount) :
    s.Updates s' :=
  ⟨sessionId, agentId, principalId, createdAt, [], actionsCount, fun _ => trajectory,
    fun hadded => absurd rfl hadded⟩

theorem Updates.refl (s : SessionState) : s.Updates s :=
  .of_eq rfl rfl rfl rfl rfl rfl

theorem Updates.trans (h : s.Updates s') (h' : s'.Updates s'') : s.Updates s'' := by
  obtain ⟨added, hcount, hsame, hheld⟩ := h.trajectory
  obtain ⟨added', hcount', hsame', hheld'⟩ := h'.trajectory
  refine ⟨h'.sessionId.trans h.sessionId, h'.agentId.trans h.agentId,
    h'.principalId.trans h.principalId, h'.createdAt.trans h.createdAt, added ++ added', ?_, ?_, ?_⟩
  · rw [hcount', hcount, List.length_append, Nat.add_assoc]
  · intro hnone
    obtain ⟨hadded, hadded'⟩ := List.append_eq_nil_iff.mp hnone
    rw [hsame' hadded', hsame hadded]
  · intro hsome
    by_cases hadded' : added' = []
    · rw [hadded', List.append_nil] at hsome
      rw [hsame' hadded', hheld hsome, hadded', List.append_nil]
    · rw [hheld' hadded']
      by_cases hadded : added = []
      · rw [hsame hadded, hadded, List.nil_append]
      · rw [hheld hadded, rtake_rtake_append, List.append_assoc]

theorem Step.updates (step : s.Step s') : s.Updates s' := by
  cases step with
  | marked killed => exact .of_eq rfl rfl rfl rfl rfl rfl
  | acted event now =>
      refine ⟨rfl, rfl, rfl, rfl, [event], rfl, fun hnone => ?_, fun _ => ?_⟩
      · exact absurd hnone (List.cons_ne_nil _ _)
      · exact recordAction_trajectory event now s
  | spent amount => exact .of_eq rfl rfl rfl rfl rfl rfl

end SessionState

/-! ## The store -/

namespace SessionStore

variable {store store' : SessionStore}

theorem slot_modifyAt {f : SessionState → SessionState} (h : ∀ s : SessionState, s.Step (f s))
    (store : SessionStore) (target key : String) :
    SlotStep key (store.sessions.lookup key)
      ((modifyAt target f store.sessions).lookup key) := by
  by_cases hkey : key = target
  · rw [hkey, lookup_modifyAt_self]
    cases store.sessions.lookup target with
    | none => exact .kept none
    | some s => exact .stepped (h s)
  · rw [lookup_modifyAt_of_ne hkey]
    exact .kept _

theorem slot_mapValues {f : SessionState → SessionState} (h : ∀ s : SessionState, s.Step (f s))
    (store : SessionStore) (key : String) :
    SlotStep key (store.sessions.lookup key) ((mapValues f store.sessions).lookup key) := by
  rw [lookup_mapValues]
  cases store.sessions.lookup key with
  | none => exact .kept none
  | some s => exact .stepped (h s)

/-- The flag of the sessions of an agent is set, and the others keep theirs. -/
theorem step_mark (agentId : Uuid) (killed : Bool) (s : SessionState) :
    s.Step (if s.agentId = agentId then { s with killed := killed } else s) := by
  split
  · exact .marked killed
  · exact .marked s.killed

theorem Operation.slot (h : store.Operation store') (key : String) :
    SlotStep key (store.sessions.lookup key) (store'.sessions.lookup key) := by
  cases h with
  | killAgent agentId => exact slot_mapValues (step_mark agentId true) store key
  | restoreAgent agentId => exact slot_mapValues (step_mark agentId false) store key
  | getOrCreateSession sessionId agentId principalId now =>
      rw [SessionStore.getOrCreateSession]
      split
      · exact .kept _
      · rename_i hmissing
        by_cases hkey : key = sessionId
        · rw [hkey, hmissing, AList.lookup_insert]
          exact .opened agentId principalId now
        · rw [AList.lookup_insert_ne hkey]
          exact .kept _
  | recordAction sessionId event now =>
      exact slot_modifyAt (fun _ => .acted event now) store sessionId key
  | recordSpend sessionId amount => exact slot_modifyAt (fun _ => .spent amount) store sessionId key
  | killSession sessionId => exact slot_modifyAt (fun _ => .marked true) store sessionId key
  | checkRateLimit limitKey maxPerMinute now =>
      have hkept :
          (store.checkRateLimit limitKey maxPerMinute now).2.sessions = store.sessions := by
        unfold SessionStore.checkRateLimit
        grind
      rw [hkept]
      exact .kept _

/-- Every session of the store is settled under its key. -/
def Settled (store : SessionStore) : Prop :=
  ∀ key s, store.sessions.lookup key = some s → s.Settled key

/-- No session is lost, and each has become a later state of itself. -/
def Evolves (store store' : SessionStore) : Prop :=
  ∀ key s, store.sessions.lookup key = some s →
    ∃ s', store'.sessions.lookup key = some s' ∧ s.Updates s'

theorem settled_new : SessionStore.new.Settled := nofun

theorem Settled.operation (h : store.Settled) (operation : store.Operation store') :
    store'.Settled := by
  intro key s' hfound
  have hslot := operation.slot key
  rw [hfound] at hslot
  generalize hold : store.sessions.lookup key = slot at hslot
  cases hslot with
  | kept => exact h key s' hold
  | opened agentId principalId now => exact SessionState.settled_new key agentId principalId now
  | stepped step => exact (h key _ hold).step step

theorem Evolves.refl (store : SessionStore) : store.Evolves store :=
  fun _ s hfound => ⟨s, hfound, .refl s⟩

theorem Evolves.trans {store'' : SessionStore} (h : store.Evolves store')
    (h' : store'.Evolves store'') : store.Evolves store'' := by
  intro key s hfound
  obtain ⟨s', hfound', hupdates⟩ := h key s hfound
  obtain ⟨s'', hfound'', hupdates'⟩ := h' key s' hfound'
  exact ⟨s'', hfound'', hupdates.trans hupdates'⟩

theorem Operation.evolves (operation : store.Operation store') : store.Evolves store' := by
  intro key s hfound
  have hslot := operation.slot key
  rw [hfound] at hslot
  generalize hnew : store'.sessions.lookup key = slot at hslot
  cases hslot with
  | kept => exact ⟨s, rfl, .refl s⟩
  | stepped step => exact ⟨_, rfl, step.updates⟩

end SessionStore

/-! ## Runs -/

section

variable {p : Platform} {idp : IdpConfig} {isAlphanumeric : Char → Bool}

theorem Site.settled_step {site : Site} (h : site.world.app.sessionStore.Settled)
    (input : SiteInput) :
    (site.step p idp isAlphanumeric input).world.app.sessionStore.Settled := by
  obtain ⟨-, hnew⟩ | hoperations := site.step_operates p idp isAlphanumeric input
  · rw [hnew]
    exact SessionStore.settled_new
  · exact keeps_of_steps (fun _ _ operation h => h.operation operation) hoperations h

/-- Every session of every reachable site is settled. -/
theorem site_sessions_settled (p : Platform) (idp : IdpConfig) (isAlphanumeric : Char → Bool)
    (inputs : List SiteInput) :
    (initialSite.run p idp isAlphanumeric inputs).world.app.sessionStore.Settled :=
  List.foldlRecOn inputs (Site.step p idp isAlphanumeric)
    (motive := fun site => site.world.app.sessionStore.Settled) SessionStore.settled_new
    fun _ h input _ => Site.settled_step h input

/-- Until the next restart no session is lost, changes hands or forgets what it has counted. -/
theorem site_sessions_evolve {p : Platform} {idp : IdpConfig} {isAlphanumeric : Char → Bool}
    {site : Site} {inputs : List SiteInput}
    (running : ∀ input ∈ inputs, input.event ≠ .server .restart) :
    site.world.app.sessionStore.Evolves
      (site.run p idp isAlphanumeric inputs).world.app.sessionStore := by
  induction inputs generalizing site with
  | nil => exact .refl _
  | cons input inputs ih =>
      refine SessionStore.Evolves.trans ?_ (ih fun next hnext => running next (by simp [hnext]))
      obtain ⟨hrestart, -⟩ | hoperations := site.step_operates p idp isAlphanumeric input
      · exact absurd hrestart (running input (by simp))
      · exact relates_of_steps SessionStore.Evolves.refl (fun _ _ _ => SessionStore.Evolves.trans)
          (fun _ _ operation => operation.evolves) hoperations

/-- The agent asks for access in its default session. -/
def visit (now : Instant) (firstId : Nat) : SiteInput :=
  let access : AccessRequest := ⟨⟨300⟩, "read", "db", ["read"], none, none⟩
  ⟨.server (.call (.requestAccess (some ⟨300⟩) access)), now, .steady now firstId⟩

/-- An agent is enrolled and visits the site. -/
def visits : List SiteInput :=
  (enrolment.map fun input => ⟨.server input.event, input.arrival, input.tape⟩) ++ [visit 0 500]

/-- The agent visits the site again, spends something there, and its session is killed. -/
def laterVisits : List SiteInput :=
  let sessionId := defaultSessionId ⟨300⟩
  [visit 70 600,
    ⟨.server (.call (.recordSpend ⟨300⟩ (.finite 12) (some sessionId))), 80, .steady 80 700⟩,
    ⟨.server (.call (.killSession sessionId)), 90, .steady 90 800⟩,
    visit 100 900]

/-- A session that has counted an action counts one more before it is killed. -/
theorem site_sessions_evolve_visits :
    let site := initialSite.run delegationPlatform ⟨false, []⟩ Char.isAlphanum visits
    let later := site.run delegationPlatform ⟨false, []⟩ Char.isAlphanum laterVisits
    let counted (store : SessionStore) :=
      (store.getSession (defaultSessionId ⟨300⟩)).map fun session => session.actionsCount
    counted site.world.app.sessionStore = some 1 ∧ counted later.world.app.sessionStore = some 2 ∧
      site.world.app.sessionStore.Evolves later.world.app.sessionStore := by
  refine ⟨by decide +kernel, by decide +kernel, site_sessions_evolve ?_⟩
  intro input hinput
  simp only [laterVisits, visit, List.mem_cons, List.not_mem_nil, or_false] at hinput
  rcases hinput with rfl | rfl | rfl | rfl <;> exact nofun

/-! ## Trust levels -/

/-- The rule without its trust level. -/
def Rule.withoutTrust (rule : Rule) : Rule := { rule with minTrustLevel := none }

/-- A trust level that a session of full trust passes. -/
def Rule.AsksNoTrust (rule : Rule) : Prop :=
  ∀ minTrust ∈ rule.minTrustLevel, F64.ge 1 minTrust = true

def YamlEngine.withoutTrust (engine : YamlEngine) : YamlEngine :=
  ⟨engine.rules.map Rule.withoutTrust⟩

variable {store : SessionStore} {rule : Rule} {now : Instant} {ctx : PolicyContext}

theorem Rule.checkTemporalConditions_withoutTrust (settled : store.Settled)
    (asks : rule.AsksNoTrust) : rule.withoutTrust.checkTemporalConditions store ctx =
      rule.checkTemporalConditions store ctx := by
  rw [checkTemporalConditions, checkTemporalConditions]
  cases hsession : ctx.sessionId.bind store.getSession with
  | none => rfl
  | some session =>
      obtain ⟨key, -, hfound⟩ := Option.bind_eq_some_iff.mp hsession
      have htrust : (rule.minTrustLevel.bind fun minTrust =>
          if session.isAllowedByTrust minTrust then none
          else some ("Trust level too low (" ++ session.trustLevel.toFixed2 ++ " < " ++
            minTrust.toFixed2 ++ ") — session may have been idle")) = none := by
        rw [Option.bind_eq_none_iff]
        intro minTrust hasked
        rw [if_pos]
        rw [SessionState.isAllowedByTrust, (settled key session hfound).trustLevel]
        exact asks minTrust hasked
      dsimp only
      rw [htrust]
      rfl

theorem YamlEngine.evaluate_withoutTrust {engine : YamlEngine} (settled : store.Settled)
    (asks : ∀ rule ∈ engine.rules, rule.AsksNoTrust) :
    engine.withoutTrust.evaluate store now ctx = engine.evaluate store now ctx := by
  have hfirst : engine.withoutTrust.firstMatch ctx =
      (engine.firstMatch ctx).map Rule.withoutTrust := by
    rw [firstMatch, firstMatch, withoutTrust, List.find?_map]
    rfl
  rw [evaluate, evaluate, hfirst]
  cases hmatch : engine.firstMatch ctx with
  | none => rfl
  | some rule =>
      have hasks := asks rule (List.mem_of_find?_eq_some hmatch)
      dsimp only [Option.map_some]
      rw [evaluateRule, evaluateRule, Rule.checkTemporalConditions_withoutTrust settled hasks]
      rfl

/-- On every reachable site, trust levels that a fresh session passes change no evaluation. -/
theorem site_trust_inert {p : Platform} {idp : IdpConfig} {isAlphanumeric : Char → Bool}
    {inputs : List SiteInput} {engine : YamlEngine} {now : Instant} {ctx : PolicyContext}
    (asks : ∀ rule ∈ engine.rules, rule.AsksNoTrust) :
    engine.withoutTrust.evaluate
        (initialSite.run p idp isAlphanumeric inputs).world.app.sessionStore now ctx =
      engine.evaluate
        (initialSite.run p idp isAlphanumeric inputs).world.app.sessionStore now ctx :=
  YamlEngine.evaluate_withoutTrust (site_sessions_settled p idp isAlphanumeric inputs) asks

/-- A policy whose only rule asks for half of the full trust. -/
def halfTrust : YamlEngine :=
  ⟨[{ Rule.plain "allow" "test" with minTrustLevel := some (.finite (1 / 2)) }]⟩

theorem halfTrust_asks : ∀ rule ∈ halfTrust.rules, rule.AsksNoTrust := by
  intro rule hrule minTrust hasked
  rw [List.mem_singleton.mp hrule] at hasked
  cases hasked
  exact decide_eq_true (by norm_num : (1 / 2 : ℚ) ≤ 1)

/-- The next time that the agent asks. -/
def returningContext : PolicyContext where
  agent := ⟨⟨300⟩, "bot", .delegated, none, none, some ⟨200⟩, .active, none, 0, 0⟩
  principal := none
  action := "read"
  resource := "db"
  requestedScopes := ["read"]
  sessionId := some (defaultSessionId ⟨300⟩)
  trajectory := []

theorem site_trust_inert_half :
    let store := (initialSite.run delegationPlatform ⟨false, []⟩ Char.isAlphanum
      visits).world.app.sessionStore
    (returningContext.sessionId.bind store.getSession).isSome = true ∧
      halfTrust.withoutTrust.evaluate store 0 returningContext =
        halfTrust.evaluate store 0 returningContext :=
  ⟨by decide +kernel, site_trust_inert halfTrust_asks⟩

end

end Patroclus
