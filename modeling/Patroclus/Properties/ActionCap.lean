import Patroclus.Api.Flight
import Patroclus.Api.Standing
import Patroclus.Foundation.Run

/-!
# The action cap of a session

A request is compared with the cap of its rule when the policy is evaluated, and counted in
its session when its decision has been carried out. A request that has been allowed and is
not counted yet holds one of the places that are left. The cap holds if no request is
evaluated against a count that leaves such places out.
-/

namespace Patroclus

open Foundation

/-- The rule is the only one that covers the request of a registered agent. -/
def Rule.IsOnlyFor (rule : Rule) (app : AppState) (req : AccessRequest) : Prop :=
  ∃ row, app.db.agents.find? (·.id == req.agentId) = some row ∧
    rule.Covers row.principalType req.action req.resource req.requestedScopes ∧
    ∃ before after, app.policyEngine.rules = before ++ rule :: after ∧
      ∀ other ∈ before ++ after,
        ¬ other.Covers row.principalType req.action req.resource req.requestedScopes

theorem Rule.IsOnlyFor.comesFirstFor {rule : Rule} {app : AppState} {req : AccessRequest}
    (h : rule.IsOnlyFor app req) : rule.ComesFirstFor app req := by
  obtain ⟨row, hrow, hcovers, before, after, hrules, hothers⟩ := h
  refine ⟨row, hrow, hcovers, before, after, hrules, ?_⟩
  exact fun earlier hearlier => hothers earlier (List.mem_append_left after hearlier)

namespace Flight

/-- What a request holds of the actions of its session. -/
def place : Flight → Pool.Place
  | .evaluated _ eval | .minted _ eval _ _ _ => if eval.decision = .allow then .promised else .none
  | .enacted _ _ response => if response.decision = "allow" then .promised else .none
  | .entered _ _ response => if response.decision = "allow" then .counted else .none
  | .answered (.ok response) => if response.decision = "allow" then .counted else .none
  | _ => .none

/-- The request has been answered with the decision to allow it. -/
def Allowed : Flight → Prop
  | .answered (.ok response) => response.decision = "allow"
  | _ => False

/-- The next step of the request is its evaluation. -/
def Evaluates : Flight → Prop
  | .alive _ => True
  | _ => False

instance : DecidablePred Allowed := fun flight =>
  match flight with
  | .answered (.ok _) => inferInstanceAs (Decidable (_ = _))
  | .answered (.error _) | .arrived | .found .. | .admitted _ | .alive _ | .evaluated .. |
    .minted .. | .enacted .. | .entered .. => isFalse id

instance : DecidablePred Evaluates := fun flight =>
  match flight with
  | .alive _ => isTrue trivial
  | .answered _ | .arrived | .found .. | .admitted _ | .evaluated .. | .minted .. | .enacted .. |
    .entered .. => isFalse id

theorem Allowed.place {flight : Flight} (h : flight.Allowed) : flight.place = .counted := by
  cases flight with
  | answered outcome =>
      cases outcome with
      | ok response => exact if_pos h
      | error e => exact absurd h id
  | _ => exact absurd h id

/-- The agent that a request has been found to be of. -/
def agent : Flight → Option Agent
  | .found agent _ _ => some agent
  | .admitted caller | .alive caller | .evaluated caller _ | .minted caller _ _ _ _ |
    .enacted caller _ _ | .entered caller _ _ => some caller.agent
  | .arrived | .answered _ => none

/-- The session that a request has been given. -/
def sessionId : Flight → Option String
  | .admitted caller | .alive caller | .evaluated caller _ | .minted caller _ _ _ _ |
    .enacted caller _ _ | .entered caller _ _ => some caller.sessionId
  | .arrived | .found .. | .answered _ => none

end Flight

/-- What is known of a request in flight: its agent is the registered one, and the session
that it has been given is the one that it names, and is open. -/
structure Flight.Known (p : Platform) (req : AccessRequest) (app : AppState) (flight : Flight) :
    Prop where
  agent : ∀ agent, flight.agent = some agent → ∃ row now now',
    app.db.agents.find? (·.id == req.agentId) = some row ∧ agent = agentOfRow p row now now'
  session : ∀ sessionId, flight.sessionId = some sessionId → sessionId = req.sessionKey ∧
    (app.sessionStore.sessions.lookup req.sessionKey).isSome = true

section

variable {p : Platform} {req : AccessRequest} {app app' : AppState} {flight flight' : Flight}
  {store : SessionStore} {quota promised : Nat}

/-! ## What is known of a request -/

/-- No step closes a session. -/
theorem Flight.Moves.opened (moves : Moves p req app flight flight' store) {key : String}
    (opened : (app.sessionStore.sessions.lookup key).isSome = true) :
    (store.sessions.lookup key).isSome = true := by
  cases moves with
  | @opens agent principal chain sessionId now named =>
      rw [SessionStore.getOrCreateSession]
      cases hlookup : app.sessionStore.sessions.lookup sessionId with
      | some session => exact opened
      | none =>
          by_cases hkey : key = sessionId
          · rw [hkey] at opened
            rw [hlookup] at opened
            cases opened
          · rw [AList.lookup_insert_ne hkey]
            exact opened
  | evaluates =>
      rw [YamlEngine.sessions_evaluate]
      exact opened
  | @enters caller eval response event now =>
      by_cases hkey : key = caller.sessionId
      · rw [SessionStore.recordAction, hkey, lookup_modifyAt_self, Option.isSome_map, ← hkey]
        exact opened
      · rw [SessionStore.recordAction, lookup_modifyAt_of_ne hkey]
        exact opened
  | _ => exact opened

/-- What is known stays known while the agents are the same and the sessions stay open. -/
theorem Flight.Known.mono (known : flight.Known p req app)
    (agents : app'.db.agents = app.db.agents)
    (opened : (app.sessionStore.sessions.lookup req.sessionKey).isSome = true →
      (app'.sessionStore.sessions.lookup req.sessionKey).isSome = true) :
    flight.Known p req app' where
  agent agent hagent := by
    rw [agents]
    exact known.agent agent hagent
  session sessionId hsession :=
    ⟨(known.session sessionId hsession).1, opened (known.session sessionId hsession).2⟩

theorem Flight.Known.arrived : Flight.arrived.Known p req app := by
  constructor
  · intro agent hagent
    cases hagent
  · intro sessionId hsession
    cases hsession

theorem Flight.Known.answered {outcome : Except Failure AccessResponse} :
    (Flight.answered outcome).Known p req app := by
  constructor
  · intro agent hagent
    cases hagent
  · intro sessionId hsession
    cases hsession

/-- A step of a request adds to what is known of it. -/
theorem Flight.Moves.known (moves : Moves p req app flight flight' store)
    (known : flight.Known p req app) (agents : app'.db.agents = app.db.agents)
    (left : app'.sessionStore = store) : flight'.Known p req app' := by
  have hkept := known.mono agents fun hopen => by
    rw [left]
    exact moves.opened hopen
  cases moves with
  | identifies registered read =>
      constructor
      · intro agent hagent
        cases hagent
        rw [agents]
        exact ⟨_, _, _, registered, read⟩
      · intro sessionId hsession
        cases hsession
  | @opens agent principal chain sessionId now named =>
      refine ⟨hkept.agent, ?_⟩
      intro sessionId' hsession
      cases hsession
      obtain ⟨row, now₁, now₂, hrow, hagent⟩ := known.agent agent rfl
      have hid : agent.id = req.agentId := by
        have hfound := List.find?_some hrow
        rw [hagent]
        exact beq_iff_eq.mp hfound
      have hkey : sessionId = req.sessionKey := by
        rw [named, hid]
        rfl
      refine ⟨hkey, ?_⟩
      rw [left, ← hkey, SessionStore.lookup_getOrCreateSession, Option.isSome_some]
  | refuses | answers | rests | fails => exact .answered
  | _ => exact ⟨hkept.agent, hkept.session⟩

/-! ## What a request draws -/

/-- An evaluation that allows a request has found its session below the cap. -/
theorem Flight.Known.below_of_allow {caller : Caller} {now : Instant}
    (known : (Flight.alive caller).Known p req app)
    (capped : ∀ rule : Rule, rule.ComesFirstFor app req → rule.maxActionsInSession = some quota)
    (allowed : (app.policyEngine.evaluate app.sessionStore now
      (caller.context req)).1.decision = .allow) :
    (app.sessionStore.standing req.sessionKey).actionsCount < quota := by
  obtain ⟨rule, hmatch, htemporal, -⟩ := YamlEngine.evaluate_of_ne_deny (by rw [allowed]; simp)
  obtain ⟨row, now₁, now₂, hrow, hagent⟩ := known.agent caller.agent rfl
  obtain ⟨hkey, hopen⟩ := known.session caller.sessionId rfl
  obtain ⟨session, hlookup⟩ := Option.isSome_iff_exists.mp hopen
  have htype : (caller.context req).agent.principalType = row.principalType := by
    rw [Caller.context, hagent]
    rfl
  rw [YamlEngine.firstMatch_eq_some_iff, htype] at hmatch
  have hsession : (caller.context req).sessionId = some req.sessionKey := congrArg some hkey
  have hallows := (Rule.checkTemporalConditions_eq_none hsession hlookup).mp htemporal
  rw [SessionStore.standing_of_lookup hlookup]
  exact hallows.actions quota (capped rule ⟨row, hrow, hmatch⟩)

/-- A step of a request draws on the actions of its session as on a quota, if an evaluation
below the cap leaves room for the requests that are not counted yet. -/
theorem Flight.Moves.draws (moves : Moves p req app flight flight' store)
    (known : flight.Known p req app)
    (capped : ∀ rule : Rule, rule.ComesFirstFor app req → rule.maxActionsInSession = some quota)
    (room : flight.Evaluates → (app.sessionStore.standing req.sessionKey).actionsCount < quota →
        (app.sessionStore.standing req.sessionKey).actionsCount + promised < quota) :
    Pool.Draws quota promised (app.sessionStore.standing req.sessionKey).actionsCount
      (store.standing req.sessionKey).actionsCount flight.place flight'.place := by
  cases moves with
  | identifies registered read => exact .keeps le_rfl
  | opens named =>
      rw [SessionStore.standing_getOrCreateSession]
      exact .keeps le_rfl
  | refuses denies =>
      have hplace : place (.answered (.ok _)) = .none := if_neg (by rw [denies]; decide)
      rw [hplace]
      exact .keeps le_rfl
  | admits => exact .keeps le_rfl
  | @evaluates caller now =>
      rw [SessionStore.standing_congr YamlEngine.sessions_evaluate]
      by_cases hallow : (app.policyEngine.evaluate app.sessionStore now
        (caller.context req)).1.decision = .allow
      · have hplace : place (.evaluated caller _) = .promised := if_pos hallow
        rw [hplace]
        exact .promises le_rfl (room trivial (known.below_of_allow capped hallow))
      · have hplace : place (.evaluated caller _) = .none := if_neg hallow
        rw [hplace]
        exact .keeps le_rfl
  | signs allowed => exact .keeps le_rfl
  | @withholds caller eval response refused word =>
      have hbefore : place (.evaluated caller eval) = .none := if_neg refused
      have hafter : place (.enacted caller eval response) = .none :=
        if_neg fun h => refused (Decision.name_eq_allow.mp (word.symm.trans h))
      rw [hbefore, hafter]
      exact .keeps le_rfl
  | @records caller eval jwt jti expiresAt response word =>
      have hsame : place (.enacted caller eval response) =
          place (.minted caller eval jwt jti expiresAt) := by
        simp only [place, word, Decision.name_eq_allow]
      rw [hsame]
      exact .keeps le_rfl
  | @enters caller eval response event now =>
      obtain ⟨hkey, hopen⟩ := known.session caller.sessionId rfl
      have hcount : ((app.sessionStore.recordAction caller.sessionId event now).standing
          req.sessionKey).actionsCount =
            (app.sessionStore.standing req.sessionKey).actionsCount + 1 := by
        rw [SessionStore.recordAction, hkey,
          SessionStore.standing_modifyAt fun session => session.standing_recordAction event now,
          if_pos hopen, Function.update_self]
        rfl
      rw [hcount]
      by_cases hallow : response.decision = "allow"
      · have hbefore : place (.enacted caller eval response) = .promised := if_pos hallow
        have hafter : place (.entered caller eval response) = .counted := if_pos hallow
        rw [hbefore, hafter]
        exact .counts (Nat.lt_succ_self _)
      · have hbefore : place (.enacted caller eval response) = .none := if_neg hallow
        have hafter : place (.entered caller eval response) = .none := if_neg hallow
        rw [hbefore, hafter]
        exact .keeps (Nat.le_succ _)
  | answers => exact .keeps le_rfl
  | rests => exact .keeps le_rfl
  | fails => exact .drops le_rfl

end

/-! ## Many requests -/

/-- Access requests in flight over one server. -/
abbrev Crowd (ι : Type) : Type := Pool Shared fun _ : ι => Underway Flight

namespace Crowd

variable {ι : Type} (p : Platform) (calls : ι → Option Uuid × AccessRequest) (key : String)
  (quota : Nat) (crowd : Crowd ι)

def advance (i : ι) : Shared → Underway Flight → Shared × Underway Flight :=
  Underway.advance (Flight.stages p (calls i).1 (calls i).2)

/-- How many actions the session has counted. -/
def actionsCount (shared : Shared) : Nat := (shared.app.sessionStore.standing key).actionsCount

def place (_ : ι) (task : Underway Flight) : Pool.Place := task.stage.place

/-- What holds of the requests of a crowd at any time, over the agents and the policy with
which they began. -/
structure Settled (app : AppState) : Prop where
  agents : crowd.shared.app.db.agents = app.db.agents
  engine : crowd.shared.app.policyEngine = app.policyEngine
  known : ∀ i, (crowd.tasks i).stage.Known p (calls i).2 crowd.shared.app

section

variable [Fintype ι]

/-- How many requests have been allowed. -/
def allowed : Nat := (Finset.univ.filter fun i => (crowd.tasks i).stage.Allowed).card

/-- A request that is evaluated while its session is below the cap finds it below with the
requests that have been allowed and are not counted yet as well. -/
def Fresh (i : ι) : Prop :=
  (crowd.tasks i).stage.Evaluates → actionsCount key crowd.shared < quota →
    actionsCount key crowd.shared + crowd.holders place .promised < quota

instance (i : ι) : Decidable (crowd.Fresh key quota i) := inferInstanceAs (Decidable (_ → _ → _))

end

variable [DecidableEq ι] {p calls key quota crowd} {app : AppState}

variable (p calls crowd) in
/-- No request changes the agents or the policy. -/
theorem fixed_step (i : ι) :
    (crowd.step (advance p calls) i).shared.app.db.agents = crowd.shared.app.db.agents ∧
      (crowd.step (advance p calls) i).shared.app.policyEngine =
        crowd.shared.app.policyEngine := by
  have hkeeps : (Flight.next p (calls i).1 (calls i).2 (crowd.tasks i).stage).Keeps
      fun s => (s.app.db.agents, s.app.policyEngine) := by
    apply Flight.keeps_next
    · exact fun _ => rfl
    · exact fun _ _ => rfl
    · exact fun _ _ => rfl
    · exact fun _ _ _ => rfl
    · exact fun _ _ _ => rfl
    · exact fun _ _ _ _ _ => rfl
    · exact fun _ _ _ => rfl
    · exact fun _ _ _ _ _ => rfl
  have happ : (crowd.step (advance p calls) i).shared.app = _ :=
    Underway.app_advance (Flight.stages p (calls i).1 (calls i).2) crowd.shared (crowd.tasks i)
  rw [happ]
  exact Prod.mk.inj (hkeeps ((crowd.tasks i).serving crowd.shared))

variable (p calls crowd) in
theorem moves_step (i : ι) : Flight.Moves p (calls i).2 crowd.shared.app (crowd.tasks i).stage
    ((crowd.step (advance p calls) i).tasks i).stage
    (crowd.step (advance p calls) i).shared.app.sessionStore := by
  rw [Pool.step_tasks_self]
  exact Flight.advance_moves p (calls i).1 (calls i).2 crowd.shared (crowd.tasks i)

theorem Settled.step (settled : Settled p calls crowd app) (i : ι) :
    Settled p calls (crowd.step (advance p calls) i) app := by
  obtain ⟨hagents, hengine⟩ := fixed_step p calls crowd i
  have hmoves := moves_step p calls crowd i
  refine ⟨hagents.trans settled.agents, hengine.trans settled.engine, fun j => ?_⟩
  by_cases hsame : j = i
  · subst hsame
    exact hmoves.known (settled.known j) hagents rfl
  · rw [Pool.step_tasks_of_ne hsame]
    exact (settled.known j).mono hagents hmoves.opened

omit [DecidableEq ι] in
/-- The rule that comes first for a request has the cap, whatever the requests have done. -/
theorem Settled.capped (settled : Settled p calls crowd app) {i : ι}
    (capped : ∃ rule : Rule, rule.IsOnlyFor app (calls i).2 ∧
      rule.maxActionsInSession = some quota) {rule : Rule}
    (first : rule.ComesFirstFor crowd.shared.app (calls i).2) :
    rule.maxActionsInSession = some quota := by
  obtain ⟨only, honly, hcap⟩ := capped
  rw [Rule.ComesFirstFor, settled.agents, settled.engine] at first
  have hsame : rule = only := Rule.ComesFirstFor.unique first honly.comesFirstFor
  rw [hsame]
  exact hcap

section

variable [Fintype ι] (sameSession : ∀ i, (calls i).2.sessionKey = key)

include sameSession

/-- A fresh step stays within the cap. -/
theorem withinQuota_step (settled : Settled p calls crowd app)
    (capped : ∀ i, ∃ rule : Rule, rule.IsOnlyFor app (calls i).2 ∧
      rule.maxActionsInSession = some quota)
    (within : crowd.WithinQuota place quota (actionsCount key)) {i : ι}
    (fresh : crowd.Fresh key quota i) :
    (crowd.step (advance p calls) i).WithinQuota place quota (actionsCount key) := by
  apply within.step
  have hdraws := (moves_step p calls crowd i).draws (settled.known i)
    (fun rule hfirst => settled.capped (capped i) hfirst)
    (by rw [sameSession i]; exact fresh)
  rw [sameSession i] at hdraws
  exact hdraws

/-- The cap of the session holds throughout a run in which every evaluation is fresh. -/
theorem allowed_le_of_fresh
    (capped : ∀ i, ∃ rule : Rule, rule.IsOnlyFor crowd.shared.app (calls i).2 ∧
      rule.maxActionsInSession = some quota)
    (start : ∀ i, (crowd.tasks i).stage = .arrived) {schedule : List ι}
    (fresh : Along (Pool.step (advance p calls)) (fun crowd i => Fresh key quota crowd i)
      crowd schedule) :
    allowed (crowd.run (advance p calls) schedule) ≤ quota := by
  have hsettled : Settled p calls crowd crowd.shared.app := by
    refine ⟨rfl, rfl, fun i => ?_⟩
    rw [start i]
    exact .arrived
  have hnobody (held : Pool.Place) (hheld : held ≠ .none) : crowd.holders place held = 0 := by
    rw [Pool.holders, Finset.card_eq_zero, Finset.filter_eq_empty_iff]
    intro i _ hplace
    rw [place, start i] at hplace
    exact hheld hplace.symm
  have hwithin : crowd.WithinQuota place quota (actionsCount key) := by
    constructor
    · rw [hnobody .counted (by decide)]
      exact Nat.zero_le _
    · rw [hnobody .promised (by decide), hnobody .counted (by decide)]
      exact Nat.zero_le _
  obtain ⟨-, hend⟩ := Along.invariant
    (I := fun later => Settled p calls later crowd.shared.app ∧
      later.WithinQuota place quota (actionsCount key))
    (fun later i h hfresh => ⟨h.1.step i, withinQuota_step sameSession h.1 capped h.2 hfresh⟩)
    ⟨hsettled, hwithin⟩ fresh
  have hcounted : allowed (crowd.run (advance p calls) schedule) ≤
      (crowd.run (advance p calls) schedule).holders place .counted :=
    Finset.card_le_card fun i hi =>
      Finset.mem_filter.mpr ⟨Finset.mem_univ i, (Finset.mem_filter.mp hi).2.place⟩
  have hquota := hend.within
  show allowed _ ≤ quota
  exact hcounted.trans ((Nat.le_add_left _ _).trans hquota)

end

end Crowd

/-- A rule that allows one action in a session. -/
def onceRule : Rule := { Rule.plain "allow" "test" with maxActionsInSession := some 1 }

theorem onceRule_isOnlyFor : onceRule.IsOnlyFor (ruledWorld [onceRule]).app readDatabase := by
  refine ⟨registeredAgent, rfl, ⟨.inl rfl, .inl rfl, .inl rfl, .inl rfl⟩, [], [], rfl, ?_⟩
  intro other hother
  cases hother

/-- Two requests for reading in one session. -/
def readingCrowd : Crowd Bool where
  shared := ⟨(ruledWorld [onceRule]).app, []⟩
  tasks second := ⟨.arrived, .steady opening (if second then 600 else 500), 0⟩

def readingCalls (_ : Bool) : Option Uuid × AccessRequest := (some ⟨300⟩, readDatabase)

/-- One request has its answer before the other arrives. -/
theorem Crowd.allowed_le_of_fresh_reading :
    Crowd.allowed (readingCrowd.run (Crowd.advance readPlatform readingCalls)
      (List.replicate 8 false ++ List.replicate 8 true)) ≤ 1 := by
  have hsession (i : Bool) : (readingCalls i).2.sessionKey = readDatabase.sessionKey := rfl
  exact allowed_le_of_fresh hsession (fun _ => ⟨onceRule, onceRule_isOnlyFor, rfl⟩)
    (fun _ => rfl) (by decide +kernel)

/-- The cap as a promise about every interleaving. -/
def ActionsCapped : Prop :=
  ∀ (ι : Type) [Fintype ι] [DecidableEq ι] (p : Platform)
    (calls : ι → Option Uuid × AccessRequest) (key : String) (quota : Nat) (crowd : Crowd ι)
    (schedule : List ι), (∀ i, (calls i).2.sessionKey = key) →
    (∀ i, ∃ rule : Rule, rule.IsOnlyFor crowd.shared.app (calls i).2 ∧
      rule.maxActionsInSession = some quota) →
    (∀ i, (crowd.tasks i).stage = .arrived) →
    Crowd.allowed (crowd.run (Crowd.advance p calls) schedule) ≤ quota

/-- Both requests are evaluated before one of them is counted. -/
theorem not_actionsCapped : ¬ ActionsCapped := by
  intro h
  have hcapped := h Bool readPlatform readingCalls readDatabase.sessionKey 1 readingCrowd
    (List.replicate 4 false ++ List.replicate 4 true ++ List.replicate 4 false ++
      List.replicate 4 true)
    (fun _ => rfl) (fun _ => ⟨onceRule, onceRule_isOnlyFor, rfl⟩) (fun _ => rfl)
  exact absurd hcapped (by decide +kernel)

end Patroclus
