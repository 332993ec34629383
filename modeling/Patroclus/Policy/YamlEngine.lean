import Patroclus.Policy.Pattern
import Patroclus.Session

/-!
# The YAML policy engine

A policy is a list of rules, and the first rule that matches a context decides
it. Matching looks at the request alone. A rule that matched may still refuse,
by a condition on the session or by its rate limit; no later rule is tried then.

The server always attaches its session store, so the engine evaluates against
one here. The clock reading is the one that the rate limit takes.
-/

namespace Patroclus

structure ConstraintDef where
  key : String
  value : Json
deriving DecidableEq, Repr

structure Rule where
  agentTypes : List String
  actions : List String
  resources : List String
  scopes : List String
  decision : String
  reason : String
  constraints : List ConstraintDef
  rateLimitPerMinute : Option Nat
  maxSpend : Option F64
  minTrustLevel : Option F64
  requirePriorAction : Option String
  maxActionsInSession : Option Nat
deriving DecidableEq, Repr

structure YamlEngine where
  rules : List Rule
deriving DecidableEq, Repr

namespace Rule

/-- The rule lists a pattern for this scope. -/
def admitsScope (rule : Rule) (scope : String) : Bool :=
  rule.scopes.any fun allowed => matchPattern allowed scope

def «matches» (rule : Rule) (ctx : PolicyContext) : Bool :=
  (rule.agentTypes.isEmpty || rule.agentTypes.contains ctx.agent.principalType.name) &&
  (rule.actions.isEmpty || rule.actions.contains ctx.action) &&
  (rule.resources.isEmpty ||
    rule.resources.any fun pattern => matchPattern pattern ctx.resource) &&
  (rule.scopes.isEmpty || ctx.requestedScopes.any rule.admitsScope)

/-- The reason for which the session refuses the rule, if it does. -/
def checkTemporalConditions (rule : Rule) (store : SessionStore) (ctx : PolicyContext) :
    Option String :=
  match ctx.sessionId.bind store.getSession with
  | none => none
  | some session =>
      (if session.killed then some "Session has been killed by emergency stop" else none)
      <|> (rule.maxActionsInSession.bind fun maxActions =>
        if session.actionsCount ≥ maxActions then
          some ("Max actions in session exceeded (" ++ toString session.actionsCount ++ " >= " ++
            toString maxActions ++ ")")
        else none)
      <|> (rule.maxSpend.bind fun maxSpend =>
        if session.cumulativeSpend.ge maxSpend then
          some ("Session spend cap exceeded ($ " ++ session.cumulativeSpend.toFixed2 ++ " >= $ " ++
            maxSpend.toFixed2 ++ ")")
        else none)
      <|> (rule.minTrustLevel.bind fun minTrust =>
        if session.isAllowedByTrust minTrust then none
        else
          some ("Trust level too low (" ++ session.trustLevel.toFixed2 ++ " < " ++
            minTrust.toFixed2 ++ ") — session may have been idle"))
      <|> (rule.requirePriorAction.bind fun requiredPrior =>
        if session.trajectory.any (·.action == requiredPrior) then none
        else
          some ("Required prior action '" ++ requiredPrior ++
            "' not found in session trajectory"))

/-- The key under which calls are counted. -/
def rateLimitKey (sessionId action resource : String) : String :=
  sessionId ++ ":" ++ action ++ ":" ++ resource

def checkRateLimit (rule : Rule) (store : SessionStore) (now : Instant) (ctx : PolicyContext) :
    Option String × SessionStore :=
  match rule.rateLimitPerMinute, ctx.sessionId with
  | some maxPerMinute, some sessionId =>
      match store.checkRateLimit (rateLimitKey sessionId ctx.action ctx.resource) maxPerMinute
          now with
      | (.ok _, store) => (none, store)
      | (.error e, store) => (some e.toString, store)
  | _, _ => (none, store)

/-- The word of a rule; any word the engine does not know denies. -/
def decisionOf (rule : Rule) : Decision :=
  match rule.decision with
  | "allow" => .allow
  | "deny" => .deny
  | "require_approval" => .requireApproval none rule.reason
  | _ => .deny

/-- The requested scopes that the rule's patterns admit, in the order requested;
a rule without patterns admits them all. -/
def approvedScopes (rule : Rule) (requested : List String) : List String :=
  if rule.scopes.isEmpty then requested else requested.filter rule.admitsScope

end Rule

namespace PolicyEvaluation

def deny (reason : String) : PolicyEvaluation := ⟨.deny, [], reason, []⟩

end PolicyEvaluation

namespace YamlEngine

def new : YamlEngine := ⟨[]⟩

/-- The rule that decides a context. -/
def firstMatch (engine : YamlEngine) (ctx : PolicyContext) : Option Rule :=
  engine.rules.find? fun rule => rule.matches ctx

/-- What a matching rule decides, and the store with the call counted. -/
def evaluateRule (rule : Rule) (store : SessionStore) (now : Instant) (ctx : PolicyContext) :
    PolicyEvaluation × SessionStore :=
  match rule.checkTemporalConditions store ctx with
  | some reason => (.deny reason, store)
  | none =>
      match rule.checkRateLimit store now ctx with
      | (some reason, store) => (.deny reason, store)
      | (none, store) =>
          ({ decision := rule.decisionOf
             approvedScopes := rule.approvedScopes ctx.requestedScopes
             reason := rule.reason
             constraints := rule.constraints.map fun c => ⟨c.key, c.value⟩ }, store)

def evaluate (engine : YamlEngine) (store : SessionStore) (now : Instant) (ctx : PolicyContext) :
    PolicyEvaluation × SessionStore :=
  match engine.firstMatch ctx with
  | some rule => evaluateRule rule store now ctx
  | none => (.deny "No matching policy found (default deny)", store)

end YamlEngine

/-! ## What a rule asks for

The conditions of a rule as statements about the request and the session, and
the rule that comes first. They say what the engine is for; the theorems below
connect its functions to them. -/

namespace Rule

variable {rule : Rule} {store : SessionStore} {now : Instant} {ctx : PolicyContext}

/-- The conditions of a rule on the request itself. -/
structure Covers (rule : Rule) (agentType : AgentType) (action resource : String)
    (scopes : List String) : Prop where
  agentType : rule.agentTypes = [] ∨ agentType.name ∈ rule.agentTypes
  action : rule.actions = [] ∨ action ∈ rule.actions
  resource : rule.resources = [] ∨ ∃ pattern ∈ rule.resources, matchPattern pattern resource = true
  scopes : rule.scopes = [] ∨ ∃ scope ∈ scopes, rule.admitsScope scope = true

instance (rule : Rule) (agentType : AgentType) (action resource : String) (scopes : List String) :
    Decidable (rule.Covers agentType action resource scopes) :=
  decidable_of_iff ((rule.agentTypes = [] ∨ agentType.name ∈ rule.agentTypes) ∧
      (rule.actions = [] ∨ action ∈ rule.actions) ∧
      (rule.resources = [] ∨ ∃ pattern ∈ rule.resources, matchPattern pattern resource = true) ∧
      (rule.scopes = [] ∨ ∃ scope ∈ scopes, rule.admitsScope scope = true))
    ⟨fun h => ⟨h.1, h.2.1, h.2.2.1, h.2.2.2⟩,
     fun h => ⟨h.agentType, h.action, h.resource, h.scopes⟩⟩

/-- The first rule of a list that covers a request. -/
def ComesFirst (rule : Rule) (rules : List Rule) (agentType : AgentType) (action resource : String)
    (scopes : List String) : Prop :=
  rule.Covers agentType action resource scopes ∧ ∃ before after, rules = before ++ rule :: after ∧
    ∀ earlier ∈ before, ¬ earlier.Covers agentType action resource scopes

theorem matches_iff : rule.matches ctx = true ↔
    rule.Covers ctx.agent.principalType ctx.action ctx.resource ctx.requestedScopes := by
  simp only [«matches», Bool.and_eq_true, Bool.or_eq_true, List.isEmpty_iff, List.contains_iff_mem,
    List.any_eq_true]
  constructor
  · rintro ⟨⟨⟨hagentType, haction⟩, hresource⟩, hscopes⟩
    exact ⟨hagentType, haction, hresource, hscopes⟩
  · rintro ⟨hagentType, haction, hresource, hscopes⟩
    exact ⟨⟨⟨hagentType, haction⟩, hresource⟩, hscopes⟩

/-- One rule at most comes first. -/
theorem ComesFirst.unique {rule' : Rule} {rules : List Rule} {type : AgentType}
    {action resource : String} {scopes : List String}
    (h : rule.ComesFirst rules type action resource scopes)
    (h' : rule'.ComesFirst rules type action resource scopes) : rule = rule' := by
  classical
  have hfind (rule : Rule) (h : rule.ComesFirst rules type action resource scopes) :
      rules.find? (fun earlier => decide (earlier.Covers type action resource scopes)) =
        some rule := by
    obtain ⟨hcovers, before, after, hrules, hearlier⟩ := h
    rw [List.find?_eq_some_iff_append]
    exact ⟨by simpa using hcovers, before, after, hrules, by simpa using hearlier⟩
  exact Option.some.inj ((hfind rule h).symm.trans (hfind rule' h'))

theorem ComesFirst.eq_of_singleton {only : Rule} {type : AgentType} {action resource : String}
    {scopes : List String} (h : rule.ComesFirst [only] type action resource scopes) :
    rule = only := by
  obtain ⟨-, before, after, hrules, -⟩ := h
  have hmem : rule ∈ [only] := by simp [hrules]
  exact List.mem_singleton.mp hmem

/-- The session conditions of a rule, as a statement about the session. -/
structure SessionAllows (rule : Rule) (session : SessionState) : Prop where
  alive : session.killed = false
  actions : ∀ maxActions, rule.maxActionsInSession = some maxActions →
    session.actionsCount < maxActions
  spend : ∀ maxSpend, rule.maxSpend = some maxSpend → session.spendTotal.ge maxSpend = false
  trust : ∀ minTrust, rule.minTrustLevel = some minTrust → session.trustLevel.ge minTrust = true
  prior : ∀ requiredPrior, rule.requirePriorAction = some requiredPrior →
    ∃ event ∈ session.trajectory, event.action = requiredPrior

/-- The rate limit of a rule, as a statement about the window of a key: it is new, it
is over, or it still has room. -/
def RateAllows (rule : Rule) (store : SessionStore) (now : Instant) (key : String) : Prop :=
  ∀ maxPerMinute, rule.rateLimitPerMinute = some maxPerMinute →
    ∀ state, store.rateLimits.lookup key = some state →
      now - state.windowStart > SessionStore.window ∨ state.count + 1 ≤ maxPerMinute

theorem checkTemporalConditions_eq_none {sessionId : String} {session : SessionState}
    (hsession : ctx.sessionId = some sessionId)
    (hlookup : store.sessions.lookup sessionId = some session) :
    rule.checkTemporalConditions store ctx = none ↔ rule.SessionAllows session := by
  have hget : ctx.sessionId.bind store.getSession = some session := by
    rw [hsession, Option.bind_some, SessionStore.getSession, hlookup]
  simp only [checkTemporalConditions, hget, Option.orElse_eq_orElse, Option.orElse_eq_or,
    Option.or_eq_none_iff, Option.bind_eq_none_iff]
  constructor
  · rintro ⟨hkilled, hactions, hspend, htrust, hprior⟩
    exact {
      alive := by simpa using hkilled
      actions := fun n hn => by simpa using hactions n hn
      spend := fun x hx => by
        have hcap := hspend x hx
        split at hcap
        · cases hcap
        · rename_i hge
          simpa [SessionState.cumulativeSpend] using hge
      trust := fun x hx => by
        have hlevel := htrust x hx
        split at hlevel
        · assumption
        · cases hlevel
      prior := fun a ha => by simpa using hprior a ha }
  · intro h
    exact ⟨by simp [h.alive], fun n hn => by simp [h.actions n hn],
      fun x hx => by simp [SessionState.cumulativeSpend, h.spend x hx],
      fun x hx => by simp [SessionState.isAllowedByTrust, h.trust x hx],
      fun a ha => by simpa using h.prior a ha⟩

theorem checkRateLimit_eq_none {sessionId : String} (hsession : ctx.sessionId = some sessionId) :
    (rule.checkRateLimit store now ctx).1 = none ↔
      rule.RateAllows store now (rateLimitKey sessionId ctx.action ctx.resource) := by
  unfold checkRateLimit RateAllows
  cases hlimit : rule.rateLimitPerMinute with
  | none => simp
  | some maxPerMinute =>
      cases hstate : store.rateLimits.lookup (rateLimitKey sessionId ctx.action ctx.resource) with
      | none => simp [SessionStore.checkRateLimit, hsession, hstate]
      | some state =>
          simp only [SessionStore.checkRateLimit, hsession, hstate]
          split_ifs <;> grind

/-- A context without a session, or with one that does not exist, passes. -/
theorem checkTemporalConditions_eq_none_iff :
    rule.checkTemporalConditions store ctx = none ↔ ∀ sessionId, ctx.sessionId = some sessionId →
      ∀ session, store.sessions.lookup sessionId = some session → rule.SessionAllows session := by
  cases hsession : ctx.sessionId with
  | none =>
      refine iff_of_true ?_ nofun
      rw [checkTemporalConditions, hsession]
      rfl
  | some sessionId =>
      cases hlookup : store.sessions.lookup sessionId with
      | none =>
          refine iff_of_true ?_ fun key hkey session hfound => ?_
          · rw [checkTemporalConditions, hsession, Option.bind_some, SessionStore.getSession,
              hlookup]
          · cases hkey
            rw [hlookup] at hfound
            cases hfound
      | some session =>
          rw [checkTemporalConditions_eq_none hsession hlookup]
          constructor
          · intro hallows key hkey session' hfound
            cases hkey
            rw [hlookup] at hfound
            cases hfound
            exact hallows
          · intro hallows
            exact hallows sessionId rfl session hlookup

/-- A context without a session is not counted. -/
theorem checkRateLimit_eq_none_iff : (rule.checkRateLimit store now ctx).1 = none ↔
    ∀ sessionId, ctx.sessionId = some sessionId →
      rule.RateAllows store now (rateLimitKey sessionId ctx.action ctx.resource) := by
  cases hsession : ctx.sessionId with
  | none =>
      refine iff_of_true ?_ nofun
      rw [checkRateLimit]
      rw [hsession]
      cases rule.rateLimitPerMinute with
      | none => rfl
      | some limit => rfl
  | some sessionId =>
      rw [checkRateLimit_eq_none hsession]
      simp only [Option.some.injEq, forall_eq']

@[simp] theorem killedAgents_checkRateLimit :
    (rule.checkRateLimit store now ctx).2.killedAgents = store.killedAgents := by
  rw [checkRateLimit]
  split
  · rename_i maxPerMinute sessionId _ _
    have h := store.killedAgents_checkRateLimit (rateLimitKey sessionId ctx.action ctx.resource)
      maxPerMinute now
    split
    · rename_i hrun
      rw [← h, hrun]
    · rename_i hrun
      rw [← h, hrun]
  · rfl

/-- Counting a call touches no session. -/
@[simp] theorem sessions_checkRateLimit :
    (rule.checkRateLimit store now ctx).2.sessions = store.sessions := by
  unfold checkRateLimit SessionStore.checkRateLimit
  grind

theorem decisionOf_eq_allow : rule.decisionOf = .allow ↔ rule.decision = "allow" := by
  rw [decisionOf]
  split <;> simp_all

theorem decisionOf_requireApproval : (∃ approver reason, rule.decisionOf =
    .requireApproval approver reason) ↔ rule.decision = "require_approval" := by
  rw [decisionOf]
  split <;> simp_all

end Rule

namespace YamlEngine

variable {engine : YamlEngine} {store : SessionStore} {now : Instant} {ctx : PolicyContext}

@[simp] theorem killedAgents_evaluate :
    (engine.evaluate store now ctx).2.killedAgents = store.killedAgents := by
  rw [evaluate]
  split
  · rename_i rule _
    rw [evaluateRule]
    split
    · rfl
    · have h : (rule.checkRateLimit store now ctx).2.killedAgents = store.killedAgents :=
        Rule.killedAgents_checkRateLimit
      split
      · rename_i hrun
        rw [← h, hrun]
      · rename_i hrun
        rw [← h, hrun]
  · rfl

theorem firstMatch_eq_some_iff {rule : Rule} : engine.firstMatch ctx = some rule ↔
    rule.ComesFirst engine.rules ctx.agent.principalType ctx.action ctx.resource
      ctx.requestedScopes := by
  simp only [firstMatch, List.find?_eq_some_iff_append, Rule.ComesFirst, Rule.matches_iff,
    Bool.not_eq_true', ← Bool.not_eq_true]

/-- A result other than a denial comes from the first matching rule, whose session
conditions and rate limit all passed. -/
theorem evaluate_of_ne_deny (h : (engine.evaluate store now ctx).1.decision ≠ .deny) :
    ∃ rule, engine.firstMatch ctx = some rule ∧ rule.checkTemporalConditions store ctx = none ∧
      (rule.checkRateLimit store now ctx).1 = none ∧
      (engine.evaluate store now ctx).1 =
        { decision := rule.decisionOf
          approvedScopes := rule.approvedScopes ctx.requestedScopes
          reason := rule.reason
          constraints := rule.constraints.map fun c => ⟨c.key, c.value⟩ } := by
  cases hmatch : engine.firstMatch ctx with
  | none => simp [evaluate, hmatch, PolicyEvaluation.deny] at h
  | some rule =>
      cases htemporal : rule.checkTemporalConditions store ctx with
      | some reason => simp [evaluate, hmatch, evaluateRule, htemporal, PolicyEvaluation.deny] at h
      | none =>
          rcases hrate : rule.checkRateLimit store now ctx with ⟨refused, store'⟩
          cases refused with
          | some reason =>
              simp [evaluate, hmatch, evaluateRule, htemporal, hrate, PolicyEvaluation.deny] at h
          | none =>
              exact ⟨rule, rfl, htemporal, by rw [hrate], by
                simp [evaluate, hmatch, evaluateRule, htemporal, hrate]⟩

/-- A rule that matches first and passes its checks decides. -/
theorem evaluate_of_passes {rule : Rule} (hmatch : engine.firstMatch ctx = some rule)
    (htemporal : rule.checkTemporalConditions store ctx = none)
    (hrate : (rule.checkRateLimit store now ctx).1 = none) :
    (engine.evaluate store now ctx).1 =
      { decision := rule.decisionOf
        approvedScopes := rule.approvedScopes ctx.requestedScopes
        reason := rule.reason
        constraints := rule.constraints.map fun c => ⟨c.key, c.value⟩ } := by
  rcases hcheck : rule.checkRateLimit store now ctx with ⟨refused, store'⟩
  obtain rfl : refused = none := by simpa [hcheck] using hrate
  simp [evaluate, hmatch, evaluateRule, htemporal, hcheck]

end YamlEngine

end Patroclus
