import Patroclus.Properties.DryRunTruth

/-!
# What a denial carries

The engine denies in five ways, and four of them return an evaluation without scopes and
constraints. A rule whose own word denies returns what an allowing rule would: the scopes it
admits and its constraints, which both response builders pass on. So a denial is empty exactly
if no rule denies by its word a request that asks for scopes, or with constraints of its own.
-/

namespace Patroclus

open Foundation

/-- A denial approves no scope and carries no constraint. -/
def PolicyEvaluation.EmptyDenial (eval : PolicyEvaluation) : Prop :=
  eval.decision = .deny → eval.approvedScopes = [] ∧ eval.constraints = []

/-- The engine is to deny by the word of the rule: any word that it does not know denies. -/
def Rule.DeniesByWord (rule : Rule) : Prop :=
  rule.decision ≠ "allow" ∧ rule.decision ≠ "require_approval"

/-- The rule decides a context: it is the first that covers the request, and neither the
session nor the window of the context, where there are any, makes it refuse. -/
structure Rule.Settles (rule : Rule) (engine : YamlEngine) (store : SessionStore) (now : Instant)
    (ctx : PolicyContext) : Prop where
  first : rule.ComesFirst engine.rules ctx.agent.principalType ctx.action ctx.resource
    ctx.requestedScopes
  session : ∀ sessionId, ctx.sessionId = some sessionId → ∀ session,
    store.sessions.lookup sessionId = some session → rule.SessionAllows session
  rate : ∀ sessionId, ctx.sessionId = some sessionId →
    rule.RateAllows store now (rateLimitKey sessionId ctx.action ctx.resource)

/-- The clock reading at which `request_access` evaluates: the first after its caller is
resolved. -/
def AccessRequest.evaluatedAt (p : Platform) (auth : Option Uuid) (req : AccessRequest)
    (s : Serving) : Instant :=
  s.tape.now (resolveCaller p auth req s).2.tick

/-- The clock reading at which `check` evaluates: the first after the agent and its owner
are read. -/
def AccessRequest.rehearsedAt (p : Platform) (req : AccessRequest) (s : Serving) : Instant :=
  s.tape.now ((Database.getAgent p req.agentId >>= ownerPrincipal p :
    Handler (Option Principal)) s).2.tick

/-- No denial of the engine, of `request_access` or of `check` grants anything. -/
structure DenialsGrantNothing : Prop where
  engine : ∀ (engine : YamlEngine) (store : SessionStore) (now : Instant) (ctx : PolicyContext),
    (engine.evaluate store now ctx).1.EmptyDenial
  request : ∀ (p : Platform) (auth : Option Uuid) (req : AccessRequest) (s finish : Serving)
    (response : AccessResponse), requestAccess p auth req s = (.ok response, finish) →
      response.decision = "deny" → response.approvedScopes = []
  check : ∀ (p : Platform) (auth : Option Uuid) (req : AccessRequest) (s finish : Serving)
    (response : CheckResponse), checkAccess p auth req s = (.ok response, finish) →
      response.decision = "deny" → response.approvedScopes = []

/-! ## The evaluation of a rule -/

namespace Rule

variable {rule : Rule}

theorem decisionOf_eq_deny : rule.decisionOf = .deny ↔ rule.DeniesByWord := by
  rw [decisionOf, DeniesByWord]
  split <;> simp_all

/-- A rule that covers a request admits some of its scopes, if there are any. -/
theorem Covers.approvedScopes_eq_nil {type : AgentType} {action resource : String}
    {scopes : List String} (covers : rule.Covers type action resource scopes) :
    rule.approvedScopes scopes = [] ↔ scopes = [] := by
  rw [approvedScopes]
  obtain hnone | ⟨scope, hscope, hadmits⟩ := covers.scopes
  · rw [hnone]
    exact Iff.rfl
  · refine iff_of_false ?_ (List.ne_nil_of_mem hscope)
    cases rule.scopes.isEmpty with
    | true => exact List.ne_nil_of_mem hscope
    | false => exact List.ne_nil_of_mem (List.mem_filter.mpr ⟨hscope, hadmits⟩)

end Rule

namespace YamlEngine

variable {engine : YamlEngine} {store : SessionStore} {now : Instant} {ctx : PolicyContext}
  {rule : Rule}

theorem settles_iff : rule.Settles engine store now ctx ↔ engine.firstMatch ctx = some rule ∧
    rule.checkTemporalConditions store ctx = none ∧
    (rule.checkRateLimit store now ctx).1 = none := by
  rw [firstMatch_eq_some_iff, Rule.checkTemporalConditions_eq_none_iff,
    Rule.checkRateLimit_eq_none_iff]
  exact ⟨fun h => ⟨h.first, h.session, h.rate⟩, fun ⟨hfirst, hsession, hrate⟩ =>
    ⟨hfirst, hsession, hrate⟩⟩

variable (engine store now ctx) in
/-- The result of the rule that decides, or an empty denial. -/
theorem evaluate_cases :
    (∃ rule : Rule, rule.Settles engine store now ctx ∧
      (engine.evaluate store now ctx).1 = rule.evaluation ctx.requestedScopes) ∨
    (¬ ∃ rule : Rule, rule.Settles engine store now ctx) ∧
      ∃ reason, (engine.evaluate store now ctx).1 = .deny reason := by
  simp only [settles_iff]
  cases hmatch : engine.firstMatch ctx with
  | none =>
      refine .inr ⟨?_, "No matching policy found (default deny)", ?_⟩
      · rintro ⟨rule, hrule, -⟩
        cases hrule
      · rw [evaluate, hmatch]
  | some rule =>
      cases htemporal : rule.checkTemporalConditions store ctx with
      | some reason =>
          refine .inr ⟨?_, reason, ?_⟩
          · rintro ⟨_, ⟨⟩, hpassed, -⟩
            rw [htemporal] at hpassed
            cases hpassed
          · simp only [evaluate, hmatch, evaluateRule, htemporal]
      | none =>
          cases hrate : (rule.checkRateLimit store now ctx).1 with
          | some reason =>
              refine .inr ⟨?_, reason, ?_⟩
              · rintro ⟨_, ⟨⟩, -, hpassed⟩
                rw [hrate] at hpassed
                cases hpassed
              · obtain ⟨store', hcheck⟩ : ∃ store', rule.checkRateLimit store now ctx =
                    (some reason, store') := ⟨_, Prod.ext hrate rfl⟩
                simp only [evaluate, hmatch, evaluateRule, htemporal, hcheck]
          | none =>
              exact .inl ⟨rule, ⟨rfl, htemporal, hrate⟩, evaluate_of_passes hmatch htemporal hrate⟩

theorem settles_unique {rule' : Rule} (h : rule.Settles engine store now ctx)
    (h' : rule'.Settles engine store now ctx) : rule = rule' :=
  h.first.unique h'.first

/-- What holds of a denial by default, and of the rules that deny by their word, holds of
every denial. -/
theorem denial_iff {Q : PolicyEvaluation → Prop} (empty : ∀ reason, Q (.deny reason)) :
    ((engine.evaluate store now ctx).1.decision = .deny → Q (engine.evaluate store now ctx).1) ↔
      ∀ rule : Rule, rule.Settles engine store now ctx → rule.DeniesByWord →
        Q (rule.evaluation ctx.requestedScopes) := by
  obtain ⟨rule, hsettles, heval⟩ | ⟨hnone, reason, heval⟩ := evaluate_cases engine store now ctx
  · rw [heval]
    constructor
    · intro h rule' hsettles' hword
      rw [settles_unique hsettles' hsettles] at hword ⊢
      exact h (Rule.decisionOf_eq_deny.mpr hword)
    · intro h hdeny
      exact h rule hsettles (Rule.decisionOf_eq_deny.mp hdeny)
  · rw [heval]
    exact iff_of_true (fun _ => empty reason) fun rule hsettles => absurd ⟨rule, hsettles⟩ hnone

/-- An engine's denial is empty exactly if no rule denies by its word a request for scopes,
or with constraints. -/
theorem emptyDenial_evaluate_iff : (engine.evaluate store now ctx).1.EmptyDenial ↔
    ∀ rule : Rule, rule.Settles engine store now ctx → rule.DeniesByWord →
      ctx.requestedScopes = [] ∧ rule.constraints = [] := by
  rw [PolicyEvaluation.EmptyDenial, denial_iff
    (Q := fun eval => eval.approvedScopes = [] ∧ eval.constraints = []) fun _ => ⟨rfl, rfl⟩]
  refine forall_congr' fun rule => forall_congr' fun hsettles => forall_congr' fun _ => ?_
  exact and_congr hsettles.first.1.approvedScopes_eq_nil List.map_eq_nil_iff

/-- An engine's denial approves no scope exactly if no rule denies by its word a request for
scopes. -/
theorem unscoped_evaluate_iff : ((engine.evaluate store now ctx).1.decision = .deny →
    (engine.evaluate store now ctx).1.approvedScopes = []) ↔
      ∀ rule : Rule, rule.Settles engine store now ctx → rule.DeniesByWord →
        ctx.requestedScopes = [] := by
  rw [denial_iff (Q := fun eval => eval.approvedScopes = []) fun _ => rfl]
  refine forall_congr' fun rule => forall_congr' fun hsettles => forall_congr' fun _ => ?_
  exact hsettles.first.1.approvedScopes_eq_nil

end YamlEngine

/-! ## The two responses -/

section

variable {p : Platform} {auth : Option Uuid} {req : AccessRequest} {s finish : Serving}

theorem Decision.name_eq_deny {decision : Decision} : decision.name = "deny" ↔ decision = .deny :=
  ⟨Decision.eq_deny_of_name, fun h => by rw [h]; rfl⟩

/-- A denial of `request_access` approves no scope exactly if no rule denies by its word a
request for scopes. -/
theorem requestAccess_unscoped_iff {response : AccessResponse}
    (run : requestAccess p auth req s = (.ok response, finish)) :
    (response.decision = "deny" → response.approvedScopes = []) ↔
      ∀ rule : Rule, rule.Decides s.app req (req.evaluatedAt p auth s) → rule.DeniesByWord →
        req.requestedScopes = [] := by
  rcases requestAccess_eq_ok.mp run with ⟨caller, hresolved, hkilled, rfl⟩ |
    ⟨caller, hresolved, -, hstopped, rfl⟩ | ⟨caller, s₁, eval, s₂, s₃, h⟩
  · exact iff_of_true (fun _ => rfl) fun rule hdecides =>
      absurd ⟨rule, hdecides⟩ ((resolveCaller_found hresolved).not_decides (.inl hkilled))
  · exact iff_of_true (fun _ => rfl) fun rule hdecides =>
      absurd ⟨rule, hdecides⟩ ((resolveCaller_found hresolved).not_decides (.inr hstopped))
  · have hfound := resolveCaller_found h.resolved
    have hclock : req.evaluatedAt p auth s = s₁.tape.now s₁.tick := by
      rw [AccessRequest.evaluatedAt, h.resolved, hfound.tape]
    obtain ⟨rfl, -⟩ := evalEngine_eq_ok.mp h.evaluated
    rw [enactDecision_decision h.enacted, enactDecision_approvedScopes h.enacted,
      Decision.name_eq_deny, YamlEngine.unscoped_evaluate_iff, hclock]
    refine forall_congr' fun rule => imp_congr ?_ Iff.rfl
    rw [YamlEngine.settles_iff, hfound.decides_iff]
    exact (and_iff_right h.agentAlive).symm

/-- A denial of `check` approves no scope exactly if no rule denies by its word a request
for scopes. -/
theorem checkAccess_unscoped_iff {response : CheckResponse}
    (run : checkAccess p auth req s = (.ok response, finish)) :
    (response.decision = "deny" → response.approvedScopes = []) ↔
      ∀ rule : Rule, rule.Rehearses s.app req (req.rehearsedAt p s) → rule.DeniesByWord →
        req.requestedScopes = [] := by
  obtain ⟨-, agent, s₁, hagent, ⟨hstopped, rfl⟩ | ⟨halive, principal, s₂, eval, s₃, howner,
    happ, htape, heval, rfl⟩⟩ := checkAccess_ok run
  · exact iff_of_true (fun _ => rfl) fun rule hrehearses => absurd hstopped hrehearses.agentAlive
  · obtain ⟨-, row, hrow, hrowAgent, -⟩ := getAgent_eq_ok.mp hagent
    have hclock : req.rehearsedAt p s = s.tape.now s₂.tick := by
      rw [AccessRequest.rehearsedAt, Action.bind_run_ok hagent, howner]
    obtain ⟨rfl, -⟩ := evalEngine_eq_ok.mp heval
    rw [Decision.name_eq_deny, YamlEngine.unscoped_evaluate_iff, hclock, happ, htape]
    refine forall_congr' fun rule => imp_congr ?_ Iff.rfl
    rw [YamlEngine.settles_iff, Rule.rehearses_iff hrow ?_ halive]
    rw [hrowAgent]
    rfl

end

/-- When the denials of the engine and of the two endpoints that it answers grant nothing. -/
theorem denialsGrantNothing_iff (engine : YamlEngine) (store : SessionStore) (now : Instant)
    (ctx : PolicyContext) (p : Platform) (auth : Option Uuid) (req : AccessRequest)
    (s finish : Serving) :
    ((engine.evaluate store now ctx).1.EmptyDenial ↔
      ∀ rule : Rule, rule.Settles engine store now ctx → rule.DeniesByWord →
        ctx.requestedScopes = [] ∧ rule.constraints = []) ∧
    (∀ response, requestAccess p auth req s = (.ok response, finish) →
      ((response.decision = "deny" → response.approvedScopes = []) ↔
        ∀ rule : Rule, rule.Decides s.app req (req.evaluatedAt p auth s) → rule.DeniesByWord →
          req.requestedScopes = [])) ∧
    ∀ response, checkAccess p auth req s = (.ok response, finish) →
      ((response.decision = "deny" → response.approvedScopes = []) ↔
        ∀ rule : Rule, rule.Rehearses s.app req (req.rehearsedAt p s) → rule.DeniesByWord →
          req.requestedScopes = []) :=
  ⟨YamlEngine.emptyDenial_evaluate_iff, fun _ run => requestAccess_unscoped_iff run,
    fun _ run => checkAccess_unscoped_iff run⟩

/-- A call of an agent without an owner or a session, for one scope. -/
def deleteContext : PolicyContext where
  agent := ⟨⟨300⟩, "bot", .service, none, none, none, .active, none, 0, 0⟩
  principal := none
  action := "delete"
  resource := "prod-db"
  requestedScopes := ["db:delete"]
  sessionId := none
  trajectory := []

theorem denialsGrantNothing_iff_forbidden : ∃ response finish, checkAccess signingPlatform
    (some ⟨300⟩) readRequest (servingRule (.plain "deny" "forbidden")) = (.ok response, finish) ∧
      response.decision = "deny" ∧ response.approvedScopes ≠ [] := by
  obtain ⟨response, finish, hrun⟩ : ∃ response finish, checkAccess signingPlatform
      (some readRequest.agentId) readRequest (servingRule (.plain "deny" "forbidden")) =
        (.ok response, finish) := checkAccess_returns (fun _ => rfl) rfl
  obtain ⟨-, -, hcheck⟩ := denialsGrantNothing_iff .new .new 0 deleteContext signingPlatform
    (some readRequest.agentId) readRequest (servingRule (.plain "deny" "forbidden")) finish
  have hrehearses : (Rule.plain "deny" "forbidden").Rehearses
      (servingRule (.plain "deny" "forbidden")).app readRequest
        (readRequest.rehearsedAt signingPlatform (servingRule (.plain "deny" "forbidden"))) :=
    ⟨by decide, ⟨registeredAgent, rfl, ⟨.inl rfl, .inl rfl, .inl rfl, .inl rfl⟩, [], [], rfl,
      nofun⟩, nofun, nofun⟩
  refine ⟨response, finish, hrun, ?_⟩
  by_contra hgrants
  have hnone := (hcheck response hrun).mp
    (fun hdeny => by_contra fun hsome => hgrants ⟨hdeny, hsome⟩) _ hrehearses
    ⟨by decide, by decide⟩
  cases hnone

/-! ## A denial that lists the scope it was asked for -/

theorem not_denialsGrantNothing : ¬ DenialsGrantNothing := by
  intro h
  have hempty := h.engine ⟨[.plain "deny" "Production deletes are strictly forbidden"]⟩ .new 0
    deleteContext
  have happroved : (((⟨[.plain "deny" "Production deletes are strictly forbidden"]⟩ :
      YamlEngine).evaluate .new 0 deleteContext).1.approvedScopes) = ["db:delete"] := rfl
  rw [(hempty rfl).1] at happroved
  cases happroved

end Patroclus
