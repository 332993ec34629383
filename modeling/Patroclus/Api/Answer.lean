import Patroclus.Api.Caller
import Patroclus.Db.Completion

/-!
# What the access endpoints answer

When no statement fails, drawn ids are new and the codec signs, an access request is
answered with the decision of the one rule that decides it, and denied if there is
none. The dry run is answered likewise, but it puts fewer conditions on the rule.
-/

namespace Patroclus

open Foundation

/-- Nothing outside the program fails: every statement succeeds, drawn ids are new, and
the codec signs. -/
structure Unfailing (p : Platform) (s : Serving) : Prop where
  faults : ∀ n, s.tape.fault n = none
  freshToken : ∀ n, s.app.db.tokens.any (·.id == (s.tape.uuid n).toString) = false
  freshApproval : ∀ n, s.app.db.approvalRequests.any (·.id == s.tape.uuid n) = false
  signs : ∀ claims, ∃ token, p.jwt.encode claims = .ok token

/-- The rule decides the dry run of a request: as for the request itself, but with
conditions on a session and a window only where the request names a session, and on
the session only where it exists. -/
structure Rule.Rehearses (rule : Rule) (app : AppState) (req : AccessRequest) (now : Instant) :
    Prop where
  agentAlive : req.agentId ∉ app.sessionStore.killedAgents
  first : ∃ row, app.db.agents.find? (·.id == req.agentId) = some row ∧
    rule.ComesFirst app.policyEngine.rules row.principalType req.action req.resource
      req.requestedScopes
  session : ∀ sessionId, req.context.bind (·.sessionId) = some sessionId → ∀ state,
    app.sessionStore.sessions.lookup sessionId = some state → rule.SessionAllows state
  rate : ∀ sessionId, req.context.bind (·.sessionId) = some sessionId →
    rule.RateAllows app.sessionStore now (rateLimitKey sessionId req.action req.resource)

/-- The decision of the rule that decides, and a denial when none does. -/
def Decided (decides : Rule → Prop) (decision : String) : Prop :=
  (∃ rule, decides rule ∧ decision = rule.decisionOf.name) ∨
    (¬ ∃ rule, decides rule) ∧ decision = "deny"

namespace YamlEngine

variable {engine : YamlEngine} {store : SessionStore} {now : Instant} {ctx : PolicyContext}

theorem evaluate_decided : Decided (fun rule => engine.firstMatch ctx = some rule ∧
    rule.checkTemporalConditions store ctx = none ∧
    (rule.checkRateLimit store now ctx).1 = none)
      (engine.evaluate store now ctx).1.decision.name := by
  by_cases hpassed : ∃ rule, engine.firstMatch ctx = some rule ∧
      rule.checkTemporalConditions store ctx = none ∧
      (rule.checkRateLimit store now ctx).1 = none
  · obtain ⟨rule, hmatch, htemporal, hrate⟩ := hpassed
    refine .inl ⟨rule, ⟨hmatch, htemporal, hrate⟩, ?_⟩
    rw [evaluate_of_passes hmatch htemporal hrate]
  · refine .inr ⟨hpassed, ?_⟩
    by_cases hdeny : (engine.evaluate store now ctx).1.decision = .deny
    · rw [hdeny]
      rfl
    · obtain ⟨rule, hmatch, htemporal, hrate, -⟩ := evaluate_of_ne_deny hdeny
      exact absurd ⟨rule, hmatch, htemporal, hrate⟩ hpassed

end YamlEngine

theorem Decided.congr {decides decides' : Rule → Prop} {decision : String}
    (h : Decided decides decision) (same : ∀ rule, decides rule ↔ decides' rule) :
    Decided decides' decision := by
  rwa [funext fun rule => propext (same rule)] at h

section

variable {p : Platform} {s finish : Serving} {req : AccessRequest} {auth : Option Uuid}
  {caller : Caller} {now : Instant}

/-! ## Carrying out a decision -/

/-- The access token can be signed and recorded. -/
theorem grantAccess_returns (h : Unfailing p s)
    (registered : s.app.db.agents.any (·.id == caller.agent.id) = true)
    (dates : ∀ n, ((s.tape.now n).addSeconds (asI64 p.config.defaultTtlSeconds)).isSome)
    (eval : PolicyEvaluation) :
    (grantAccess p caller req eval).Returns (fun _ finish => finish.tape = s.tape) s := by
  have hexpiry (n : Nat) : ∃ expiry, (caller.tokenParams p req eval).expiry (s.tape.now n) =
      some expiry := Option.isSome_iff_exists.mp (dates n)
  obtain ⟨expiry, hexp⟩ := hexpiry (s.tick + 2)
  obtain ⟨token, htoken⟩ := h.signs ((caller.tokenParams p req eval).claims p
    (s.tape.now s.tick).timestamp expiry.timestamp (s.tape.uuid (s.tick + 1)).toString)
  obtain ⟨minted, hsign⟩ : ∃ minted, sign p (.requestAccess caller.agent.id)
      (caller.tokenParams p req eval) (s.tape.now s.tick) (s.tape.uuid (s.tick + 1))
      (s.tape.now (s.tick + 2)) = .ok minted :=
    ⟨_, sign_eq_ok.mpr ⟨expiry, token, hexp, htoken, rfl⟩⟩
  obtain ⟨expiresAt, hexpires⟩ := hexpiry (s.tick + 3)
  refine .bind_run (issue_eq_ok.mpr ⟨_, hsign, rfl, rfl⟩) (.bind_run utcNow_run ?_)
  have hpanic : orPanic ((caller.tokenParams p req eval).expiry (s.tape.now (s.tick + 3))) =
      (pure expiresAt : Handler Instant) := by
    rw [hexpires, orPanic_some]
  refine .bind_run (congrFun hpanic _) (.bind (Database.recordToken_returns h.faults ?_ registered
    rfl) ?_)
  · rw [sign_jti hsign]
    exact h.freshToken (s.tick + 1)
  · rintro _ finish ⟨row, -, rfl⟩
    exact .pure rfl

/-- The approval request can be filed. -/
theorem requestApproval_returns (h : Unfailing p s)
    (registered : s.app.db.agents.any (·.id == caller.agent.id) = true)
    (dates : ∀ n, ((s.tape.now n).addSeconds (asI64 300)).isSome) (eval : PolicyEvaluation) :
    (requestApproval p caller req eval).Returns (fun response finish => ∃ row,
      response = { AccessResponse.ofEvaluation eval with approval := some ⟨row.id, "pending"⟩ } ∧
      finish.still = (s.withDb { s.app.db with
        approvalRequests := s.app.db.approvalRequests ++ [row] }).still) s := by
  refine .bind (.attempt (Database.keeps_findResourceByUri tickFree_still _) s) ?_
  intro found s₁ hstill
  obtain ⟨happ, hledger, htape⟩ : s₁.app = s.app ∧ s₁.ledger = s.ledger ∧ s₁.tape = s.tape :=
    ⟨congrArg Prod.fst hstill, congrArg (·.2.1) hstill, congrArg (·.2.2) hstill⟩
  refine .bind (Database.createApprovalRequest_returns ?_ ?_ ?_ ?_) ?_
  · exact fun n => by simpa [htape] using h.faults n
  · simpa [htape, happ] using h.freshApproval s₁.tick
  · simpa [happ] using registered
  · simpa [htape] using dates (s₁.tick + 1)
  · rintro approval finish ⟨row, hid, hfinish⟩
    refine .pure ⟨row, by rw [hid], ?_⟩
    rw [hfinish]
    simp [Serving.still, happ, hledger, htape]

theorem enactDecision_returns (h : Unfailing p s)
    (registered : s.app.db.agents.any (·.id == caller.agent.id) = true) {eval : PolicyEvaluation}
    (allowed : eval.decision = .allow →
      ∀ n, ((s.tape.now n).addSeconds (asI64 p.config.defaultTtlSeconds)).isSome)
    (pending : (∃ approver reason, eval.decision = .requireApproval approver reason) →
      ∀ n, ((s.tape.now n).addSeconds (asI64 300)).isSome) :
    (enactDecision p caller req eval).Returns (fun _ finish => finish.tape = s.tape) s := by
  rw [enactDecision]
  cases hdecision : eval.decision with
  | allow => exact grantAccess_returns h registered (allowed hdecision) eval
  | requireApproval approver reason =>
      refine (requestApproval_returns h registered (pending ⟨approver, reason, hdecision⟩)
        eval).mono ?_
      rintro _ finish ⟨row, -, hstill⟩
      exact congrArg (·.2.2) hstill
  | deny => exact .pure rfl

variable (req) in
theorem recordDecision_returns {eval : PolicyEvaluation} {response : AccessResponse}
    (faults : ∀ n, s.tape.fault n = none) :
    (recordDecision p caller req eval response).Returns (fun _ finish =>
      finish.app.db.tokens = s.app.db.tokens ∧
      finish.app.db.approvalRequests = s.app.db.approvalRequests) s :=
  .bind_run utcNow_run (.bind_run utcNow_run (.bind_run rfl
    (.bind_run (Database.createAuditEntry_run faults) (.pure ⟨rfl, rfl⟩))))

/-! ## Requesting access -/

/-- No rule decides for a stopped session or agent. -/
theorem CallerFound.not_decides {s₁ : Serving} (h : CallerFound p req s caller s₁)
    (stopped : caller.session.killed = true ∨
      caller.agent.id ∈ s₁.app.sessionStore.killedAgents) :
    ¬ ∃ rule : Rule, rule.Decides s.app req now := by
  rintro ⟨rule, hdecides⟩
  obtain hsession | hagent := stopped
  · have halive := (h.sessionAllows_iff.mpr hdecides.session).alive
    rw [hsession] at halive
    cases halive
  · rw [h.agentId, h.killedAgents] at hagent
    exact hdecides.agentAlive hagent

/-- The engine's decision on a living caller is that of the deciding rule. -/
theorem CallerFound.decided {s₁ : Serving} (h : CallerFound p req s caller s₁)
    (alive : caller.agent.id ∉ s₁.app.sessionStore.killedAgents) :
    Decided (fun rule => rule.Decides s.app req now) (s₁.app.policyEngine.evaluate
      s₁.app.sessionStore now (caller.context req)).1.decision.name :=
  YamlEngine.evaluate_decided.congr fun rule => by
    rw [h.decides_iff]
    exact ⟨fun hpasses => ⟨alive, hpasses⟩, fun hdecides => hdecides.2⟩

theorem requestAccess_decided {response : AccessResponse} (clock : ∀ n, s.tape.now n = now)
    (run : requestAccess p auth req s = (.ok response, finish)) :
    Decided (fun rule => rule.Decides s.app req now) response.decision := by
  rcases requestAccess_eq_ok.mp run with ⟨caller, hresolved, hkilled, rfl⟩ |
    ⟨caller, hresolved, -, hstopped, rfl⟩ | ⟨caller, s₁, eval, s₂, s₃, h⟩
  · exact .inr ⟨(resolveCaller_found hresolved).not_decides (.inl hkilled), rfl⟩
  · exact .inr ⟨(resolveCaller_found hresolved).not_decides (.inr hstopped), rfl⟩
  · have hfound := resolveCaller_found h.resolved
    obtain ⟨heval, -⟩ := evalEngine_eq_ok.mp h.evaluated
    rw [hfound.tape, clock] at heval
    rw [enactDecision_decision h.enacted, heval]
    exact hfound.decided h.agentAlive

/-- A resolved request is answered when the dates of its decision are in range. -/
theorem requestAccess_returns (h : Unfailing p s) (resolves : Resolves p auth req s)
    (clock : ∀ n, s.tape.now n = now)
    (allowed : ∀ rule : Rule, rule.Decides s.app req now → rule.decision = "allow" →
      (now.addSeconds (asI64 p.config.defaultTtlSeconds)).isSome)
    (pending : ∀ rule : Rule, rule.Decides s.app req now → rule.decision = "require_approval" →
      (now.addSeconds (asI64 300)).isSome) :
    ∃ response finish, requestAccess p auth req s = (.ok response, finish) := by
  obtain ⟨caller, s₁, hresolved, hfound⟩ := resolves.returns h.faults
  by_cases hsession : caller.session.killed = true
  · exact ⟨_, _, requestAccess_eq_ok.mpr (.inl ⟨caller, hresolved, hsession, rfl⟩)⟩
  have hsession : caller.session.killed = false := by simpa using hsession
  by_cases hagent : caller.agent.id ∈ s₁.app.sessionStore.killedAgents
  · exact ⟨_, _, requestAccess_eq_ok.mpr (.inr (.inl ⟨caller, hresolved, hsession, hagent, rfl⟩))⟩
  obtain ⟨eval, s₂, hrun⟩ : ∃ eval s₂, evalEngine (caller.context req) s₁ = (.ok eval, s₂) :=
    ⟨_, _, rfl⟩
  obtain ⟨heval, hfinish⟩ := evalEngine_eq_ok.mp hrun
  rw [hfound.tape, clock] at heval
  have htape : s₂.tape = s.tape := by
    rw [hfinish]
    exact hfound.tape
  have hdb : s₂.app.db = s.app.db := by
    obtain ⟨now, -, happ⟩ := hfound.session
    rw [hfinish, Serving.withApp_app, Serving.next_app, happ]
  have hunfailing : Unfailing p s₂ := {
    faults := by rw [htape]; exact h.faults
    freshToken := by rw [htape, hdb]; exact h.freshToken
    freshApproval := by rw [htape, hdb]; exact h.freshApproval
    signs := h.signs }
  have hrule : eval.decision ≠ .deny → ∃ rule : Rule, rule.Decides s.app req now ∧
      eval.decision = rule.decisionOf := by
    intro hdecision
    rw [heval] at hdecision ⊢
    obtain ⟨rule, hdecides, heq⟩ := hfound.decides_of_ne_deny hagent hdecision
    exact ⟨rule, hdecides, by rw [heq]; rfl⟩
  obtain ⟨response, s₃, henacted, htape₃⟩ : (enactDecision p caller req eval).Returns
      (fun _ finish => finish.tape = s₂.tape) s₂ := by
    refine enactDecision_returns hunfailing ?_ (fun hallow n => ?_) fun happroval n => ?_
    · rw [hdb, hfound.agentId]
      exact resolves.registered
    · obtain ⟨rule, hdecides, heq⟩ := hrule (by rw [hallow]; nofun)
      rw [htape, clock]
      exact allowed rule hdecides (Rule.decisionOf_eq_allow.mp (heq.symm.trans hallow))
    · obtain ⟨approver, reason, happroval⟩ := happroval
      obtain ⟨rule, hdecides, heq⟩ := hrule (by rw [happroval]; nofun)
      rw [htape, clock]
      exact pending rule hdecides (Rule.decisionOf_requireApproval.mp
        ⟨approver, reason, heq.symm.trans happroval⟩)
  have hfaults : ∀ n, s₃.tape.fault n = none := by
    rw [htape₃]
    exact hunfailing.faults
  obtain ⟨_, finish, hrecorded, -⟩ := recordDecision_returns req hfaults
  exact ⟨response, finish, requestAccess_eq_ok.mpr (.inr (.inr ⟨caller, s₁, eval, s₂, s₃,
    hresolved, hsession, hagent, hrun, henacted, hrecorded⟩))⟩

/-! ## The dry run -/

/-- A rule decides the dry run of a living agent exactly if the engine selects it and it
refuses nothing. -/
theorem Rule.rehearses_iff {rule : Rule} {row : AgentRow} {agent : Agent}
    {principal : Option Principal} (found : s.app.db.agents.find? (·.id == req.agentId) = some row)
    (type : agent.principalType = row.principalType)
    (alive : req.agentId ∉ s.app.sessionStore.killedAgents) :
    rule.Rehearses s.app req now ↔
      s.app.policyEngine.firstMatch (req.rehearsal agent principal) = some rule ∧
      rule.checkTemporalConditions s.app.sessionStore (req.rehearsal agent principal) = none ∧
      (rule.checkRateLimit s.app.sessionStore now (req.rehearsal agent principal)).1 = none := by
  have hfirst : s.app.policyEngine.firstMatch (req.rehearsal agent principal) = some rule ↔
      ∃ row, s.app.db.agents.find? (·.id == req.agentId) = some row ∧
        rule.ComesFirst s.app.policyEngine.rules row.principalType req.action req.resource
          req.requestedScopes := by
    rw [YamlEngine.firstMatch_eq_some_iff, found]
    simp only [AccessRequest.rehearsal, type, Option.some.injEq, exists_eq_left']
  have hsession : rule.checkTemporalConditions s.app.sessionStore (req.rehearsal agent principal) =
      none ↔ ∀ sessionId, req.context.bind (·.sessionId) = some sessionId → ∀ state,
        s.app.sessionStore.sessions.lookup sessionId = some state → rule.SessionAllows state :=
    Rule.checkTemporalConditions_eq_none_iff
  have hrate : (rule.checkRateLimit s.app.sessionStore now (req.rehearsal agent principal)).1 =
      none ↔ ∀ sessionId, req.context.bind (·.sessionId) = some sessionId →
        rule.RateAllows s.app.sessionStore now (rateLimitKey sessionId req.action req.resource) :=
    Rule.checkRateLimit_eq_none_iff
  rw [hfirst, hsession, hrate]
  exact ⟨fun h => ⟨h.first, h.session, h.rate⟩, fun ⟨hfirst, hsession, hrate⟩ =>
    ⟨alive, hfirst, hsession, hrate⟩⟩

theorem checkAccess_decided {response : CheckResponse} (clock : ∀ n, s.tape.now n = now)
    (run : checkAccess p auth req s = (.ok response, finish)) :
    Decided (fun rule => rule.Rehearses s.app req now) response.decision := by
  obtain ⟨-, agent, s₁, hagent, ⟨hstopped, rfl⟩ | ⟨halive, principal, s₂, eval, s₃, -, happ, htape,
    heval, rfl⟩⟩ := checkAccess_ok run
  · exact .inr ⟨fun ⟨rule, hrehearses⟩ => hrehearses.agentAlive hstopped, rfl⟩
  · obtain ⟨-, row, hrow, hrowAgent, -⟩ := getAgent_eq_ok.mp hagent
    obtain ⟨rfl, -⟩ := evalEngine_eq_ok.mp heval
    rw [happ, htape, clock]
    refine YamlEngine.evaluate_decided.congr fun rule => (Rule.rehearses_iff hrow ?_ halive).symm
    rw [hrowAgent]
    rfl

/-- The dry run of a registered agent is answered. -/
theorem checkAccess_returns (faults : ∀ n, s.tape.fault n = none)
    (registered : s.app.db.agents.any (·.id == req.agentId) = true) :
    ∃ response finish, checkAccess p (some req.agentId) req s = (.ok response, finish) := by
  obtain ⟨row, hrow⟩ := find?_of_registered registered
  have hagent := (getAgent_eq_ok (p := p)).mpr ⟨faults s.tick, row, hrow, rfl, rfl⟩
  have hreturns : (checkAccess p (some req.agentId) req).Returns (fun _ _ => True) s := by
    refine .bind_run (authenticatedAs_eq_ok.mpr ⟨rfl, rfl⟩) ?_
    refine .bind_run hagent ?_
    refine .bind (ownerPrincipal_returns _ _) fun principal s₂ hstill => ?_
    refine .bind_run rfl ?_
    split
    · exact .pure trivial
    · refine .bind_run rfl ?_
      refine .bind_run (Database.createAuditEntry_run fun n => ?_) (.pure trivial)
      have htape : s₂.tape = s.tape := congrArg (·.2.2) hstill
      simpa [htape] using faults n
  obtain ⟨response, finish, hrun, -⟩ := hreturns
  exact ⟨response, finish, hrun⟩

end

end Patroclus
