import Patroclus.Api.Metrics
import Patroclus.Properties.DecisionLog

/-!
# What the metrics count

A monitored server answers every call as the bare one does, however often it is scraped.
Since its start the counter of issued tokens has gone up once for every row of the token
table, whatever failed. The counter of a decision has gone up once for every audit entry of
it, and at most once more for each access call that was answered with an error. Delegations
are audited as allowed but not counted as decisions.
-/

namespace Patroclus

open Foundation

section

variable {p : Platform}

/-! ## The bare server -/

namespace Monitored

theorem erases_enactDecision (caller : Caller) (req : AccessRequest) (eval : PolicyEvaluation) :
    (enactDecision p caller req eval).Erases (Patroclus.enactDecision p caller req eval) := by
  rw [enactDecision, Patroclus.enactDecision]
  cases eval.decision with
  | allow =>
      refine (Action.Erases.uncounted _).bind fun _ => ?_
      refine (Action.Erases.uncounted _).bind fun _ => ?_
      refine (Action.Erases.uncounted _).bind fun _ => ?_
      refine (Action.Erases.uncounted _).bind fun _ => ?_
      exact .count_bind (.pure _)
  | requireApproval approver reason => exact .uncounted _
  | deny => exact .pure _

theorem erases_requestAccess (auth : Option Uuid) (req : AccessRequest) :
    (requestAccess p auth req).Erases (Patroclus.requestAccess p auth req) := by
  refine (Action.Erases.uncounted _).bind fun caller => ?_
  refine .ite (.pure _) ?_
  refine (Action.Erases.uncounted _).bind fun _ => ?_
  refine .ite (.pure _) ?_
  refine (Action.Erases.uncounted _).bind fun eval => ?_
  refine .count_bind ((erases_enactDecision caller req eval).bind fun _ => ?_)
  exact (Action.Erases.uncounted _).bind fun _ => .pure _

theorem erases_checkAccess (auth : Option Uuid) (req : AccessRequest) :
    (checkAccess p auth req).Erases (Patroclus.checkAccess p auth req) := by
  refine (Action.Erases.uncounted _).bind fun _ => ?_
  refine (Action.Erases.uncounted _).bind fun _ => ?_
  refine (Action.Erases.uncounted _).bind fun _ => ?_
  refine (Action.Erases.uncounted _).bind fun _ => ?_
  refine .ite (.pure _) ?_
  refine (Action.Erases.uncounted _).bind fun _ => ?_
  exact .count_bind ((Action.Erases.uncounted _).bind fun _ => .pure _)

theorem erases_recordDelegation (claims : AgentClaims) (req : DelegateRequest) (jti : String)
    (expiresAt : Instant) :
    (recordDelegation p claims req jti expiresAt).Erases
      (Patroclus.recordDelegation p claims req jti expiresAt) := by
  refine (Action.Erases.uncounted _).bind fun _ => .count_bind ?_
  refine (Action.Erases.uncounted _).bind fun _ => ?_
  exact .pure _

theorem erases_delegate (auth : Option Uuid) (req : DelegateRequest) :
    (delegate p auth req).Erases (Patroclus.delegate p auth req) := by
  refine (Action.Erases.uncounted _).bind fun _ => ?_
  refine (Action.Erases.uncounted _).bind fun _ => ?_
  refine (Action.Erases.uncounted _).bind fun _ => ?_
  refine (Action.Erases.uncounted _).bind fun _ => ?_
  refine (erases_recordDelegation _ _ _ _).bind fun _ => ?_
  exact .pure _

theorem erases_principalDelegate (req : PrincipalDelegateRequest) :
    (principalDelegate p req).Erases (Patroclus.principalDelegate p req) := by
  refine (Action.Erases.uncounted _).bind fun agent => ?_
  cases agent.ownerId with
  | none => exact .uncounted _
  | some principalId =>
      refine (Action.Erases.uncounted _).bind fun _ => ?_
      refine (Action.Erases.uncounted _).bind fun _ => ?_
      refine (Action.Erases.uncounted _).bind fun _ => ?_
      refine (Action.Erases.uncounted _).bind fun _ => ?_
      refine (Action.Erases.uncounted _).bind fun _ => ?_
      refine (Action.Erases.uncounted _).bind fun _ => ?_
      exact .count_bind (.pure _)

theorem erases_serve (call : Call) : (serve p call).Erases (Patroclus.serve p call) := by
  cases call with
  | requestAccess auth req => exact (erases_requestAccess auth req).bind fun _ => .pure _
  | check auth req => exact (erases_checkAccess auth req).bind fun _ => .pure _
  | delegate auth req => exact (erases_delegate auth req).bind fun _ => .pure _
  | principalDelegate req => exact (erases_principalDelegate req).bind fun _ => .pure _
  | _ => exact .uncounted _

end Monitored

/-- A scrape reads. -/
theorem keeps_prometheusMetrics {γ : Type*} {view : Serving → γ} (h : TickFree view) :
    (prometheusMetrics p).Keeps fun s => view s.1 := by
  refine ((Action.Keeps.read _ : Action.Keeps view _).uncounted fun v _ => v).bind fun _ => ?_
  refine ((Database.keeps_listPendingApprovals h).attempt.uncounted fun v _ => v).bind fun _ => ?_
  refine (Action.Keeps.count _).bind fun _ => ?_
  exact .read _

/-! ## The rows -/

/-- What the metrics count: the rows of the token table, and the audit log. -/
def Serving.entries (s : Serving) : Nat × List AuditRow := (s.app.db.tokens.length, s.auditLog)

theorem tickFree_entries : TickFree Serving.entries := fun _ => rfl

theorem length_updateWhere {ρ : Type} (cond : ρ → Bool) (set : ρ → ρ) (rows : List ρ) :
    (Db.updateWhere cond set rows).length = rows.length := List.length_map _

/-- The calls that decide nothing enter no rows. -/
theorem keeps_entries_serve {call : Call} (h : call.decides = false) :
    (serve p call).Keeps Serving.entries := by
  have tick := tickFree_entries
  have reply {α : Type} {act : Handler α} {wrap : α → Reply} (hact : act.Keeps Serving.entries) :
      (act >>= fun a => pure (wrap a)).Keeps Serving.entries := hact.bind fun _ => .pure _
  have revokes {α : Type} {statement : Db → Except String (α × Db)}
      (hstatement : ∀ db a db', statement db = .ok (a, db') →
        (db'.tokens.length, db'.auditLog) = (db.tokens.length, db.auditLog)) :
      (sql statement).Keeps Serving.entries :=
    keeps_sql tick fun s a db' => hstatement s.app.db a db'
  cases call with
  | requestAccess | check | delegate | principalDelegate => cases h
  | approvalStatus auth id => exact reply (keeps_approvalStatus tick auth id)
  | listPrincipalGrants => exact reply (Database.keeps_listAllGrants tick)
  | revokeGrant id => exact reply (Database.keeps_revokeGrant tick fun _ _ => rfl)
  | listPendingApprovals => exact reply (Database.keeps_listPendingApprovals tick)
  | approveRequest id req | denyRequest id req =>
      exact reply (Database.keeps_resolveApprovalRequest tick fun _ _ => rfl)
  | createAgent req => exact reply (Database.keeps_createAgent tick fun _ _ => rfl)
  | listAgents => exact reply (Database.keeps_listAgents tick)
  | getAgent id => exact reply (Database.keeps_getAgent tick id)
  | provisionClientKey id =>
      exact reply (keeps_provisionClientKey tick fun _ _ => rfl)
  | createPrincipal req => exact reply (Database.keeps_createPrincipal tick fun _ _ => rfl)
  | createResource req => exact reply (Database.keeps_createResource tick fun _ _ => rfl)
  | listResources => exact reply (Database.keeps_listResources tick)
  | createPolicy name engine definition =>
      exact reply (keeps_createPolicy tick (fun _ _ => rfl) fun _ _ => rfl)
  | listPolicies => exact reply (Database.keeps_listPolicies tick)
  | listAudit => exact reply (Database.keeps_listAuditEntries tick _)
  | revokeToken jti =>
      refine Action.Keeps.bind (Action.Keeps.bind ?_ fun _ => fun _ => rfl) fun _ => .pure _
      refine revokes fun db _ db' hdb => ?_
      cases hdb
      exact Prod.ext (length_updateWhere _ _ _) rfl
  | listSessions => exact reply (Action.Keeps.read _)
  | killSession id => exact reply fun _ => rfl
  | killAgent id =>
      refine reply (Action.Keeps.bind (fun _ => rfl) fun _ => ?_)
      refine (Action.Keeps.read _).bind fun _ => ?_
      refine (revokes fun db _ db' hdb => ?_).bind fun _ => .pure _
      cases hdb
      exact Prod.ext (length_updateWhere _ _ _) rfl
  | restoreAgent id => exact fun _ => rfl
  | recordSpend id amount sessionId => exact fun _ => rfl

theorem keeps_entries_startUp : (startUp p).Keeps Serving.entries :=
  startUp_view tickFree_entries (fun _ _ => rfl) fun _ _ => rfl

/-! ## Balances -/

/-- The calls that are decided by the policy. -/
def Call.seeksAccess : Call → Bool
  | .requestAccess _ _ | .check _ _ => true
  | _ => false

/-- A balance of the rows and the metrics that every step of a handler settles, but for the
audit entry of a decision that has been counted. -/
structure Balances (p : Platform) (balance : Serving × Metrics → Int)
    (weight : Decision → String → Int) (bound : Nat) : Prop where
  frame {α : Type} {act : Handler α} (h : act.Keeps Serving.entries) :
    (act.uncounted : Monitored α).Keeps balance
  token (jti : String) (grantId : Option Uuid) (agentId : Uuid) (scopes : List String)
    (audience : String) (expiresAt : Instant) :
    ((Database.recordToken p jti grantId agentId scopes audience expiresAt).uncounted >>= fun _ =>
      Action.count Metrics.countToken : Monitored PUnit).Keeps balance
  decision (decision : Decision) (action : String) :
    (Action.count (Metrics.recordDecision decision.name action) : Monitored PUnit).Moves balance
      (-weight decision action) 0
  audit (entry : CreateAuditEntry) :
    ((Database.createAuditEntry p entry).uncounted : Monitored AuditEntry).Moves balance
      (weight entry.decision entry.action) 0
  serving (app : AppState) (ledger : List Minted) (tape tape' : Tape) (tick tick' : Nat)
    (metrics : Metrics) :
    balance (⟨app, ledger, tape, tick⟩, metrics) = balance (⟨app, ledger, tape', tick'⟩, metrics)
  gauges (s : Serving) (metrics : Metrics) (sessions depth : Int) : balance (s, { metrics with
    activeSessions := sessions, approvalQueueDepth := depth }) = balance (s, metrics)
  nonneg (decision : Decision) (action : String) : 0 ≤ weight decision action
  le (decision : Decision) (action : String) : weight decision action ≤ bound

theorem ignoresSessions_entries : IgnoresSessions Serving.entries := fun _ _ _ => rfl

namespace Balances

variable {balance : Serving × Metrics → Int} {weight : Decision → String → Int} {bound e : Nat}

theorem issue (h : Balances p balance weight bound) (origin : Origin) (params : IssueTokenParams) :
    ((Patroclus.issue p origin params).uncounted : Monitored _).Keeps balance :=
  h.frame (keeps_issue tickFree_entries fun _ _ => rfl)

/-- A row is stored and counted before anything else happens. -/
theorem token_bind (h : Balances p balance weight bound) {α : Type} {jti : String}
    {grantId : Option Uuid} {agentId : Uuid} {scopes : List String} {audience : String}
    {expiresAt : Instant} {next : Unit → Monitored α} {d : Int}
    (rest : ∀ u, (next u).Moves balance d e) :
    ((Database.recordToken p jti grantId agentId scopes audience expiresAt).uncounted >>= fun _ =>
      Action.count Metrics.countToken >>= next : Monitored α).Moves balance d e := by
  rw [← bind_assoc]
  exact Action.Moves.keeps_bind (h.token jti grantId agentId scopes audience expiresAt) rest

/-- A decision is counted first. If what follows does not audit it, the call fails. -/
theorem decision_bind (h : Balances p balance weight bound) {α : Type} {decision : Decision}
    {action : String} {act : Monitored α} (audits : act.Moves balance (weight decision action) 0) :
    (Action.count (Metrics.recordDecision decision.name action) >>= fun _ => act).Moves balance
      0 bound := by
  have hweight := h.le decision action
  have hmoves := (h.decision decision action).bind (fun _ => audits)
    (neg_nonpos.mpr (h.nonneg decision action)) (Nat.zero_le bound) (by omega)
  rwa [neg_add_cancel] at hmoves

theorem enactDecision (h : Balances p balance weight bound) (caller : Caller) (req : AccessRequest)
    (eval : PolicyEvaluation) {α : Type} {next : AccessResponse → Monitored α} {d : Int}
    (rest : ∀ response, (next response).Moves balance d e) :
    (Monitored.enactDecision p caller req eval >>= next).Moves balance d e := by
  rw [Monitored.enactDecision]
  cases eval.decision with
  | allow =>
      dsimp only
      rw [Monitored.grantAccess, bind_assoc]
      refine Action.Moves.keeps_bind (h.issue _ _) fun _ => ?_
      rw [bind_assoc]
      refine Action.Moves.keeps_bind (h.frame (keeps_utcNow tickFree_entries)) fun _ => ?_
      rw [bind_assoc]
      refine Action.Moves.keeps_bind (h.frame (keeps_orPanic _)) fun _ => ?_
      rw [bind_assoc]
      exact h.token_bind fun _ => rest _
  | requireApproval approver reason =>
      have bare : (requestApproval p caller req eval).Keeps Serving.entries :=
        (Database.keeps_findResourceByUri tickFree_entries _).attempt.bind fun _ =>
          (Database.keeps_createApprovalRequest tickFree_entries fun _ _ => rfl).bind
            fun _ => .pure _
      exact Action.Moves.keeps_bind (h.frame bare) rest
  | deny => exact rest _

theorem recordDecision (h : Balances p balance weight bound) (caller : Caller)
    (req : AccessRequest) (eval : PolicyEvaluation) (response : AccessResponse) :
    ((Patroclus.recordDecision p caller req eval response).uncounted : Monitored Unit).Moves balance
      (weight eval.decision req.action) 0 := by
  have hclock : (utcNow.uncounted : Monitored Instant).Keeps balance :=
    h.frame (keeps_utcNow tickFree_entries)
  rw [Patroclus.recordDecision, Action.uncounted_bind]
  refine Action.Moves.keeps_bind hclock fun _ => ?_
  rw [Action.uncounted_bind]
  refine Action.Moves.keeps_bind hclock fun _ => ?_
  rw [Action.uncounted_bind]
  refine Action.Moves.keeps_bind (h.frame fun _ => rfl) fun _ => ?_
  rw [Action.uncounted_bind]
  exact (h.audit _).bind_pure _

theorem requestAccess (h : Balances p balance weight bound) (auth : Option Uuid)
    (req : AccessRequest) : (Monitored.requestAccess p auth req).Moves balance 0 bound := by
  have stopped (response : AccessResponse) : (pure response : Monitored _).Moves balance 0 bound :=
    .of_keeps (.pure _)
  have resolve := keeps_resolveCaller (p := p) tickFree_entries ignoresSessions_entries auth req
  refine Action.Moves.keeps_bind (h.frame resolve) fun caller => .ite (stopped _)
    (Action.Moves.keeps_bind (Action.Keeps.read _) fun _ => .ite (stopped _) ?_)
  have evaluate := keeps_evalEngine tickFree_entries ignoresSessions_entries (caller.context req)
  refine Action.Moves.keeps_bind (h.frame evaluate) fun eval => h.decision_bind ?_
  exact h.enactDecision caller req eval fun response =>
    (h.recordDecision caller req eval response).bind_pure _

theorem checkAccess (h : Balances p balance weight bound) (auth : Option Uuid)
    (req : AccessRequest) : (Monitored.checkAccess p auth req).Moves balance 0 bound := by
  refine Action.Moves.keeps_bind (h.frame (keeps_authenticatedAs auth _)) fun _ =>
    Action.Moves.keeps_bind (h.frame (Database.keeps_getAgent tickFree_entries _)) fun agent => ?_
  refine Action.Moves.keeps_bind (h.frame (keeps_ownerPrincipal tickFree_entries agent))
    fun principal => Action.Moves.keeps_bind (Action.Keeps.read _) fun _ =>
      .ite (.of_keeps (.pure _)) ?_
  have evaluate := keeps_evalEngine tickFree_entries ignoresSessions_entries
    (req.rehearsal agent principal)
  exact Action.Moves.keeps_bind (h.frame evaluate) fun eval =>
    h.decision_bind ((h.audit _).bind_pure _)

theorem delegate (h : Balances p balance weight bound) (auth : Option Uuid)
    (req : DelegateRequest) :
    (Monitored.delegate p auth req).Moves balance (weight .allow "delegate") 0 := by
  refine Action.Moves.keeps_bind (h.frame (keeps_authenticated auth)) fun presenter => ?_
  refine Action.Moves.keeps_bind (h.frame (keeps_admitDelegation tickFree_entries presenter req))
    fun claims => ?_
  refine Action.Moves.keeps_bind (h.frame (keeps_delegationExpiry tickFree_entries claims _))
    fun expiry => Action.Moves.keeps_bind (h.issue _ _) fun issued => ?_
  exact (h.token_bind fun _ => (h.audit _).bind_pure _).bind_pure _

theorem principalDelegate (h : Balances p balance weight bound) (req : PrincipalDelegateRequest) :
    (Monitored.principalDelegate p req).Moves balance 0 0 := by
  refine Action.Moves.keeps_bind (h.frame (Database.keeps_getAgent tickFree_entries _))
    fun agent => ?_
  cases agent.ownerId with
  | none => exact .of_keeps (h.frame (keeps_raise _))
  | some principalId =>
      refine Action.Moves.keeps_bind (h.frame (Database.keeps_getPrincipal tickFree_entries _))
        fun _ => Action.Moves.keeps_bind (h.frame (keeps_utcNow tickFree_entries)) fun _ =>
          Action.Moves.keeps_bind (h.frame (keeps_orPanic _)) fun _ => ?_
      exact Action.Moves.keeps_bind (h.frame (Database.keeps_createGrant tickFree_entries
        fun _ _ => rfl)) fun _ => Action.Moves.keeps_bind (h.issue _ _) fun _ =>
          h.token_bind fun _ => .of_keeps (.pure _)

/-- Only an access call moves the balance, when it fails. -/
theorem serve (h : Balances p balance weight bound) (undelegated : weight .allow "delegate" = 0)
    (call : Call) : (Monitored.serve p call).Moves balance 0
      (if call.seeksAccess then bound else 0) := by
  have other {call : Call} (undecided : call.decides = false) :
      ((Patroclus.serve p call).uncounted : Monitored Reply).Moves balance 0 0 :=
    .of_keeps (h.frame (keeps_entries_serve undecided))
  cases call with
  | requestAccess auth req => exact (h.requestAccess auth req).bind_pure _
  | check auth req => exact (h.checkAccess auth req).bind_pure _
  | delegate auth req => exact undelegated ▸ (h.delegate auth req).bind_pure _
  | principalDelegate req => exact (h.principalDelegate req).bind_pure _
  | _ => exact other rfl

theorem prometheusMetrics (h : Balances p balance weight bound) :
    (Patroclus.prometheusMetrics p).Keeps balance := by
  refine (h.frame (Action.Keeps.read _)).bind fun _ => ?_
  refine (h.frame (Database.keeps_listPendingApprovals tickFree_entries).attempt).bind fun _ => ?_
  exact Action.Keeps.bind (Action.Keeps.write fun s => h.gauges s.1 s.2 _ _) fun _ => .read _

end Balances

/-! ## Tokens and decisions -/

/-- The rows of the token table beyond the tokens that have been counted. -/
def tokenBalance (s : Serving × Metrics) : Int := s.1.app.db.tokens.length - s.2.tokensIssued

theorem balances_tokens : Balances p tokenBalance (fun _ _ => 0) 0 where
  frame h := h.uncounted fun (entries : Nat × List AuditRow) (metrics : Metrics) =>
    (entries.1 : Int) - metrics.tokensIssued
  token jti grantId agentId scopes audience expiresAt := by
    rintro ⟨s, metrics⟩
    rcases hrecord : Database.recordToken p jti grantId agentId scopes audience expiresAt s with
      ⟨outcome, finish⟩
    have hrun : (Database.recordToken p jti grantId agentId scopes audience expiresAt).uncounted
        (s, metrics) = (outcome, (finish, metrics)) :=
      congrArg (fun result => (result.1, (result.2, metrics))) hrecord
    cases outcome with
    | error e =>
        rw [Action.bind_run_error hrun, Database.recordToken_error hrecord]
        rfl
    | ok u =>
        obtain ⟨row, -, rfl⟩ := Database.recordToken_ok hrecord
        rw [Action.bind_run_ok hrun]
        simp only [Action.count, Action.write_run, tokenBalance, Metrics.countToken,
          Serving.withDb_app, List.length_append, List.length_singleton]
        omega
  decision _ _ := .of_keeps fun _ => rfl
  audit entry := by
    have bare : (Database.createAuditEntry p entry).Keeps fun s => s.app.db.tokens.length :=
      Database.keeps_createAuditEntry (fun _ => rfl) fun _ _ _ => rfl
    exact .of_keeps (bare.uncounted fun (rows : Nat) (metrics : Metrics) =>
      (rows : Int) - metrics.tokensIssued)
  serving _ _ _ _ _ _ _ := rfl
  gauges _ _ _ _ := rfl
  nonneg _ _ := le_rfl
  le _ _ := le_rfl

/-- The audit entries of a decision on an action. -/
def decisionRows (outcome action : String) (rows : List AuditRow) : Nat :=
  rows.countP fun row => row.decision == outcome && row.action == action

/-- The audit entries of a decision beyond the decisions that have been counted. -/
def decisionBalance (outcome action : String) (s : Serving × Metrics) : Int :=
  decisionRows outcome action s.1.auditLog - s.2.authzDecisions (outcome, action)

/-- Whether a decision on a requested action is the one that is looked at. -/
def decisionWeight (outcome action : String) (decision : Decision) (requested : String) : Int :=
  if decision.name == outcome && requested == action then 1 else 0

theorem balances_decisions (outcome action : String) :
    Balances p (decisionBalance outcome action) (decisionWeight outcome action) 1 where
  frame h := h.uncounted fun (entries : Nat × List AuditRow) (metrics : Metrics) =>
    (decisionRows outcome action entries.2 : Int) - metrics.authzDecisions (outcome, action)
  token jti grantId agentId scopes audience expiresAt := by
    have bare : (Database.recordToken p jti grantId agentId scopes audience expiresAt).Keeps
        Serving.auditLog := Database.keeps_recordToken tickFree_auditLog fun _ _ => rfl
    exact (bare.uncounted fun (rows : List AuditRow) (metrics : Metrics) =>
      (decisionRows outcome action rows : Int) - metrics.authzDecisions (outcome, action)).bind
        fun _ => fun _ => rfl
  decision decision requested := by
    refine Action.Moves.write fun s => ?_
    rw [decisionBalance, decisionBalance, Metrics.recordDecision, decisionWeight]
    by_cases h : decision.name = outcome ∧ requested = action
    · obtain ⟨rfl, rfl⟩ := h
      simp only [Function.update_self, beq_self_eq_true, Bool.and_self, if_true]
      omega
    · have hne : (outcome, action) ≠ (decision.name, requested) := fun heq => by
        cases heq
        exact h ⟨rfl, rfl⟩
      simp only [Function.update_of_ne hne, Bool.and_eq_true, beq_iff_eq, h, if_false]
      omega
  audit entry := by
    have bare : (Database.createAuditEntry p entry).Moves
        (fun s => (decisionRows outcome action s.auditLog : Int))
        (decisionWeight outcome action entry.decision entry.action) 0 := by
      intro s
      obtain ⟨audit, row, hrow, hrun⟩ := Database.createAuditEntry_eq (p := p) entry s
      rw [hrun]
      cases s.tape.fault (s.tick + 2) with
      | some message => exact ⟨(sub_zero _).le, le_rfl⟩
      | none =>
          simp only [Serving.auditLog, decisionRows, Serving.withDb_app, List.countP_append,
            List.countP_singleton, hrow.decision, hrow.action, decisionWeight]
          split <;> rfl
    exact bare.uncounted fun (metrics : Metrics) => (metrics.authzDecisions (outcome, action) : Int)
  serving _ _ _ _ _ _ _ := rfl
  gauges _ _ _ _ := rfl
  nonneg decision requested := by
    rw [decisionWeight]
    split <;> decide
  le decision requested := by
    rw [decisionWeight]
    split <;> decide

/-! ## Runs -/

def MonitoredInput.restarts : MonitoredInput → Bool
  | .server ⟨.restart, _, _⟩ => true
  | _ => false

/-- The inputs that the bare server receives. -/
def MonitoredInput.input? : MonitoredInput → Option Input
  | .server input => some input
  | .scrape _ _ => none

/-- Two servers that differ in the time of their last input at most. -/
structure World.SameState (w w' : World) : Prop where
  app : w.app = w'.app
  ledger : w.ledger = w'.ledger
  up : w.up = w'.up

theorem World.SameState.serving {w w' : World} (same : w.SameState w') (tape : Tape) :
    w.serving tape = w'.serving tape := by
  rw [World.serving, World.serving, same.app, same.ledger]

theorem World.SameState.step {w w' : World} (same : w.SameState w') (input : Input) :
    (w.step p input).SameState (w'.step p input) := by
  cases hevent : input.event with
  | restart =>
      simp only [World.step, hevent, same.serving]
      exact ⟨rfl, rfl, rfl⟩
  | call call =>
      simp only [World.step, hevent, same.serving, same.up]
      split
      · exact ⟨rfl, rfl, rfl⟩
      · exact ⟨same.app, same.ledger, rfl⟩

namespace MonitoredWorld

variable {m : MonitoredWorld} {w : World}

theorem answer_eq (same : m.world.SameState w) (input : Input) :
    m.answer p input = w.answer p input := by
  cases hevent : input.event with
  | restart => simp only [answer, World.answer, hevent]
  | call call =>
      have herases := Monitored.erases_serve (p := p) call (m.serving input.tape)
      simp only [answer, World.answer, hevent, World.reply, same.up, ← same.serving]
      split
      · exact congrArg Prod.fst herases
      · rfl

theorem step_server (m : MonitoredWorld) (input : Input) :
    (m.step p (.server input)).world = m.world.step p input := by
  cases hevent : input.event with
  | restart => simp only [step, hevent]
  | call call =>
      have herases := congrArg Prod.snd (Monitored.erases_serve (p := p) call
        (m.serving input.tape))
      dsimp only at herases
      simp only [step, World.step, hevent]
      split
      · rw [after, herases]
        rfl
      · rfl

theorem step_scrape (m : MonitoredWorld) (arrival : Instant) (tape : Tape) :
    (m.step p (.scrape arrival tape)).world.SameState m.world := by
  have happ : (prometheusMetrics p (m.serving tape)).2.1.app = m.world.app :=
    keeps_prometheusMetrics (fun _ => rfl : TickFree Serving.app) _
  have hledger : (prometheusMetrics p (m.serving tape)).2.1.ledger = m.world.ledger :=
    keeps_prometheusMetrics (fun _ => rfl : TickFree Serving.ledger) _
  rw [step]
  split
  · rename_i hup
    exact ⟨happ, hledger, hup.symm⟩
  · exact ⟨rfl, rfl, rfl⟩

/-- The monitored server follows the bare one through any run. -/
theorem run_sameState (same : m.world.SameState w) (inputs : List MonitoredInput) :
    (m.run p inputs).world.SameState (w.run p (inputs.filterMap (·.input?))) := by
  induction inputs generalizing m w with
  | nil => exact same
  | cons input inputs ih =>
      cases input with
      | server input => exact ih ((step_server m input) ▸ same.step input)
      | scrape arrival tape =>
          have hscrape := step_scrape (p := p) m arrival tape
          exact ih ⟨hscrape.app.trans same.app, hscrape.ledger.trans same.ledger,
            hscrape.up.trans same.up⟩

end MonitoredWorld

/-- Monitoring shows in no answer: after any run, however often it has been scraped, the
monitored server answers as the bare server does, over the same state. -/
theorem monitoring_unseen (p : Platform) (inputs : List MonitoredInput) (input : Input) :
    (initialMonitored.run p inputs).answer p input =
        (initialWorld.run p (inputs.filterMap (·.input?))).answer p input ∧
      (initialMonitored.run p inputs).world.SameState
        (initialWorld.run p (inputs.filterMap (·.input?))) := by
  have same := MonitoredWorld.run_sameState (p := p) (m := initialMonitored) (w := initialWorld)
    ⟨rfl, rfl, rfl⟩ inputs
  exact ⟨MonitoredWorld.answer_eq same input, same⟩

/-! ## What has been counted since a start -/

/-- Rows of approval requests are always read. -/
theorem Database.mapM_approvalFromRow (rows : List ApprovalRow) (s : Serving) :
    ∃ requests finish, rows.mapM (approvalFromRow p) s = (.ok requests, finish) ∧
      requests.length = rows.length := by
  induction rows generalizing s with
  | nil => exact ⟨[], s, rfl, rfl⟩
  | cons row rows ih =>
      obtain ⟨requests, finish, hrest, hlength⟩ := ih s.next.next
      obtain ⟨request, hrow⟩ : ∃ request, approvalFromRow p row s = (.ok request, s.next.next) :=
        ⟨_, rfl⟩
      refine ⟨request :: requests, finish, ?_, congrArg (· + 1) hlength⟩
      rw [List.mapM_cons, Action.bind_run_ok hrow, Action.bind_run_ok hrest]
      rfl

/-- The depth of the approval queue, or nothing if it cannot be read. -/
theorem Database.listPendingApprovals_length (s : Serving) :
    ((listPendingApprovals p s).1.toOption.map (·.length)) =
      if s.tape.fault s.tick = none then
        some (s.app.db.approvalRequests.filter (·.status == .pending)).length else none := by
  rw [listPendingApprovals]
  cases hfault : s.tape.fault s.tick with
  | some message =>
      rw [Action.bind_run_error (query_fault hfault), if_neg (by simp)]
      rfl
  | none =>
      obtain ⟨requests, finish, hread, hlength⟩ := mapM_approvalFromRow (p := p)
        (orderDesc (·.createdAt) (s.app.db.approvalRequests.filter (·.status == .pending))) s.next
      rw [Action.bind_run_ok (query_run hfault), hread, if_pos rfl]
      exact congrArg some (hlength.trans (List.length_mergeSort _))

namespace MonitoredWorld

variable {m : MonitoredWorld}

/-- An access call that is answered with an error. -/
def failsAccess (p : Platform) (m : MonitoredWorld) : MonitoredInput → Bool
  | .server input =>
      match input.event with
      | .call call => call.seeksAccess && !(m.answer p input).isOk
      | .restart => false
  | .scrape _ _ => false

/-- The access calls of a run that are answered with an error. -/
def failedAccess (p : Platform) (m : MonitoredWorld) : List MonitoredInput → Nat
  | [] => 0
  | input :: inputs => (m.failsAccess p input).toNat + failedAccess p (m.step p input) inputs

/-- A balance between two inputs. -/
def balance (balance : Serving × Metrics → Int) (m : MonitoredWorld) : Int :=
  balance (m.serving (.steady opening 0))

variable {balance : Serving × Metrics → Int} {weight : Decision → String → Int} {bound : Nat}

theorem balance_after (h : Balances p balance weight bound) (finish : Serving × Metrics)
    (arrival : Instant) : (after finish arrival).balance balance = balance finish :=
  h.serving finish.1.app finish.1.ledger _ _ _ _ finish.2

theorem balance_serving (h : Balances p balance weight bound) (m : MonitoredWorld) (tape : Tape) :
    balance (m.serving tape) = m.balance balance :=
  h.serving m.world.app m.world.ledger _ _ _ _ m.metrics

/-- One input leaves the balance alone, unless it is an access call that fails. -/
theorem balance_step (h : Balances p balance weight bound)
    (undelegated : weight .allow "delegate" = 0) {input : MonitoredInput}
    (running : input.restarts = false) :
    m.balance balance - bound * (m.failsAccess p input).toNat ≤ (m.step p input).balance balance ∧
      (m.step p input).balance balance ≤ m.balance balance := by
  have kept (m' : MonitoredWorld) (hm' : m'.balance balance = m.balance balance) (fails : Bool) :
      m.balance balance - bound * fails.toNat ≤ m'.balance balance ∧
        m'.balance balance ≤ m.balance balance := by
    rw [hm']
    exact ⟨by cases fails <;> simp, le_rfl⟩
  rcases input with input | ⟨arrival, tape⟩
  · rcases input with ⟨call | _, arrival, tape⟩
    · by_cases hup : m.world.up = true
      · have hmoves := h.serve undelegated call (m.serving tape)
        have hstep : (m.step p (.server ⟨.call call, arrival, tape⟩)).balance balance =
            balance (Monitored.serve p call (m.serving tape)).2 := by
          simp only [step, hup, if_true]
          exact balance_after h _ _
        have hanswer : m.answer p ⟨.call call, arrival, tape⟩ =
            (Monitored.serve p call (m.serving tape)).1 := by
          simp only [answer, hup, if_true]
        rw [balance_serving h] at hmoves
        rw [hstep, failsAccess]
        dsimp only
        rw [hanswer]
        cases houtcome : (Monitored.serve p call (m.serving tape)).1 with
        | ok reply =>
            rw [houtcome, add_zero] at hmoves
            rw [hmoves]
            exact ⟨by simp [Except.isOk, Except.toBool], le_rfl⟩
        | error e =>
            rw [houtcome] at hmoves
            dsimp only at hmoves
            refine ⟨le_trans ?_ hmoves.1, hmoves.2⟩
            cases call.seeksAccess <;> simp [Except.isOk, Except.toBool]
      · refine kept _ ?_ _
        simp only [step, hup]
        rfl
    · cases running
  · refine kept _ ?_ _
    rw [step]
    split
    · rw [balance_after h, h.prometheusMetrics, balance_serving h]
    · rfl

theorem balance_run (h : Balances p balance weight bound)
    (undelegated : weight .allow "delegate" = 0) {inputs : List MonitoredInput}
    (running : ∀ input ∈ inputs, input.restarts = false) :
    m.balance balance - bound * m.failedAccess p inputs ≤ (m.run p inputs).balance balance ∧
      (m.run p inputs).balance balance ≤ m.balance balance := by
  induction inputs generalizing m with
  | nil => simp [failedAccess, run]
  | cons input inputs ih =>
      have hstep := balance_step h undelegated (m := m) (running input List.mem_cons_self)
      have hrest := ih (m := m.step p input) fun next hnext =>
        running next (List.mem_cons_of_mem _ hnext)
      have hrun : m.run p (input :: inputs) = (m.step p input).run p inputs := rfl
      rw [failedAccess, Nat.cast_add, mul_add, hrun]
      exact ⟨by omega, hrest.2.trans hstep.2⟩

/-- A start keeps the rows and begins to count. -/
theorem entries_restart {restart : Input} (event : restart.event = .restart) :
    (m.step p (.server restart)).metrics = .new ∧
      (m.step p (.server restart)).world.app.db.tokens.length = m.world.app.db.tokens.length ∧
      (m.step p (.server restart)).world.app.db.auditLog = m.world.app.db.auditLog := by
  obtain ⟨_, arrival, tape⟩ := restart
  cases event
  have hentries := keeps_entries_startUp (p := p) (m.world.serving tape)
  exact ⟨rfl, Prod.mk.inj hentries⟩

/-- What a scrape is served: the counters, and gauges that have just been read. -/
theorem scraped_eq {tape : Tape} {metrics : Metrics} (h : m.scraped p tape = .ok metrics) :
    metrics = { m.metrics with
      activeSessions := m.world.app.sessionStore.listSessions.length
      approvalQueueDepth := if tape.fault 0 = none then
          ((m.world.app.db.approvalRequests.filter (·.status == .pending)).length : Int)
        else 0 } := by
  rw [scraped] at h
  split at h
  · have hserved : (prometheusMetrics p (m.serving tape)).1 = .ok { m.metrics with
        activeSessions := m.world.app.sessionStore.listSessions.length
        approvalQueueDepth := (((Database.listPendingApprovals p (m.world.serving
          tape)).1.toOption.map List.length).getD 0 : Nat) } := rfl
    have hdepth := Database.listPendingApprovals_length (p := p) (m.world.serving tape)
    rw [hserved, hdepth] at h
    rw [← Except.ok.inj h]
    cases hfault : tape.fault 0 <;> simp [World.serving, hfault]
  · cases h

end MonitoredWorld

section

variable {m : MonitoredWorld} {restart : Input} {since : List MonitoredInput} {tape : Tape}
  {metrics : Metrics}

/-- A scrape serves the number of token rows that have been added since the server was
started, in whatever order it was called and scraped and whatever has failed, the number of
its sessions, and the number of pending approvals if it can be read. -/
theorem scrape_counts_tokens (event : restart.event = .restart)
    (running : ∀ input ∈ since, input.restarts = false)
    (scraped : ((m.step p (.server restart)).run p since).scraped p tape = .ok metrics) :
    m.world.app.db.tokens.length + metrics.tokensIssued =
        ((m.step p (.server restart)).run p since).world.app.db.tokens.length ∧
      metrics.activeSessions = ((m.step p (.server restart)).run p
        since).world.app.sessionStore.listSessions.length ∧
      metrics.approvalQueueDepth = if tape.fault 0 = none then
        ((((m.step p (.server restart)).run p since).world.app.db.approvalRequests.filter
          (·.status == .pending)).length : Int) else 0 := by
  obtain ⟨hnew, htokens, -⟩ := MonitoredWorld.entries_restart (p := p) (m := m) event
  have hrun := MonitoredWorld.balance_run (p := p) (m := m.step p (.server restart))
    balances_tokens rfl running
  rw [MonitoredWorld.scraped_eq scraped]
  refine ⟨?_, rfl, rfl⟩
  simp only [MonitoredWorld.balance, MonitoredWorld.serving, World.serving, tokenBalance, hnew,
    Metrics.new] at hrun
  dsimp only
  omega

/-- A fresh server is started, and an agent is enrolled; a principal grants it a token, and a
request of its own is denied. -/
def granted : MonitoredWorld :=
  initialMonitored.step delegationPlatform (.server (.steady .restart opening 100))

def grants : List MonitoredInput := (enrolment.tail ++ [granting,
  .steady (.call (.requestAccess (some ⟨300⟩) readDatabase)) opening 500]).map .server

theorem scraped_grants : ∃ metrics,
    (granted.run delegationPlatform grants).scraped delegationPlatform (.steady opening 700) =
      .ok metrics := by
  rw [MonitoredWorld.scraped, if_pos (by decide)]
  exact ⟨_, rfl⟩

theorem scrape_counts_tokens_grants : ∃ metrics,
    (granted.run delegationPlatform grants).scraped delegationPlatform (.steady opening 700) =
      .ok metrics ∧
    0 + metrics.tokensIssued = 1 := by
  obtain ⟨metrics, hscraped⟩ := scraped_grants
  refine ⟨metrics, hscraped, ?_⟩
  have hrows : (granted.run delegationPlatform grants).world.app.db.tokens.length = 1 := by decide
  rw [← hrows]
  exact (scrape_counts_tokens rfl (by decide) hscraped).1

/-- Of every decision but delegations a scrape serves the number of audit entries that have
been added since the start; what it serves beyond that are access calls that were answered
with an error. -/
theorem scrape_counts_decisions {outcome action : String}
    (other : (outcome, action) ≠ ("allow", "delegate")) (event : restart.event = .restart)
    (running : ∀ input ∈ since, input.restarts = false)
    (scraped : ((m.step p (.server restart)).run p since).scraped p tape = .ok metrics) :
    decisionRows outcome action ((m.step p (.server restart)).run p since).world.app.db.auditLog ≤
        decisionRows outcome action m.world.app.db.auditLog +
          metrics.authzDecisions (outcome, action) ∧
      decisionRows outcome action m.world.app.db.auditLog +
          metrics.authzDecisions (outcome, action) ≤
        decisionRows outcome action
            ((m.step p (.server restart)).run p since).world.app.db.auditLog +
          (m.step p (.server restart)).failedAccess p since := by
  obtain ⟨hnew, -, hlog⟩ := MonitoredWorld.entries_restart (p := p) (m := m) event
  have undelegated : decisionWeight outcome action .allow "delegate" = 0 := by
    rw [decisionWeight, if_neg]
    rw [Bool.and_eq_true, beq_iff_eq, beq_iff_eq]
    rintro ⟨rfl, rfl⟩
    exact other rfl
  have hrun := MonitoredWorld.balance_run (p := p) (m := m.step p (.server restart))
    (balances_decisions outcome action) undelegated running
  rw [MonitoredWorld.scraped_eq scraped]
  simp only [MonitoredWorld.balance, MonitoredWorld.serving, World.serving, decisionBalance,
    Serving.auditLog, hlog, hnew, Metrics.new] at hrun
  dsimp only
  omega

theorem scrape_counts_decisions_grants : ∃ metrics,
    (granted.run delegationPlatform grants).scraped delegationPlatform (.steady opening 700) =
      .ok metrics ∧
    1 ≤ 0 + metrics.authzDecisions ("deny", "read") := by
  obtain ⟨metrics, hscraped⟩ := scraped_grants
  refine ⟨metrics, hscraped, ?_⟩
  have hrows : decisionRows "deny" "read"
      (granted.run delegationPlatform grants).world.app.db.auditLog = 1 := by decide
  exact hrows ▸ (scrape_counts_decisions (by decide) rfl (by decide) hscraped).1

end

end

end Patroclus
