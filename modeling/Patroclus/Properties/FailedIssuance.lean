import Patroclus.Foundation.Clean
import Patroclus.Api.Caller
import Patroclus.Api.Delegation
import Patroclus.Api.Standing
import Patroclus.Db.Completion

/-!
# Failed issuance

Three handlers issue tokens, and each writes to the database more than once without a
transaction. A call that returns an error has left nothing behind exactly if nothing failed
after its first write: the audit entry of a request or a delegation, the reading back of an
approval request, and for a root grant the signature and the row of its token.
-/

namespace Patroclus

open Foundation

/-- What issuance leaves behind: rows of four tables, and the trajectories and the action
counts of the sessions. -/
structure Trace where
  grants : List GrantRow
  tokens : List TokenRow
  approvalRequests : List ApprovalRow
  auditLog : List AuditRow
  trajectory : String → List TrajectoryEvent
  actionsCount : String → Nat

def Serving.trace (s : Serving) : Trace where
  grants := s.app.db.grants
  tokens := s.app.db.tokens
  approvalRequests := s.app.db.approvalRequests
  auditLog := s.app.db.auditLog
  trajectory key := (s.standing key).trajectory
  actionsCount key := (s.standing key).actionsCount

/-- The failure is an error that the caller gets, and not a panic. -/
def Failure.Returned (failure : Failure) : Prop := ∃ e, failure = .error e

/-- A call that returns an error leaves no trace. -/
def Traceless {α : Type} (act : Handler α) (s : Serving) : Prop :=
  act.Clean Serving.trace Failure.Returned s

section

variable (p : Platform)

/-- `request_access` up to the evaluation: the caller is found and not stopped. -/
structure AccessEvaluated (auth : Option Uuid) (req : AccessRequest) (s : Serving)
    (caller : Caller) (eval : PolicyEvaluation) (s₂ : Serving) : Prop where
  evaluated : ∃ s₁, resolveCaller p auth req s = (.ok caller, s₁) ∧
    caller.session.killed = false ∧ caller.agent.id ∉ s₁.app.sessionStore.killedAgents ∧
    evalEngine (caller.context req) s₁ = (.ok eval, s₂)

/-- The first statements of an approval: the request is filed under a new id. -/
def fileApproval (caller : Caller) (req : AccessRequest) : Handler Uuid := do
  let resourceId := match ← (Database.findResourceByUri req.resource).attempt with
    | .ok resourceId => resourceId
    | .error _ => none
  let id ← nowV7
  let now ← utcNow
  match now.addSeconds (asI64 300) with
  | none => raise (.database ("db task panicked: " ++ p.joinError))
  | some expiresAt =>
      sql (Db.insertApprovalRequest p.foreignKeys {
        id := id
        agentId := caller.agent.id
        principalId := caller.principal.map (·.id)
        resourceId := resourceId
        action := req.action
        requestedScopes := req.requestedScopes
        status := .pending
        approverId := none
        reason := none
        approvalToken := none
        expiresAt := p.toRfc3339 expiresAt
        createdAt := p.toRfc3339 now
        resolvedAt := none })
      return id

/-- `delegate` up to the row of the child token. -/
def recordChild (auth : Option Uuid) (req : DelegateRequest) :
    Handler (AgentClaims × Instant × String × String) := do
  let presenter ← authenticated auth
  let claims ← admitDelegation p presenter req
  let (effectiveExpiry, ttlSeconds) ← delegationExpiry claims req.expiresInSeconds
  let (jwt, jti) ← issue p (.delegate presenter req.parentGrantToken)
    (childParams p claims req ttlSeconds)
  Database.recordToken p jti none req.subAgentId req.scopes (agentAudience req.subAgentId)
    effectiveExpiry
  return (claims, effectiveExpiry, jwt, jti)

/-- A grant that has its row, but no token yet. -/
structure StoredGrant where
  agent : Agent
  principal : Principal
  expiresAt : Instant
  grantId : Uuid

/-- `principal_delegate` up to the row of the grant. -/
def storeGrant (req : PrincipalDelegateRequest) : Handler StoredGrant := do
  let agent ← Database.getAgent p req.agentId
  match agent.ownerId with
  | none => raise (.agentNotFound "agent has no owner principal")
  | some principalId =>
      let principal ← Database.getPrincipal p principalId
      let expiresAt ← orPanic ((← utcNow).addSeconds (asI64 req.expiresInSeconds))
      let grantId ← Database.createGrant p agent.id principalId none req.scopes req.constraints
        expiresAt
      return ⟨agent, principal, expiresAt, grantId⟩

end

/-- A request whose approval can be read back and whose decision can be entered. -/
structure AccessSpared (p : Platform) (auth : Option Uuid) (req : AccessRequest) (s : Serving) :
    Prop where
  filed : ∀ caller eval approver reason s₂ id s₃, AccessEvaluated p auth req s caller eval s₂ →
    eval.decision = .requireApproval approver reason →
    fileApproval p caller req s₂ = (.ok id, s₃) → s₃.tape.fault s₃.tick = none
  entered : ∀ caller eval s₂ response s₃, AccessEvaluated p auth req s caller eval s₂ →
    enactDecision p caller req eval s₂ = (.ok response, s₃) → s₃.tape.fault (s₃.tick + 4) = none

/-- A delegation whose audit entry is stored once the child token has its row. -/
def DelegationSpared (p : Platform) (auth : Option Uuid) (req : DelegateRequest) (s : Serving) :
    Prop :=
  ∀ child s', recordChild p auth req s = (.ok child, s') → s'.tape.fault (s'.tick + 2) = none

/-- A token can be signed and recorded: signing returns no error, the insertion does not fail,
and the id is new. An expiry out of range is a panic, and no error is returned. -/
def MintSpared (p : Platform) (origin : Origin) (params : IssueTokenParams) (s : Serving) : Prop :=
  match sign p origin params (s.tape.now s.tick) (s.tape.uuid (s.tick + 1))
    (s.tape.now (s.tick + 2)) with
  | .ok minted => s.tape.fault (s.tick + 4) = none ∧
      s.app.db.tokens.any (·.id == minted.claims.jti) = false
  | .error failure => ¬ failure.Returned

/-- A root grant whose token can be signed and recorded once the grant has its row. -/
def GrantSpared (p : Platform) (req : PrincipalDelegateRequest) (s : Serving) : Prop :=
  ∀ stored s', storeGrant p req s = (.ok stored, s') →
    MintSpared p (.principalDelegate stored.grantId)
      (grantParams p stored.principal stored.agent req)
      s'

section

variable {p : Platform} {s finish : Serving}

theorem tickFree_trace : TickFree Serving.trace := fun _ => rfl

/-! ## Requesting access -/

theorem keeps_resolveCaller_trace (auth : Option Uuid) (req : AccessRequest) :
    (resolveCaller p auth req).Keeps Serving.trace := by
  have hopen (sessionId : String) (agentId : Uuid) (principalId : Option Uuid) :
      (getOrCreateSession sessionId agentId principalId).Keeps Serving.trace := fun s => by
    have hstanding := keeps_getOrCreateSession_standing sessionId agentId principalId s
    simp only [Serving.trace, hstanding]
    rfl
  exact keeps_resolveCaller_of_opening hopen tickFree_trace auth req

theorem keeps_evalEngine_trace (ctx : PolicyContext) : (evalEngine ctx).Keeps Serving.trace := by
  intro s
  have hstanding := keeps_evalEngine_standing ctx s
  simp only [Serving.trace, hstanding]
  rfl

/-- A token that is not recorded leaves nothing behind. -/
theorem clean_recordToken {jti : String} {grantId : Option Uuid} {agentId : Uuid}
    {scopes : List String} {audience : String} {expiresAt : Instant} (s : Serving) :
    Traceless (Database.recordToken p jti grantId agentId scopes audience expiresAt) s := by
  intro e finish run _
  rw [Database.recordToken_error run]
  rfl

theorem traceless_grantAccess (caller : Caller) (req : AccessRequest) (eval : PolicyEvaluation)
    (s : Serving) : Traceless (grantAccess p caller req eval) s := by
  refine (Action.clean_bind_iff (keeps_issue tickFree_trace fun _ _ => rfl)).mpr fun _ s₁ _ => ?_
  refine (Action.clean_bind_iff (keeps_utcNow tickFree_trace)).mpr fun _ s₂ _ => ?_
  refine (Action.clean_bind_iff (keeps_orPanic _)).mpr fun _ s₃ _ => ?_
  exact Action.clean_bind_pure.mpr (clean_recordToken s₃)

/-- The approval of a request is filed, and then read back. -/
theorem requestApproval_eq_fileApproval (caller : Caller) (req : AccessRequest)
    (eval : PolicyEvaluation) : requestApproval p caller req eval = (do
      let id ← fileApproval p caller req
      let approval ← Database.getApprovalRequest p id
      return { AccessResponse.ofEvaluation eval with
        approval := some ⟨approval.id, "pending"⟩ }) := by
  rw [requestApproval, fileApproval, bind_assoc]
  congr
  funext found
  dsimp only
  rw [Database.createApprovalRequest, bind_assoc, bind_assoc]
  congr
  funext id
  rw [bind_assoc, bind_assoc]
  congr
  funext now
  cases now.addSeconds (asI64 300) with
  | none => rfl
  | some expiresAt =>
      dsimp only
      rw [bind_assoc, bind_assoc]
      rfl

theorem clean_fileApproval (caller : Caller) (req : AccessRequest) (s : Serving) :
    Traceless (fileApproval p caller req) s := by
  refine (Action.clean_bind_iff (Database.keeps_findResourceByUri tickFree_trace _).attempt).mpr
    fun found s₁ _ => ?_
  refine (Action.clean_bind_iff (keeps_nowV7 tickFree_trace)).mpr fun id s₂ _ => ?_
  refine (Action.clean_bind_iff (keeps_utcNow tickFree_trace)).mpr fun now s₃ _ => ?_
  cases now.addSeconds (asI64 300) with
  | none => exact (keeps_raise _).clean s₃
  | some expiresAt =>
      refine Action.clean_bind_pure.mpr fun e finish run _ => ?_
      rw [sql_eq_error run]
      rfl

/-- An approval that is filed is one more row under its id. -/
theorem fileApproval_ok {caller : Caller} {req : AccessRequest} {id : Uuid}
    (run : fileApproval p caller req s = (.ok id, finish)) : ∃ row : ApprovalRow, row.id = id ∧
      finish.app.db.approvalRequests = s.app.db.approvalRequests ++ [row] := by
  obtain ⟨found, s₁, hfound, run⟩ := Action.bind_ok_iff.mp run
  have hkept := (Database.keeps_findResourceByUri tickFree_still _).attempt.eq hfound
  have happ : s₁.app = s.app := congrArg Prod.fst hkept
  obtain ⟨drawn, s₂, hdrawn, run⟩ := Action.bind_ok_iff.mp run
  cases hdrawn
  obtain ⟨now, s₃, hnow, run⟩ := Action.bind_ok_iff.mp run
  cases hnow
  cases hexpiry : (s₁.next.tape.now s₁.next.tick).addSeconds (asI64 300) with
  | none =>
      rw [hexpiry] at run
      exact absurd run raise_ne_ok
  | some expiresAt =>
      rw [hexpiry] at run
      obtain ⟨_, s₄, hsql, run⟩ := Action.bind_ok_iff.mp run
      obtain ⟨-, db, hinsert, rfl⟩ := sql_eq_ok.mp hsql
      obtain ⟨-, -, rfl⟩ := Db.insertApprovalRequest_eq_ok.mp hinsert
      cases run
      exact ⟨_, rfl, congrArg (·.db.approvalRequests ++ _) happ⟩

/-- An approval that is on record is read without an error exactly if the statement does not
fail. -/
theorem avoids_getApprovalRequest_iff {id : Uuid}
    (stored : s.app.db.approvalRequests.any (·.id == id) = true) :
    (Database.getApprovalRequest p id).Avoids Failure.Returned s ↔ s.tape.fault s.tick = none := by
  cases hfault : s.tape.fault s.tick with
  | some message =>
      have hrun : Database.getApprovalRequest p id s =
          (.error (.error (.database message)), s.next) :=
        Action.bind_run_error (Action.bind_run_error (sql_fault hfault))
      rw [Action.avoids_of_error hrun]
      exact iff_of_false (fun h => h ⟨_, rfl⟩) (Option.some_ne_none message)
  | none =>
      have hsome : (s.app.db.approvalRequests.find? (·.id == id)).isSome := by simpa using stored
      obtain ⟨row, hrow⟩ := Option.isSome_iff_exists.mp hsome
      have hread : Database.queryRow (fun db => db.approvalRequests.find? (·.id == id)) s =
          (.ok row, s.next) := Database.queryRow_eq_ok.mpr ⟨hfault, hrow, rfl⟩
      have hrun : Database.getApprovalRequest p id s = Database.approvalFromRow p row s.next :=
        Action.bind_run_ok hread
      exact iff_of_true (Action.avoids_of_run hrun) rfl

theorem traceless_requestApproval_iff {caller : Caller} {req : AccessRequest}
    {eval : PolicyEvaluation} : Traceless (requestApproval p caller req eval) s ↔
      ∀ id s', fileApproval p caller req s = (.ok id, s') → s'.tape.fault s'.tick = none := by
  rw [requestApproval_eq_fileApproval, Traceless, Action.clean_bind_iff_of_marks]
  · refine (and_iff_right (clean_fileApproval caller req s)).trans ?_
    refine forall₃_congr fun id s' run => ?_
    obtain ⟨row, hid, hrows⟩ := fileApproval_ok run
    rw [Action.avoids_bind_iff, avoids_getApprovalRequest_iff]
    · refine and_iff_left fun approval middle _ => ?_
      exact Action.avoids_of_run rfl
    · rw [hrows, List.any_append]
      simp [hid]
  · intro id s' run e finish herror htrace
    obtain ⟨row, -, hrows⟩ := fileApproval_ok run
    have hkept := ((Database.keeps_getApprovalRequest tickFree_trace id).bind fun _ =>
      .pure _).eq herror
    rw [hkept] at htrace
    have hsame : s'.app.db.approvalRequests = s.app.db.approvalRequests :=
      congrArg Trace.approvalRequests htrace
    rw [hrows] at hsame
    exact absurd (List.append_right_eq_self.mp hsame) (List.cons_ne_nil _ _)

/-- Carrying out a decision leaves a trace only with an approval that cannot be read back. -/
theorem traceless_enactDecision_iff {caller : Caller} {req : AccessRequest}
    {eval : PolicyEvaluation} : Traceless (enactDecision p caller req eval) s ↔
      ∀ approver reason id s', eval.decision = .requireApproval approver reason →
        fileApproval p caller req s = (.ok id, s') → s'.tape.fault s'.tick = none := by
  rw [enactDecision]
  cases eval.decision with
  | allow =>
      refine iff_of_true (traceless_grantAccess caller req eval s) ?_
      exact fun approver reason id s' h => absurd h Decision.noConfusion
  | requireApproval approver reason =>
      refine traceless_requestApproval_iff.trans ⟨fun h _ _ id s' _ => h id s', fun h id s' => ?_⟩
      exact h approver reason id s' rfl
  | deny =>
      refine iff_of_true ((Action.Keeps.pure _).clean s) ?_
      exact fun approver reason id s' h => absurd h Decision.noConfusion

/-- An audit entry is refused exactly if its insertion fails. -/
theorem avoids_createAuditEntry_iff {entry : CreateAuditEntry} :
    (Database.createAuditEntry p entry).Avoids Failure.Returned s ↔
      s.tape.fault (s.tick + 2) = none := by
  obtain ⟨audit, row, -, hrun⟩ := Database.createAuditEntry_eq (p := p) entry s
  cases hfault : s.tape.fault (s.tick + 2) with
  | some message =>
      rw [hfault] at hrun
      rw [Action.avoids_of_error hrun]
      exact iff_of_false (fun h => h ⟨_, rfl⟩) (Option.some_ne_none message)
  | none =>
      rw [hfault] at hrun
      exact iff_of_true (Action.avoids_of_run hrun) rfl

theorem avoids_recordDecision_iff {caller : Caller} {req : AccessRequest} {eval : PolicyEvaluation}
    {response : AccessResponse} :
    (recordDecision p caller req eval response).Avoids Failure.Returned s ↔
      s.tape.fault (s.tick + 4) = none := by
  rw [recordDecision, Action.avoids_bind_of_run utcNow_run, Action.avoids_bind_of_run utcNow_run,
    modifySessions, Action.avoids_bind_of_run (modifyApp_run _), Action.avoids_bind_pure]
  exact avoids_createAuditEntry_iff

/-- Whether or not a decision is entered in the log, it is counted in its session. -/
theorem recordDecision_counts {caller : Caller} {req : AccessRequest} {eval : PolicyEvaluation}
    {response : AccessResponse} {outcome : Except Failure Unit}
    (opened : s.app.sessionStore.sessions.lookup caller.sessionId = some caller.session)
    (run : recordDecision p caller req eval response s = (outcome, finish)) :
    finish.trace.actionsCount caller.sessionId = s.trace.actionsCount caller.sessionId + 1 := by
  have henters := recordDecision_enters (p := p) caller req eval response s
  rw [Action.WP, run] at henters
  have hstanding := SessionStore.standing_modifyAt
    (fun session => session.standing_recordAction ⟨req.action, req.resource, eval.decision,
      s.tape.now s.tick⟩ (s.tape.now (s.tick + 1))) caller.sessionId s.app.sessionStore
  rw [opened, Option.isSome_some, if_pos rfl] at hstanding
  have hfinish : finish.standing caller.sessionId = (s.standing caller.sessionId).enter
      ⟨req.action, req.resource, eval.decision, s.tape.now s.tick⟩ := by
    rw [Serving.standing, henters, SessionStore.recordAction, hstanding, Function.update_self]
    rfl
  exact congrArg Standing.actionsCount hfinish

section

variable {auth : Option Uuid} {req : AccessRequest} {caller : Caller} {eval : PolicyEvaluation}
  {s₂ : Serving}

/-- When a decision has been carried out, the session of its caller is open. -/
theorem AccessEvaluated.opened (h : AccessEvaluated p auth req s caller eval s₂)
    {response : AccessResponse} {s₃ : Serving}
    (enacted : enactDecision p caller req eval s₂ = (.ok response, s₃)) :
    s₃.app.sessionStore.sessions.lookup caller.sessionId = some caller.session := by
  obtain ⟨s₁, hresolved, -, -, hevaluated⟩ := h.evaluated
  have hfound := resolveCaller_found hresolved
  have hkept := enactDecision_sessionStore enacted
  obtain ⟨-, rfl⟩ := evalEngine_eq_ok.mp hevaluated
  rw [hkept, hfound.sessionId, ← hfound.lookup]
  exact congrArg (·.lookup req.sessionKey) YamlEngine.sessions_evaluate

/-- A decision leaves a trace when it is carried out but not entered in the log. -/
theorem AccessEvaluated.spared_iff (h : AccessEvaluated p auth req s caller eval s₂) :
    Traceless (do
      let response ← enactDecision p caller req eval
      recordDecision p caller req eval response
      return response) s₂ ↔
    (∀ approver reason id s₃, eval.decision = .requireApproval approver reason →
      fileApproval p caller req s₂ = (.ok id, s₃) → s₃.tape.fault s₃.tick = none) ∧
    ∀ response s₃, enactDecision p caller req eval s₂ = (.ok response, s₃) →
      s₃.tape.fault (s₃.tick + 4) = none := by
  rw [Traceless, Action.clean_bind_iff_of_marks]
  · refine and_congr traceless_enactDecision_iff (forall₃_congr fun response s₃ _ => ?_)
    rw [Action.avoids_bind_pure]
    exact avoids_recordDecision_iff
  · intro response s₃ henacted e finish herror htrace
    obtain hrecord | ⟨_, _, _, hpure⟩ := Action.bind_error_iff.mp herror
    · have hcounts := recordDecision_counts (h.opened henacted) hrecord
      have hkept : s₃.standing = s₂.standing :=
        (keeps_enactDecision ignoresGrants_standing caller req eval).eq henacted
      have hcount : s₃.trace.actionsCount = s₂.trace.actionsCount := by
        simp only [Serving.trace, hkept]
      rw [htrace, hcount] at hcounts
      exact absurd hcounts (Nat.succ_ne_self _).symm
    · cases hpure

end

/-- A request leaves a trace exactly if its decision does. -/
theorem traceless_requestAccess_iff_evaluated {auth : Option Uuid} {req : AccessRequest} :
    Traceless (requestAccess p auth req) s ↔ ∀ caller eval s₂,
      AccessEvaluated p auth req s caller eval s₂ → Traceless (do
        let response ← enactDecision p caller req eval
        recordDecision p caller req eval response
        return response) s₂ := by
  rw [requestAccess, Traceless, Action.clean_bind_iff (keeps_resolveCaller_trace auth req)]
  constructor
  · rintro h caller eval s₂ ⟨s₁, hresolved, hsession, hagent, hevaluated⟩
    have hrest := h caller s₁ hresolved
    rw [if_neg (by rw [hsession]; exact Bool.false_ne_true),
      Action.clean_bind_iff (Action.Keeps.read _)] at hrest
    have hevaluate := hrest _ s₁ rfl
    rw [if_neg (by simpa [SessionStore.isAgentKilled] using hagent),
      Action.clean_bind_iff (keeps_evalEngine_trace _)] at hevaluate
    exact hevaluate eval s₂ hevaluated
  · intro h caller s₁ hresolved
    split
    · exact (Action.Keeps.pure _).clean s₁
    · rename_i hsession
      refine (Action.clean_bind_iff (Action.Keeps.read _)).mpr fun stopped s₁' hread => ?_
      cases hread
      split
      · exact (Action.Keeps.pure _).clean s₁
      · rename_i hagent
        refine (Action.clean_bind_iff (keeps_evalEngine_trace _)).mpr fun eval s₂ hevaluated => ?_
        exact h caller eval s₂ ⟨s₁, hresolved, Bool.not_eq_true _ ▸ hsession,
          by simpa [SessionStore.isAgentKilled] using hagent, hevaluated⟩

theorem traceless_requestAccess_iff {auth : Option Uuid} {req : AccessRequest} :
    Traceless (requestAccess p auth req) s ↔ AccessSpared p auth req s := by
  rw [traceless_requestAccess_iff_evaluated]
  constructor
  · intro h
    constructor
    · intro caller eval approver reason s₂ id s₃ hevaluated
      exact (hevaluated.spared_iff.mp (h caller eval s₂ hevaluated)).1 approver reason id s₃
    · intro caller eval s₂ response s₃ hevaluated
      exact (hevaluated.spared_iff.mp (h caller eval s₂ hevaluated)).2 response s₃
  · intro h caller eval s₂ hevaluated
    refine hevaluated.spared_iff.mpr ⟨?_, ?_⟩
    · exact fun approver reason id s₃ => h.filed caller eval approver reason s₂ id s₃ hevaluated
    · exact fun response s₃ => h.entered caller eval s₂ response s₃ hevaluated

/-! ## Delegating -/

theorem delegate_eq_recordChild (auth : Option Uuid) (req : DelegateRequest) :
    delegate p auth req = (do
      let (claims, effectiveExpiry, jwt, jti) ← recordChild p auth req
      let _ ← Database.createAuditEntry p {
        agentId := req.subAgentId
        principalId := none
        action := "delegate"
        resource := agentAudience req.subAgentId
        decision := .allow
        reason := delegationReason p claims req
        delegationChain := some (chainToJson (childChain claims))
        tokenJti := some jti
        dryRun := false }
      return ⟨jwt, effectiveExpiry, req.scopes⟩) := by
  simp only [delegate, recordChild, recordDelegation, bind_assoc, pure_bind]

theorem clean_recordChild (auth : Option Uuid) (req : DelegateRequest) (s : Serving) :
    Traceless (recordChild p auth req) s := by
  refine (Action.clean_bind_iff (keeps_authenticated auth)).mpr fun presenter s₁ _ => ?_
  refine (Action.clean_bind_iff (keeps_admitDelegation tickFree_trace _ _)).mpr
    fun claims s₂ _ => ?_
  refine (Action.clean_bind_iff (keeps_delegationExpiry tickFree_trace _ _)).mpr
    fun expiry s₃ _ => ?_
  refine (Action.clean_bind_iff (keeps_issue tickFree_trace fun _ _ => rfl)).mpr
    fun result s₄ _ => ?_
  exact Action.clean_bind_pure.mpr (clean_recordToken s₄)

/-- A recorded child is one more row of the tokens. -/
theorem recordChild_ok {auth : Option Uuid} {req : DelegateRequest}
    {child : AgentClaims × Instant × String × String}
    (run : recordChild p auth req s = (.ok child, finish)) :
    ∃ row, finish.app.db.tokens = s.app.db.tokens ++ [row] := by
  obtain ⟨presenter, s₁, hauth, run⟩ := Action.bind_ok_iff.mp run
  obtain ⟨claims, s₂, hadmit, run⟩ := Action.bind_ok_iff.mp run
  obtain ⟨expiry, s₃, hexpiry, run⟩ := Action.bind_ok_iff.mp run
  obtain ⟨result, s₄, hissue, run⟩ := Action.bind_ok_iff.mp run
  obtain ⟨_, s₅, hrecord, run⟩ := Action.bind_ok_iff.mp run
  cases run
  have htokens : s₄.trace = s.trace :=
    ((keeps_issue tickFree_trace fun _ _ => rfl).eq hissue).trans
      (((keeps_delegationExpiry tickFree_trace _ _).eq hexpiry).trans
        (((keeps_admitDelegation tickFree_trace _ _).eq hadmit).trans
          ((keeps_authenticated auth).eq hauth)))
  obtain ⟨row, -, rfl⟩ := Database.recordToken_ok hrecord
  exact ⟨row, congrArg (fun trace : Trace => trace.tokens ++ [row]) htokens⟩

theorem traceless_delegate_iff {auth : Option Uuid} {req : DelegateRequest} :
    Traceless (delegate p auth req) s ↔ DelegationSpared p auth req s := by
  rw [delegate_eq_recordChild, Traceless, Action.clean_bind_iff_of_marks]
  · refine (and_iff_right (clean_recordChild auth req s)).trans ?_
    refine forall₃_congr fun child s' _ => ?_
    rw [Action.avoids_bind_pure]
    exact avoids_createAuditEntry_iff
  · intro child s' run e finish herror htrace
    obtain ⟨row, hrows⟩ := recordChild_ok run
    obtain haudit | ⟨_, _, _, hpure⟩ := Action.bind_error_iff.mp herror
    · have hkeeps (entry : CreateAuditEntry) :
          (Database.createAuditEntry p entry).Keeps fun s => s.app.db.tokens :=
        Database.keeps_createAuditEntry (fun _ => rfl) fun _ _ _ => rfl
      have hkept : finish.app.db.tokens = s'.app.db.tokens := (hkeeps _).eq haudit
      have hsame : finish.app.db.tokens = s.app.db.tokens := congrArg Trace.tokens htrace
      rw [hkept, hrows] at hsame
      exact absurd (List.append_right_eq_self.mp hsame) (List.cons_ne_nil _ _)
    · cases hpure

/-! ## Granting -/

theorem principalDelegate_eq_storeGrant (req : PrincipalDelegateRequest) :
    principalDelegate p req = (do
      let stored ← storeGrant p req
      let result ← issue p (.principalDelegate stored.grantId)
        (grantParams p stored.principal stored.agent req)
      Database.recordToken p result.2 (some stored.grantId) stored.agent.id req.scopes
        (agentAudience stored.agent.id) stored.expiresAt
      return ⟨stored.grantId, result.1, req.scopes, stored.expiresAt⟩) := by
  rw [principalDelegate, storeGrant, bind_assoc]
  congr
  funext agent
  cases agent.ownerId with
  | none => rfl
  | some principalId =>
      dsimp only
      simp only [bind_assoc, pure_bind]

theorem clean_storeGrant (req : PrincipalDelegateRequest) (s : Serving) :
    Traceless (storeGrant p req) s := by
  refine (Action.clean_bind_iff (Database.keeps_getAgent tickFree_trace _)).mpr fun agent s₁ _ => ?_
  cases agent.ownerId with
  | none => exact (keeps_raise _).clean s₁
  | some principalId =>
      refine (Action.clean_bind_iff (Database.keeps_getPrincipal tickFree_trace _)).mpr
        fun principal s₂ _ => ?_
      refine (Action.clean_bind_iff (keeps_utcNow tickFree_trace)).mpr fun now s₃ _ => ?_
      refine (Action.clean_bind_iff (keeps_orPanic _)).mpr fun expiresAt s₄ _ => ?_
      refine Action.clean_bind_pure.mpr fun e finish run _ => ?_
      rw [Database.createGrant_error run]
      rfl

/-- A stored grant is one more row under its id, for an agent that is on record. -/
theorem storeGrant_ok {req : PrincipalDelegateRequest} {stored : StoredGrant}
    (run : storeGrant p req s = (.ok stored, finish)) :
    finish.app.db.agents.any (·.id == stored.agent.id) = true ∧
      ∃ row : GrantRow, row.id = stored.grantId ∧
        finish.app.db.grants = s.app.db.grants ++ [row] := by
  obtain ⟨found, s₁, hagent, run⟩ := Action.bind_ok_iff.mp run
  have hid := getAgent_id hagent
  obtain ⟨-, agentRow, hrow, -, rfl⟩ := getAgent_eq_ok.mp hagent
  cases howner : found.ownerId with
  | none =>
      rw [howner] at run
      exact absurd run raise_ne_ok
  | some principalId =>
      rw [howner] at run
      obtain ⟨read, s₂, hprincipal, run⟩ := Action.bind_ok_iff.mp run
      obtain ⟨-, principalRow, -, -, rfl⟩ := Database.getPrincipal_eq_ok.mp hprincipal
      obtain ⟨now, s₃, hnow, run⟩ := Action.bind_ok_iff.mp run
      cases hnow
      obtain ⟨expiry, s₄, hexpiry, run⟩ := Action.bind_ok_iff.mp run
      obtain ⟨-, rfl⟩ := orPanic_eq_ok hexpiry
      obtain ⟨grantId, s₅, hgrant, run⟩ := Action.bind_ok_iff.mp run
      cases run
      obtain ⟨-, -, row, hrowId, -, rfl⟩ := Database.createGrant_row hgrant
      refine ⟨?_, row, hrowId, rfl⟩
      rw [hid]
      exact registered_of_find? hrow

theorem sql_returned {α : Type} {statement : Db → Except String (α × Db)} {failure : Failure}
    (run : sql statement s = (.error failure, finish)) : failure.Returned := by
  rw [sql] at run
  split at run
  · exact ⟨_, (Except.error.inj (Prod.mk.inj run).1).symm⟩
  · split at run
    · exact ⟨_, (Except.error.inj (Prod.mk.inj run).1).symm⟩
    · cases run

/-- A statement fails by the database or by the constraints of its table. -/
theorem avoids_sql_iff {α : Type} {statement : Db → Except String (α × Db)} :
    (sql statement).Avoids Failure.Returned s ↔
      s.tape.fault s.tick = none ∧ ∃ a db, statement s.app.db = .ok (a, db) := by
  cases hsql : sql statement s with
  | mk outcome finish =>
      cases outcome with
      | ok a =>
          obtain ⟨hfault, db, hstatement, -⟩ := sql_eq_ok.mp hsql
          exact iff_of_true (Action.avoids_of_run hsql) ⟨hfault, a, db, hstatement⟩
      | error failure =>
          rw [Action.avoids_of_error hsql]
          refine iff_of_false (fun h => h (sql_returned hsql)) ?_
          rintro ⟨hfault, a, db, hstatement⟩
          rw [sql_run hfault hstatement] at hsql
          cases hsql

theorem avoids_recordToken_iff {jti : String} {grantId : Option Uuid} {agentId : Uuid}
    {scopes : List String} {audience : String} {expiresAt : Instant}
    (registered : s.app.db.agents.any (·.id == agentId) = true)
    (granted : (grantId.all fun grant => s.app.db.grants.any (·.id == grant)) = true) :
    (Database.recordToken p jti grantId agentId scopes audience expiresAt).Avoids
        Failure.Returned s ↔
      s.tape.fault (s.tick + 1) = none ∧ s.app.db.tokens.any (·.id == jti) = false := by
  rw [Database.recordToken, Action.avoids_bind_of_run utcNow_run, avoids_sql_iff]
  refine and_congr_right fun _ => ⟨?_, fun hfresh => ?_⟩
  · rintro ⟨_, db, hinsert⟩
    exact (Db.insertToken_eq_ok.mp hinsert).1
  · exact ⟨(), _, Db.insertToken_eq_ok.mpr ⟨hfresh, fun _ => ⟨registered, granted⟩, rfl⟩⟩

/-- Signing and recording a token returns no error exactly if both can be done. -/
theorem avoids_mint_iff {β : Type} {origin : Origin} {params : IssueTokenParams} {id : Uuid}
    {agentId : Uuid} {scopes : List String} {audience : String} {expiresAt : Instant}
    {answer : String × String → β} (registered : s.app.db.agents.any (·.id == agentId) = true)
    (granted : ((some id).all fun grant => s.app.db.grants.any (·.id == grant)) = true) :
    (issue p origin params >>= fun result =>
      Database.recordToken p result.2 (some id) agentId scopes audience expiresAt >>= fun _ =>
        pure (answer result)).Avoids Failure.Returned s ↔ MintSpared p origin params s := by
  have hissue : issue p origin params s = _ := issue_run s
  rw [MintSpared]
  cases hsign : sign p origin params (s.tape.now s.tick) (s.tape.uuid (s.tick + 1))
      (s.tape.now (s.tick + 2)) with
  | error failure =>
      rw [hsign] at hissue
      exact Action.avoids_of_error (Action.bind_run_error hissue)
  | ok minted =>
      rw [hsign] at hissue
      rw [Action.avoids_bind_of_run hissue, Action.avoids_bind_pure]
      exact avoids_recordToken_iff (s := s.next.next.next.mint minted) registered granted

theorem traceless_principalDelegate_iff {req : PrincipalDelegateRequest} :
    Traceless (principalDelegate p req) s ↔ GrantSpared p req s := by
  rw [principalDelegate_eq_storeGrant, Traceless, Action.clean_bind_iff_of_marks]
  · refine (and_iff_right (clean_storeGrant req s)).trans ?_
    refine forall₃_congr fun stored s' run => ?_
    obtain ⟨hregistered, row, hid, hrows⟩ := storeGrant_ok run
    apply avoids_mint_iff hregistered
    rw [Option.all_some, hrows, List.any_append]
    simp [hid]
  · intro stored s' run e finish herror htrace
    obtain ⟨-, row, -, hrows⟩ := storeGrant_ok run
    have hissue : (issue p (.principalDelegate stored.grantId)
        (grantParams p stored.principal stored.agent req)).Keeps fun s => s.app.db.grants :=
      keeps_issue (fun _ => rfl) fun _ _ => rfl
    have hkept : finish.app.db.grants = s'.app.db.grants :=
      (hissue.bind fun _ => (Database.keeps_recordToken (fun _ => rfl) fun _ _ => rfl).bind
        fun _ => .pure _).eq herror
    have hsame : finish.app.db.grants = s.app.db.grants := congrArg Trace.grants htrace
    rw [hkept, hrows] at hsame
    exact absurd (List.append_right_eq_self.mp hsame) (List.cons_ne_nil _ _)

/-! ## The three handlers -/

/-- A call that returns an error has left no trace exactly if nothing has failed after its
first write. -/
theorem traceless_iff (p : Platform) (s : Serving) :
    (∀ auth req, Traceless (requestAccess p auth req) s ↔ AccessSpared p auth req s) ∧
    (∀ auth req, Traceless (delegate p auth req) s ↔ DelegationSpared p auth req s) ∧
    ∀ req, Traceless (principalDelegate p req) s ↔ GrantSpared p req s :=
  ⟨fun _ _ => traceless_requestAccess_iff, fun _ _ => traceless_delegate_iff,
    fun _ => traceless_principalDelegate_iff⟩

end

/-- Leaving no trace, as a promise about every issuing call. -/
def FailedIssuanceTraceless : Prop :=
  ∀ (p : Platform) (s : Serving),
    (∀ auth req, Traceless (requestAccess p auth req) s) ∧
    (∀ auth req, Traceless (delegate p auth req) s) ∧ ∀ req, Traceless (principalDelegate p req) s

/-- The database fails the one statement of this step. -/
def Tape.failing (tick : Nat) (tape : Tape) : Tape :=
  { tape with fault := fun n => if n = tick then some "disk I/O error" else none }

/-- A root grant is asked for, and the row of its token cannot be stored. -/
def failingServing : Serving := enrolledWorld.serving ((Tape.steady opening 400).failing 13)

/-- The grant stays behind when its token is not recorded. -/
theorem not_failedIssuanceTraceless : ¬ FailedIssuanceTraceless := by
  intro h
  have hrun : principalDelegate delegationPlatform ⟨⟨300⟩, ["read"], none, 600⟩ failingServing =
      (.error (.error (.database "disk I/O error")), _) := Prod.ext (by decide +kernel) rfl
  have htrace := (h delegationPlatform failingServing).2.2 _ _ _ hrun ⟨_, rfl⟩
  have hgrants := congrArg (fun trace : Trace => trace.grants.length) htrace
  exact absurd hgrants (by decide +kernel)

end Patroclus
