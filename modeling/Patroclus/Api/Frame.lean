import Patroclus.Api.Server
import Patroclus.Db.Frame

/-!
# What the handlers can change

`guarded` is the part of the state on which the security of tokens rests: the
stopped agents, the revoked ids in memory, the rows of the `tokens` table and
the ledger. All but six of the calls leave it alone; the three that mint change
it in one way, which is stated here once for each of them.
-/

namespace Patroclus

open Foundation

structure Guarded where
  killedAgents : Finset Uuid
  jtiStore : Finset String
  tokens : List TokenRow
  ledger : List Minted

def guardedOf (app : AppState) (ledger : List Minted) : Guarded :=
  ⟨app.sessionStore.killedAgents, app.jtiStore, app.db.tokens, ledger⟩

def Serving.guarded (s : Serving) : Guarded := guardedOf s.app s.ledger

def World.guarded (w : World) : Guarded := guardedOf w.app w.ledger

theorem tickFree_guarded : TickFree Serving.guarded := fun _ => rfl

variable {p : Platform}

/-! ## Handlers that leave the guarded part alone -/

section

variable {γ : Type*} {view : Serving → γ} (h : TickFree view)

include h

theorem keeps_verifyToken (token : String) (audience : Option String) :
    (verifyToken p token audience).Keeps view := by
  refine (keeps_utcNow h).bind fun decodeNow => ?_
  refine (keeps_utcNow h).bind fun now => ?_
  refine (Action.Keeps.read _).bind fun jtiStore => ?_
  cases TokenVerifier.verify p jtiStore decodeNow now token audience with
  | ok claims => exact .pure claims
  | error e => exact keeps_raise e

omit h in
theorem keeps_authenticated (auth : Option Uuid) : (authenticated auth).Keeps view := by
  cases auth with
  | none => exact keeps_raise _
  | some agentId => exact .pure agentId

omit h in
theorem keeps_authenticatedAs (auth : Option Uuid) (agentId : Uuid) :
    (authenticatedAs auth agentId).Keeps view :=
  (keeps_authenticated auth).bind fun _ => .ite (.pure _) (keeps_raise _)

theorem keeps_ownerPrincipal (agent : Agent) : (ownerPrincipal p agent).Keeps view := by
  rw [ownerPrincipal]
  cases agent.ownerId with
  | none => exact .pure none
  | some ownerId =>
      refine (Database.keeps_getPrincipal h ownerId).attempt.bind fun found => ?_
      cases found <;> exact .pure _

theorem keeps_requestPrincipal (agent : Agent) (req : AccessRequest) :
    (requestPrincipal p agent req).Keeps view := by
  rw [requestPrincipal]
  cases req.delegationToken with
  | none => exact (keeps_ownerPrincipal h agent).bind fun _ => .pure _
  | some token =>
      refine (keeps_verifyToken h _ _).bind fun _ => ?_
      refine (Database.keeps_getPrincipalByEmail h _).bind fun _ => ?_
      exact .pure _

theorem keeps_admitDelegation (presenter : Uuid) (req : DelegateRequest) :
    (admitDelegation p presenter req).Keeps view := by
  refine (keeps_verifyToken h _ _).bind fun claims => ?_
  cases escalatingScope claims.scope req.scopes with
  | some scope => exact keeps_raise _
  | none => exact .ite (keeps_raise _) (.pure claims)

theorem keeps_delegationExpiry (claims : AgentClaims) (expiresInSeconds : Nat) :
    (delegationExpiry claims expiresInSeconds).Keeps view := by
  have rest (parentExpiry : Instant) : (do
      let requestedExpiry ← orPanic ((← utcNow).addSeconds (asI64 expiresInSeconds))
      let effectiveExpiry : Instant := min parentExpiry requestedExpiry
      let now ← utcNow
      return (effectiveExpiry, (effectiveExpiry.secondsSince now).toNat) :
        Handler (Instant × Nat)).Keeps view := by
    refine (keeps_utcNow h).bind fun _ => ?_
    refine (keeps_orPanic _).bind fun _ => ?_
    refine (keeps_utcNow h).bind fun _ => ?_
    exact .pure _
  rw [delegationExpiry]
  cases Instant.fromTimestamp claims.exp with
  | some expiry => exact (Action.Keeps.pure expiry).bind rest
  | none => exact (keeps_utcNow h).bind rest

theorem keeps_approvalStatus (auth : Option Uuid) (id : Uuid) :
    (approvalStatus p auth id).Keeps view := by
  refine (keeps_authenticated auth).bind fun _ => ?_
  refine (Database.keeps_getApprovalRequest h id).bind fun _ => ?_
  exact .ite (.pure _) (keeps_raise _)

theorem keeps_buildEngine : (buildEngine p).Keeps view := by
  refine (Database.keeps_loadActivePolicyYaml h).bind fun yaml => ?_
  refine .ite (.ite (.pure _) ?_) (keeps_raise _)
  cases p.parseYaml yaml with
  | ok rules => exact .pure _
  | error message => exact keeps_raise _

theorem keeps_provisionClientKey {id : Uuid}
    (agents : ∀ s rows, view (s.withDb { s.app.db with agents := rows }) = view s) :
    (provisionClientKey p id).Keeps view := by
  refine (Database.keeps_getAgent h id).bind fun _ => ?_
  refine (keeps_randomBytes h).bind fun _ => ?_
  refine (Database.keeps_setAgentClientKeyHash h agents).bind fun _ => ?_
  exact .pure _

theorem keeps_reloadPolicy
    (engine : ∀ s built, view (s.withApp fun app => { app with policyEngine := built }) = view s) :
    (reloadPolicy p).Keeps view := by
  refine (keeps_buildEngine h).bind fun built => ?_
  exact keeps_modifyApp fun s => engine s built

theorem keeps_createPolicy {name engineName definition : String}
    (policies : ∀ s rows, view (s.withDb { s.app.db with policies := rows }) = view s)
    (engine : ∀ s built, view (s.withApp fun app => { app with policyEngine := built }) = view s) :
    (createPolicy p name engineName definition).Keeps view := by
  refine (Database.keeps_createPolicy h policies).bind fun _ => ?_
  refine (keeps_reloadPolicy h engine).attempt.bind fun outcome => ?_
  match outcome with
  | .ok _ => exact .pure _
  | .error (.error e) => exact keeps_raise _
  | .error .panic => exact .fail _
  | .error .unreachable => exact .fail _

/-- A start clears the memory, and no such view sees the rest of it. -/
theorem startUp_view
    (policies : ∀ s rows, view (s.withDb { s.app.db with policies := rows }) = view s)
    (engine : ∀ s built, view (s.withApp fun app => { app with policyEngine := built }) = view s)
    (s : Serving) : view (startUp p s).2 = view (s.withApp freshMemory) := by
  have hrest : (do
      Database.createDefaultPolicy p
      reloadPolicy p : Handler Unit).Keeps view := by
    refine (Database.keeps_createDefaultPolicy h policies).bind fun _ => ?_
    exact keeps_reloadPolicy h engine
  exact hrest (s.withApp freshMemory)

theorem keeps_issue {origin : Origin} {params : IssueTokenParams}
    (frame : ∀ (s : Serving) minted, view (s.mint minted) = view s) :
    (issue p origin params).Keeps view := by
  refine (keeps_utcNow h).bind fun now => ?_
  refine (keeps_nowV7 h).bind fun id => ?_
  refine (keeps_utcNow h).bind fun clock => ?_
  refine (Action.Keeps.lift (sign p origin params now id clock)).bind fun minted => ?_
  refine (Action.Keeps.write fun s => frame s minted).bind fun _ => ?_
  exact .pure _

end

/-- A view that sees no more of the session store than the stopped agents. -/
def IgnoresSessions {γ : Type*} (view : Serving → γ) : Prop :=
  ∀ s store, store.killedAgents = s.app.sessionStore.killedAgents →
    view (s.withApp fun app => { app with sessionStore := store }) = view s

theorem ignoresSessions_guarded : IgnoresSessions Serving.guarded := fun s store h => by
  simp [Serving.guarded, guardedOf, h]

/-- The guarded part together with the tape, which no handler changes. -/
def Serving.framed (s : Serving) : Guarded × Tape := (s.guarded, s.tape)

theorem tickFree_framed : TickFree Serving.framed := fun _ => rfl

section

variable {γ : Type*} {view : Serving → γ} (h : TickFree view) (hs : IgnoresSessions view)

include h hs

theorem keeps_evalEngine (ctx : PolicyContext) : (evalEngine ctx).Keeps view := fun s =>
  (hs s.next _ YamlEngine.killedAgents_evaluate).trans (h s)

theorem keeps_getOrCreateSession (sessionId : String) (agentId : Uuid)
    (principalId : Option Uuid) :
    (getOrCreateSession sessionId agentId principalId).Keeps view := fun s =>
  (hs s.next _ (SessionStore.killedAgents_getOrCreateSession _ _ _ _ _)).trans (h s)

theorem keeps_resolveCaller (auth : Option Uuid) (req : AccessRequest) :
    (resolveCaller p auth req).Keeps view := by
  refine (keeps_authenticatedAs auth _).bind fun _ => ?_
  refine (Database.keeps_getAgent h _).bind fun agent => ?_
  refine (keeps_requestPrincipal h agent req).bind fun _ => ?_
  refine (keeps_getOrCreateSession h hs _ _ _).bind fun _ => ?_
  exact .pure _

end

/-- A view that sees no token, no approval request and no ledger. -/
structure IgnoresGrants {γ : Type*} (view : Serving → γ) : Prop where
  tick : TickFree view
  tokens : ∀ s rows, view (s.withDb { s.app.db with tokens := rows }) = view s
  approvals : ∀ s rows, view (s.withDb { s.app.db with approvalRequests := rows }) = view s
  ledger : ∀ s minted, view (s.mint minted) = view s

section

variable {γ : Type*} {view : Serving → γ} (h : IgnoresGrants view)

include h

theorem keeps_grantAccess (caller : Caller) (req : AccessRequest) (eval : PolicyEvaluation) :
    (grantAccess p caller req eval).Keeps view := by
  refine (keeps_issue h.tick h.ledger).bind fun _ => ?_
  refine (keeps_utcNow h.tick).bind fun _ => ?_
  refine (keeps_orPanic _).bind fun _ => ?_
  refine (Database.keeps_recordToken h.tick h.tokens).bind fun _ => ?_
  exact .pure _

theorem keeps_enactDecision (caller : Caller) (req : AccessRequest) (eval : PolicyEvaluation) :
    (enactDecision p caller req eval).Keeps view := by
  rw [enactDecision]
  cases eval.decision with
  | allow => exact keeps_grantAccess h caller req eval
  | requireApproval approver reason =>
      refine (Database.keeps_findResourceByUri h.tick _).attempt.bind fun _ => ?_
      refine (Database.keeps_createApprovalRequest h.tick h.approvals).bind fun _ => ?_
      exact .pure _
  | deny => exact .pure _

theorem keeps_principalDelegate (req : PrincipalDelegateRequest)
    (grants : ∀ s rows, view (s.withDb { s.app.db with grants := rows }) = view s) :
    (principalDelegate p req).Keeps view := by
  refine (Database.keeps_getAgent h.tick _).bind fun agent => ?_
  cases agent.ownerId with
  | none => exact keeps_raise _
  | some principalId =>
      refine (Database.keeps_getPrincipal h.tick _).bind fun _ => ?_
      refine (keeps_utcNow h.tick).bind fun _ => ?_
      refine (keeps_orPanic _).bind fun _ => ?_
      refine (Database.keeps_createGrant h.tick grants).bind fun _ => ?_
      refine (keeps_issue h.tick h.ledger).bind fun _ => ?_
      refine (Database.keeps_recordToken h.tick h.tokens).bind fun _ => ?_
      exact .pure _

end

theorem enactDecision_sessionStore {caller : Caller} {req : AccessRequest}
    {eval : PolicyEvaluation} {outcome : Except Failure AccessResponse} {s finish : Serving}
    (run : enactDecision p caller req eval s = (outcome, finish)) :
    finish.app.sessionStore = s.app.sessionStore := by
  have hview : IgnoresGrants fun s : Serving => s.app.sessionStore :=
    ⟨fun _ => rfl, fun _ _ => rfl, fun _ _ => rfl, fun _ _ => rfl⟩
  exact (keeps_enactDecision hview caller req eval).eq run

theorem keeps_modifySessions {update : SessionStore → SessionStore}
    (h : ∀ store, (update store).killedAgents = store.killedAgents) :
    (modifySessions update).Keeps Serving.guarded := by
  intro s
  simp [modifySessions, Serving.guarded, guardedOf, h]

theorem keeps_requestApproval (caller : Caller) (req : AccessRequest) (eval : PolicyEvaluation) :
    (requestApproval p caller req eval).Keeps Serving.guarded := by
  refine (Database.keeps_findResourceByUri tickFree_guarded _).attempt.bind fun _ => ?_
  refine (Database.keeps_createApprovalRequest tickFree_guarded fun _ _ => rfl).bind fun _ => ?_
  exact .pure _

theorem keeps_createAuditEntry (entry : CreateAuditEntry) :
    (Database.createAuditEntry p entry).Keeps Serving.guarded :=
  Database.keeps_createAuditEntry tickFree_guarded fun _ _ _ => rfl

theorem keeps_recordDecision (caller : Caller) (req : AccessRequest) (eval : PolicyEvaluation)
    (response : AccessResponse) :
    (recordDecision p caller req eval response).Keeps Serving.guarded := by
  refine (keeps_utcNow tickFree_guarded).bind fun _ => ?_
  refine (keeps_utcNow tickFree_guarded).bind fun _ => ?_
  refine (keeps_modifySessions fun _ => by rfl).bind fun _ => ?_
  refine (keeps_createAuditEntry _).bind fun _ => ?_
  exact .pure _

theorem keeps_checkAccess (auth : Option Uuid) (req : AccessRequest) :
    (checkAccess p auth req).Keeps Serving.guarded := by
  refine (keeps_authenticatedAs auth _).bind fun _ => ?_
  refine (Database.keeps_getAgent tickFree_guarded _).bind fun agent => ?_
  refine (keeps_ownerPrincipal tickFree_guarded agent).bind fun _ => ?_
  refine (Action.Keeps.read _).bind fun _ => ?_
  refine .ite (.pure _) ?_
  refine (keeps_evalEngine tickFree_guarded ignoresSessions_guarded _).bind fun _ => ?_
  refine (keeps_createAuditEntry _).bind fun _ => ?_
  exact .pure _

theorem keeps_killSession (id : String) : (killSession id).Keeps Serving.guarded := fun _ => rfl

theorem keeps_recordSpend (id : Uuid) (amount : F64) (sessionId : Option String) :
    (recordSpend id amount sessionId).Keeps Serving.guarded := by
  refine (keeps_modifySessions fun _ => by rfl).bind fun _ => ?_
  refine (Action.Keeps.read _).bind fun _ => ?_
  exact .pure _

/-- The calls that may change the guarded part. -/
def Call.touchesGuarded : Call → Bool
  | .requestAccess _ _ | .delegate _ _ | .principalDelegate _ | .revokeToken _ | .killAgent _
  | .restoreAgent _ => true
  | _ => false

theorem keeps_serve {call : Call} (h : call.touchesGuarded = false) :
    (serve p call).Keeps Serving.guarded := by
  have reply {α : Type} {act : Handler α} {wrap : α → Reply} (hact : act.Keeps Serving.guarded) :
      (act >>= fun a => pure (wrap a)).Keeps Serving.guarded := hact.bind fun _ => .pure _
  cases call with
  | requestAccess | delegate | principalDelegate | revokeToken | killAgent | restoreAgent => cases h
  | check auth req => exact reply (keeps_checkAccess auth req)
  | approvalStatus auth id => exact reply (keeps_approvalStatus tickFree_guarded auth id)
  | listPrincipalGrants => exact reply (Database.keeps_listAllGrants tickFree_guarded)
  | revokeGrant id => exact reply (Database.keeps_revokeGrant tickFree_guarded fun _ _ => rfl)
  | listPendingApprovals => exact reply (Database.keeps_listPendingApprovals tickFree_guarded)
  | approveRequest id req | denyRequest id req =>
      exact reply (Database.keeps_resolveApprovalRequest tickFree_guarded fun _ _ => rfl)
  | createAgent req => exact reply (Database.keeps_createAgent tickFree_guarded fun _ _ => rfl)
  | listAgents => exact reply (Database.keeps_listAgents tickFree_guarded)
  | getAgent id => exact reply (Database.keeps_getAgent tickFree_guarded id)
  | provisionClientKey id => exact reply (keeps_provisionClientKey tickFree_guarded fun _ _ => rfl)
  | createPrincipal req =>
      exact reply (Database.keeps_createPrincipal tickFree_guarded fun _ _ => rfl)
  | createResource req =>
      exact reply (Database.keeps_createResource tickFree_guarded fun _ _ => rfl)
  | listResources => exact reply (Database.keeps_listResources tickFree_guarded)
  | createPolicy name engine definition =>
      exact reply (keeps_createPolicy tickFree_guarded (fun _ _ => rfl) fun _ _ => rfl)
  | listPolicies => exact reply (Database.keeps_listPolicies tickFree_guarded)
  | listAudit => exact reply (Database.keeps_listAuditEntries tickFree_guarded _)
  | listSessions => exact reply (Action.Keeps.read _)
  | killSession id => exact reply (keeps_killSession id)
  | recordSpend id amount sessionId => exact reply (keeps_recordSpend id amount sessionId)

end Patroclus
