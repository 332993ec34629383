import Patroclus.Api.Login
import Patroclus.Db.Integrity
import Patroclus.Foundation.Stepwise

/-!
# The statements of a handler

Every handler writes the database through the statements of `Db.Statement` and in no
other way, whether it returns or fails between two of them. So what every statement
keeps is kept by every call, every login and every start of the server.
-/

namespace Patroclus

open Foundation

def Serving.db (s : Serving) : Db := s.app.db

theorem tickFree_db : TickFree Serving.db := fun _ => rfl

theorem ignoresSessions_db : IgnoresSessions Serving.db := fun _ _ _ => rfl

section

variable {p : Platform}

/-- The handler writes the database by statements only. -/
abbrev Executes (p : Platform) {α : Type} (act : Handler α) : Prop :=
  act.Stepwise (Db.Statement p.foreignKeys) Serving.db

theorem executes_sql {α : Type} {statement : Db → Except String (α × Db)}
    (h : ∀ db a db', statement db = .ok (a, db') → Db.Statement p.foreignKeys db db') :
    Executes p (sql statement) := by
  apply Action.Stepwise.of_step
  intro s
  cases hrun : sql statement s with
  | mk outcome finish =>
      cases outcome with
      | error e =>
          rw [sql_eq_error hrun]
          exact .inl rfl
      | ok a =>
          obtain ⟨-, db, hdb, rfl⟩ := sql_eq_ok.mp hrun
          exact .inr (h _ _ _ hdb)

namespace Database

theorem executes_insertPolicy {row : PolicyRow} (status : row.status = .active) :
    Executes p (sql (Db.insertPolicy row)) :=
  executes_sql fun _ _ _ run => .insertPolicy status run

theorem executes_createDefaultPolicy : Executes p (createDefaultPolicy p) := by
  refine (Action.Stepwise.of_keeps (keeps_query tickFree_db)).attempt.bind fun _ => ?_
  refine .ite ?_ (.pure _)
  refine .bind (.of_keeps (keeps_nowV7 tickFree_db)) fun _ => ?_
  refine .bind (.of_keeps (keeps_utcNow tickFree_db)) fun _ => ?_
  exact executes_insertPolicy rfl

theorem executes_createPolicy (name engine definition : String) :
    Executes p (createPolicy p name engine definition) := by
  refine .bind (.of_keeps (keeps_nowV7 tickFree_db)) fun _ => ?_
  refine .bind (.of_keeps (keeps_utcNow tickFree_db)) fun _ => ?_
  refine (executes_sql fun _ _ _ run => .deprecatePolicies run).bind fun _ => ?_
  exact executes_insertPolicy rfl

theorem executes_createAgent (req : CreateAgentRequest) : Executes p (createAgent p req) := by
  refine .bind (.of_keeps (keeps_nowV7 tickFree_db)) fun _ => ?_
  refine .bind (.of_keeps (keeps_utcNow tickFree_db)) fun _ => ?_
  refine (executes_sql fun _ _ _ run => .insertAgent rfl run).bind fun _ => ?_
  exact .of_keeps (keeps_getAgent tickFree_db _)

theorem executes_setAgentClientKeyHash (agentId : Uuid) (keyHash : String) :
    Executes p (setAgentClientKeyHash p agentId keyHash) := by
  refine .bind (.of_keeps (keeps_utcNow tickFree_db)) fun _ => ?_
  refine (executes_sql fun _ _ _ run => .updateClientKeyHash run).bind fun _ => ?_
  exact .ite (.fail _) (.pure _)

theorem executes_createPrincipal (req : CreatePrincipalRequest) :
    Executes p (createPrincipal p req) := by
  refine .bind (.of_keeps (keeps_nowV7 tickFree_db)) fun _ => ?_
  refine .bind (.of_keeps (keeps_utcNow tickFree_db)) fun _ => ?_
  refine (executes_sql fun _ _ _ run => .insertPrincipal run).bind fun _ => ?_
  exact .of_keeps (keeps_getPrincipal tickFree_db _)

theorem executes_createResource (req : CreateResourceRequest) :
    Executes p (createResource p req) := by
  refine .bind (.of_keeps (keeps_nowV7 tickFree_db)) fun _ => ?_
  refine .bind (.of_keeps (keeps_utcNow tickFree_db)) fun _ => ?_
  refine (executes_sql fun _ _ _ run => .insertResource run).bind fun _ => ?_
  exact .of_keeps (keeps_getResource tickFree_db _)

theorem executes_createAuditEntry (entry : CreateAuditEntry) :
    Executes p (createAuditEntry p entry) := by
  refine (Action.Stepwise.of_keeps (keeps_queryRow tickFree_db _)).attempt.bind fun _ => ?_
  refine .bind (.of_keeps (keeps_utcNow tickFree_db)) fun _ => ?_
  refine (executes_sql fun _ _ _ run => .insertAudit run).bind fun _ => ?_
  exact .pure _

/-- A grant without a parent, which is the only kind that a handler creates. -/
theorem executes_createGrant (agentId principalId : Uuid) (scopes : List String)
    (constraints : Option Json) (expiresAt : Instant) :
    Executes p (createGrant p agentId principalId none scopes constraints expiresAt) := by
  refine .bind (.of_keeps (keeps_nowV7 tickFree_db)) fun _ => ?_
  refine .bind (.of_keeps (keeps_utcNow tickFree_db)) fun _ => ?_
  refine (executes_sql fun _ _ _ run => .insertGrant rfl rfl run).bind fun _ => ?_
  exact .pure _

theorem executes_revokeGrantSync (fuel : Nat) (id : Uuid) :
    Executes p (revokeGrantSync p fuel id) := by
  induction fuel generalizing id with
  | zero => exact .fail _
  | succ fuel ih =>
      refine .bind (.of_keeps (keeps_utcNow tickFree_db)) fun _ => ?_
      refine (executes_sql fun _ _ _ run => .revokeGrant run).bind fun _ => ?_
      refine .bind (.of_keeps (keeps_query tickFree_db)) fun _ => ?_
      refine .bind (.of_keeps (keeps_deliverRows tickFree_db _)) fun _ => ?_
      refine (Action.Stepwise.mapM ih _).bind fun _ => ?_
      exact .pure _

theorem executes_revokeGrant (id : Uuid) : Executes p (revokeGrant p id) :=
  (Action.Stepwise.of_keeps (Action.Keeps.read _)).bind fun _ => executes_revokeGrantSync _ id

theorem executes_recordToken (jti : String) (grantId : Option Uuid) (agentId : Uuid)
    (scopes : List String) (audience : String) (expiresAt : Instant) :
    Executes p (recordToken p jti grantId agentId scopes audience expiresAt) :=
  (Action.Stepwise.of_keeps (keeps_utcNow tickFree_db)).bind fun _ =>
    executes_sql fun _ _ _ run => .insertToken rfl run

theorem executes_createApprovalRequest (agentId : Uuid) (principalId resourceId : Option Uuid)
    (action : String) (requestedScopes : List String) (ttlSeconds : Nat) :
    Executes p (createApprovalRequest p agentId principalId resourceId action requestedScopes
      ttlSeconds) := by
  refine .bind (.of_keeps (keeps_nowV7 tickFree_db)) fun _ => ?_
  refine .bind (.of_keeps (keeps_utcNow tickFree_db)) fun now => ?_
  cases now.addSeconds (asI64 ttlSeconds) with
  | none => exact .fail _
  | some expiresAt =>
      refine (executes_sql fun _ _ _ run => .insertApproval rfl rfl rfl rfl run).bind fun _ => ?_
      exact .of_keeps (keeps_getApprovalRequest tickFree_db _)

theorem executes_resolveApprovalRequest (id approverId : Uuid) (approved : Bool)
    (reason : Option String) :
    Executes p (resolveApprovalRequest p id approverId approved reason) := by
  have resolved (changes : Nat) : Executes p (if changes = 0 then
      raise (.database "approval request not found or already resolved")
      else getApprovalRequest p id) :=
    .ite (.fail _) (.of_keeps (keeps_getApprovalRequest tickFree_db _))
  refine .bind (.of_keeps (keeps_utcNow tickFree_db)) fun now => ?_
  cases approved with
  | true =>
      have htoken : approvalTokenFor true = (do
          let token ← nowV7
          return some token.toString) := rfl
      rw [htoken, bind_assoc]
      refine .bind (.of_keeps (keeps_nowV7 tickFree_db)) fun token => ?_
      exact (executes_sql fun _ _ _ run => .approve run).bind resolved
  | false => exact (executes_sql fun _ _ _ run => .deny run).bind resolved

end Database

/-! ## The endpoints -/

theorem executes_grantAccess (caller : Caller) (req : AccessRequest) (eval : PolicyEvaluation) :
    Executes p (grantAccess p caller req eval) := by
  refine .bind (.of_keeps (keeps_issue tickFree_db fun _ _ => rfl)) fun _ => ?_
  refine .bind (.of_keeps (keeps_utcNow tickFree_db)) fun _ => ?_
  refine .bind (.of_keeps (keeps_orPanic _)) fun _ => ?_
  refine (Database.executes_recordToken _ _ _ _ _ _).bind fun _ => ?_
  exact .pure _

theorem executes_requestApproval (caller : Caller) (req : AccessRequest) (eval : PolicyEvaluation) :
    Executes p (requestApproval p caller req eval) := by
  have hfind : Executes p (Database.findResourceByUri req.resource) :=
    .of_keeps (Database.keeps_findResourceByUri tickFree_db _)
  refine hfind.attempt.bind fun _ => ?_
  refine (Database.executes_createApprovalRequest _ _ _ _ _ _).bind fun _ => ?_
  exact .pure _

theorem executes_enactDecision (caller : Caller) (req : AccessRequest) (eval : PolicyEvaluation) :
    Executes p (enactDecision p caller req eval) := by
  rw [enactDecision]
  cases eval.decision with
  | allow => exact executes_grantAccess caller req eval
  | requireApproval approver reason => exact executes_requestApproval caller req eval
  | deny => exact .pure _

theorem executes_recordDecision (caller : Caller) (req : AccessRequest) (eval : PolicyEvaluation)
    (response : AccessResponse) : Executes p (recordDecision p caller req eval response) := by
  refine .bind (.of_keeps (keeps_utcNow tickFree_db)) fun _ => ?_
  refine .bind (.of_keeps (keeps_utcNow tickFree_db)) fun _ => ?_
  refine (Action.Stepwise.of_keeps fun _ => rfl).bind fun _ => ?_
  refine (Database.executes_createAuditEntry _).bind fun _ => ?_
  exact .pure _

theorem executes_requestAccess (auth : Option Uuid) (req : AccessRequest) :
    Executes p (requestAccess p auth req) := by
  have hcaller := keeps_resolveCaller (p := p) tickFree_db ignoresSessions_db auth req
  refine .bind (.of_keeps hcaller) fun caller => ?_
  refine .ite (.pure _) ?_
  refine .bind (.of_keeps (Action.Keeps.read _)) fun _ => ?_
  refine .ite (.pure _) ?_
  refine .bind (.of_keeps (keeps_evalEngine tickFree_db ignoresSessions_db _)) fun eval => ?_
  refine (executes_enactDecision caller req eval).bind fun response => ?_
  refine (executes_recordDecision caller req eval response).bind fun _ => ?_
  exact .pure _

theorem executes_checkAccess (auth : Option Uuid) (req : AccessRequest) :
    Executes p (checkAccess p auth req) := by
  refine .bind (.of_keeps (keeps_authenticatedAs auth _)) fun _ => ?_
  refine .bind (.of_keeps (Database.keeps_getAgent tickFree_db _)) fun agent => ?_
  refine .bind (.of_keeps (keeps_ownerPrincipal tickFree_db agent)) fun _ => ?_
  refine .bind (.of_keeps (Action.Keeps.read _)) fun _ => ?_
  refine .ite (.pure _) ?_
  refine .bind (.of_keeps (keeps_evalEngine tickFree_db ignoresSessions_db _)) fun _ => ?_
  refine (Database.executes_createAuditEntry _).bind fun _ => ?_
  exact .pure _

theorem executes_recordDelegation (claims : AgentClaims) (req : DelegateRequest) (jti : String)
    (expiresAt : Instant) : Executes p (recordDelegation p claims req jti expiresAt) := by
  refine (Database.executes_recordToken _ _ _ _ _ _).bind fun _ => ?_
  refine (Database.executes_createAuditEntry _).bind fun _ => ?_
  exact .pure _

theorem executes_delegate (auth : Option Uuid) (req : DelegateRequest) :
    Executes p (delegate p auth req) := by
  refine .bind (.of_keeps (keeps_authenticated auth)) fun presenter => ?_
  refine .bind (.of_keeps (keeps_admitDelegation tickFree_db presenter req)) fun claims => ?_
  refine .bind (.of_keeps (keeps_delegationExpiry tickFree_db claims _)) fun _ => ?_
  refine .bind (.of_keeps (keeps_issue tickFree_db fun _ _ => rfl)) fun _ => ?_
  refine (executes_recordDelegation _ _ _ _).bind fun _ => ?_
  exact .pure _

theorem executes_principalDelegate (req : PrincipalDelegateRequest) :
    Executes p (principalDelegate p req) := by
  refine .bind (.of_keeps (Database.keeps_getAgent tickFree_db _)) fun agent => ?_
  cases agent.ownerId with
  | none => exact .fail _
  | some principalId =>
      refine .bind (.of_keeps (Database.keeps_getPrincipal tickFree_db _)) fun _ => ?_
      refine .bind (.of_keeps (keeps_utcNow tickFree_db)) fun _ => ?_
      refine .bind (.of_keeps (keeps_orPanic _)) fun _ => ?_
      refine (Database.executes_createGrant _ _ _ _ _).bind fun _ => ?_
      refine .bind (.of_keeps (keeps_issue tickFree_db fun _ _ => rfl)) fun _ => ?_
      refine (Database.executes_recordToken _ _ _ _ _ _).bind fun _ => ?_
      exact .pure _

theorem executes_createPolicy (name engine definition : String) :
    Executes p (createPolicy p name engine definition) := by
  refine (Database.executes_createPolicy name engine definition).bind fun _ => ?_
  have hreload : Executes p (reloadPolicy p) :=
    .of_keeps (keeps_reloadPolicy tickFree_db fun _ _ => rfl)
  refine hreload.attempt.bind fun outcome => ?_
  match outcome with
  | .ok _ => exact .pure _
  | .error (.error e) => exact .fail _
  | .error .panic => exact .fail _
  | .error .unreachable => exact .fail _

theorem executes_provisionClientKey (id : Uuid) : Executes p (provisionClientKey p id) := by
  refine .bind (.of_keeps (Database.keeps_getAgent tickFree_db id)) fun _ => ?_
  refine .bind (.of_keeps (keeps_randomBytes tickFree_db)) fun _ => ?_
  refine (Database.executes_setAgentClientKeyHash _ _).bind fun _ => ?_
  exact .pure _

theorem executes_revokeTokenByJti (jti : String) : Executes p (revokeTokenByJti jti) :=
  (executes_sql fun _ _ _ run => .revokeToken run).bind fun _ => .of_keeps fun _ => rfl

theorem executes_killAgent (id : Uuid) : Executes p (killAgent id) := by
  refine (Action.Stepwise.of_keeps fun _ => rfl).bind fun _ => ?_
  refine .bind (.of_keeps (Action.Keeps.read _)) fun _ => ?_
  refine (executes_sql fun _ _ _ run => .revokeAgentTokens run).bind fun _ => ?_
  exact .pure _

theorem executes_serve (call : Call) : Executes p (serve p call) := by
  have wrap {α : Type} {act : Handler α} {reply : α → Reply} (h : Executes p act) :
      Executes p (act >>= fun a => pure (reply a)) := h.bind fun _ => .pure _
  have reads {α : Type} {act : Handler α} {reply : α → Reply} (h : act.Keeps Serving.db) :
      Executes p (act >>= fun a => pure (reply a)) := wrap (.of_keeps h)
  cases call with
  | requestAccess auth req => exact wrap (executes_requestAccess auth req)
  | check auth req => exact wrap (executes_checkAccess auth req)
  | delegate auth req => exact wrap (executes_delegate auth req)
  | approvalStatus auth id => exact reads (keeps_approvalStatus tickFree_db auth id)
  | principalDelegate req => exact wrap (executes_principalDelegate req)
  | listPrincipalGrants => exact reads (Database.keeps_listAllGrants tickFree_db)
  | revokeGrant id => exact wrap (Database.executes_revokeGrant id)
  | listPendingApprovals => exact reads (Database.keeps_listPendingApprovals tickFree_db)
  | approveRequest id req | denyRequest id req =>
      exact wrap (Database.executes_resolveApprovalRequest _ _ _ _)
  | createAgent req => exact wrap (Database.executes_createAgent req)
  | listAgents => exact reads (Database.keeps_listAgents tickFree_db)
  | getAgent id => exact reads (Database.keeps_getAgent tickFree_db id)
  | provisionClientKey id => exact wrap (executes_provisionClientKey id)
  | createPrincipal req => exact wrap (Database.executes_createPrincipal req)
  | createResource req => exact wrap (Database.executes_createResource req)
  | listResources => exact reads (Database.keeps_listResources tickFree_db)
  | createPolicy name engine definition =>
      exact (executes_createPolicy name engine definition).bind fun _ => .pure _
  | listPolicies => exact reads (Database.keeps_listPolicies tickFree_db)
  | listAudit => exact reads (Database.keeps_listAuditEntries tickFree_db _)
  | revokeToken jti => exact (executes_revokeTokenByJti jti).bind fun _ => .pure _
  | listSessions => exact reads (Action.Keeps.read _)
  | killSession id => exact reads fun _ => rfl
  | killAgent id => exact wrap (executes_killAgent id)
  | restoreAgent id => exact .of_keeps fun _ => rfl
  | recordSpend id amount sessionId => exact reads fun _ => rfl

theorem executes_startUp : Executes p (startUp p) := by
  refine (Action.Stepwise.of_keeps fun _ => rfl).bind fun _ => ?_
  refine Database.executes_createDefaultPolicy.bind fun _ => ?_
  refine .bind (.of_keeps (keeps_buildEngine tickFree_db)) fun _ => ?_
  exact .of_keeps (keeps_modifyApp fun _ => rfl)

theorem executes_idpCallback (idp : IdpConfig) (net : IdpNetwork) (txn : Option PkceTransaction)
    (code : String) : Executes p (idpCallback p idp net txn code) := by
  refine .bind (.of_keeps (Action.Keeps.lift _)) fun login => ?_
  refine Action.Stepwise.bind ?_ fun principalId => Action.Stepwise.bind ?_ fun _ => .pure _
  · refine (Action.Stepwise.of_keeps (Database.keeps_getPrincipalByEmail tickFree_db _)).bind
      fun found => ?_
    cases found with
    | some principal => exact .pure _
    | none => exact (Database.executes_createPrincipal _).bind fun _ => .pure _
  · rw [publishLogin]
    cases login.policyText with
    | some text => exact executes_createPolicy _ _ _
    | none => exact .pure _

/-! ## Runs -/

/-- Everything that happens to the database in a run happens by statements. -/
theorem World.step_executes (w : World) (input : Input) :
    Relation.ReflTransGen (Db.Statement p.foreignKeys) w.app.db (w.step p input).app.db := by
  rw [World.step]
  cases input.event with
  | restart => exact executes_startUp (w.serving input.tape)
  | call call =>
      dsimp only
      split
      · exact executes_serve call (w.serving input.tape)
      · exact .refl

/-- So it is on a site with its logins. -/
theorem Site.step_executes {idp : IdpConfig} {isAlphanumeric : Char → Bool} (site : Site)
    (input : SiteInput) : Relation.ReflTransGen (Db.Statement p.foreignKeys) site.world.app.db
      (site.step p idp isAlphanumeric input).world.app.db := by
  rw [Site.step]
  cases input.event with
  | server event =>
      cases event with
      | restart => exact World.step_executes _ _
      | call call => exact World.step_executes _ _
  | authorize providerName =>
      dsimp only
      split
      · rw [idpAuthorize]
        cases idp.providers.find? (·.name == providerName) <;> exact .refl
      · exact .refl
  | callback state code net =>
      have hcallback := executes_idpCallback (p := p) idp net (site.presentedTxn state input.tape)
        code (site.world.serving input.tape).next
      dsimp only
      split
      · split <;> exact hcallback
      · exact .refl

theorem Site.run_executes {idp : IdpConfig} {isAlphanumeric : Char → Bool} (site : Site)
    (inputs : List SiteInput) : Relation.ReflTransGen (Db.Statement p.foreignKeys)
      site.world.app.db (site.run p idp isAlphanumeric inputs).world.app.db := by
  induction inputs generalizing site with
  | nil => exact .refl
  | cons input inputs ih => exact (site.step_executes input).trans (ih _)

end

end Patroclus
