import Patroclus.Api.Login
import Patroclus.Foundation.Stepwise

/-!
# The operations of a handler on the sessions

Every handler changes the session store through the operations of the store and in no
other way. What each of them keeps is therefore kept by every call; a restart begins with
an empty store.
-/

namespace Patroclus

open Foundation

/-- What a handler may do to the session store. -/
inductive SessionStore.Operation (store : SessionStore) : SessionStore → Prop where
  | killAgent (agentId : Uuid) : Operation store (store.killAgent agentId)
  | restoreAgent (agentId : Uuid) : Operation store (store.restoreAgent agentId)
  | getOrCreateSession (sessionId : String) (agentId : Uuid) (principalId : Option Uuid)
      (now : Instant) :
      Operation store (store.getOrCreateSession sessionId agentId principalId now).2
  | recordAction (sessionId : String) (event : TrajectoryEvent) (now : Instant) :
      Operation store (store.recordAction sessionId event now)
  | recordSpend (sessionId : String) (amount : F64) :
      Operation store (store.recordSpend sessionId amount)
  | killSession (sessionId : String) : Operation store (store.killSession sessionId).2
  | checkRateLimit (key : String) (maxPerMinute : Nat) (now : Instant) :
      Operation store (store.checkRateLimit key maxPerMinute now).2

def Serving.sessionStore (s : Serving) : SessionStore := s.app.sessionStore

theorem tickFree_sessionStore : TickFree Serving.sessionStore := fun _ => rfl

section

variable {p : Platform}

/-- The handler works on the sessions by the operations of the store only. -/
abbrev Operates {α : Type} (act : Handler α) : Prop :=
  act.Stepwise SessionStore.Operation Serving.sessionStore

theorem operates_modifySessions {update : SessionStore → SessionStore}
    (h : ∀ store : SessionStore, store.Operation (update store)) :
    Operates (modifySessions update) :=
  .of_step fun s => .inr (h s.sessionStore)

/-- An evaluation counts at most one call. -/
theorem YamlEngine.evaluate_operation (engine : YamlEngine) (store : SessionStore) (now : Instant)
    (ctx : PolicyContext) : (engine.evaluate store now ctx).2 = store ∨
      store.Operation (engine.evaluate store now ctx).2 := by
  have counted (rule : Rule) : (rule.checkRateLimit store now ctx).2 = store ∨
      store.Operation (rule.checkRateLimit store now ctx).2 := by
    rw [Rule.checkRateLimit]
    split
    · rename_i maxPerMinute sessionId _ _
      have hoperation : store.Operation (store.checkRateLimit _ _ _).2 := .checkRateLimit
        (Rule.rateLimitKey sessionId ctx.action ctx.resource) maxPerMinute now
      split <;> (rename_i hrun; rw [hrun] at hoperation; exact .inr hoperation)
    · exact .inl rfl
  rw [evaluate]
  split
  · rename_i rule _
    rw [evaluateRule]
    split
    · exact .inl rfl
    · have hcounted := counted rule
      split <;> (rename_i hrun; rw [hrun] at hcounted; exact hcounted)
  · exact .inl rfl

theorem operates_evalEngine (ctx : PolicyContext) : Operates (evalEngine ctx) :=
  .of_step fun s => YamlEngine.evaluate_operation s.app.policyEngine s.app.sessionStore _ ctx

theorem operates_getOrCreateSession (sessionId : String) (agentId : Uuid)
    (principalId : Option Uuid) : Operates (getOrCreateSession sessionId agentId principalId) :=
  .of_step fun _ => .inr (.getOrCreateSession sessionId agentId principalId _)

/-! ## The endpoints -/

theorem ignoresLogins_sessionStore : IgnoresLogins Serving.sessionStore where
  tick _ := rfl
  principals _ _ := rfl
  policies _ _ := rfl
  engine _ _ := rfl

theorem ignoresGrants_sessionStore : IgnoresGrants Serving.sessionStore where
  tick := tickFree_sessionStore
  tokens _ _ := rfl
  approvals _ _ := rfl
  ledger _ _ := rfl

theorem keeps_createAuditEntry_sessionStore {entry : CreateAuditEntry} :
    (Database.createAuditEntry p entry).Keeps Serving.sessionStore :=
  Database.keeps_createAuditEntry tickFree_sessionStore fun _ _ _ => rfl

theorem keeps_delegate_sessionStore (auth : Option Uuid) (req : DelegateRequest) :
    (delegate p auth req).Keeps Serving.sessionStore := by
  have tick := tickFree_sessionStore
  refine (keeps_authenticated auth).bind fun _ => ?_
  refine (keeps_admitDelegation tick _ req).bind fun _ => ?_
  refine (keeps_delegationExpiry tick _ _).bind fun _ => ?_
  refine (keeps_issue tick fun _ _ => rfl).bind fun _ => ?_
  refine .bind ?_ fun _ => .pure _
  refine (Database.keeps_recordToken tick fun _ _ => rfl).bind fun _ => ?_
  refine keeps_createAuditEntry_sessionStore.bind fun _ => ?_
  exact .pure _

theorem keeps_revokeTokenByJti_sessionStore (jti : String) :
    (revokeTokenByJti jti).Keeps Serving.sessionStore := by
  refine (keeps_sql tickFree_sessionStore fun _ _ _ _ => rfl).bind fun _ => ?_
  exact keeps_modifyApp fun _ => rfl

theorem operates_resolveCaller (auth : Option Uuid) (req : AccessRequest) :
    Operates (resolveCaller p auth req) := by
  refine .bind (.of_keeps (keeps_authenticatedAs auth _)) fun _ => ?_
  refine .bind (.of_keeps (Database.keeps_getAgent tickFree_sessionStore _)) fun agent => ?_
  refine .bind (.of_keeps (keeps_requestPrincipal tickFree_sessionStore agent req)) fun _ => ?_
  refine (operates_getOrCreateSession _ _ _).bind fun _ => ?_
  exact .pure _

theorem operates_recordDecision (caller : Caller) (req : AccessRequest) (eval : PolicyEvaluation)
    (response : AccessResponse) : Operates (recordDecision p caller req eval response) := by
  refine .bind (.of_keeps (keeps_utcNow tickFree_sessionStore)) fun _ => ?_
  refine .bind (.of_keeps (keeps_utcNow tickFree_sessionStore)) fun _ => ?_
  refine (operates_modifySessions fun _ => .recordAction _ _ _).bind fun _ => ?_
  refine .bind (.of_keeps keeps_createAuditEntry_sessionStore) fun _ => ?_
  exact .pure _

theorem operates_requestAccess (auth : Option Uuid) (req : AccessRequest) :
    Operates (requestAccess p auth req) := by
  refine (operates_resolveCaller auth req).bind fun caller => ?_
  refine .ite (.pure _) ?_
  refine .bind (.of_keeps (Action.Keeps.read _)) fun _ => ?_
  refine .ite (.pure _) ?_
  refine (operates_evalEngine _).bind fun eval => ?_
  refine .bind (.of_keeps (keeps_enactDecision ignoresGrants_sessionStore caller req eval))
    fun response => ?_
  refine (operates_recordDecision caller req eval response).bind fun _ => ?_
  exact .pure _

theorem operates_checkAccess (auth : Option Uuid) (req : AccessRequest) :
    Operates (checkAccess p auth req) := by
  refine .bind (.of_keeps (keeps_authenticatedAs auth _)) fun _ => ?_
  refine .bind (.of_keeps (Database.keeps_getAgent tickFree_sessionStore _)) fun agent => ?_
  refine .bind (.of_keeps (keeps_ownerPrincipal tickFree_sessionStore agent)) fun _ => ?_
  refine .bind (.of_keeps (Action.Keeps.read _)) fun _ => ?_
  refine .ite (.pure _) ?_
  refine (operates_evalEngine _).bind fun eval => ?_
  refine .bind (.of_keeps keeps_createAuditEntry_sessionStore) fun _ => ?_
  exact .pure _

theorem operates_killAgent (id : Uuid) : Operates (killAgent id) := by
  refine (operates_modifySessions fun _ => .killAgent id).bind fun _ => ?_
  refine .bind (.of_keeps (Action.Keeps.read _)) fun _ => ?_
  refine .bind (.of_keeps (keeps_sql tickFree_sessionStore fun _ _ _ _ => rfl)) fun _ => ?_
  exact .pure _

theorem operates_killSession (id : String) : Operates (killSession id) :=
  .of_step fun _ => .inr (.killSession id)

theorem operates_recordSpend (id : Uuid) (amount : F64) (sessionId : Option String) :
    Operates (recordSpend id amount sessionId) := by
  refine (operates_modifySessions fun _ => .recordSpend _ amount).bind fun _ => ?_
  refine .bind (.of_keeps (Action.Keeps.read _)) fun _ => ?_
  exact .pure _

theorem operates_serve (call : Call) : Operates (serve p call) := by
  have wrap {α : Type} {act : Handler α} {reply : α → Reply} (h : Operates act) :
      Operates (act >>= fun a => pure (reply a)) := h.bind fun _ => .pure _
  have skips {α : Type} {act : Handler α} {reply : α → Reply} (h : act.Keeps Serving.sessionStore) :
      Operates (act >>= fun a => pure (reply a)) := wrap (.of_keeps h)
  have tick := tickFree_sessionStore
  cases call with
  | requestAccess auth req => exact wrap (operates_requestAccess auth req)
  | check auth req => exact wrap (operates_checkAccess auth req)
  | delegate auth req => exact skips (keeps_delegate_sessionStore auth req)
  | approvalStatus auth id => exact skips (keeps_approvalStatus tick auth id)
  | principalDelegate req =>
      exact skips (keeps_principalDelegate ignoresGrants_sessionStore req fun _ _ => rfl)
  | listPrincipalGrants => exact skips (Database.keeps_listAllGrants tick)
  | revokeGrant id => exact skips (Database.keeps_revokeGrant tick fun _ _ => rfl)
  | listPendingApprovals => exact skips (Database.keeps_listPendingApprovals tick)
  | approveRequest id req | denyRequest id req =>
      exact skips (Database.keeps_resolveApprovalRequest tick fun _ _ => rfl)
  | createAgent req => exact skips (Database.keeps_createAgent tick fun _ _ => rfl)
  | listAgents => exact skips (Database.keeps_listAgents tick)
  | getAgent id => exact skips (Database.keeps_getAgent tick id)
  | provisionClientKey id => exact skips (keeps_provisionClientKey tick fun _ _ => rfl)
  | createPrincipal req => exact skips (Database.keeps_createPrincipal tick fun _ _ => rfl)
  | createResource req => exact skips (Database.keeps_createResource tick fun _ _ => rfl)
  | listResources => exact skips (Database.keeps_listResources tick)
  | createPolicy name engine definition =>
      have hkept := ignoresLogins_sessionStore.keeps_createPolicy (p := p) name engine definition
      exact .of_keeps (hkept.bind fun _ => .pure _)
  | listPolicies => exact skips (Database.keeps_listPolicies tick)
  | listAudit => exact skips (Database.keeps_listAuditEntries tick _)
  | revokeToken jti =>
      exact .of_keeps ((keeps_revokeTokenByJti_sessionStore jti).bind fun _ => .pure _)
  | listSessions => exact skips (Action.Keeps.read _)
  | killSession id => exact wrap (operates_killSession id)
  | killAgent id => exact wrap (operates_killAgent id)
  | restoreAgent id =>
      exact (operates_modifySessions fun _ => .restoreAgent id).bind fun _ => .pure _
  | recordSpend id amount sessionId => exact wrap (operates_recordSpend id amount sessionId)

theorem startUp_sessionStore (s : Serving) : (startUp p s).2.sessionStore = .new :=
  startUp_view tickFree_sessionStore (fun _ _ => rfl) (fun _ _ => rfl) s

/-! ## Steps of the site -/

/-- A step of the site works on the sessions by operations of the store, unless it is a
restart, which forgets them. -/
theorem Site.step_operates (p : Platform) (idp : IdpConfig) (isAlphanumeric : Char → Bool)
    (site : Site) (input : SiteInput) : input.event = .server .restart ∧
        (site.step p idp isAlphanumeric input).world.app.sessionStore = .new ∨
      Relation.ReflTransGen SessionStore.Operation site.world.app.sessionStore
        (site.step p idp isAlphanumeric input).world.app.sessionStore := by
  rw [Site.step]
  cases input.event with
  | server event =>
      cases event with
      | restart => exact .inl ⟨rfl, startUp_sessionStore (p := p) (site.world.serving input.tape)⟩
      | call call =>
          dsimp only [World.step]
          split
          · exact .inr (operates_serve call (site.world.serving input.tape))
          · exact .inr .refl
  | authorize providerName =>
      right
      dsimp only
      split
      · rw [idpAuthorize]
        cases idp.providers.find? (·.name == providerName) <;> exact .refl
      · exact .refl
  | callback state code net =>
      have hkept : (site.afterCallback p idp state code net input).app.sessionStore =
          site.world.app.sessionStore :=
        ignoresLogins_sessionStore.keeps_idpCallback idp net _ code _
      right
      dsimp only
      split
      · split <;> (rw [hkept])
      · exact .refl

end

end Patroclus
