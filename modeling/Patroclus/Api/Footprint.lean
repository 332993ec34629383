import Patroclus.Api.Caller
import Patroclus.Foundation.Respects
import Patroclus.Policy.Counting

/-!
# What an access call reads

A footprint names sessions, rate-limit windows and row ids. Two servers look
alike under it when they have the same agents, principals, resources, policy,
revocations and stops, and the same entries under those names. A call of
`request_access` or `check_access` with this footprint cannot tell them apart, and
they still look alike after it.
-/

namespace Patroclus

open Foundation

structure Footprint where
  sessions : Set String
  rates : Set String
  ids : Set Uuid

/-- Two states in which a call with this footprint sees the same. -/
structure AppState.Alike (f : Footprint) (app app' : AppState) : Prop where
  agents : app.db.agents = app'.db.agents
  principals : app.db.principals = app'.db.principals
  resources : app.db.resources = app'.db.resources
  policyEngine : app.policyEngine = app'.policyEngine
  jtiStore : app.jtiStore = app'.jtiStore
  killedAgents : app.sessionStore.killedAgents = app'.sessionStore.killedAgents
  session : ∀ key ∈ f.sessions,
    app.sessionStore.sessions.lookup key = app'.sessionStore.sessions.lookup key
  rate : ∀ key ∈ f.rates,
    app.sessionStore.rateLimits.lookup key = app'.sessionStore.rateLimits.lookup key
  tokenTaken : ∀ id ∈ f.ids,
    app.db.tokens.any (·.id == id.toString) = app'.db.tokens.any (·.id == id.toString)
  approval : ∀ id ∈ f.ids, app.db.approvalRequests.find? (·.id == id) =
    app'.db.approvalRequests.find? (·.id == id)

/-- Two executions at the same place of the same tape, which draws ids of the footprint. -/
structure Serving.Alike (f : Footprint) (s s' : Serving) : Prop where
  app : s.app.Alike f s'.app
  tape : s.tape = s'.tape
  tick : s.tick = s'.tick
  ids : ∀ n, s.tape.uuid n ∈ f.ids

variable {f : Footprint} {app app' app'' : AppState} {s s' : Serving}

theorem AppState.Alike.refl (app : AppState) : app.Alike f app where
  agents := rfl
  principals := rfl
  resources := rfl
  policyEngine := rfl
  jtiStore := rfl
  killedAgents := rfl
  session _ _ := rfl
  rate _ _ := rfl
  tokenTaken _ _ := rfl
  approval _ _ := rfl

theorem AppState.Alike.trans (h : app.Alike f app') (h' : app'.Alike f app'') :
    app.Alike f app'' where
  agents := h.agents.trans h'.agents
  principals := h.principals.trans h'.principals
  resources := h.resources.trans h'.resources
  policyEngine := h.policyEngine.trans h'.policyEngine
  jtiStore := h.jtiStore.trans h'.jtiStore
  killedAgents := h.killedAgents.trans h'.killedAgents
  session key hkey := (h.session key hkey).trans (h'.session key hkey)
  rate key hkey := (h.rate key hkey).trans (h'.rate key hkey)
  tokenTaken id hid := (h.tokenTaken id hid).trans (h'.tokenTaken id hid)
  approval id hid := (h.approval id hid).trans (h'.approval id hid)

/-- A smaller footprint sees less. -/
theorem AppState.Alike.mono {f' : Footprint} (h : app.Alike f app')
    (sessions : f'.sessions ⊆ f.sessions) (rates : f'.rates ⊆ f.rates) (ids : f'.ids ⊆ f.ids) :
    app.Alike f' app' :=
  { h with
    session := fun key hkey => h.session key (sessions hkey)
    rate := fun key hkey => h.rate key (rates hkey)
    tokenTaken := fun id hid => h.tokenTaken id (ids hid)
    approval := fun id hid => h.approval id (ids hid) }

theorem Serving.Alike.next (h : s.Alike f s') : s.next.Alike f s'.next :=
  ⟨h.app, h.tape, congrArg (· + 1) h.tick, h.ids⟩

/-! ## Steps -/

section

variable {α β : Type}

theorem respects_raise (e : PatroclusError) :
    (raise e : Handler α).Respects (Serving.Alike f) := .fail _

theorem respects_orPanic (value : Option α) : (orPanic value).Respects (Serving.Alike f) := by
  cases value with
  | none => exact .fail _
  | some a => exact .pure a

theorem respects_utcNow : utcNow.Respects (Serving.Alike f) := by
  intro s s' h
  refine ⟨?_, h.next⟩
  rw [utcNow_run, utcNow_run, h.tape, h.tick]

theorem respects_nowV7 : nowV7.Respects (Serving.Alike f) := by
  intro s s' h
  refine ⟨?_, h.next⟩
  rw [nowV7_run, nowV7_run, h.tape, h.tick]

/-- The drawn ids are ids of the footprint. -/
theorem respects_nowV7_bind {next : Uuid → Handler β}
    (rest : ∀ id ∈ f.ids, (next id).Respects (Serving.Alike f)) :
    (nowV7 >>= next).Respects (Serving.Alike f) :=
  respects_nowV7.bind_of fun id s s' h hrun => by
    cases hrun
    exact rest _ (h.ids s.tick)

/-- A statement with the same outcome on databases that look alike, which look alike after it. -/
theorem respects_sql {statement : Db → Except String (α × Db)}
    (h : ∀ s s' : Serving, s.app.Alike f s'.app →
      (∃ message, statement s.app.db = .error message ∧ statement s'.app.db = .error message) ∨
      ∃ a db db', statement s.app.db = .ok (a, db) ∧ statement s'.app.db = .ok (a, db') ∧
        (s.withDb db).app.Alike f (s'.withDb db').app) :
    (sql statement).Respects (Serving.Alike f) := by
  intro s s' halike
  unfold sql
  rw [halike.tape, halike.tick]
  cases s'.tape.fault s'.tick with
  | some message => exact ⟨rfl, halike.next⟩
  | none =>
      rcases h s s' halike.app with ⟨message, hs, hs'⟩ | ⟨a, db, db', hs, hs', happ⟩
      · rw [hs, hs']
        exact ⟨rfl, halike.next⟩
      · rw [hs, hs']
        exact ⟨rfl, { halike.next with app := happ }⟩

theorem respects_query {select : Db → α}
    (h : ∀ s s' : Serving, s.app.Alike f s'.app → select s.app.db = select s'.app.db) :
    (query select).Respects (Serving.Alike f) :=
  respects_sql fun s s' happ => by
    rw [h s s' happ]
    exact .inr ⟨_, _, _, rfl, rfl, happ⟩

/-- An insertion behind checks that come out alike. -/
theorem respects_insert {statement : Db → Except String (Unit × Db)}
    {check : Db → Except String Unit} {insert : Db → Db}
    (hstatement : ∀ db, statement db = (check db).map fun _ => ((), insert db))
    (hcheck : ∀ s s' : Serving, s.app.Alike f s'.app → check s.app.db = check s'.app.db)
    (hinsert : ∀ s s' : Serving, s.app.Alike f s'.app →
      (s.withDb (insert s.app.db)).app.Alike f (s'.withDb (insert s'.app.db)).app) :
    (sql statement).Respects (Serving.Alike f) :=
  respects_sql fun s s' happ => by
    rw [hstatement, hstatement, hcheck s s' happ]
    cases check s'.app.db with
    | error message => exact .inl ⟨message, rfl, rfl⟩
    | ok _ => exact .inr ⟨(), _, _, rfl, rfl, hinsert s s' happ⟩

end

/-! ## The database -/

section

variable {p : Platform}

theorem respects_parseOrNow (text : String) :
    (Database.parseOrNow p text).Respects (Serving.Alike f) :=
  respects_utcNow.bind fun _ => .pure _

theorem respects_queryRow {ρ : Type} {select : Db → Option ρ}
    (h : ∀ s s' : Serving, s.app.Alike f s'.app → select s.app.db = select s'.app.db) :
    (Database.queryRow select).Respects (Serving.Alike f) := by
  refine (respects_query h).bind fun found => ?_
  cases found with
  | none => exact respects_raise _
  | some row => exact .pure row

theorem respects_getAgent (id : Uuid) : (Database.getAgent p id).Respects (Serving.Alike f) := by
  refine (respects_query fun s s' happ => by rw [happ.agents]).bind fun found => ?_
  cases found with
  | none => exact respects_raise _
  | some row =>
      refine (respects_parseOrNow _).bind fun _ => ?_
      refine (respects_parseOrNow _).bind fun _ => ?_
      exact .pure _

theorem respects_principalFromRow (row : PrincipalRow) :
    (Database.principalFromRow p row).Respects (Serving.Alike f) :=
  (respects_parseOrNow _).bind fun _ => .pure _

theorem respects_getPrincipal (id : Uuid) :
    (Database.getPrincipal p id).Respects (Serving.Alike f) :=
  (respects_queryRow fun s s' happ => by rw [happ.principals]).bind respects_principalFromRow

theorem respects_principalByEmail (email : String) :
    (Database.principalByEmail p email).Respects (Serving.Alike f) :=
  (respects_queryRow fun s s' happ => by rw [happ.principals]).bind respects_principalFromRow

theorem respects_getPrincipalByEmail (email : String) :
    (Database.getPrincipalByEmail p email).Respects (Serving.Alike f) := by
  refine (respects_principalByEmail email).attempt.bind fun found => ?_
  cases found <;> exact .pure _

theorem respects_findResourceByUri (uri : String) :
    (Database.findResourceByUri uri).Respects (Serving.Alike f) := by
  refine (respects_query fun _ _ _ => rfl).bind fun _ => ?_
  refine (respects_queryRow fun s s' happ => by rw [happ.resources]).attempt.bind fun found => ?_
  cases found <;> exact .pure _

theorem respects_recordToken {id : Uuid} (hid : id ∈ f.ids) (agentId : Uuid)
    (scopes : List String) (audience : String) (expiresAt : Instant) :
    (Database.recordToken p id.toString none agentId scopes audience expiresAt).Respects
      (Serving.Alike f) := by
  refine respects_utcNow.bind fun _ => ?_
  refine respects_insert (Db.insertToken_eq_map _) (fun s s' happ => ?_) fun s s' happ => ?_
  · simp only [Db.tokenChecks, happ.tokenTaken id hid, happ.agents, Option.all_none]
  · refine { happ with tokenTaken := fun other hother => ?_ }
    simp only [Serving.withDb_app, List.any_append, happ.tokenTaken other hother]

theorem respects_getApprovalRequest {id : Uuid} (hid : id ∈ f.ids) :
    (Database.getApprovalRequest p id).Respects (Serving.Alike f) := by
  refine (respects_queryRow fun _ _ happ => happ.approval id hid).bind fun _ => ?_
  refine (respects_parseOrNow _).bind fun _ => ?_
  refine (respects_parseOrNow _).bind fun _ => ?_
  exact .pure _

theorem respects_insertApprovalRequest {id : Uuid} (hid : id ∈ f.ids) (row : ApprovalRow)
    (hrow : row.id = id) :
    (sql (Db.insertApprovalRequest p.foreignKeys row)).Respects (Serving.Alike f) := by
  refine respects_insert (Db.insertApprovalRequest_eq_map _) (fun s s' happ => ?_)
    fun s s' happ => ?_
  · have htaken : s.app.db.approvalRequests.any (·.id == id) =
        s'.app.db.approvalRequests.any (·.id == id) := by
      rw [← List.isSome_find?, ← List.isSome_find?, happ.approval id hid]
    simp only [Db.approvalChecks, hrow, htaken, happ.agents]
  · refine { happ with approval := fun other hother => ?_ }
    simp only [Serving.withDb_app, List.find?_append, happ.approval other hother]

theorem respects_createApprovalRequest (agentId : Uuid) (principalId resourceId : Option Uuid)
    (action : String) (requestedScopes : List String) (ttlSeconds : Nat) :
    (Database.createApprovalRequest p agentId principalId resourceId action requestedScopes
      ttlSeconds).Respects (Serving.Alike f) := by
  refine respects_nowV7_bind fun id hid => ?_
  refine respects_utcNow.bind fun now => ?_
  cases now.addSeconds (asI64 ttlSeconds) with
  | none => exact respects_raise _
  | some expiresAt =>
      refine (respects_insertApprovalRequest hid _ rfl).bind fun _ => ?_
      exact respects_getApprovalRequest hid

/-- Whether an entry is made depends on the tape alone, and the audit log is not seen. -/
theorem respects_createAuditEntry (entry : CreateAuditEntry) {β : Type} (b : β) :
    (Database.createAuditEntry p entry >>= fun _ => pure b : Handler β).Respects
      (Serving.Alike f) := by
  refine .discard ?_
  intro s s' h
  obtain ⟨audit, row, -, hrun⟩ := Database.createAuditEntry_eq (p := p) entry s
  obtain ⟨audit', row', -, hrun'⟩ := Database.createAuditEntry_eq (p := p) entry s'
  rw [hrun, hrun', h.tape, h.tick]
  cases s'.tape.fault (s'.tick + 2) with
  | some message => exact ⟨rfl, h.next.next.next⟩
  | none => exact ⟨rfl, { h.next.next.next with app := { h.app with } }⟩

end

/-! ## The handlers -/

section

variable {p : Platform}

theorem respects_verifyToken (token : String) (audience : Option String) :
    (verifyToken p token audience).Respects (Serving.Alike f) := by
  refine respects_utcNow.bind fun decodeNow => ?_
  refine respects_utcNow.bind fun now => ?_
  refine (Action.Respects.read fun _ _ h => h.app.jtiStore).bind fun jtiStore => ?_
  cases TokenVerifier.verify p jtiStore decodeNow now token audience with
  | ok claims => exact .pure claims
  | error e => exact respects_raise e

theorem respects_authenticatedAs (auth : Option Uuid) (agentId : Uuid) :
    (authenticatedAs auth agentId).Respects (Serving.Alike f) := by
  cases auth with
  | none => exact (respects_raise _).bind fun _ => .ite (.pure _) (respects_raise _)
  | some presenter =>
      exact (Action.Respects.pure presenter).bind fun _ => .ite (.pure _) (respects_raise _)

theorem respects_ownerPrincipal (agent : Agent) :
    (ownerPrincipal p agent).Respects (Serving.Alike f) := by
  unfold ownerPrincipal
  cases agent.ownerId with
  | none => exact .pure none
  | some ownerId =>
      refine (respects_getPrincipal ownerId).attempt.bind fun found => ?_
      cases found <;> exact .pure _

theorem respects_requestPrincipal (agent : Agent) (req : AccessRequest) :
    (requestPrincipal p agent req).Respects (Serving.Alike f) := by
  unfold requestPrincipal
  cases req.delegationToken with
  | none => exact (respects_ownerPrincipal agent).bind fun _ => .pure _
  | some token =>
      refine (respects_verifyToken _ _).bind fun _ => ?_
      refine (respects_getPrincipalByEmail _).bind fun _ => ?_
      exact .pure _

theorem respects_getOrCreateSession {sessionId : String} (hid : sessionId ∈ f.sessions)
    (agentId : Uuid) (principalId : Option Uuid) :
    (getOrCreateSession sessionId agentId principalId).Respects (Serving.Alike f) := by
  intro s s' h
  have hlookup := h.app.session sessionId hid
  unfold getOrCreateSession SessionStore.getOrCreateSession
  rw [hlookup, h.tape, h.tick]
  cases s'.app.sessionStore.sessions.lookup sessionId with
  | some session => exact ⟨rfl, { h.next with app := { h.app with } }⟩
  | none =>
      refine ⟨rfl, { h.next with app := { h.app with session := fun key hkey => ?_ } }⟩
      simp only [Serving.withApp_app]
      by_cases hsame : key = sessionId
      · rw [hsame, AList.lookup_insert, AList.lookup_insert]
      · rw [AList.lookup_insert_ne hsame, AList.lookup_insert_ne hsame]
        exact h.app.session key hkey

theorem respects_evalEngine {ctx : PolicyContext}
    (session : ∀ sessionId, ctx.sessionId = some sessionId → sessionId ∈ f.sessions)
    (rate : ∀ key, ctx.rateKey = some key → key ∈ f.rates) :
    (evalEngine ctx).Respects (Serving.Alike f) := by
  intro s s' h
  have hsees : ctx.SeesAlike s.app.sessionStore s'.app.sessionStore := by
    refine ⟨?_, fun key hkey => h.app.rate key (rate key hkey)⟩
    cases hsession : ctx.sessionId with
    | none => rfl
    | some sessionId => exact h.app.session sessionId (session sessionId hsession)
  unfold evalEngine
  rw [h.app.policyEngine, h.tape, h.tick]
  obtain ⟨hresult, hwindows⟩ := YamlEngine.evaluate_congr
    s'.app.policyEngine (s'.tape.now s'.tick) hsees
  refine ⟨congrArg Except.ok hresult, { h.next with app := { h.app with
    killedAgents := ?_
    session := fun key hkey => ?_
    rate := fun key hkey => hwindows key (h.app.rate key hkey) } }⟩
  · simp only [Serving.withApp_app, YamlEngine.killedAgents_evaluate]
    exact h.app.killedAgents
  · simp only [Serving.withApp_app, YamlEngine.sessions_evaluate]
    exact h.app.session key hkey

theorem respects_recordAction (sessionId : String) (event : TrajectoryEvent) (now : Instant) :
    (modifySessions (·.recordAction sessionId event now)).Respects (Serving.Alike f) := by
  intro s s' h
  refine ⟨rfl, { h with app := { h.app with session := fun key hkey => ?_ } }⟩
  have hlookup := h.app.session key hkey
  show (modifyAt sessionId _ s.app.sessionStore.sessions).lookup key =
    (modifyAt sessionId _ s'.app.sessionStore.sessions).lookup key
  by_cases hsame : key = sessionId
  · rw [hsame] at hlookup ⊢
    rw [lookup_modifyAt_self, lookup_modifyAt_self, hlookup]
  · rw [lookup_modifyAt_of_ne hsame, lookup_modifyAt_of_ne hsame, hlookup]

theorem respects_issue (origin : Origin) (params : IssueTokenParams) :
    (issue p origin params).Respects (Serving.Alike f) := by
  refine respects_utcNow.bind fun _ => ?_
  refine respects_nowV7.bind fun _ => ?_
  refine respects_utcNow.bind fun _ => ?_
  refine (Action.Respects.lift _).bind fun _ => ?_
  refine (Action.Respects.write fun _ _ h => { h with }).bind fun _ => ?_
  exact .pure _

/-- An issued token is recorded under an id of the footprint. -/
theorem respects_grantAccess (caller : Caller) (req : AccessRequest) (eval : PolicyEvaluation) :
    (grantAccess p caller req eval).Respects (Serving.Alike f) := by
  apply (respects_issue _ _).bind_of
  intro result s s' h hissue
  obtain ⟨minted, hsign, rfl, -⟩ := issue_eq_ok.mp (Prod.ext hissue rfl)
  rw [sign_jti hsign]
  refine respects_utcNow.bind fun _ => ?_
  refine (respects_orPanic _).bind fun _ => ?_
  refine (respects_recordToken (h.ids _) _ _ _ _).bind fun _ => ?_
  exact .pure _

theorem respects_enactDecision (caller : Caller) (req : AccessRequest)
    (eval : PolicyEvaluation) : (enactDecision p caller req eval).Respects (Serving.Alike f) := by
  unfold enactDecision
  cases eval.decision with
  | allow => exact respects_grantAccess caller req eval
  | requireApproval approver reason =>
      refine (respects_findResourceByUri _).attempt.bind fun _ => ?_
      refine (respects_createApprovalRequest _ _ _ _ _ _).bind fun _ => ?_
      exact .pure _
  | deny => exact .pure _

theorem respects_recordDecision (caller : Caller) (req : AccessRequest) (eval : PolicyEvaluation)
    (response : AccessResponse) :
    (recordDecision p caller req eval response).Respects (Serving.Alike f) := by
  refine respects_utcNow.bind fun _ => ?_
  refine respects_utcNow.bind fun _ => ?_
  refine (respects_recordAction _ _ _).bind fun _ => ?_
  exact respects_createAuditEntry _ ()

theorem respects_isAgentKilled (agentId : Uuid) :
    (Action.read fun s : Serving => s.app.sessionStore.isAgentKilled agentId :
      Handler Bool).Respects (Serving.Alike f) :=
  .read fun _ _ h => by rw [SessionStore.isAgentKilled, SessionStore.isAgentKilled,
    h.app.killedAgents]

section

variable {req : AccessRequest}

theorem respects_resolveCaller (auth : Option Uuid) (session : req.sessionKey ∈ f.sessions) :
    (resolveCaller p auth req).Respects (Serving.Alike f) := by
  apply (respects_authenticatedAs auth _).bind
  intro _
  apply (respects_getAgent _).bind_of
  intro agent s s' _ hagent
  have hid := getAgent_id (Prod.ext hagent rfl)
  apply (respects_requestPrincipal agent req).bind
  intro principal
  refine (respects_getOrCreateSession ?_ _ _).bind fun _ => ?_
  · rw [hid]
    exact session
  · exact .pure _

/-- A request sees its own session and the window of its own key. -/
theorem respects_requestAccess (auth : Option Uuid) (session : req.sessionKey ∈ f.sessions)
    (rate : Rule.rateLimitKey req.sessionKey req.action req.resource ∈ f.rates) :
    (requestAccess p auth req).Respects (Serving.Alike f) := by
  apply (respects_resolveCaller auth session).bind_of
  intro caller s s' _ hcaller
  have hkey := (resolveCaller_found (Prod.ext hcaller rfl)).sessionId
  split
  · exact .pure _
  · refine (respects_isAgentKilled _).bind fun stopped => ?_
    refine .ite (.pure _) ?_
    refine (respects_evalEngine (fun sessionId h => ?_) fun key h => ?_).bind fun eval => ?_
    · cases h
      rw [hkey]
      exact session
    · cases h
      rw [hkey]
      exact rate
    · refine (respects_enactDecision caller req eval).bind fun response => ?_
      refine (respects_recordDecision caller req eval response).bind fun _ => ?_
      exact .pure _

/-- A dry run sees a session and a window only if it names the session. -/
theorem respects_checkAccess (auth : Option Uuid)
    (session : ∀ sessionId, req.context.bind (·.sessionId) = some sessionId →
      sessionId ∈ f.sessions ∧ Rule.rateLimitKey sessionId req.action req.resource ∈ f.rates) :
    (checkAccess p auth req).Respects (Serving.Alike f) := by
  refine (respects_authenticatedAs auth _).bind fun _ => ?_
  refine (respects_getAgent _).bind fun agent => ?_
  refine (respects_ownerPrincipal agent).bind fun principal => ?_
  refine (respects_isAgentKilled _).bind fun stopped => ?_
  refine .ite (.pure _) ?_
  have hsession (sessionId : String) (h : req.context.bind (·.sessionId) = some sessionId) :
      sessionId ∈ f.sessions := (session sessionId h).1
  refine (respects_evalEngine hsession fun key h => ?_).bind fun eval => ?_
  · obtain ⟨sessionId, hnamed, rfl⟩ := Option.map_eq_some_iff.mp h
    exact (session sessionId hnamed).2
  · exact respects_createAuditEntry _ _

end

end

end Patroclus
