import Patroclus.Db.Database

/-!
# Frames of the database layer

What each operation of `Database` leaves alone. A read keeps every view of the
state that does not count the steps of the tape. A write keeps, beyond that,
every view that ignores the table it writes.
-/

namespace Patroclus

open Foundation

namespace Database

variable {p : Platform} {γ : Type*} {view : Serving → γ}

/-! ## Reads -/

section

variable (h : TickFree view)

include h

theorem keeps_parseOrNow (text : String) : (parseOrNow p text).Keeps view :=
  (keeps_utcNow h).bind fun _ => .pure _

theorem keeps_queryRow {ρ : Type} (select : Db → Option ρ) : (queryRow select).Keeps view := by
  refine (keeps_query h).bind fun found => ?_
  cases found with
  | none => exact keeps_raise _
  | some row => exact .pure row

theorem keeps_prepare : prepare.Keeps view := keeps_query h

theorem keeps_loadActivePolicyYaml : loadActivePolicyYaml.Keeps view := by
  refine (keeps_prepare h).bind fun _ => ?_
  refine (keeps_queryRow h _).attempt.bind fun found => ?_
  cases found <;> exact .pure _

theorem keeps_listPolicies : listPolicies.Keeps view := keeps_query h

theorem keeps_agentFromRow (row : AgentRow) : (agentFromRow p row).Keeps view := by
  refine (keeps_parseOrNow h _).bind fun _ => ?_
  refine (keeps_parseOrNow h _).bind fun _ => ?_
  exact .pure _

theorem keeps_getAgent (id : Uuid) : (getAgent p id).Keeps view := by
  refine (keeps_query h).bind fun found => ?_
  cases found with
  | none => exact keeps_raise _
  | some row => exact keeps_agentFromRow h row

theorem keeps_listAgents : (listAgents p).Keeps view :=
  (keeps_query h).bind fun rows => .mapM (keeps_agentFromRow h) rows

theorem keeps_principalFromRow (row : PrincipalRow) : (principalFromRow p row).Keeps view :=
  (keeps_parseOrNow h _).bind fun _ => .pure _

theorem keeps_getPrincipal (id : Uuid) : (getPrincipal p id).Keeps view :=
  (keeps_queryRow h _).bind fun row => keeps_principalFromRow h row

theorem keeps_principalByEmail (email : String) : (principalByEmail p email).Keeps view :=
  (keeps_queryRow h _).bind fun row => keeps_principalFromRow h row

theorem keeps_getPrincipalByEmail (email : String) : (getPrincipalByEmail p email).Keeps view := by
  refine (keeps_principalByEmail h email).attempt.bind fun found => ?_
  cases found <;> exact .pure _

theorem keeps_auditEntryFromRow (row : AuditRow) : (auditEntryFromRow p row).Keeps view :=
  (keeps_parseOrNow h _).bind fun _ => .pure _

theorem keeps_listAuditEntries (limit : Nat) : (listAuditEntries p limit).Keeps view :=
  (keeps_query h).bind fun rows => .mapM (keeps_auditEntryFromRow h) rows

theorem keeps_resourceFromRow (row : ResourceRow) : (resourceFromRow p row).Keeps view :=
  (keeps_parseOrNow h _).bind fun _ => .pure _

theorem keeps_getResource (id : Uuid) : (getResource p id).Keeps view :=
  (keeps_queryRow h _).bind fun row => keeps_resourceFromRow h row

theorem keeps_listResources : (listResources p).Keeps view :=
  (keeps_query h).bind fun rows => .mapM (keeps_resourceFromRow h) rows

theorem keeps_findResourceByUri (uri : String) : (findResourceByUri uri).Keeps view := by
  refine (keeps_prepare h).bind fun _ => ?_
  refine (keeps_queryRow h _).attempt.bind fun found => ?_
  cases found <;> exact .pure _

theorem keeps_grantFromRow (row : GrantRow) : (grantFromRow p row).Keeps view := by
  refine (keeps_parseOrNow h _).bind fun _ => ?_
  refine (keeps_parseOrNow h _).bind fun _ => ?_
  exact .pure _

theorem keeps_listAllGrants : (listAllGrants p).Keeps view :=
  (keeps_query h).bind fun rows => .mapM (keeps_grantFromRow h) rows

theorem keeps_approvalFromRow (row : ApprovalRow) : (approvalFromRow p row).Keeps view := by
  refine (keeps_parseOrNow h _).bind fun _ => ?_
  refine (keeps_parseOrNow h _).bind fun _ => ?_
  exact .pure _

theorem keeps_getApprovalRequest (id : Uuid) : (getApprovalRequest p id).Keeps view :=
  (keeps_queryRow h _).bind fun row => keeps_approvalFromRow h row

theorem keeps_listPendingApprovals : (listPendingApprovals p).Keeps view :=
  (keeps_query h).bind fun rows => .mapM (keeps_approvalFromRow h) rows

/-! ## Writes -/

theorem keeps_insertPolicy {row : PolicyRow}
    (frame : ∀ s rows, view (s.withDb { s.app.db with policies := rows }) = view s) :
    (sql (Db.insertPolicy row)).Keeps view :=
  keeps_sql h fun s _ _ hdb => by
    obtain ⟨-, rfl⟩ := Db.insertPolicy_eq_ok.mp hdb
    exact frame s _

theorem keeps_createDefaultPolicy
    (frame : ∀ s rows, view (s.withDb { s.app.db with policies := rows }) = view s) :
    (createDefaultPolicy p).Keeps view := by
  refine (keeps_query h).attempt.bind fun _ => ?_
  refine .ite ?_ (.pure _)
  refine (keeps_nowV7 h).bind fun _ => ?_
  refine (keeps_utcNow h).bind fun _ => ?_
  exact keeps_insertPolicy h frame

theorem keeps_createPolicy {name engine definition : String}
    (frame : ∀ s rows, view (s.withDb { s.app.db with policies := rows }) = view s) :
    (createPolicy p name engine definition).Keeps view := by
  refine (keeps_nowV7 h).bind fun _ => ?_
  refine (keeps_utcNow h).bind fun _ => ?_
  refine (keeps_sql h fun s _ _ hdb => ?_).bind fun _ => ?_
  · cases hdb
    exact frame s _
  · exact keeps_insertPolicy h frame

theorem keeps_createAgent {req : CreateAgentRequest}
    (frame : ∀ s rows, view (s.withDb { s.app.db with agents := rows }) = view s) :
    (createAgent p req).Keeps view := by
  refine (keeps_nowV7 h).bind fun _ => ?_
  refine (keeps_utcNow h).bind fun _ => ?_
  refine (keeps_sql h fun s _ _ hdb => ?_).bind fun _ => ?_
  · obtain ⟨-, rfl⟩ := Db.insertAgent_eq_ok.mp hdb
    exact frame s _
  · exact keeps_getAgent h _

theorem keeps_setAgentClientKeyHash {agentId : Uuid} {keyHash : String}
    (frame : ∀ s rows, view (s.withDb { s.app.db with agents := rows }) = view s) :
    (setAgentClientKeyHash p agentId keyHash).Keeps view := by
  refine (keeps_utcNow h).bind fun _ => ?_
  refine (keeps_sql h fun s _ _ hdb => ?_).bind fun _ => ?_
  · cases hdb
    exact frame s _
  · exact .ite (keeps_raise _) (.pure _)

theorem keeps_createPrincipal {req : CreatePrincipalRequest}
    (frame : ∀ s rows, view (s.withDb { s.app.db with principals := rows }) = view s) :
    (createPrincipal p req).Keeps view := by
  refine (keeps_nowV7 h).bind fun _ => ?_
  refine (keeps_utcNow h).bind fun _ => ?_
  refine (keeps_sql h fun s _ _ hdb => ?_).bind fun _ => ?_
  · obtain ⟨-, rfl⟩ := Db.insertPrincipal_eq_ok.mp hdb
    exact frame s _
  · exact keeps_getPrincipal h _

theorem keeps_createResource {req : CreateResourceRequest}
    (frame : ∀ s rows, view (s.withDb { s.app.db with resources := rows }) = view s) :
    (createResource p req).Keeps view := by
  refine (keeps_nowV7 h).bind fun _ => ?_
  refine (keeps_utcNow h).bind fun _ => ?_
  refine (keeps_sql h fun s _ _ hdb => ?_).bind fun _ => ?_
  · obtain ⟨-, rfl⟩ := Db.insertResource_eq_ok.mp hdb
    exact frame s _
  · exact keeps_getResource h _

theorem keeps_createAuditEntry {entry : CreateAuditEntry}
    (frame : ∀ s rows n, view (s.withDb { s.app.db with
      auditLog := rows, auditSequence := n }) = view s) :
    (createAuditEntry p entry).Keeps view := by
  refine (keeps_queryRow h _).attempt.bind fun _ => ?_
  refine (keeps_utcNow h).bind fun _ => ?_
  refine (keeps_sql h fun s _ _ hdb => ?_).bind fun _ => ?_
  · cases hdb
    exact frame s _ _
  · exact .pure _

theorem keeps_createGrant {agentId principalId : Uuid} {parentGrantId : Option Uuid}
    {scopes : List String} {constraints : Option Json} {expiresAt : Instant}
    (frame : ∀ s rows, view (s.withDb { s.app.db with grants := rows }) = view s) :
    (createGrant p agentId principalId parentGrantId scopes constraints expiresAt).Keeps view := by
  refine (keeps_nowV7 h).bind fun _ => ?_
  refine (keeps_utcNow h).bind fun _ => ?_
  refine (keeps_sql h fun s _ _ hdb => ?_).bind fun _ => ?_
  · obtain ⟨-, -, rfl⟩ := Db.insertGrant_eq_ok.mp hdb
    exact frame s _
  · exact .pure _

theorem keeps_revokeGrantSync
    (frame : ∀ s rows, view (s.withDb { s.app.db with grants := rows }) = view s)
    (fuel : Nat) (id : Uuid) : (revokeGrantSync p fuel id).Keeps view := by
  induction fuel generalizing id with
  | zero => exact .fail _
  | succ fuel ih =>
      refine (keeps_utcNow h).bind fun _ => ?_
      refine (keeps_sql h fun s _ _ hdb => ?_).bind fun _ => ?_
      · cases hdb
        exact frame s _
      · refine (keeps_query h).bind fun _ => ?_
        refine (keeps_deliverRows h _).bind fun _ => ?_
        refine (Action.Keeps.mapM ih _).bind fun _ => ?_
        exact .pure _

theorem keeps_revokeGrant {id : Uuid}
    (frame : ∀ s rows, view (s.withDb { s.app.db with grants := rows }) = view s) :
    (revokeGrant p id).Keeps view :=
  (Action.Keeps.read _).bind fun _ => keeps_revokeGrantSync h frame _ id

theorem keeps_recordToken {jti : String} {grantId : Option Uuid} {agentId : Uuid}
    {scopes : List String} {audience : String} {expiresAt : Instant}
    (frame : ∀ s rows, view (s.withDb { s.app.db with tokens := rows }) = view s) :
    (recordToken p jti grantId agentId scopes audience expiresAt).Keeps view := by
  refine (keeps_utcNow h).bind fun _ => ?_
  refine keeps_sql h fun s _ _ hdb => ?_
  obtain ⟨-, -, rfl⟩ := Db.insertToken_eq_ok.mp hdb
  exact frame s _

theorem keeps_createApprovalRequest {agentId : Uuid} {principalId resourceId : Option Uuid}
    {action : String} {requestedScopes : List String} {ttlSeconds : Nat}
    (frame : ∀ s rows, view (s.withDb { s.app.db with approvalRequests := rows }) = view s) :
    (createApprovalRequest p agentId principalId resourceId action requestedScopes
      ttlSeconds).Keeps view := by
  refine (keeps_nowV7 h).bind fun _ => ?_
  refine (keeps_utcNow h).bind fun now => ?_
  cases now.addSeconds (asI64 ttlSeconds) with
  | none => exact keeps_raise _
  | some expiresAt =>
      refine (keeps_sql h fun s _ _ hdb => ?_).bind fun _ => ?_
      · obtain ⟨-, -, rfl⟩ := Db.insertApprovalRequest_eq_ok.mp hdb
        exact frame s _
      · exact keeps_getApprovalRequest h _

theorem keeps_approvalTokenFor (approved : Bool) : (approvalTokenFor approved).Keeps view :=
  .ite ((keeps_nowV7 h).bind fun _ => .pure _) (.pure _)

theorem keeps_resolveApprovalRequest {id approverId : Uuid} {approved : Bool}
    {reason : Option String}
    (frame : ∀ s rows, view (s.withDb { s.app.db with approvalRequests := rows }) = view s) :
    (resolveApprovalRequest p id approverId approved reason).Keeps view := by
  refine (keeps_utcNow h).bind fun _ => ?_
  refine (keeps_approvalTokenFor h approved).bind fun _ => ?_
  refine (keeps_sql h fun s _ _ hdb => ?_).bind fun _ => ?_
  · cases hdb
    exact frame s _
  · exact .ite (keeps_raise _) (keeps_getApprovalRequest h _)

end

/-- The row that `recordToken` stores, but for its `issued_at`. -/
structure Records (jti : String) (grantId : Option Uuid) (agentId : Uuid) (scopes : List String)
    (audience : String) (row : TokenRow) : Prop where
  id : row.id = jti
  grantId : row.grantId = grantId
  agentId : row.agentId = agentId
  scopes : row.scopes = scopes
  audience : row.audience = audience
  revoked : row.revoked = false

section

variable {jti : String} {grantId : Option Uuid} {agentId : Uuid} {scopes : List String}
  {audience : String} {expiresAt : Instant} {s finish : Serving}

/-- A recorded token is one new row, with the text of its expiry. -/
theorem recordToken_row (run : recordToken p jti grantId agentId scopes audience expiresAt s =
    (.ok (), finish)) : ∃ row, Records jti grantId agentId scopes audience row ∧
      row.expiresAt = p.toRfc3339 expiresAt ∧
      finish = s.next.next.withDb { s.app.db with tokens := s.app.db.tokens ++ [row] } := by
  obtain ⟨now, middle, hnow, hsql⟩ := Action.bind_ok_iff.mp run
  cases hnow
  obtain ⟨-, db, hdb, rfl⟩ := sql_eq_ok.mp hsql
  obtain ⟨-, -, rfl⟩ := Db.insertToken_eq_ok.mp hdb
  exact ⟨_, ⟨rfl, rfl, rfl, rfl, rfl, rfl⟩, rfl, rfl⟩

theorem recordToken_ok (run : recordToken p jti grantId agentId scopes audience expiresAt s =
    (.ok (), finish)) : ∃ row, Records jti grantId agentId scopes audience row ∧
      finish = s.next.next.withDb { s.app.db with tokens := s.app.db.tokens ++ [row] } := by
  obtain ⟨row, hrow, -, hfinish⟩ := recordToken_row run
  exact ⟨row, hrow, hfinish⟩

theorem recordToken_fresh (run : recordToken p jti grantId agentId scopes audience expiresAt s =
    (.ok (), finish)) : s.app.db.tokens.any (·.id == jti) = false := by
  obtain ⟨now, middle, hnow, hsql⟩ := Action.bind_ok_iff.mp run
  cases hnow
  obtain ⟨-, db, hdb, rfl⟩ := sql_eq_ok.mp hsql
  exact (Db.insertToken_eq_ok.mp hdb).1

/-- A token that could not be recorded leaves the table as it was. -/
theorem recordToken_error {e : Failure}
    (run : recordToken p jti grantId agentId scopes audience expiresAt s = (.error e, finish)) :
    finish = s.next.next := by
  have hrun : recordToken p jti grantId agentId scopes audience expiresAt s =
      sql (Db.insertToken p.foreignKeys {
        id := jti
        grantId := grantId
        agentId := agentId
        scopes := scopes
        audience := audience
        issuedAt := p.toRfc3339 (s.tape.now s.tick)
        expiresAt := p.toRfc3339 expiresAt
        revoked := false }) s.next := rfl
  rw [hrun] at run
  exact sql_eq_error run

end

/-- A stored grant is one new row, under the id that was drawn for it. -/
theorem createGrant_row {agentId principalId : Uuid} {parentGrantId : Option Uuid}
    {scopes : List String} {constraints : Option Json} {expiresAt : Instant} {s finish : Serving}
    {id : Uuid} (run : createGrant p agentId principalId parentGrantId scopes constraints
      expiresAt s = (.ok id, finish)) : id = s.tape.uuid s.tick ∧
      s.app.db.grants.any (·.id == s.tape.uuid s.tick) = false ∧ ∃ row : GrantRow,
        row.id = id ∧ row.expiresAt = p.toRfc3339 expiresAt ∧
        finish = s.next.next.next.withDb { s.app.db with
          grants := s.app.db.grants ++ [row] } := by
  obtain ⟨drawn, s₁, hdrawn, run⟩ := Action.bind_ok_iff.mp run
  cases hdrawn
  obtain ⟨now, s₂, hnow, run⟩ := Action.bind_ok_iff.mp run
  cases hnow
  obtain ⟨_, s₃, hsql, run⟩ := Action.bind_ok_iff.mp run
  obtain ⟨-, db, hdb, rfl⟩ := sql_eq_ok.mp hsql
  obtain ⟨hfresh, -, rfl⟩ := Db.insertGrant_eq_ok.mp hdb
  cases run
  exact ⟨rfl, hfresh, _, rfl, rfl, rfl⟩

theorem createGrant_ok {agentId principalId : Uuid} {parentGrantId : Option Uuid}
    {scopes : List String} {constraints : Option Json} {expiresAt : Instant} {s finish : Serving}
    {id : Uuid} (run : createGrant p agentId principalId parentGrantId scopes constraints
      expiresAt s = (.ok id, finish)) : id = s.tape.uuid s.tick ∧
      s.app.db.grants.any (·.id == s.tape.uuid s.tick) = false ∧ ∃ row : GrantRow,
        finish = s.next.next.next.withDb { s.app.db with
          grants := s.app.db.grants ++ [row] } := by
  obtain ⟨hid, hfresh, row, -, -, hfinish⟩ := createGrant_row run
  exact ⟨hid, hfresh, row, hfinish⟩

/-- A grant that could not be stored leaves the table as it was. -/
theorem createGrant_error {agentId principalId : Uuid} {parentGrantId : Option Uuid}
    {scopes : List String} {constraints : Option Json} {expiresAt : Instant} {s finish : Serving}
    {e : Failure} (run : createGrant p agentId principalId parentGrantId scopes constraints
      expiresAt s = (.error e, finish)) : finish = s.next.next.next := by
  rw [createGrant, Action.bind_run_ok nowV7_run, Action.bind_run_ok utcNow_run] at run
  cases hsql : sql (Db.insertGrant p.foreignKeys {
      id := s.tape.uuid s.tick
      agentId := agentId
      principalId := principalId
      parentGrantId := parentGrantId
      scopes := scopes
      constraints := constraints
      expiresAt := p.toRfc3339 expiresAt
      revokedAt := none
      createdAt := p.toRfc3339 (s.tape.now (s.tick + 1)) }) s.next.next with
  | mk outcome reached =>
      cases outcome with
      | ok _ =>
          rw [Serving.next_tape, Serving.next_tick, Action.bind_run_ok hsql] at run
          cases run
      | error e' =>
          rw [Serving.next_tape, Serving.next_tick, Action.bind_run_error hsql] at run
          cases run
          exact sql_eq_error hsql

/-- The row that `createAuditEntry` stores, but for its id, its hashes and its date. -/
structure Enters (entry : CreateAuditEntry) (row : AuditRow) : Prop where
  agentId : row.agentId = entry.agentId.toString
  action : row.action = entry.action
  resource : row.resource = entry.resource
  decision : row.decision = entry.decision.name
  tokenJti : row.tokenJti = entry.tokenJti

theorem enters_sealedEntry {entry : CreateAuditEntry} (prevHash : String) (now : Instant)
    (id : Int) : Enters entry { auditRow p (sealedEntry p prevHash now entry) with id := id } :=
  ⟨rfl, rfl, rfl, rfl, rfl⟩

theorem queryRow_state {ρ : Type} (select : Db → Option ρ) (s : Serving) :
    (queryRow select s).2 = s.next := by
  cases hfault : s.tape.fault s.tick with
  | some message =>
      have hquery : query select s = (.error (.error (.database message)), s.next) :=
        sql_fault hfault
      rw [queryRow, Action.bind_run_error hquery]
  | none =>
      rw [queryRow, Action.bind_run_ok (query_run hfault)]
      cases select s.app.db <;> rfl

/-- What is left of sealing an entry once the hash that it continues has been read. -/
theorem createAuditEntry_seals (entry : CreateAuditEntry) (s : Serving) :
    ∃ prevHash, (s.tape.fault s.tick = none →
        prevHash = (s.app.db.auditLog.getLast?.map (·.rowHash)).getD genesisPrevHash) ∧
      (s.tape.fault s.tick ≠ none → prevHash = genesisPrevHash) ∧
      createAuditEntry p entry s = (do
        let id ← sql (Db.insertAudit (auditRow p
          (sealedEntry p prevHash (s.tape.now (s.tick + 1)) entry)))
        return { sealedEntry p prevHash (s.tape.now (s.tick + 1)) entry with id := id })
          s.next.next := by
  have hlast : ((queryRow fun db => db.auditLog.getLast?).attempt) s =
      (.ok ((queryRow fun db => db.auditLog.getLast?) s).1, s.next) := by
    rw [Action.attempt_run, queryRow_state]
  rw [createAuditEntry]
  rw [Action.bind_run_ok hlast, Action.bind_run_ok utcNow_run]
  refine ⟨_, fun hfault => ?_, fun hfault => ?_, rfl⟩
  · rw [queryRow, Action.bind_run_ok (query_run hfault)]
    cases s.app.db.auditLog.getLast? with
    | none => rfl
    | some row => rfl
  · obtain ⟨message, hfails⟩ := Option.ne_none_iff_exists'.mp hfault
    rw [queryRow, Action.bind_run_error (query_fault hfails)]

/-- A stored entry is one new row, which names the principal. -/
theorem createAuditEntry_ok {entry : CreateAuditEntry} {audit : AuditEntry} {s finish : Serving}
    (run : createAuditEntry p entry s = (.ok audit, finish)) :
    ∃ row : AuditRow, row.principalId = entry.principalId.map Uuid.toString ∧
      finish.app.db.auditLog = s.app.db.auditLog ++ [row] := by
  obtain ⟨prevHash, -, -, hseals⟩ := createAuditEntry_seals (p := p) entry s
  rw [hseals] at run
  obtain ⟨id, middle, hsql, run⟩ := Action.bind_ok_iff.mp run
  obtain ⟨-, db, hinsert, rfl⟩ := sql_eq_ok.mp hsql
  cases hinsert
  cases run
  exact ⟨_, rfl, rfl⟩

/-- An audit entry is one new row. The call fails only with the insertion, and changes
nothing then. -/
theorem createAuditEntry_eq (entry : CreateAuditEntry) (s : Serving) :
    ∃ audit row, Enters entry row ∧ createAuditEntry p entry s =
      match s.tape.fault (s.tick + 2) with
      | some message => (.error (.error (.database message)), s.next.next.next)
      | none => (.ok audit, s.next.next.next.withDb { s.app.db with
          auditLog := s.app.db.auditLog ++ [row]
          auditSequence := s.app.db.auditSequence + 1 }) := by
  obtain ⟨prevHash, -, -, hrun⟩ := createAuditEntry_seals (p := p) entry s
  rw [hrun]
  cases hfault : s.tape.fault (s.tick + 2) with
  | some message =>
      rw [Action.bind_run_error (sql_fault hfault)]
      exact ⟨sealedEntry p "" 0 entry, _, enters_sealedEntry (p := p) "" 0 0, rfl⟩
  | none =>
      rw [Action.bind_run_ok (sql_run hfault rfl)]
      exact ⟨_, _, enters_sealedEntry _ _ _, rfl⟩

end Database

end Patroclus
