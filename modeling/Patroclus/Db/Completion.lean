import Patroclus.Db.Frame
import Patroclus.Foundation.Returns

/-!
# Operations that nothing disturbs

What an operation of the database returns and stores when no statement fails, the
drawn id is new to its table, and the rows it refers to exist.
-/

namespace Patroclus

open Foundation

/-- The hash that the next row continues. -/
def lastHash (db : Db) : String := (db.auditLog.getLast?.map (·.rowHash)).getD genesisPrevHash

/-- The database after one more entry, sealed after the given hash. -/
def appendAudit (p : Platform) (prevHash : String) (now : Instant) (entry : CreateAuditEntry)
    (db : Db) : Db :=
  { db with
    auditLog := db.auditLog ++ [{ Database.auditRow p (Database.sealedEntry p prevHash now entry)
      with id := db.auditSequence + 1 }]
    auditSequence := db.auditSequence + 1 }

namespace Database

variable {p : Platform} {s : Serving}

theorem queryRow_eq_ok {ρ : Type} {select : Db → Option ρ} {row : ρ} {finish : Serving} :
    queryRow select s = (.ok row, finish) ↔
      s.tape.fault s.tick = none ∧ select s.app.db = some row ∧ finish = s.next := by
  rw [queryRow, Action.bind_ok_iff]
  constructor
  · rintro ⟨found, s₁, hquery, run⟩
    obtain ⟨hfault, hfound, rfl⟩ := query_eq_ok.mp hquery
    cases found with
    | none => exact absurd run raise_ne_ok
    | some row' =>
        cases run
        exact ⟨hfault, hfound.symm, rfl⟩
  · rintro ⟨hfault, hfound, rfl⟩
    exact ⟨some row, s.next, query_eq_ok.mpr ⟨hfault, hfound.symm, rfl⟩, rfl⟩

/-- The principal that `principalFromRow` reads, with the clock reading for a date that
does not parse. -/
def principalOfRow (p : Platform) (row : PrincipalRow) (now : Instant) : Principal where
  id := row.id
  externalId := row.externalId
  idpProvider := row.idpProvider
  email := row.email
  displayName := row.displayName
  createdAt := (p.parseFromRfc3339 row.createdAt).getD now

theorem getPrincipal_eq_ok {id : Uuid} {principal : Principal} {finish : Serving} :
    getPrincipal p id s = (.ok principal, finish) ↔ s.tape.fault s.tick = none ∧
      ∃ row, s.app.db.principals.find? (·.id == id) = some row ∧
        principal = principalOfRow p row (s.tape.now (s.tick + 1)) ∧
        finish = s.next.next := by
  rw [getPrincipal, Action.bind_ok_iff]
  constructor
  · rintro ⟨row, s₁, hrow, run⟩
    obtain ⟨hfault, hfound, rfl⟩ := queryRow_eq_ok.mp hrow
    cases run
    exact ⟨hfault, row, hfound, rfl, rfl⟩
  · rintro ⟨hfault, row, hfound, rfl, rfl⟩
    exact ⟨row, s.next, queryRow_eq_ok.mpr ⟨hfault, hfound, rfl⟩, rfl⟩

/-- The grant that `grantFromRow` reads, with the clock readings for dates that do not parse. -/
def grantOfRow (p : Platform) (row : GrantRow) (now now' : Instant) : Grant where
  id := row.id
  agentId := row.agentId
  principalId := row.principalId
  parentGrantId := row.parentGrantId
  scopes := row.scopes
  constraints := row.constraints
  expiresAt := (p.parseFromRfc3339 row.expiresAt).getD now
  revokedAt := row.revokedAt.bind p.parseFromRfc3339
  createdAt := (p.parseFromRfc3339 row.createdAt).getD now'

theorem grantFromRow_run (row : GrantRow) : grantFromRow p row s =
    (.ok (grantOfRow p row (s.tape.now s.tick) (s.tape.now (s.tick + 1))), s.next.next) := rfl

theorem getGrant_eq_ok {id : Uuid} {grant : Grant} {finish : Serving} :
    getGrant p id s = (.ok grant, finish) ↔ s.tape.fault s.tick = none ∧
      ∃ row, s.app.db.grants.find? (·.id == id) = some row ∧
        grant = grantOfRow p row (s.tape.now (s.tick + 1)) (s.tape.now (s.tick + 2)) ∧
        finish = s.next.next.next := by
  rw [getGrant, Action.bind_ok_iff]
  constructor
  · rintro ⟨row, s₁, hrow, run⟩
    obtain ⟨hfault, hfound, rfl⟩ := queryRow_eq_ok.mp hrow
    cases run
    exact ⟨hfault, row, hfound, rfl, rfl⟩
  · rintro ⟨hfault, row, hfound, rfl, rfl⟩
    exact ⟨row, s.next, queryRow_eq_ok.mpr ⟨hfault, hfound, rfl⟩, rfl⟩

/-- Rows of grants are always read. -/
theorem mapM_grantFromRow (rows : List GrantRow) (s : Serving) : ∃ grants finish,
    rows.mapM (grantFromRow p) s = (.ok grants, finish) ∧
      grants.map (·.id) = rows.map (·.id) := by
  induction rows generalizing s with
  | nil => exact ⟨[], s, rfl, rfl⟩
  | cons row rows ih =>
      obtain ⟨grants, finish, hrest, hids⟩ := ih s.next.next
      refine ⟨grantOfRow p row (s.tape.now s.tick) (s.tape.now (s.tick + 1)) :: grants, finish,
        ?_, ?_⟩
      · rw [List.mapM_cons, Action.bind_run_ok (grantFromRow_run row), Action.bind_run_ok hrest]
        rfl
      · rw [List.map_cons, List.map_cons, hids]
        rfl

/-- The listed grants are the unrevoked ones of the agent whose text is after that of the clock
reading. -/
theorem listGrantsForAgent_run {agentId : Uuid} (works : s.tape.fault (s.tick + 1) = none) :
    ∃ grants finish, listGrantsForAgent p agentId s = (.ok grants, finish) ∧
      (grants.map (·.id)).Perm ((s.app.db.grants.filter fun row => row.agentId == agentId &&
        row.revokedAt.isNone && decide (p.toRfc3339 (s.tape.now s.tick) < row.expiresAt)).map
          (·.id)) := by
  obtain ⟨grants, finish, hread, hids⟩ := mapM_grantFromRow (p := p) (orderDesc (·.createdAt)
    (s.app.db.grants.filter fun row => row.agentId == agentId && row.revokedAt.isNone &&
      decide (p.toRfc3339 (s.tape.now s.tick) < row.expiresAt))) s.next.next
  refine ⟨grants, finish, ?_, ?_⟩
  · rw [listGrantsForAgent, Action.bind_run_ok utcNow_run,
      Action.bind_run_ok (query_run (s := s.next) works)]
    exact hread
  · rw [hids]
    exact (List.mergeSort_perm _ _).map _

theorem listGrantsForAgent_works {agentId : Uuid} {grants : List Grant} {finish : Serving}
    (run : listGrantsForAgent p agentId s = (.ok grants, finish)) :
    s.tape.fault (s.tick + 1) = none := by
  rw [listGrantsForAgent, Action.bind_run_ok utcNow_run] at run
  obtain ⟨rows, s₁, hquery, -⟩ := Action.bind_ok_iff.mp run
  exact (query_eq_ok.mp hquery).1

/-- One sealed row is appended to the log. -/
theorem createAuditEntry_run {entry : CreateAuditEntry} (faults : ∀ n, s.tape.fault n = none) :
    createAuditEntry p entry s =
      (.ok { sealedEntry p (lastHash s.app.db) (s.tape.now (s.tick + 1)) entry with
        id := s.app.db.auditSequence + 1 },
      s.next.next.next.withDb { s.app.db with
        auditLog := s.app.db.auditLog ++ [{ auditRow p (sealedEntry p (lastHash s.app.db)
          (s.tape.now (s.tick + 1)) entry) with id := s.app.db.auditSequence + 1 }]
        auditSequence := s.app.db.auditSequence + 1 }) := by
  obtain ⟨prevHash, hprev, -, hrun⟩ := createAuditEntry_seals (p := p) entry s
  have hprev : prevHash = lastHash s.app.db := hprev (faults _)
  have hinsert (row : AuditRow) : sql (Db.insertAudit row) s.next.next = (.ok _, _) :=
    sql_run (faults _) rfl
  rw [hrun, Action.bind_run_ok (hinsert _), hprev]
  rfl

/-- A call appends an entry unless its insertion fails. If its lookup fails, the entry starts
a new chain. -/
theorem createAuditEntry_step (p : Platform) (s : Serving) (entry : CreateAuditEntry) :
    (createAuditEntry p entry s).2 = s.next.next.next.withDb
      (if s.tape.fault (s.tick + 2) = none then
        appendAudit p (if s.tape.fault s.tick = none then lastHash s.app.db else genesisPrevHash)
          (s.tape.now (s.tick + 1)) entry s.app.db
      else s.app.db) := by
  obtain ⟨prevHash, hlast, hgenesis, hrun⟩ := createAuditEntry_seals (p := p) entry s
  have hprev : prevHash =
      if s.tape.fault s.tick = none then lastHash s.app.db else genesisPrevHash := by
    split
    · rename_i hworks
      exact hlast hworks
    · rename_i hfails
      exact hgenesis hfails
  rw [hrun, ← hprev]
  split
  · rename_i hworks
    rw [Action.bind_run_ok (sql_run (s := s.next.next) hworks rfl)]
    rfl
  · rename_i hfails
    obtain ⟨message, hfault⟩ := Option.ne_none_iff_exists'.mp hfails
    rw [Action.bind_run_error (sql_fault (s := s.next.next) hfault)]
    rfl

theorem createAuditEntry_db {entry : CreateAuditEntry} (faults : ∀ n, s.tape.fault n = none) :
    (createAuditEntry p entry s).2.app.db =
      appendAudit p (lastHash s.app.db) (s.tape.now (s.tick + 1)) entry s.app.db := by
  rw [createAuditEntry_step, if_pos (faults _), if_pos (faults _)]
  rfl

/-- A grant is stored under the id that is drawn for it. -/
theorem createGrant_returns {agentId principalId : Uuid} {scopes : List String}
    {constraints : Option Json} {expiresAt : Instant} (faults : ∀ n, s.tape.fault n = none)
    (fresh : s.app.db.grants.any (·.id == s.tape.uuid s.tick) = false)
    (agent : s.app.db.agents.any (·.id == agentId) = true)
    (principal : s.app.db.principals.any (·.id == principalId) = true) :
    (createGrant p agentId principalId none scopes constraints expiresAt).Returns
      (fun id finish => id = s.tape.uuid s.tick ∧ ∃ row : GrantRow, row.id = id ∧
        finish = s.next.next.next.withDb { s.app.db with
          grants := s.app.db.grants ++ [row] }) s :=
  .bind_run nowV7_run (.bind_run utcNow_run (.bind_run
    (sql_run (faults _) (Db.insertGrant_eq_ok.mpr
      ⟨fresh, fun _ => ⟨agent, principal, rfl⟩, rfl⟩)) (.pure ⟨rfl, _, rfl, rfl⟩)))

/-- One row is stored for a token. -/
theorem recordToken_returns {jti : String} {grantId : Option Uuid} {agentId : Uuid}
    {scopes : List String} {audience : String} {expiresAt : Instant}
    (faults : ∀ n, s.tape.fault n = none)
    (fresh : s.app.db.tokens.any (·.id == jti) = false)
    (registered : s.app.db.agents.any (·.id == agentId) = true)
    (granted : (grantId.all fun grant => s.app.db.grants.any (·.id == grant)) = true) :
    (recordToken p jti grantId agentId scopes audience expiresAt).Returns (fun _ finish => ∃ row,
      Records jti grantId agentId scopes audience row ∧
      finish = s.next.next.withDb { s.app.db with tokens := s.app.db.tokens ++ [row] }) s := by
  have hrun : recordToken p jti grantId agentId scopes audience expiresAt s = (.ok (), _) :=
    sql_run (faults _) (Db.insertToken_eq_ok.mpr ⟨fresh, fun _ => ⟨registered, granted⟩, rfl⟩)
  exact .of_run hrun (recordToken_ok hrun)

theorem parseOrNow_run {text : String} : parseOrNow p text s =
    (.ok ((p.parseFromRfc3339 text).getD (s.tape.now s.tick)), s.next) := rfl

/-- The request that `approvalFromRow` reads, with the clock readings for dates that do not
parse. -/
def approvalOfRow (p : Platform) (row : ApprovalRow) (now now' : Instant) : ApprovalRequest where
  id := row.id
  agentId := row.agentId
  principalId := row.principalId
  resourceId := row.resourceId.getD Uuid.nil
  action := row.action
  requestedScopes := row.requestedScopes
  status := row.status
  approverId := row.approverId
  reason := row.reason
  approvalToken := row.approvalToken
  expiresAt := (p.parseFromRfc3339 row.expiresAt).getD now
  createdAt := (p.parseFromRfc3339 row.createdAt).getD now'
  resolvedAt := row.resolvedAt.bind p.parseFromRfc3339

theorem getApprovalRequest_run {id : Uuid} {row : ApprovalRow}
    (works : s.tape.fault s.tick = none)
    (found : s.app.db.approvalRequests.find? (·.id == id) = some row) :
    getApprovalRequest p id s = (.ok (approvalOfRow p row (s.tape.now (s.tick + 1))
      (s.tape.now (s.tick + 2))), s.next.next.next) := by
  have hrow : queryRow (fun db => db.approvalRequests.find? (·.id == id)) s =
      (.ok row, s.next) := queryRow_eq_ok.mpr ⟨works, found, rfl⟩
  rw [getApprovalRequest, Action.bind_run_ok hrow]
  rfl

theorem getApprovalRequest_fault {id : Uuid} {message : String}
    (fault : s.tape.fault s.tick = some message) :
    ∃ e finish, getApprovalRequest p id s = (.error e, finish) := by
  have hrow : queryRow (fun db => db.approvalRequests.find? (·.id == id)) s =
      (.error _, s.next) := Action.bind_run_error (query_fault fault)
  exact ⟨_, s.next, Action.bind_run_error hrow⟩

theorem getApprovalRequest_returns {id : Uuid} {row : ApprovalRow}
    (faults : ∀ n, s.tape.fault n = none)
    (found : s.app.db.approvalRequests.find? (·.id == id) = some row) :
    (getApprovalRequest p id).Returns (fun approval finish =>
      approval.id = row.id ∧ finish.still = s.still) s :=
  .of_run (getApprovalRequest_run (faults s.tick) found) ⟨rfl, rfl⟩

/-- One pending request is stored, and read back under the id that was drawn for it. -/
theorem createApprovalRequest_returns {agentId : Uuid} {principalId resourceId : Option Uuid}
    {action : String} {scopes : List String} {ttlSeconds : Nat}
    (faults : ∀ n, s.tape.fault n = none)
    (fresh : s.app.db.approvalRequests.any (·.id == s.tape.uuid s.tick) = false)
    (registered : s.app.db.agents.any (·.id == agentId) = true)
    (expiry : ((s.tape.now (s.tick + 1)).addSeconds (asI64 ttlSeconds)).isSome) :
    (createApprovalRequest p agentId principalId resourceId action scopes ttlSeconds).Returns
      (fun approval finish => ∃ row, row.id = approval.id ∧ finish.still =
        (s.withDb { s.app.db with
          approvalRequests := s.app.db.approvalRequests ++ [row] }).still) s := by
  obtain ⟨expiresAt, hexpiry⟩ := Option.isSome_iff_exists.mp expiry
  refine .bind_run nowV7_run (.bind_run utcNow_run ?_)
  rw [Serving.next_tape, Serving.next_tick, hexpiry]
  refine .bind_run (sql_run (faults _) (Db.insertApprovalRequest_eq_ok.mpr
    ⟨fresh, fun _ => registered, rfl⟩)) ?_
  refine Action.Returns.mono (getApprovalRequest_returns faults ?_)
    fun approval finish ⟨hid, hstill⟩ => ⟨_, hid.symm, hstill⟩
  have hnone : s.app.db.approvalRequests.find? (·.id == s.tape.uuid s.tick) = none := by
    simpa using fresh
  rw [Serving.withDb_app]
  simp [hnone]

end Database

end Patroclus
