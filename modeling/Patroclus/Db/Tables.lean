import Patroclus.Policy.Basic
import Mathlib.Tactic.Tauto

/-!
# Tables

A table is the list of its rows in rowid order. Ids, enumerations and JSON
columns are kept as the values that the program prints and reads back in their
canonical form. Dates are kept as their text, because SQLite orders and compares
the text, and so is every column of the audit log, whose reader may meet rows
that the program did not write.
-/

namespace Patroclus

structure AgentRow where
  id : Uuid
  name : String
  principalType : AgentType
  publicKey : Option String
  did : Option String
  ownerId : Option Uuid
  status : AgentStatus
  clientKeyHash : Option String
  createdAt : String
  updatedAt : String
deriving DecidableEq, Repr

structure PrincipalRow where
  id : Uuid
  externalId : String
  idpProvider : String
  email : String
  displayName : String
  createdAt : String
deriving DecidableEq, Repr

inductive ResourceType where
  | mcpServer
  | api
  | database
  | cloudService
deriving DecidableEq, Repr

inductive Sensitivity where
  | low
  | medium
  | high
  | critical
deriving DecidableEq, Repr

structure ResourceRow where
  id : Uuid
  name : String
  resourceType : ResourceType
  uri : String
  actions : Json
  sensitivity : Sensitivity
  ownerId : Option Uuid
  credentialConfig : Option Json
  createdAt : String
deriving DecidableEq, Repr

inductive PolicyStatus where
  | active
  | deprecated
deriving DecidableEq, Repr

structure PolicyRow where
  id : Uuid
  name : String
  engine : String
  definition : String
  status : PolicyStatus
  createdAt : String
  updatedAt : String
deriving DecidableEq, Repr

structure GrantRow where
  id : Uuid
  agentId : Uuid
  principalId : Uuid
  parentGrantId : Option Uuid
  scopes : List String
  constraints : Option Json
  expiresAt : String
  revokedAt : Option String
  createdAt : String
deriving DecidableEq, Repr

structure TokenRow where
  id : String
  grantId : Option Uuid
  agentId : Uuid
  scopes : List String
  audience : String
  issuedAt : String
  expiresAt : String
  revoked : Bool
deriving DecidableEq, Repr

inductive ApprovalStatus where
  | pending
  | approved
  | denied
  | expired
deriving DecidableEq, Repr

structure ApprovalRow where
  id : Uuid
  agentId : Uuid
  principalId : Option Uuid
  resourceId : Option Uuid
  action : String
  requestedScopes : List String
  status : ApprovalStatus
  approverId : Option Uuid
  reason : Option String
  approvalToken : Option String
  expiresAt : String
  createdAt : String
  resolvedAt : Option String
deriving DecidableEq, Repr

structure AuditRow where
  id : Int
  prevHash : String
  rowHash : String
  agentId : String
  principalId : Option String
  action : String
  resource : String
  decision : String
  reason : String
  delegationChain : Option String
  tokenJti : Option String
  dryRun : Int
  timestamp : String
deriving DecidableEq, Repr

/-- The database. `auditSequence` is the counter behind `AUTOINCREMENT`. -/
structure Db where
  agents : List AgentRow
  principals : List PrincipalRow
  resources : List ResourceRow
  policies : List PolicyRow
  grants : List GrantRow
  tokens : List TokenRow
  approvalRequests : List ApprovalRow
  auditLog : List AuditRow
  auditSequence : Nat
deriving DecidableEq, Repr

namespace Db

def empty : Db := ⟨[], [], [], [], [], [], [], [], 0⟩

/-- A foreign key that is enforced refers to an existing row. -/
def checkReference (enforced found : Bool) : Except String Unit :=
  if enforced && !found then .error "FOREIGN KEY constraint failed" else .ok ()

/-- A primary key that is new to its table. -/
def checkUnique (column : String) (taken : Bool) : Except String Unit :=
  if taken then .error ("UNIQUE constraint failed: " ++ column) else .ok ()

variable (foreignKeys : Bool)

def insertAgent (row : AgentRow) (db : Db) : Except String (Unit × Db) := do
  checkUnique "agents.id" (db.agents.any (·.id == row.id))
  return ((), { db with agents := db.agents ++ [row] })

def insertPrincipal (row : PrincipalRow) (db : Db) : Except String (Unit × Db) := do
  checkUnique "principals.id" (db.principals.any (·.id == row.id))
  return ((), { db with principals := db.principals ++ [row] })

def insertResource (row : ResourceRow) (db : Db) : Except String (Unit × Db) := do
  checkUnique "resources.id" (db.resources.any (·.id == row.id))
  return ((), { db with resources := db.resources ++ [row] })

def insertPolicy (row : PolicyRow) (db : Db) : Except String (Unit × Db) := do
  checkUnique "policies.id" (db.policies.any (·.id == row.id))
  return ((), { db with policies := db.policies ++ [row] })

def insertGrant (row : GrantRow) (db : Db) : Except String (Unit × Db) := do
  checkUnique "grants.id" (db.grants.any (·.id == row.id))
  checkReference foreignKeys (db.agents.any (·.id == row.agentId))
  checkReference foreignKeys (db.principals.any (·.id == row.principalId))
  checkReference foreignKeys
    (row.parentGrantId.all fun parent => parent == row.id || db.grants.any (·.id == parent))
  return ((), { db with grants := db.grants ++ [row] })

def insertToken (row : TokenRow) (db : Db) : Except String (Unit × Db) := do
  checkUnique "tokens.id" (db.tokens.any (·.id == row.id))
  checkReference foreignKeys (db.agents.any (·.id == row.agentId))
  checkReference foreignKeys (row.grantId.all fun grant => db.grants.any (·.id == grant))
  return ((), { db with tokens := db.tokens ++ [row] })

def insertApprovalRequest (row : ApprovalRow) (db : Db) : Except String (Unit × Db) := do
  checkUnique "approval_requests.id" (db.approvalRequests.any (·.id == row.id))
  checkReference foreignKeys (db.agents.any (·.id == row.agentId))
  return ((), { db with approvalRequests := db.approvalRequests ++ [row] })

/-- The row receives the next id of the sequence. -/
def insertAudit (row : AuditRow) (db : Db) : Except String (Int × Db) :=
  let id := db.auditSequence + 1
  .ok (id, { db with auditLog := db.auditLog ++ [{ row with id := id }], auditSequence := id })

/-- `UPDATE .. SET .. WHERE ..` on a list of rows. -/
def updateWhere {ρ : Type} (cond : ρ → Bool) (set : ρ → ρ) (rows : List ρ) : List ρ :=
  rows.map fun row => if cond row then set row else row

/-- Returns the number of changed rows. -/
def updateClientKeyHash (agentId : Uuid) (keyHash updatedAt : String) (db : Db) :
    Except String (Nat × Db) :=
  let set (row : AgentRow) : AgentRow := { row with clientKeyHash := some keyHash, updatedAt }
  .ok (db.agents.countP (·.id == agentId),
    { db with agents := updateWhere (·.id == agentId) set db.agents })

def deprecatePolicies (updatedAt : String) (db : Db) : Except String (Unit × Db) :=
  let set (row : PolicyRow) : PolicyRow := { row with status := .deprecated, updatedAt }
  .ok ((), { db with policies := updateWhere (·.status == .active) set db.policies })

def revokeGrantRow (id : Uuid) (revokedAt : String) (db : Db) : Except String (Unit × Db) :=
  let cond (row : GrantRow) : Bool := row.id == id && row.revokedAt.isNone
  let set (row : GrantRow) : GrantRow := { row with revokedAt := some revokedAt }
  .ok ((), { db with grants := updateWhere cond set db.grants })

def revokedRow (row : TokenRow) : TokenRow := { row with revoked := true }

def revokeTokenRow (jti : String) (db : Db) : Except String (Unit × Db) :=
  .ok ((), { db with tokens := updateWhere (·.id == jti) revokedRow db.tokens })

/-- Returns the number of changed rows. -/
def revokeAgentTokenRows (agentId : Uuid) (db : Db) : Except String (Nat × Db) :=
  let cond (row : TokenRow) : Bool := row.agentId == agentId && !row.revoked
  .ok (db.tokens.countP cond, { db with tokens := updateWhere cond revokedRow db.tokens })

/-- Only a pending request is resolved; returns the number of changed rows. -/
def resolveApprovalRow (id : Uuid) (status : ApprovalStatus) (approverId : Uuid)
    (reason approvalToken : Option String) (resolvedAt : String) (db : Db) :
    Except String (Nat × Db) :=
  let cond (row : ApprovalRow) : Bool := row.id == id && row.status == .pending
  let set (row : ApprovalRow) : ApprovalRow :=
    { row with
      status, reason, approvalToken
      approverId := some approverId
      resolvedAt := some resolvedAt }
  .ok (db.approvalRequests.countP cond,
    { db with approvalRequests := updateWhere cond set db.approvalRequests })

/-! ## What an update can do -/

section

variable {ρ : Type} {cond : ρ → Bool} {set : ρ → ρ} {rows : List ρ}

theorem mem_updateWhere {row : ρ} :
    row ∈ updateWhere cond set rows ↔ ∃ old ∈ rows, (if cond old then set old else old) = row :=
  List.mem_map

/-- An update that matches no row changes nothing. -/
theorem updateWhere_eq_self (h : ∀ row ∈ rows, ¬ cond row = true) :
    updateWhere cond set rows = rows := by
  calc updateWhere cond set rows = rows.map id :=
        List.map_congr_left fun row hrow => if_neg (h row hrow)
    _ = rows := List.map_id rows

/-- An update does not change what it does not write. -/
theorem map_updateWhere {γ : Type*} {feature : ρ → γ} (h : ∀ row, feature (set row) = feature row) :
    (updateWhere cond set rows).map feature = rows.map feature := by
  rw [updateWhere, List.map_map]
  apply List.map_congr_left
  intro row _
  show feature (if cond row then set row else row) = feature row
  split
  · exact h row
  · rfl

/-- An update that keeps what rows are looked up by changes the row that is found. -/
theorem find?_updateWhere {sought : ρ → Bool} (h : ∀ row, sought (set row) = sought row) :
    (updateWhere cond set rows).find? sought =
      (rows.find? sought).map fun row => if cond row then set row else row := by
  rw [updateWhere, List.find?_map]
  congr 2
  funext row
  show sought (if cond row then set row else row) = sought row
  split
  · exact h row
  · rfl

end

/-! ## What an insertion can do -/

section

variable {foreignKeys : Bool} {db db' : Db}

@[simp] theorem checkReference_eq_ok {enforced found : Bool} :
    checkReference enforced found = .ok () ↔ (enforced = true → found = true) := by
  cases enforced <;> cases found <;> simp [checkReference]

@[simp] theorem checkUnique_eq_ok {column : String} {taken : Bool} :
    checkUnique column taken = .ok () ↔ taken = false := by
  cases taken <;> simp [checkUnique]

private theorem check_bind_eq_ok {β : Type} {check : Except String Unit}
    {next : Unit → Except String β} {b : β} :
    check >>= next = .ok b ↔ check = .ok () ∧ next () = .ok b := by
  cases check with
  | error message => simp [bind, Except.bind]
  | ok a => simp [bind, Except.bind]

private theorem pure_eq_ok {target : Db} :
    (pure ((), target) : Except String (Unit × Db)) = .ok ((), db') ↔ db' = target := by
  simp only [pure, Except.pure, Except.ok.injEq, Prod.mk.injEq, true_and]
  exact eq_comm

theorem insertAgent_eq_ok {row : AgentRow} : insertAgent row db = .ok ((), db') ↔
    db.agents.any (·.id == row.id) = false ∧ db' = { db with agents := db.agents ++ [row] } := by
  rw [insertAgent, check_bind_eq_ok, checkUnique_eq_ok, pure_eq_ok]

theorem insertPrincipal_eq_ok {row : PrincipalRow} : insertPrincipal row db = .ok ((), db') ↔
    db.principals.any (·.id == row.id) = false ∧
      db' = { db with principals := db.principals ++ [row] } := by
  rw [insertPrincipal, check_bind_eq_ok, checkUnique_eq_ok, pure_eq_ok]

theorem insertResource_eq_ok {row : ResourceRow} : insertResource row db = .ok ((), db') ↔
    db.resources.any (·.id == row.id) = false ∧
      db' = { db with resources := db.resources ++ [row] } := by
  rw [insertResource, check_bind_eq_ok, checkUnique_eq_ok, pure_eq_ok]

theorem insertPolicy_eq_ok {row : PolicyRow} : insertPolicy row db = .ok ((), db') ↔
    db.policies.any (·.id == row.id) = false ∧
      db' = { db with policies := db.policies ++ [row] } := by
  rw [insertPolicy, check_bind_eq_ok, checkUnique_eq_ok, pure_eq_ok]

/-- The rows an inserted grant refers to. -/
def GrantReferences (db : Db) (row : GrantRow) : Prop :=
  db.agents.any (·.id == row.agentId) = true ∧
  db.principals.any (·.id == row.principalId) = true ∧
  (row.parentGrantId.all fun parent => parent == row.id || db.grants.any (·.id == parent)) = true

/-- The rows an inserted token refers to. -/
def TokenReferences (db : Db) (row : TokenRow) : Prop :=
  db.agents.any (·.id == row.agentId) = true ∧
  (row.grantId.all fun grant => db.grants.any (·.id == grant)) = true

theorem insertGrant_eq_ok {row : GrantRow} : insertGrant foreignKeys row db = .ok ((), db') ↔
    db.grants.any (·.id == row.id) = false ∧ (foreignKeys = true → db.GrantReferences row) ∧
      db' = { db with grants := db.grants ++ [row] } := by
  simp only [insertGrant, check_bind_eq_ok, checkUnique_eq_ok, checkReference_eq_ok, pure_eq_ok,
    GrantReferences]
  tauto

theorem insertToken_eq_ok {row : TokenRow} : insertToken foreignKeys row db = .ok ((), db') ↔
    db.tokens.any (·.id == row.id) = false ∧ (foreignKeys = true → db.TokenReferences row) ∧
      db' = { db with tokens := db.tokens ++ [row] } := by
  simp only [insertToken, check_bind_eq_ok, checkUnique_eq_ok, checkReference_eq_ok, pure_eq_ok,
    TokenReferences]
  tauto

/-- The checks that an inserted token has to pass. -/
def tokenChecks (foreignKeys : Bool) (row : TokenRow) (db : Db) : Except String Unit := do
  checkUnique "tokens.id" (db.tokens.any (·.id == row.id))
  checkReference foreignKeys (db.agents.any (·.id == row.agentId))
  checkReference foreignKeys (row.grantId.all fun grant => db.grants.any (·.id == grant))

theorem insertToken_eq_map (row : TokenRow) (db : Db) : insertToken foreignKeys row db =
    (tokenChecks foreignKeys row db).map fun _ =>
      ((), { db with tokens := db.tokens ++ [row] }) := by
  unfold insertToken tokenChecks
  cases checkUnique "tokens.id" (db.tokens.any (·.id == row.id)) with
  | error message => rfl
  | ok _ =>
      cases checkReference foreignKeys (db.agents.any (·.id == row.agentId)) with
      | error message => rfl
      | ok _ => rfl

/-- The checks that an inserted approval request has to pass. -/
def approvalChecks (foreignKeys : Bool) (row : ApprovalRow) (db : Db) : Except String Unit := do
  checkUnique "approval_requests.id" (db.approvalRequests.any (·.id == row.id))
  checkReference foreignKeys (db.agents.any (·.id == row.agentId))

theorem insertApprovalRequest_eq_map (row : ApprovalRow) (db : Db) :
    insertApprovalRequest foreignKeys row db = (approvalChecks foreignKeys row db).map fun _ =>
      ((), { db with approvalRequests := db.approvalRequests ++ [row] }) := by
  unfold insertApprovalRequest approvalChecks
  cases checkUnique "approval_requests.id" (db.approvalRequests.any (·.id == row.id)) with
  | error message => rfl
  | ok _ => rfl

theorem insertApprovalRequest_eq_ok {row : ApprovalRow} :
    insertApprovalRequest foreignKeys row db = .ok ((), db') ↔
      db.approvalRequests.any (·.id == row.id) = false ∧
      (foreignKeys = true → db.agents.any (·.id == row.agentId) = true) ∧
      db' = { db with approvalRequests := db.approvalRequests ++ [row] } := by
  rw [insertApprovalRequest, check_bind_eq_ok, checkUnique_eq_ok, check_bind_eq_ok,
    checkReference_eq_ok, pure_eq_ok]

end

/-- The active policy of the latest `updated_at`, compared as text. -/
def activePolicy (db : Db) : Option PolicyRow :=
  (db.policies.filter (·.status == .active)).foldl
    (fun best row =>
      match best with
      | none => some row
      | some other => if other.updatedAt < row.updatedAt then some row else some other) none

end Db

end Patroclus
