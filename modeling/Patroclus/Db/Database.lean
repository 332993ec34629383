import Patroclus.Runtime
import Patroclus.Audit.Verifier

/-!
# The database layer

The operations of `Database`. Each is one critical section on a connection: the
statements run in order, and a failing one leaves what the earlier ones wrote.
Where the source drops an error with `.ok()` or `unwrap_or`, the statement is
attempted here and the fallback taken.
-/

namespace Patroclus

open Foundation

namespace Database

variable (p : Platform)

/-- `parse_from_rfc3339(text).unwrap_or(Utc::now())`; the clock is read in any case. -/
def parseOrNow (text : String) : Handler Instant := do
  let now ← utcNow
  return (p.parseFromRfc3339 text).getD now

/-- The error of `query_row` on an empty result. -/
def noRows : PatroclusError := .database "Query returned no rows"

/-- `stmt.query_row(..)?` -/
def queryRow {ρ : Type} (select : Db → Option ρ) : Handler ρ := do
  match ← query select with
  | some row => return row
  | none => raise noRows

/-- The fault point of preparing a statement whose own failure is handled apart. -/
def prepare : Handler Unit := query fun _ => ()

/-- Rows in descending order of a text column. -/
def orderDesc {ρ : Type} (column : ρ → String) (rows : List ρ) : List ρ :=
  rows.mergeSort fun a b => decide (column b ≤ column a)

/-! ## Policies -/

def createDefaultPolicy : Handler Unit := do
  let counted ← (query fun db => db.policies.countP (·.status == .active)).attempt
  let exists_ := match counted with
    | .ok n => n
    | .error _ => 0
  if exists_ = 0 then
    let id ← nowV7
    let now := p.toRfc3339 (← utcNow)
    sql (Db.insertPolicy {
      id := id
      name := "default"
      engine := "yaml"
      definition := denyByDefault
      status := .active
      createdAt := now
      updatedAt := now })

def loadActivePolicyYaml : Handler String := do
  prepare
  match ← (queryRow Db.activePolicy).attempt with
  | .ok row => return row.definition
  | .error _ => return ""

def createPolicy (name engine definition : String) : Handler Unit := do
  let id ← nowV7
  let now := p.toRfc3339 (← utcNow)
  sql (Db.deprecatePolicies now)
  sql (Db.insertPolicy {
    id := id
    name := name
    engine := engine
    definition := definition
    status := .active
    createdAt := now
    updatedAt := now })

def listPolicies : Handler (List PolicyRow) :=
  query fun db => orderDesc (·.createdAt) db.policies

/-! ## Agents and principals -/

def agentFromRow (row : AgentRow) : Handler Agent := do
  let createdAt ← parseOrNow p row.createdAt
  let updatedAt ← parseOrNow p row.updatedAt
  return {
    id := row.id
    name := row.name
    principalType := row.principalType
    publicKey := row.publicKey
    did := row.did
    ownerId := row.ownerId
    status := row.status
    clientKeyHash := row.clientKeyHash
    createdAt := createdAt
    updatedAt := updatedAt }

def getAgent (id : Uuid) : Handler Agent := do
  match ← query fun db => db.agents.find? (·.id == id) with
  | some row => agentFromRow p row
  | none => raise (.agentNotFound id.toString)

def createAgent (req : CreateAgentRequest) : Handler Agent := do
  let id ← nowV7
  let now := p.toRfc3339 (← utcNow)
  sql (Db.insertAgent {
    id := id
    name := req.name
    principalType := req.principalType
    publicKey := req.publicKey
    did := req.did
    ownerId := req.ownerId
    status := .active
    clientKeyHash := none
    createdAt := now
    updatedAt := now })
  getAgent p id

def setAgentClientKeyHash (agentId : Uuid) (keyHash : String) : Handler Unit := do
  let now := p.toRfc3339 (← utcNow)
  let updated ← sql (Db.updateClientKeyHash agentId keyHash now)
  if updated = 0 then raise (.agentNotFound agentId.toString)

def getAgentByClientKeyHash (keyHash : String) : Handler (Option Agent) := do
  let found ← query fun db =>
    db.agents.find? fun row => row.clientKeyHash == some keyHash && row.status == .active
  match found with
  | some row => return some (← getAgent p row.id)
  | none => return none

def listAgents : Handler (List Agent) := do
  let rows ← query fun db => orderDesc (·.createdAt) db.agents
  rows.mapM (agentFromRow p)

def principalFromRow (row : PrincipalRow) : Handler Principal := do
  let createdAt ← parseOrNow p row.createdAt
  return {
    id := row.id
    externalId := row.externalId
    idpProvider := row.idpProvider
    email := row.email
    displayName := row.displayName
    createdAt := createdAt }

def getPrincipal (id : Uuid) : Handler Principal := do
  let row ← queryRow fun db => db.principals.find? (·.id == id)
  principalFromRow p row

/-- `get_principal_by_email_sync` before its error is dropped: the first principal
with this email. -/
def principalByEmail (email : String) : Handler Principal := do
  let row ← queryRow fun db => db.principals.find? (·.email == email)
  principalFromRow p row

def getPrincipalByEmail (email : String) : Handler (Option Principal) := do
  match ← (principalByEmail p email).attempt with
  | .ok principal => return some principal
  | .error _ => return none

def createPrincipal (req : CreatePrincipalRequest) : Handler Principal := do
  let id ← nowV7
  let now := p.toRfc3339 (← utcNow)
  sql (Db.insertPrincipal {
    id := id
    externalId := req.externalId
    idpProvider := req.idpProvider
    email := req.email
    displayName := req.displayName
    createdAt := now })
  getPrincipal p id

/-! ## Audit log -/

/-- The columns that `create_audit_entry_sync` stores for an entry. -/
def auditRow (entry : AuditEntry) : AuditRow where
  id := entry.id
  prevHash := entry.prevHash
  rowHash := entry.rowHash
  agentId := entry.agentId.toString
  principalId := entry.principalId.map Uuid.toString
  action := entry.action
  resource := entry.resource
  decision := entry.decision
  reason := entry.reason
  delegationChain := entry.delegationChain.map p.jsonToString
  tokenJti := entry.tokenJti
  dryRun := if entry.dryRun then 1 else 0
  timestamp := p.toRfc3339 entry.timestamp

/-- The entry of a request after `prevHash`, with its seal and without an id. -/
def sealedEntry (prevHash : String) (now : Instant) (entry : CreateAuditEntry) : AuditEntry :=
  let audit : AuditEntry := {
    id := 0
    prevHash := prevHash
    rowHash := ""
    agentId := entry.agentId
    principalId := entry.principalId
    action := entry.action
    resource := entry.resource
    decision := entry.decision.name
    reason := entry.reason
    delegationChain := entry.delegationChain
    tokenJti := entry.tokenJti
    dryRun := entry.dryRun
    timestamp := now }
  { audit with rowHash := audit.computeHash p }

def createAuditEntry (entry : CreateAuditEntry) : Handler AuditEntry := do
  let last ← (queryRow fun db => db.auditLog.getLast?).attempt
  -- A failed lookup of the predecessor reads as an empty log.
  let prevHash := match last with
    | .ok row => row.rowHash
    | .error _ => genesisPrevHash
  let now ← utcNow
  let audit := sealedEntry p prevHash now entry
  let id ← sql (Db.insertAudit (auditRow p audit))
  return { audit with id := id }

/-- `audit_entry_from_row`. Columns that do not parse are replaced by defaults. -/
def auditEntryFromRow (row : AuditRow) : Handler AuditEntry := do
  let timestamp ← parseOrNow p row.timestamp
  return {
    id := row.id
    prevHash := row.prevHash
    rowHash := row.rowHash
    agentId := (p.parseUuid row.agentId).getD Uuid.nil
    principalId := row.principalId.bind p.parseUuid
    action := row.action
    resource := row.resource
    decision := row.decision
    reason := row.reason
    delegationChain := row.delegationChain.bind p.jsonFromStr
    tokenJti := row.tokenJti
    dryRun := decide (row.dryRun ≠ 0)
    timestamp := timestamp }

def listAuditEntries (limit : Nat) : Handler (List AuditEntry) := do
  let rows ← query fun db => db.auditLog.reverse.take limit
  rows.mapM (auditEntryFromRow p)

/-- Every row in insertion order. -/
def allAuditEntries : Handler (List AuditEntry) := do
  let rows ← query fun db => db.auditLog
  rows.mapM (auditEntryFromRow p)

/-- The same reading over the read-only connection of the `verify-chain` command. -/
def readAuditEntriesForVerification : Handler (List AuditEntry) := do
  let rows ← query fun db => db.auditLog
  rows.mapM (auditEntryFromRow p)

/-! ## Resources -/

structure Resource where
  id : Uuid
  name : String
  resourceType : ResourceType
  uri : String
  actions : Json
  sensitivity : Sensitivity
  ownerId : Option Uuid
  credentialConfig : Option Json
  createdAt : Instant

def resourceFromRow (row : ResourceRow) : Handler Resource := do
  let createdAt ← parseOrNow p row.createdAt
  return {
    id := row.id
    name := row.name
    resourceType := row.resourceType
    uri := row.uri
    actions := row.actions
    sensitivity := row.sensitivity
    ownerId := row.ownerId
    credentialConfig := row.credentialConfig
    createdAt := createdAt }

def getResource (id : Uuid) : Handler Resource := do
  let row ← queryRow fun db => db.resources.find? (·.id == id)
  resourceFromRow p row

structure CreateResourceRequest where
  name : String
  resourceType : ResourceType
  uri : String
  actions : Json
  sensitivity : Sensitivity
  ownerId : Option Uuid
  credentialConfig : Option Json

def createResource (req : CreateResourceRequest) : Handler Resource := do
  let id ← nowV7
  let now := p.toRfc3339 (← utcNow)
  sql (Db.insertResource {
    id := id
    name := req.name
    resourceType := req.resourceType
    uri := req.uri
    actions := req.actions
    sensitivity := req.sensitivity
    ownerId := req.ownerId
    credentialConfig := req.credentialConfig
    createdAt := now })
  getResource p id

def listResources : Handler (List Resource) := do
  let rows ← query fun db => orderDesc (·.createdAt) db.resources
  rows.mapM (resourceFromRow p)

/-- A query that fails after its statement was prepared reads as no resource. -/
def findResourceByUri (uri : String) : Handler (Option Uuid) := do
  prepare
  match ← (queryRow fun db => db.resources.find? (·.uri == uri)).attempt with
  | .ok row => return some row.id
  | .error _ => return none

/-! ## Grants -/

def createGrant (agentId principalId : Uuid) (parentGrantId : Option Uuid) (scopes : List String)
    (constraints : Option Json) (expiresAt : Instant) : Handler Uuid := do
  let id ← nowV7
  let now := p.toRfc3339 (← utcNow)
  sql (Db.insertGrant p.foreignKeys {
    id := id
    agentId := agentId
    principalId := principalId
    parentGrantId := parentGrantId
    scopes := scopes
    constraints := constraints
    expiresAt := p.toRfc3339 expiresAt
    revokedAt := none
    createdAt := now })
  return id

structure Grant where
  id : Uuid
  agentId : Uuid
  principalId : Uuid
  parentGrantId : Option Uuid
  scopes : List String
  constraints : Option Json
  expiresAt : Instant
  revokedAt : Option Instant
  createdAt : Instant

def grantFromRow (row : GrantRow) : Handler Grant := do
  let expiresAt ← parseOrNow p row.expiresAt
  let createdAt ← parseOrNow p row.createdAt
  return {
    id := row.id
    agentId := row.agentId
    principalId := row.principalId
    parentGrantId := row.parentGrantId
    scopes := row.scopes
    constraints := row.constraints
    expiresAt := expiresAt
    revokedAt := row.revokedAt.bind p.parseFromRfc3339
    createdAt := createdAt }

def getGrant (id : Uuid) : Handler Grant := do
  let row ← queryRow fun db => db.grants.find? (·.id == id)
  grantFromRow p row

/-- The expiry is compared as text. -/
def listGrantsForAgent (agentId : Uuid) : Handler (List Grant) := do
  let now := p.toRfc3339 (← utcNow)
  let rows ← query fun db => orderDesc (·.createdAt) (db.grants.filter fun row =>
    row.agentId == agentId && row.revokedAt.isNone && decide (now < row.expiresAt))
  rows.mapM (grantFromRow p)

def listAllGrants : Handler (List Grant) := do
  let rows ← query fun db => orderDesc (·.createdAt) db.grants
  rows.mapM (grantFromRow p)

/-- `revoke_grant_sync`. Each call that recurses has just revoked a grant, so the
fuel of `revokeGrant` covers every recursion. -/
def revokeGrantSync : Nat → Uuid → Handler (List Uuid)
  | 0, _ => Action.fail .panic
  | fuel + 1, id => do
      let now := p.toRfc3339 (← utcNow)
      sql (Db.revokeGrantRow id now)
      let children ← query fun db =>
        db.grants.filter fun row => row.parentGrantId == some id && row.revokedAt.isNone
      let children ← deliverRows (children.map (·.id))
      let revoked ← children.mapM (revokeGrantSync fuel)
      return id :: revoked.flatten

def revokeGrant (id : Uuid) : Handler (List Uuid) := do
  let fuel ← Action.read fun s => s.app.db.grants.length + 1
  revokeGrantSync p fuel id

/-! ## Tokens -/

def recordToken (jti : String) (grantId : Option Uuid) (agentId : Uuid) (scopes : List String)
    (audience : String) (expiresAt : Instant) : Handler Unit := do
  let now := p.toRfc3339 (← utcNow)
  sql (Db.insertToken p.foreignKeys {
    id := jti
    grantId := grantId
    agentId := agentId
    scopes := scopes
    audience := audience
    issuedAt := now
    expiresAt := p.toRfc3339 expiresAt
    revoked := false })

def revokeToken (jti : String) : Handler Unit := sql (Db.revokeTokenRow jti)

def revokeAgentTokens (agentId : Uuid) : Handler Nat := sql (Db.revokeAgentTokenRows agentId)

/-! ## Approvals -/

structure ApprovalRequest where
  id : Uuid
  agentId : Uuid
  principalId : Option Uuid
  resourceId : Uuid
  action : String
  requestedScopes : List String
  status : ApprovalStatus
  approverId : Option Uuid
  reason : Option String
  approvalToken : Option String
  expiresAt : Instant
  createdAt : Instant
  resolvedAt : Option Instant
deriving DecidableEq, Repr

def approvalFromRow (row : ApprovalRow) : Handler ApprovalRequest := do
  let expiresAt ← parseOrNow p row.expiresAt
  let createdAt ← parseOrNow p row.createdAt
  return {
    id := row.id
    agentId := row.agentId
    principalId := row.principalId
    resourceId := row.resourceId.getD Uuid.nil
    action := row.action
    requestedScopes := row.requestedScopes
    status := row.status
    approverId := row.approverId
    reason := row.reason
    approvalToken := row.approvalToken
    expiresAt := expiresAt
    createdAt := createdAt
    resolvedAt := row.resolvedAt.bind p.parseFromRfc3339 }

def getApprovalRequest (id : Uuid) : Handler ApprovalRequest := do
  let row ← queryRow fun db => db.approvalRequests.find? (·.id == id)
  approvalFromRow p row

def createApprovalRequest (agentId : Uuid) (principalId resourceId : Option Uuid) (action : String)
    (requestedScopes : List String) (ttlSeconds : Nat) : Handler ApprovalRequest := do
  let id ← nowV7
  let now ← utcNow
  -- The sum is computed on the blocking pool, where a panic becomes an error.
  match now.addSeconds (asI64 ttlSeconds) with
  | none => raise (.database ("db task panicked: " ++ p.joinError))
  | some expiresAt =>
      sql (Db.insertApprovalRequest p.foreignKeys {
        id := id
        agentId := agentId
        principalId := principalId
        resourceId := resourceId
        action := action
        requestedScopes := requestedScopes
        status := .pending
        approverId := none
        reason := none
        approvalToken := none
        expiresAt := p.toRfc3339 expiresAt
        createdAt := p.toRfc3339 now
        resolvedAt := none })
      getApprovalRequest p id

def listPendingApprovals : Handler (List ApprovalRequest) := do
  let rows ← query fun db =>
    orderDesc (·.createdAt) (db.approvalRequests.filter (·.status == .pending))
  rows.mapM (approvalFromRow p)

/-- The token of an approval; a denial has none. -/
def approvalTokenFor (approved : Bool) : Handler (Option String) :=
  if approved then do
    let token ← nowV7
    return some token.toString
  else pure none

def resolveApprovalRequest (id approverId : Uuid) (approved : Bool) (reason : Option String) :
    Handler ApprovalRequest := do
  let now ← utcNow
  let status : ApprovalStatus := if approved then .approved else .denied
  let approvalToken ← approvalTokenFor approved
  let changes ←
    sql (Db.resolveApprovalRow id status approverId reason approvalToken (p.toRfc3339 now))
  if changes = 0 then raise (.database "approval request not found or already resolved")
  else getApprovalRequest p id

end Database

end Patroclus
