import Patroclus.Api.Extract
import Patroclus.Api.Login

/-!
# What the handlers answer

The documents of the replies. A struct is written with its fields in the order of their
declaration, an object that a handler puts together in the order of its keys.
-/

namespace Patroclus

open Foundation

/-! ## Values -/

namespace Serde

/-- `Option<T>`: nothing is `null`. -/
def nullOr {α : Type} (write : α → Json) (value : Option α) : Json := (value.map write).getD .null

def uuidText (id : Uuid) : Json := .string id.toString

def texts (items : List String) : Json := .array (items.map .string)

def nat (n : Nat) : Json := .number (.posInt n)

def integer (n : Int) : Json := .number (if 0 ≤ n then .posInt n.toNat else .negInt n)

/-- What is no number is `null`. -/
def real : F64 → Json
  | .finite q => .number (.float (.finite q))
  | _ => .null

end Serde

open Serde

def AgentStatus.name : AgentStatus → String
  | active => "active"
  | suspended => "suspended"
  | decommissioned => "decommissioned"

def ResourceType.name : ResourceType → String
  | mcpServer => "mcp_server"
  | api => "api"
  | database => "database"
  | cloudService => "cloud_service"

def Sensitivity.name : Sensitivity → String
  | low => "low"
  | medium => "medium"
  | high => "high"
  | critical => "critical"

def PolicyStatus.name : PolicyStatus → String
  | active => "active"
  | deprecated => "deprecated"

def ApprovalStatus.name : ApprovalStatus → String
  | pending => "pending"
  | approved => "approved"
  | denied => "denied"
  | expired => "expired"

section

variable (dates : Dates)

def Serde.date (t : Instant) : Json := .string (dates.write t)

/-! ## Replies to calls -/

def IssuedTokenInfo.document (token : IssuedTokenInfo) : Json :=
  .object [
    ("jwt", .string token.jwt),
    ("expires_at", date dates token.expiresAt),
    ("scopes", texts token.scopes),
    ("jti", .string token.jti)]

def ApprovalInfo.document (approval : ApprovalInfo) : Json :=
  .object [("request_id", uuidText approval.requestId), ("status", .string approval.status)]

def AccessResponse.document (response : AccessResponse) : Json :=
  .object [
    ("decision", .string response.decision),
    ("token", nullOr (IssuedTokenInfo.document dates) response.token),
    ("approval", nullOr ApprovalInfo.document response.approval),
    ("reason", .string response.reason),
    ("approved_scopes", texts response.approvedScopes)]

def CheckResponse.document (response : CheckResponse) : Json :=
  .object [
    ("allowed", .bool response.allowed),
    ("approved_scopes", texts response.approvedScopes),
    ("decision", .string response.decision),
    ("reason", .string response.reason)]

def DelegateResponse.document (response : DelegateResponse) : Json :=
  .object [
    ("delegated_token", .string response.delegatedToken),
    ("expires_at", date dates response.expiresAt),
    ("scopes", texts response.scopes)]

def PrincipalDelegateResponse.document (response : PrincipalDelegateResponse) : Json :=
  .object [
    ("delegation_token", .string response.delegationToken),
    ("expires_at", date dates response.expiresAt),
    ("grant_id", uuidText response.grantId),
    ("scopes", texts response.scopes)]

namespace Database

def ApprovalRequest.document (approval : ApprovalRequest) : Json :=
  .object [
    ("id", uuidText approval.id),
    ("agent_id", uuidText approval.agentId),
    ("principal_id", nullOr uuidText approval.principalId),
    ("resource_id", uuidText approval.resourceId),
    ("action", .string approval.action),
    ("requested_scopes", texts approval.requestedScopes),
    ("status", .string approval.status.name),
    ("approver_id", nullOr uuidText approval.approverId),
    ("reason", nullOr .string approval.reason),
    ("approval_token", nullOr .string approval.approvalToken),
    ("expires_at", date dates approval.expiresAt),
    ("created_at", date dates approval.createdAt),
    ("resolved_at", nullOr (date dates) approval.resolvedAt)]

-- No statement writes the column `revocable`, whose default is 1.
def Grant.document (grant : Grant) : Json :=
  .object [
    ("id", uuidText grant.id),
    ("agent_id", uuidText grant.agentId),
    ("principal_id", uuidText grant.principalId),
    ("parent_grant_id", nullOr uuidText grant.parentGrantId),
    ("scopes", texts grant.scopes),
    ("constraints", grant.constraints.getD .null),
    ("expires_at", date dates grant.expiresAt),
    ("revocable", .bool true),
    ("revoked_at", nullOr (date dates) grant.revokedAt),
    ("created_at", date dates grant.createdAt)]

def Resource.document (resource : Resource) : Json :=
  .object [
    ("id", uuidText resource.id),
    ("name", .string resource.name),
    ("resource_type", .string resource.resourceType.name),
    ("uri", .string resource.uri),
    ("actions", resource.actions),
    ("sensitivity", .string resource.sensitivity.name),
    ("owner_id", nullOr uuidText resource.ownerId),
    ("credential_config", resource.credentialConfig.getD .null),
    ("created_at", date dates resource.createdAt)]

end Database

-- The hash of the client key is not serialized.
def Agent.document (agent : Agent) : Json :=
  .object [
    ("id", uuidText agent.id),
    ("name", .string agent.name),
    ("principal_type", .string agent.principalType.name),
    ("public_key", nullOr .string agent.publicKey),
    ("did", nullOr .string agent.did),
    ("owner_id", nullOr uuidText agent.ownerId),
    ("status", .string agent.status.name),
    ("created_at", date dates agent.createdAt),
    ("updated_at", date dates agent.updatedAt)]

def Principal.document (principal : Principal) : Json :=
  .object [
    ("id", uuidText principal.id),
    ("external_id", .string principal.externalId),
    ("idp_provider", .string principal.idpProvider),
    ("email", .string principal.email),
    ("display_name", .string principal.displayName),
    ("created_at", date dates principal.createdAt)]

def PolicyRow.document (row : PolicyRow) : Json :=
  .object [
    ("definition", .string row.definition),
    ("engine", .string row.engine),
    ("id", uuidText row.id),
    ("name", .string row.name),
    ("status", .string row.status.name)]

def AuditEntry.document (entry : AuditEntry) : Json :=
  .object [
    ("id", integer entry.id),
    ("prev_hash", .string entry.prevHash),
    ("row_hash", .string entry.rowHash),
    ("agent_id", uuidText entry.agentId),
    ("principal_id", nullOr uuidText entry.principalId),
    ("action", .string entry.action),
    ("resource", .string entry.resource),
    ("decision", .string entry.decision),
    ("reason", .string entry.reason),
    ("delegation_chain", entry.delegationChain.getD .null),
    ("token_jti", nullOr .string entry.tokenJti),
    ("dry_run", .bool entry.dryRun),
    ("timestamp", date dates entry.timestamp)]

def SessionState.document (session : SessionState) : Json :=
  .object [
    ("actions_count", nat session.actionsCount),
    ("agent_id", uuidText session.agentId),
    ("created_at", date dates session.createdAt),
    ("killed", .bool session.killed),
    ("last_activity", date dates session.lastActivity),
    ("principal_id", nullOr uuidText session.principalId),
    ("session_id", .string session.sessionId),
    ("spend_total", real session.spendTotal),
    ("tokens_used", nat session.tokensUsed),
    ("trajectory_length", nat session.trajectory.length),
    ("trust_level", real session.trustLevel)]

/-- The document of a reply, without what repeats the call. -/
def Reply.document : Reply → Json
  | access response => response.document dates
  | check response => response.document
  | delegation response => response.document dates
  | approval request => request.document dates
  | grant response => response.document dates
  | grants items => .object [("grants", .array (items.map (·.document dates)))]
  | revokedGrants ids =>
      .object [("count", nat ids.length), ("revoked_grants", .array (ids.map uuidText))]
  | approvals items => .array (items.map (·.document dates))
  | agent found => found.document dates
  | agents items => .array (items.map (·.document dates))
  | clientKey rawKey => .object [
      ("client_key", .string rawKey),
      ("note", .string "Store this key securely — it is not retrievable later.")]
  | principal created => created.document dates
  | resource created => created.document dates
  | resources items => .array (items.map (·.document dates))
  | policyCreated => .object [("reloaded", .bool true), ("status", .string "created")]
  | policies rows => .object [("policies", .array (rows.map (·.document)))]
  | audit entries => .array (entries.map (·.document dates))
  | tokenRevoked jti => .object [("revoked", .string jti)]
  | sessions items => .object [("sessions", .array (items.map (·.document dates)))]
  | sessionKilled killed => .object [("killed", .bool killed)]
  | agentKilled sessionsKilled =>
      .object [("killed", .bool true), ("sessions_killed", nat sessionsKilled)]
  | agentRestored => .object [("restored", .bool true)]
  | spend cumulative => .object [("cumulative_spend", real cumulative)]

/-- What the answer to a call repeats of it. -/
def Call.repeated : Call → List (String × Json)
  | provisionClientKey id | killAgent id | restoreAgent id => [("agent_id", uuidText id)]
  | killSession id => [("session_id", .string id)]
  | recordSpend id amount sessionId => [
      ("agent_id", uuidText id),
      ("session_id", .string (sessionId.getD ("agent-" ++ id.toString ++ "-default"))),
      ("spend_recorded", real amount)]
  | _ => []

def Call.document (call : Call) (reply : Reply) : Json :=
  match reply.document dates with
  | .object fields =>
      .object (call.repeated.foldl (fun fields (key, item) => Json.insertField key item fields)
        fields)
  | document => document

/-! ## Other replies -/

def VaultReply.document : VaultReply → Json
  | stored response => .object [
      ("id", uuidText response.id),
      ("principal_id", uuidText response.principalId),
      ("provider", .string response.provider),
      ("scopes", texts response.scopes),
      ("stored", .bool response.stored)]
  | listed note => .object [("credentials", .array []), ("note", .string note)]
  | vended response => .object [
      ("provider", .string response.provider),
      ("access_token", .string response.accessToken),
      ("scopes", texts response.scopes),
      ("expires_at", nullOr (date dates) response.expiresAt),
      ("vended_for_jti", .string response.vendedForJti)]
  | generated path => .object [("generated", .bool true), ("path", .string path)]

end

def IdpAuthorizeResponse.document (response : IdpAuthorizeResponse) : Json :=
  .object [
    ("authorization_url", .string response.authorizationUrl),
    ("code_challenge_method", .string "S256"),
    ("provider", .string response.provider),
    ("state", .string response.state)]

def IdpCallbackResponse.document (response : IdpCallbackResponse) : Json :=
  .object [
    ("authenticated", .bool response.authenticated),
    ("email", .string response.email),
    ("groups", texts response.groups),
    ("issuer", .string response.issuer),
    ("mapped_scopes", texts response.mappedScopes),
    ("policy_applied", .bool response.policyApplied),
    ("principal_id", uuidText response.principalId)]

def IdpUserInfo.document (userInfo : IdpUserInfo) : Json :=
  .object [
    ("subject", .string userInfo.subject),
    ("email", .string userInfo.email),
    ("name", nullOr .string userInfo.name),
    ("groups", texts userInfo.groups),
    ("issuer", .string userInfo.issuer),
    ("raw_claims", userInfo.rawClaims)]

def IdpProvider.document (provider : IdpProvider) : Json :=
  .object [
    ("client_id", .string provider.clientId),
    ("group_claim", .string provider.groupClaim),
    ("issuer", .string provider.issuer),
    ("name", .string provider.name),
    ("scopes", texts provider.scopes)]

def IdpConfig.document (idp : IdpConfig) : Json :=
  .object [
    ("enabled", .bool idp.enabled),
    ("providers", .array (idp.providers.map (·.document)))]

/-- The document of an error. -/
def errorDocument (message : String) : Json := .object [("error", .string message)]

end Patroclus
