import Patroclus.Sdk.Client
import Patroclus.Api.Extract

/-!
# The methods of the SDK's client

What each method of `PatroclusClient` sends: a method, a path and, if any, a document. No
method sends a header of its own. `ClientCall.meaning` says in terms of the server what a
method is for.
-/

namespace Patroclus

open Foundation Serde

namespace Sdk

/-- A request as a method puts it together. -/
structure Outgoing where
  method : Method
  path : String
  json : Option Json

/-- A Python `int`, as the server reads it. -/
def int (n : Int) : Json :=
  .number (if 0 ≤ n ∧ n < 2 ^ 64 then .posInt n.toNat
    else if -2 ^ 63 ≤ n ∧ n < 0 then .negInt n
    else .float (.ofInt n))

/-- `if value: payload[key] = value` -/
def ifGiven (key : String) (value : Option String) : List (String × Json) :=
  (given value).toList.map fun text => (key, .string text)

def strings (items : List String) : Json := .array (items.map .string)

/-- A call of a method of the client. An amount that is no number has no JSON text and is not
sent. -/
inductive ClientCall where
  | health
  | checkAccess (request : AccessRequest)
  | requestAccess (request : AccessRequest)
  | delegate (parentGrantToken subAgentId : String) (scopes : List String)
      (expiresInSeconds : Int)
  | getApprovalStatus (requestId : String)
  | delegatePermissions (agentId : String) (scopes : List String) (expiresInSeconds : Int)
      (constraints : Option (List (String × Json)))
  | listPendingApprovals
  | approveRequest (requestId approverId : String) (reason : Option String)
  | denyRequest (requestId approverId : String) (reason : Option String)
  | revokeGrant (grantId : String)
  | registerAgent (name principalType : String) (ownerId : Option String)
  | registerPrincipal (email displayName : String) (externalId : Option String)
      (idpProvider : String)
  | createPolicy (name definition engine : String)
  | getAuditTrail
  | listSessions
  | killAgent (agentId : String)
  | recordSpend (agentId : String) (amount : ℚ) (sessionId : Option String)
  | revokeToken (jti : String)
  | storeCredential (principalId provider refreshToken : String) (scopes : List String)

namespace ClientCall

def outgoing : ClientCall → Outgoing
  | health => ⟨.get, "/health", none⟩
  | checkAccess request => ⟨.post, "/v1/agent/check", some request.buildAccessPayload⟩
  | requestAccess request => ⟨.post, "/v1/agent/request-access", some request.buildAccessPayload⟩
  | delegate parentGrantToken subAgentId scopes expiresInSeconds =>
      ⟨.post, "/v1/agent/delegate", some (.object [
        ("parent_grant_token", .string parentGrantToken),
        ("sub_agent_id", .string subAgentId),
        ("scopes", strings scopes),
        ("expires_in_seconds", int expiresInSeconds)])⟩
  | getApprovalStatus requestId => ⟨.get, "/v1/agent/approval-status/" ++ requestId, none⟩
  | delegatePermissions agentId scopes expiresInSeconds constraints =>
      ⟨.post, "/v1/principal/delegate", some (.object ([
        ("agent_id", .string agentId),
        ("scopes", strings scopes),
        ("expires_in_seconds", int expiresInSeconds)] ++
          (constraints.filter (!·.isEmpty)).toList.map fun fields =>
            ("constraints", .object fields)))⟩
  | listPendingApprovals => ⟨.get, "/v1/principal/approvals", none⟩
  | approveRequest requestId approverId reason =>
      ⟨.post, "/v1/principal/approvals/" ++ requestId ++ "/approve",
        some (.object (("approver_id", .string approverId) :: ifGiven "reason" reason))⟩
  | denyRequest requestId approverId reason =>
      ⟨.post, "/v1/principal/approvals/" ++ requestId ++ "/deny",
        some (.object (("approver_id", .string approverId) :: ifGiven "reason" reason))⟩
  | revokeGrant grantId =>
      ⟨.post, "/v1/principal/grants/" ++ grantId ++ "/revoke",
        some (.object [("cascade", .bool true)])⟩
  | registerAgent name principalType ownerId =>
      ⟨.post, "/v1/admin/agents", some (.object ([
        ("name", .string name), ("principal_type", .string principalType)] ++
          ifGiven "owner_id" ownerId))⟩
  | registerPrincipal email displayName externalId idpProvider =>
      ⟨.post, "/v1/admin/principals", some (.object [
        ("external_id", .string ((given externalId).getD email)),
        ("idp_provider", .string idpProvider),
        ("email", .string email),
        ("display_name", .string displayName)])⟩
  | createPolicy name definition engine =>
      ⟨.post, "/v1/admin/policies", some (.object [
        ("name", .string name), ("engine", .string engine), ("definition", .string definition)])⟩
  | getAuditTrail => ⟨.get, "/v1/admin/audit", none⟩
  | listSessions => ⟨.get, "/v1/sessions", none⟩
  | killAgent agentId => ⟨.post, "/v1/admin/agents/" ++ agentId ++ "/kill", none⟩
  | recordSpend agentId amount sessionId =>
      ⟨.post, "/v1/admin/agents/" ++ agentId ++ "/spend",
        some (.object (("amount", .number (.float (.finite amount))) ::
          ifGiven "session_id" sessionId))⟩
  | revokeToken jti => ⟨.post, "/v1/admin/tokens/" ++ jti ++ "/revoke", none⟩
  | storeCredential principalId provider refreshToken scopes =>
      ⟨.post, "/v1/vault/credentials", some (.object [
        ("principal_id", .string principalId),
        ("provider", .string provider),
        ("refresh_token", .string refreshToken),
        ("scopes", strings scopes)])⟩

/-- The argument that stands in the path. -/
def pathArgument : ClientCall → Option String
  | getApprovalStatus id | approveRequest id _ _ | denyRequest id _ _ | revokeGrant id
  | killAgent id | recordSpend id _ _ | revokeToken id => some id
  | _ => none

end ClientCall

/-- A text that stands in a path as it is: letters, digits, hyphens and underscores. -/
def IsPathText (text : String) : Prop :=
  text ≠ "" ∧ ∀ c ∈ text.toList, c.isAlphanum = true ∨ c = '-' ∨ c = '_'

/-- The request that reaches the server, with the headers that the HTTP library adds. The library
leaves a path as it is if the arguments in it are path texts. -/
def Outgoing.sent (outgoing : Outgoing) (headers : List (String × List UInt8)) : HttpRequest where
  method := outgoing.method
  path := outgoing.path
  headers := headers
  query := []
  body := match outgoing.json with
    | some document => .ok document
    | none => .error .mediaType

/-! ## What the methods are for -/

section

variable (p : Platform)

/-- A lifetime that fits into 64 bits without a sign. -/
def seconds (n : Int) : Option Nat := if 0 ≤ n ∧ n < 2 ^ 64 then some n.toNat else none

def AccessRequest.meaning (request : AccessRequest) : Option Patroclus.AccessRequest := do
  return {
    agentId := ← p.parseUuid request.agentId
    action := request.action
    resource := request.resource
    requestedScopes := request.scopes.getD []
    delegationToken := given request.delegationToken
    context := (given request.sessionId).map fun sessionId => ⟨some sessionId⟩ }

/-- The operation that a call stands for; ids, lifetimes and kinds of agents may be none. -/
def ClientCall.meaning (auth : Option Uuid) : ClientCall → Option Operation
  | health => some .health
  | checkAccess request => do return .call (.check auth (← request.meaning p))
  | requestAccess request => do return .call (.requestAccess auth (← request.meaning p))
  | delegate parentGrantToken subAgentId scopes expiresInSeconds => do
      return .call (.delegate auth {
        parentGrantToken := parentGrantToken
        subAgentId := ← p.parseUuid subAgentId
        scopes := scopes
        expiresInSeconds := ← seconds expiresInSeconds })
  | getApprovalStatus requestId => do
      return .call (.approvalStatus auth (← p.parseUuid requestId))
  | delegatePermissions agentId scopes expiresInSeconds constraints => do
      return .call (.principalDelegate {
        agentId := ← p.parseUuid agentId
        scopes := scopes
        constraints := (constraints.filter (!·.isEmpty)).map fun fields => value (.object fields)
        expiresInSeconds := ← seconds expiresInSeconds })
  | listPendingApprovals => some (.call .listPendingApprovals)
  | approveRequest requestId approverId reason => do
      return .call (.approveRequest (← p.parseUuid requestId)
        ⟨← p.parseUuid approverId, given reason⟩)
  | denyRequest requestId approverId reason => do
      return .call (.denyRequest (← p.parseUuid requestId)
        ⟨← p.parseUuid approverId, given reason⟩)
  | revokeGrant grantId => do return .call (.revokeGrant (← p.parseUuid grantId))
  | registerAgent name principalType ownerId => do
      let principalType ← agentTypes.lookup principalType
      let ownerId ← (given ownerId).mapM p.parseUuid
      return .call (.createAgent ⟨name, principalType, none, none, ownerId⟩)
  | registerPrincipal email displayName externalId idpProvider =>
      some (.call (.createPrincipal
        ⟨(given externalId).getD email, idpProvider, email, displayName⟩))
  | createPolicy name definition engine => some (.call (.createPolicy name engine definition))
  | getAuditTrail => some (.call .listAudit)
  | listSessions => some (.call .listSessions)
  | killAgent agentId => do return .call (.killAgent (← p.parseUuid agentId))
  | recordSpend agentId amount sessionId => do
      return .call (.recordSpend (← p.parseUuid agentId) (.finite amount) (given sessionId))
  | revokeToken jti => some (.call (.revokeToken jti))
  | storeCredential principalId provider refreshToken scopes => do
      return .vault (.store ⟨← p.parseUuid principalId, provider, refreshToken, scopes, none⟩)

end

end Sdk

end Patroclus
