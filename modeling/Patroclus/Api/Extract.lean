import Patroclus.Api.Routes
import Patroclus.Api.Vault
import Patroclus.Crate.Serde
import Patroclus.Crate.Url

/-!
# What the handlers are given

The extractors of a handler turn the path, the query and the body of a request into its
arguments, in the order of its parameters; the first that fails rejects the request. An
`Operation` is a handler with its arguments.

Of the body a request carries what the JSON extractor reads in it, if its media type, its
length and its text are right; of the query, its decoded pairs.
-/

namespace Patroclus

open Foundation Serde

/-- Why a body is not read as a document. -/
inductive BodyError where
  | mediaType
  | tooLarge
  | malformed
deriving DecidableEq, Repr

structure HttpRequest extends Request where
  query : List (String × String)
  body : Except BodyError Json

/-- An extractor that has failed. -/
inductive Rejection where
  | path
  | query
  | body (error : BodyError)
  | data
deriving DecidableEq, Repr

/-- How `chrono` reads and writes dates in documents. -/
structure Dates where
  read : String → Option Instant
  write : Instant → String

structure RevokeGrantRequest where
  cascade : Bool

structure CreatePolicyRequest where
  name : String
  engine : String
  definition : String

structure RecordSpendRequest where
  amount : F64
  sessionId : Option String

structure IdpUserInfoRequest where
  provider : String
  accessToken : String

structure IdpCallbackQuery where
  code : String
  state : String

/-- A handler with its arguments. -/
inductive Operation where
  | call (call : Call)
  | vault (call : VaultCall)
  | authorize (providerName : String)
  | callback (state code : String)
  | userinfo (provider accessToken : String)
  | listProviders
  | dashboard
  | health
  | healthReady
  | prometheusMetrics
  | jwks

section

variable (p : Platform) (dates : Dates)

def Serde.uuid (document : Json) : Option Uuid := document.asStr.bind p.parseUuid

def Serde.dateTime (document : Json) : Option Instant := document.asStr.bind dates.read

/-! ## Bodies -/

-- The last three fields are read, and nothing looks at them.
def RequestContext.deserialize (document : Json) : Option RequestContext := do
  let field ← structFields
    [plain "session_id", plain "task", plain "max_amount", plain "time_window"] document
  let sessionId ← nullable Json.asStr (field "session_id")
  let _ ← nullable Json.asStr (field "task")
  let _ ← nullable f64 (field "max_amount")
  let _ ← nullable Json.asStr (field "time_window")
  return ⟨sessionId⟩

def AccessRequest.deserialize (document : Json) : Option AccessRequest := do
  let field ← structFields [plain "agent_id", plain "action", plain "resource",
    plain "requested_scopes", plain "delegation_token", plain "context"] document
  return {
    agentId := ← required (uuid p) (field "agent_id")
    action := ← required Json.asStr (field "action")
    resource := ← required Json.asStr (field "resource")
    requestedScopes := ← required strings (field "requested_scopes")
    delegationToken := ← nullable Json.asStr (field "delegation_token")
    context := ← nullable RequestContext.deserialize (field "context") }

def DelegateRequest.deserialize (document : Json) : Option DelegateRequest := do
  let field ← structFields [plain "parent_grant_token", plain "sub_agent_id", plain "scopes",
    plain "expires_in_seconds"] document
  return {
    parentGrantToken := ← required Json.asStr (field "parent_grant_token")
    subAgentId := ← required (uuid p) (field "sub_agent_id")
    scopes := ← required strings (field "scopes")
    expiresInSeconds := ← required Json.asU64 (field "expires_in_seconds") }

def PrincipalDelegateRequest.deserialize (document : Json) : Option PrincipalDelegateRequest := do
  let field ← structFields [plain "agent_id", plain "scopes", plain "constraints",
    plain "expires_in_seconds"] document
  return {
    agentId := ← required (uuid p) (field "agent_id")
    scopes := ← required strings (field "scopes")
    constraints := ← nullable (fun document => some (value document)) (field "constraints")
    expiresInSeconds := ← required Json.asU64 (field "expires_in_seconds") }

def RevokeGrantRequest.deserialize (document : Json) : Option RevokeGrantRequest := do
  let field ← structFields [⟨"cascade", true⟩] document
  return ⟨← orDefault false Json.asBool (field "cascade")⟩

def ApproveRequest.deserialize (document : Json) : Option ApproveRequest := do
  let field ← structFields [plain "approver_id", ⟨"reason", true⟩] document
  return {
    approverId := ← required (uuid p) (field "approver_id")
    reason := ← nullable Json.asStr (field "reason") }

def agentTypes : List (String × AgentType) :=
  [("service", .service), ("delegated", .delegated), ("autonomous", .autonomous)]

def CreateAgentRequest.deserialize (document : Json) : Option CreateAgentRequest := do
  let field ← structFields [plain "name", plain "principal_type", plain "public_key", plain "did",
    plain "owner_id"] document
  return {
    name := ← required Json.asStr (field "name")
    principalType := ← required (variant agentTypes) (field "principal_type")
    publicKey := ← nullable Json.asStr (field "public_key")
    did := ← nullable Json.asStr (field "did")
    ownerId := ← nullable (uuid p) (field "owner_id") }

def CreatePrincipalRequest.deserialize (document : Json) : Option CreatePrincipalRequest := do
  let field ← structFields [plain "external_id", plain "idp_provider", plain "email",
    plain "display_name"] document
  return {
    externalId := ← required Json.asStr (field "external_id")
    idpProvider := ← required Json.asStr (field "idp_provider")
    email := ← required Json.asStr (field "email")
    displayName := ← required Json.asStr (field "display_name") }

def resourceTypes : List (String × ResourceType) :=
  [("mcp_server", .mcpServer), ("api", .api), ("database", .database),
    ("cloud_service", .cloudService)]

def sensitivities : List (String × Sensitivity) :=
  [("low", .low), ("medium", .medium), ("high", .high), ("critical", .critical)]

def Database.CreateResourceRequest.deserialize (document : Json) :
    Option Database.CreateResourceRequest := do
  let field ← structFields [plain "name", plain "resource_type", plain "uri", plain "actions",
    plain "sensitivity", plain "owner_id", plain "credential_config"] document
  return {
    name := ← required Json.asStr (field "name")
    resourceType := ← required (variant resourceTypes) (field "resource_type")
    uri := ← required Json.asStr (field "uri")
    actions := ← required (fun document => some (value document)) (field "actions")
    sensitivity := ← required (variant sensitivities) (field "sensitivity")
    ownerId := ← nullable (uuid p) (field "owner_id")
    credentialConfig :=
      ← nullable (fun document => some (value document)) (field "credential_config") }

def CreatePolicyRequest.deserialize (document : Json) : Option CreatePolicyRequest := do
  let field ← structFields [plain "name", plain "engine", plain "definition"] document
  return {
    name := ← required Json.asStr (field "name")
    engine := ← required Json.asStr (field "engine")
    definition := ← required Json.asStr (field "definition") }

def RecordSpendRequest.deserialize (document : Json) : Option RecordSpendRequest := do
  let field ← structFields [plain "amount", plain "session_id"] document
  return {
    amount := ← required f64 (field "amount")
    sessionId := ← nullable Json.asStr (field "session_id") }

def StoreCredentialRequest.deserialize (document : Json) : Option StoreCredentialRequest := do
  let field ← structFields [plain "principal_id", plain "provider", plain "refresh_token",
    plain "scopes", plain "expires_at"] document
  return {
    principalId := ← required (uuid p) (field "principal_id")
    provider := ← required Json.asStr (field "provider")
    refreshToken := ← required Json.asStr (field "refresh_token")
    scopes := ← required strings (field "scopes")
    expiresAt := ← nullable (dateTime dates) (field "expires_at") }

def VendCredentialBody.deserialize (document : Json) : Option VendCredentialBody := do
  let field ← structFields [plain "principal_id", plain "provider", plain "requested_scopes",
    plain "agent_token_jti", plain "client_id", plain "client_secret"] document
  return {
    principalId := ← required (uuid p) (field "principal_id")
    provider := ← required Json.asStr (field "provider")
    requestedScopes := ← required strings (field "requested_scopes")
    agentTokenJti := ← required Json.asStr (field "agent_token_jti")
    clientId := ← nullable Json.asStr (field "client_id")
    clientSecret := ← nullable Json.asStr (field "client_secret") }

def IdpUserInfoRequest.deserialize (document : Json) : Option IdpUserInfoRequest := do
  let field ← structFields [plain "provider", plain "access_token"] document
  return {
    provider := ← required Json.asStr (field "provider")
    accessToken := ← required Json.asStr (field "access_token") }

def IdpCallbackQuery.deserialize (pairs : List (String × String)) : Option IdpCallbackQuery := do
  return ⟨← parameter "code" pairs, ← parameter "state" pairs⟩

/-! ## Extractors -/

/-- `Json<T>` -/
def jsonBody {α : Type} (read : Json → Option α) (req : HttpRequest) : Except Rejection α :=
  match req.body with
  | .error e => .error (.body e)
  | .ok document => (read document).elim (.error .data) .ok

/-- The segment of a path that stands for the parameter of its template. -/
def pathSegment (path : String) : Option (List Char) := do
  let route ← allRoutes.find? (·.matchesPath path)
  (route.template.zip (segments path)).findSome? fun (segment, piece) =>
    if segment.isFixed then none else some piece

/-- `Path<String>` -/
def pathString (req : HttpRequest) : Except Rejection String :=
  (((pathSegment req.path).map percentDecodeLenient).bind fromUtf8).elim (.error .path) .ok

/-- `Path<Uuid>` -/
def pathUuid (req : HttpRequest) : Except Rejection Uuid := do
  let text ← pathString req
  (p.parseUuid text).elim (.error .path) .ok

/-- `Query<IdpCallbackQuery>` -/
def callbackQuery (req : HttpRequest) : Except Rejection IdpCallbackQuery :=
  (IdpCallbackQuery.deserialize req.query).elim (.error .query) .ok

/-- The arguments of a handler; the agent is that of the request extension. -/
def extract (endpoint : Endpoint) (auth : Option Uuid) (req : HttpRequest) :
    Except Rejection Operation :=
  match endpoint with
  | .dashboard => .ok .dashboard
  | .health => .ok .health
  | .healthReady => .ok .healthReady
  | .prometheusMetrics => .ok .prometheusMetrics
  | .jwks => .ok .jwks
  | .requestAccess => do
      return .call (.requestAccess auth (← jsonBody (AccessRequest.deserialize p) req))
  | .checkAccess => do return .call (.check auth (← jsonBody (AccessRequest.deserialize p) req))
  | .delegate => do return .call (.delegate auth (← jsonBody (DelegateRequest.deserialize p) req))
  | .approvalStatus => do return .call (.approvalStatus auth (← pathUuid p req))
  | .principalDelegate => do
      return .call (.principalDelegate (← jsonBody (PrincipalDelegateRequest.deserialize p) req))
  | .listPrincipalGrants => .ok (.call .listPrincipalGrants)
  | .revokeGrant => do
      let id ← pathUuid p req
      let _ ← jsonBody RevokeGrantRequest.deserialize req
      return .call (.revokeGrant id)
  | .listPendingApprovals => .ok (.call .listPendingApprovals)
  | .approveRequest => do
      let id ← pathUuid p req
      return .call (.approveRequest id (← jsonBody (ApproveRequest.deserialize p) req))
  | .denyRequest => do
      let id ← pathUuid p req
      return .call (.denyRequest id (← jsonBody (ApproveRequest.deserialize p) req))
  | .createAgent => do
      return .call (.createAgent (← jsonBody (CreateAgentRequest.deserialize p) req))
  | .listAgents => .ok (.call .listAgents)
  | .getAgent => do return .call (.getAgent (← pathUuid p req))
  | .createPrincipal => do
      return .call (.createPrincipal (← jsonBody CreatePrincipalRequest.deserialize req))
  | .createResource => do
      return .call (.createResource
        (← jsonBody (Database.CreateResourceRequest.deserialize p) req))
  | .listResources => .ok (.call .listResources)
  | .createPolicy => do
      let body ← jsonBody CreatePolicyRequest.deserialize req
      return .call (.createPolicy body.name body.engine body.definition)
  | .listPolicies => .ok (.call .listPolicies)
  | .listAudit => .ok (.call .listAudit)
  | .revokeToken => do return .call (.revokeToken (← pathString req))
  | .storeCredential => do
      return .vault (.store (← jsonBody (StoreCredentialRequest.deserialize p dates) req))
  | .listVaultCredentials => .ok (.vault .list)
  | .vendCredential => do
      return .vault (.vend (← jsonBody (VendCredentialBody.deserialize p) req))
  | .generateVaultKey => .ok (.vault .generateKey)
  | .listSessions => .ok (.call .listSessions)
  | .killSession => do return .call (.killSession (← pathString req))
  | .killAgent => do return .call (.killAgent (← pathUuid p req))
  | .restoreAgent => do return .call (.restoreAgent (← pathUuid p req))
  | .recordSpend => do
      let id ← pathUuid p req
      let body ← jsonBody RecordSpendRequest.deserialize req
      return .call (.recordSpend id body.amount body.sessionId)
  | .provisionClientKey => do return .call (.provisionClientKey (← pathUuid p req))
  | .idpAuthorize => do return .authorize (← pathString req)
  | .idpCallback => do
      let params ← callbackQuery req
      return .callback params.state params.code
  | .idpUserinfo => do
      let body ← jsonBody IdpUserInfoRequest.deserialize req
      return .userinfo body.provider body.accessToken
  | .listIdpProviders => .ok .listProviders

/-- The operation to which the router and the extractors lead a request, if any. -/
def operationOf (auth : Option Uuid) (req : HttpRequest) : Option Operation :=
  match dispatch req.toRequest auth with
  | .handled endpoint agent => (extract p dates endpoint agent req).toOption
  | _ => none

end

end Patroclus
