import Patroclus.Api.Response
import Patroclus.Sdk.Methods

/-!
# What the methods of the SDK's client return

How each method of `PatroclusClient` takes the answer to its request apart, and what a client
is told by an installation that it is connected to. `Reply.shown` says in terms of the server
what a method is to return.
-/

namespace Patroclus

open Foundation Serde

namespace Sdk

structure DelegateResult where
  token : Json
  scopes : Json
  expiresAt : Json
  grantId : Json
deriving DecidableEq, Repr

structure ApprovalResult where
  requestId : Json
  status : Json
  approverId : Json
  reason : Json
  approvalToken : Json
deriving DecidableEq, Repr

inductive Value where
  | json (value : Json)
  | access (result : AccessResult)
  | delegation (result : DelegateResult)
  | approval (result : ApprovalResult)
  | approvals (results : List ApprovalResult)
deriving DecidableEq, Repr

/-- `value[key]` -/
def item (value : Json) (key : String) : Except PyException Json :=
  match value with
  | .object fields => (fields.lookup key).elim (.error (.other ("'" ++ key ++ "'"))) .ok
  | .array _ => .error (.other "list indices must be integers or slices, not str")
  | .string _ => .error (.other "string indices must be integers, not 'str'")
  | other => .error (.other ("'" ++ typeName other ++ "' object is not subscriptable"))

/-- `for item in value` -/
def iterate : Json → Except PyException (List Json)
  | .array items => .ok items
  | .object fields => .ok (fields.map fun field => .string field.1)
  | .string text => .ok (text.toList.map fun c => .string (String.singleton c))
  | other => .error (.other ("'" ++ typeName other ++ "' object is not iterable"))

namespace ClientCall

/-- What a method makes of the document of an answer with status 200. -/
def accept (call : ClientCall) (data : Json) : Except PyException Value :=
  match call with
  | health => return .json (.bool true)
  | checkAccess _ => return .json (← get data "allowed" (.bool false))
  | requestAccess _ => return .access (← AccessResult.fromResponse data)
  | delegate _ _ _ _ => return .delegation {
      token := ← item data "delegated_token"
      scopes := ← item data "scopes"
      expiresAt := ← item data "expires_at"
      grantId := .null }
  | getApprovalStatus _ | approveRequest _ _ _ => return .approval {
      requestId := ← item data "id"
      status := ← item data "status"
      approverId := ← get data "approver_id" .null
      reason := ← get data "reason" .null
      approvalToken := ← get data "approval_token" .null }
  | delegatePermissions _ _ _ _ => return .delegation {
      token := ← item data "delegation_token"
      scopes := ← item data "scopes"
      expiresAt := ← item data "expires_at"
      grantId := ← get data "grant_id" .null }
  | listPendingApprovals => do
      let results ← (← iterate data).mapM fun (a : Json) => do
        return (⟨← item a "id", ← item a "status", .null, ← get a "reason" .null, .null⟩ :
          ApprovalResult)
      return .approvals results
  | denyRequest _ _ _ => return .approval {
      requestId := ← item data "id"
      status := ← item data "status"
      approverId := ← get data "approver_id" .null
      reason := ← get data "reason" .null
      approvalToken := .null }
  | listSessions => return .json (← get data "sessions" (.array []))
  | revokeGrant _ | registerAgent _ _ _ | registerPrincipal _ _ _ _ | createPolicy _ _ _
  | getAuditTrail | killAgent _ | recordSpend _ _ _ | revokeToken _ | storeCredential _ _ _ _ =>
      return .json data

/-- `raise RuntimeError(...)` -/
def failed (what : String) (resp : Response) : Except PyException Value :=
  .error (.other (what ++ " failed: " ++ toString resp.statusCode ++ " " ++ resp.text))

/-- What a method makes of another status. -/
def refuse (call : ClientCall) (resp : Response) : Except PyException Value :=
  match call with
  | health | checkAccess _ => .ok (.json (.bool false))
  | requestAccess _ => .ok (.access
      (.refused ("HTTP " ++ toString resp.statusCode ++ ": " ++ resp.text)))
  | delegate _ _ _ _ | delegatePermissions _ _ _ _ => failed "Delegation" resp
  | getApprovalStatus _ => .ok (.json .null)
  | listPendingApprovals => .ok (.approvals [])
  | approveRequest _ _ _ => failed "Approval" resp
  | denyRequest _ _ _ => failed "Denial" resp
  | revokeGrant _ => failed "Revoke" resp
  | registerAgent _ _ _ => failed "Agent registration" resp
  | registerPrincipal _ _ _ _ => failed "Principal registration" resp
  | createPolicy _ _ _ => failed "Policy creation" resp
  | getAuditTrail | listSessions => .ok (.json (.array []))
  | killAgent _ => failed "Kill" resp
  | recordSpend _ _ _ => failed "Spend recording" resp
  | revokeToken _ => failed "Token revocation" resp
  | storeCredential _ _ _ _ => failed "Credential storage" resp

/-- What a method returns, given what came back for its request. Only `health` catches
exceptions, and it reads no document. -/
def result (call : ClientCall) (answer : Except PyException Response) : Except PyException Value :=
  match call, answer with
  | health, .ok resp => .ok (.json (.bool (resp.statusCode == 200)))
  | health, .error _ => .ok (.json (.bool false))
  | _, .error e => .error e
  | call, .ok resp =>
      if resp.statusCode = 200 then do call.accept (← resp.json) else call.refuse resp

end ClientCall

/-! ## Over the wire -/

/-- A response as the HTTP library hands it over; `text` is what its body reads as. -/
def receive (text : String) : Option HttpResponse → Except PyException Response
  | none => .error (.other "Server disconnected without sending a response.")
  | some response => .ok {
      statusCode := response.status
      text := text
      json := response.document.elim
        (.error (.other "Expecting value: line 1 column 1 (char 0)")) .ok }

section

variable (setup : Setup) (i : Installation) (headers : List (String × List UInt8))
  (readings : HttpReadings) (input : HttpInput) (text : String)

/-- What a method returns that is called on a connected client. -/
def ClientCall.run (call : ClientCall) : Except PyException Value :=
  call.result (receive text (i.respond setup (call.outgoing.sent headers) readings input))

/-- The connected client, for those who post through it. -/
def connected : PatroclusClient where
  post path document := receive text
    (i.respond setup ((⟨.post, path, some document⟩ : Outgoing).sent headers) readings input)

end

/-! ## What the methods are to return -/

section

variable (dates : Dates)

def AccessResult.of (response : AccessResponse) : AccessResult where
  decision := .string response.decision
  reason := .string response.reason
  token := nullOr (fun token => .string token.jwt) response.token
  tokenJti := nullOr (fun token => .string token.jti) response.token
  tokenScopes := texts ((response.token.map (·.scopes)).getD [])
  tokenExpiresAt := nullOr (fun token => date dates token.expiresAt) response.token
  approvalRequestId := nullOr (fun approval => uuidText approval.requestId) response.approval
  approvedScopes := texts response.approvedScopes

def ApprovalResult.of (approval : Database.ApprovalRequest) : ApprovalResult where
  requestId := uuidText approval.id
  status := .string approval.status.name
  approverId := nullOr uuidText approval.approverId
  reason := nullOr .string approval.reason
  approvalToken := nullOr .string approval.approvalToken

/-- The value that stands for a reply to a call. A denial has no token, and a list of approval
requests shows neither who decides nor a token. -/
def Reply.shown (call : Patroclus.Call) : Reply → Value
  | .access response => .access (AccessResult.of dates response)
  | .check response => .json (.bool response.allowed)
  | .delegation response => .delegation
      ⟨.string response.delegatedToken, texts response.scopes, date dates response.expiresAt, .null⟩
  | .grant response => .delegation ⟨.string response.delegationToken, texts response.scopes,
      date dates response.expiresAt, uuidText response.grantId⟩
  | .approval approval =>
      match call with
      | .denyRequest _ _ => .approval { ApprovalResult.of approval with approvalToken := .null }
      | _ => .approval (.of approval)
  | .approvals items => .approvals (items.map fun approval =>
      { ApprovalResult.of approval with approverId := .null, approvalToken := .null })
  | .sessions items => .json (.array (items.map (·.document dates)))
  | reply => .json (call.document dates reply)

end

end Sdk

end Patroclus
