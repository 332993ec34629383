import Patroclus.Foundation.Outcome
import Patroclus.Crate.Json

/-!
# The client of the Python SDK

An access request over HTTP and what the client makes of the answer. A Python value that
comes out of a response is a JSON value, with `null` for `None`; a call that raises is an
error.
-/

namespace Patroclus

open Foundation

namespace Sdk

inductive PyException where
  | permissionError (message : String)
  | attributeError (typeName name : String)
  /-- Anything else, such as a failed connection or a body that is no JSON. -/
  | other (message : String)
deriving DecidableEq, Repr

/-- `bool(value)` -/
def truthy : Json → Bool
  | .null => false
  | .bool b => b
  | .number (.posInt n) => n != 0
  | .number (.negInt n) => n != 0
  | .number (.float x) => x != 0
  | .string s => s != ""
  | .array items => !items.isEmpty
  | .object fields => !fields.isEmpty

/-- `type(value).__name__` -/
def typeName : Json → String
  | .null => "NoneType"
  | .bool _ => "bool"
  | .number (.posInt _) | .number (.negInt _) => "int"
  | .number (.float _) => "float"
  | .string _ => "str"
  | .array _ => "list"
  | .object _ => "dict"

/-- `value.get(key, default)`, which only a dictionary has. -/
def get (value : Json) (key : String) (default : Json) : Except PyException Json :=
  match value with
  | .object fields => .ok ((fields.lookup key).getD default)
  | other => .error (.attributeError (typeName other) "get")

/-- `value.get(key, default) if value else default` -/
def getIf (value : Json) (key : String) (default : Json) : Except PyException Json :=
  if truthy value then get value key default else .ok default

structure AccessResult where
  decision : Json
  reason : Json
  token : Json
  tokenJti : Json
  tokenScopes : Json
  tokenExpiresAt : Json
  approvalRequestId : Json
  approvedScopes : Json
deriving DecidableEq, Repr

namespace AccessResult

def allowed (result : AccessResult) : Bool := result.decision == .string "allow"

def denied (result : AccessResult) : Bool := result.decision == .string "deny"

def requiresApproval (result : AccessResult) : Bool :=
  result.decision == .string "require_approval"

def fromResponse (data : Json) : Except PyException AccessResult := do
  let token ← get data "token" .null
  let approval ← get data "approval" .null
  return {
    decision := ← get data "decision" (.string "deny")
    reason := ← get data "reason" (.string "")
    token := ← getIf token "jwt" .null
    tokenJti := ← getIf token "jti" .null
    tokenScopes := ← getIf token "scopes" (.array [])
    tokenExpiresAt := ← getIf token "expires_at" .null
    approvalRequestId := ← getIf approval "request_id" .null
    approvedScopes := ← get data "approved_scopes" (.array []) }

/-- The result that stands for an answer with another status than 200. -/
def refused (reason : String) : AccessResult where
  decision := .string "deny"
  reason := .string reason
  token := .null
  tokenJti := .null
  tokenScopes := .array []
  tokenExpiresAt := .null
  approvalRequestId := .null
  approvedScopes := .array []

end AccessResult

structure Response where
  statusCode : Nat
  text : String
  /-- `resp.json()` -/
  json : Except PyException Json

/-- The HTTP client, as what comes back for a body posted to a path. -/
structure PatroclusClient where
  post : String → Json → Except PyException Response

structure AccessRequest where
  agentId : String
  action : String
  resource : String
  scopes : Option (List String)
  sessionId : Option String
  delegationToken : Option String
deriving DecidableEq, Repr

/-- An optional text that is neither missing nor empty. -/
def given (text : Option String) : Option String := text.filter (· != "")

def AccessRequest.buildAccessPayload (request : AccessRequest) : Json :=
  let payload := [
    ("action", .string request.action),
    ("agent_id", .string request.agentId),
    ("requested_scopes", .array ((request.scopes.getD []).map .string)),
    ("resource", .string request.resource)]
  let payload := match given request.sessionId with
    | some sessionId =>
        Json.insertField "context" (.object [("session_id", .string sessionId)]) payload
    | none => payload
  .object <| match given request.delegationToken with
    | some token => Json.insertField "delegation_token" (.string token) payload
    | none => payload

namespace PatroclusClient

/-- What the server answers to an access request. -/
def answer (client : PatroclusClient) (request : AccessRequest) : Except PyException Response :=
  client.post "/v1/agent/request-access" request.buildAccessPayload

def requestAccess (client : PatroclusClient) (request : AccessRequest) :
    Except PyException AccessResult := do
  let resp ← client.answer request
  if resp.statusCode = 200 then AccessResult.fromResponse (← resp.json)
  else return .refused ("HTTP " ++ toString resp.statusCode ++ ": " ++ resp.text)

end PatroclusClient

/-! ## Answers that are read -/

/-- The answer has status 200 and this object for a body. -/
def Answered (answer : Except PyException Response) (fields : List (String × Json)) : Prop :=
  ∃ resp, answer = .ok resp ∧ resp.statusCode = 200 ∧ resp.json = .ok (.object fields)

/-- The value of a field that the client reads on, unless it counts as false. -/
def Readable (value : Json) : Prop := truthy value = true → ∃ fields, value = .object fields

/-- The decision of an answer, as the client reads it. -/
def decisionOf (fields : List (String × Json)) : Json :=
  (fields.lookup "decision").getD (.string "deny")

/-- The parts of an answer that hold further fields. -/
structure ReadableParts (fields : List (String × Json)) : Prop where
  token : Readable ((fields.lookup "token").getD .null)
  approval : Readable ((fields.lookup "approval").getD .null)

section

variable {value data found : Json} {key : String} {default : Json}
  {fields fields' : List (String × Json)} {result : AccessResult}
  {answer : Except PyException Response} {client : PatroclusClient} {request : AccessRequest}

theorem Answered.unique (h : Answered answer fields) (h' : Answered answer fields') :
    fields = fields' := by
  obtain ⟨resp, hanswer, -, hbody⟩ := h
  obtain ⟨resp', hanswer', -, hbody'⟩ := h'
  rw [hanswer] at hanswer'
  cases hanswer'
  rw [hbody] at hbody'
  cases hbody'
  rfl

theorem get_eq_ok : get value key default = .ok found ↔
    ∃ fields, value = .object fields ∧ found = (fields.lookup key).getD default := by
  cases value with
  | object fields =>
      constructor
      · intro h
        exact ⟨fields, rfl, (Except.ok.inj h).symm⟩
      · rintro ⟨fields', heq, rfl⟩
        rw [Json.object.inj heq]
        rfl
  | _ => simp [get]

/-- A value is read on exactly if it counts as false or is a dictionary. -/
theorem getIf_isOk : (∃ found, getIf value key default = .ok found) ↔ Readable value := by
  rw [getIf, Readable]
  split
  · rename_i htrue
    constructor
    · rintro ⟨found, h⟩ -
      obtain ⟨fields, hfields, -⟩ := get_eq_ok.mp h
      exact ⟨fields, hfields⟩
    · intro h
      obtain ⟨fields, hfields⟩ := h htrue
      exact ⟨_, get_eq_ok.mpr ⟨fields, hfields, rfl⟩⟩
  · rename_i hfalse
    exact iff_of_true ⟨default, rfl⟩ fun htrue => absurd htrue hfalse

theorem Readable.getIf (h : Readable value) (key : String) (default : Json) :
    ∃ found, Sdk.getIf value key default = .ok found := getIf_isOk.mpr h

theorem fromResponse_eq_ok (h : AccessResult.fromResponse data = .ok result) :
    ∃ fields, data = .object fields ∧ ReadableParts fields ∧
      result.decision = decisionOf fields := by
  obtain ⟨token, htoken, h⟩ := Outcome.bind_eq_ok.mp h
  obtain ⟨approval, happroval, h⟩ := Outcome.bind_eq_ok.mp h
  obtain ⟨decision, hdecision, h⟩ := Outcome.bind_eq_ok.mp h
  obtain ⟨reason, -, h⟩ := Outcome.bind_eq_ok.mp h
  obtain ⟨jwt, hjwt, h⟩ := Outcome.bind_eq_ok.mp h
  obtain ⟨jti, -, h⟩ := Outcome.bind_eq_ok.mp h
  obtain ⟨scopes, -, h⟩ := Outcome.bind_eq_ok.mp h
  obtain ⟨expiresAt, -, h⟩ := Outcome.bind_eq_ok.mp h
  obtain ⟨requestId, hrequestId, h⟩ := Outcome.bind_eq_ok.mp h
  obtain ⟨approvedScopes, -, h⟩ := Outcome.bind_eq_ok.mp h
  cases h
  obtain ⟨fields, rfl, rfl⟩ := get_eq_ok.mp htoken
  cases happroval
  cases hdecision
  exact ⟨fields, rfl, ⟨getIf_isOk.mp ⟨jwt, hjwt⟩, getIf_isOk.mp ⟨requestId, hrequestId⟩⟩, rfl⟩

theorem fromResponse_of_readable (h : ReadableParts fields) :
    ∃ result, AccessResult.fromResponse (.object fields) = .ok result ∧
      result.decision = decisionOf fields := by
  obtain ⟨jwt, hjwt⟩ := h.token.getIf "jwt" .null
  obtain ⟨jti, hjti⟩ := h.token.getIf "jti" .null
  obtain ⟨scopes, hscopes⟩ := h.token.getIf "scopes" (.array [])
  obtain ⟨expiresAt, hexpiresAt⟩ := h.token.getIf "expires_at" .null
  obtain ⟨requestId, hrequestId⟩ := h.approval.getIf "request_id" .null
  refine ⟨⟨decisionOf fields, (fields.lookup "reason").getD (.string ""), jwt, jti, scopes,
    expiresAt, requestId, (fields.lookup "approved_scopes").getD (.array [])⟩, ?_, rfl⟩
  simp only [AccessResult.fromResponse, get, bind, Except.bind, hjwt, hjti, hscopes, hexpiresAt,
    hrequestId]
  rfl

/-- What an access request comes to, unless it raises: a refusal for another status than 200,
and else the answer's own decision. -/
theorem requestAccess_eq_ok (h : client.requestAccess request = .ok result) :
    result.denied = true ∨ ∃ fields, Answered (client.answer request) fields ∧
      ReadableParts fields ∧ result.decision = decisionOf fields := by
  obtain ⟨resp, hresp, h⟩ := Outcome.bind_eq_ok.mp h
  split at h
  · rename_i hstatus
    obtain ⟨data, hdata, h⟩ := Outcome.bind_eq_ok.mp h
    obtain ⟨fields, rfl, hparts, hdecision⟩ := fromResponse_eq_ok h
    exact .inr ⟨fields, ⟨resp, hresp, hstatus, hdata⟩, hparts, hdecision⟩
  · cases h
    exact .inl rfl

theorem requestAccess_of_answered (answered : Answered (client.answer request) fields)
    (parts : ReadableParts fields) : ∃ result, client.requestAccess request = .ok result ∧
      result.decision = decisionOf fields := by
  obtain ⟨resp, hresp, hstatus, hdata⟩ := answered
  obtain ⟨result, hresult, hdecision⟩ := fromResponse_of_readable parts
  refine ⟨result, Outcome.bind_eq_ok.mpr ⟨resp, hresp, ?_⟩, hdecision⟩
  rw [if_pos hstatus]
  exact Outcome.bind_eq_ok.mpr ⟨_, hdata, hresult⟩

end

end Sdk

end Patroclus
