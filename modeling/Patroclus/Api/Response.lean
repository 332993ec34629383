import Patroclus.Api.Documents
import Patroclus.Api.Installation

/-!
# The responses of the installation

What a client is sent for a request: the document of an operation's answer, or a status for
why there is none. A handler that panics and a server that is down send nothing.
-/

namespace Patroclus

open Foundation Serde

/-- A body that is no JSON document, such as a page or a text, is left out. -/
structure HttpResponse where
  status : Nat
  document : Option Json
deriving DecidableEq, Repr

def HttpResponse.ok (document : Json) : HttpResponse := ⟨200, some document⟩

/-- The response of an error. -/
def PatroclusError.response (e : PatroclusError) : HttpResponse :=
  ⟨e.status, some (errorDocument e.toString)⟩

def Failure.response : Failure → Option HttpResponse
  | error e => some e.response
  | panic | unreachable => none

def Refusal.response : Refusal → Option HttpResponse
  | unauthorized response => some ⟨401, some (errorDocument response.message)⟩
  | notFound => some ⟨404, none⟩
  | methodNotAllowed => some ⟨405, none⟩
  | rejected rejection => some ⟨rejection.status, none⟩
  | failed failure => failure.response

/-- `idp_userinfo` -/
def idpUserinfo (idp : IdpConfig) (net : IdpNetwork) (provider accessToken : String) :
    Except PatroclusError IdpUserInfo :=
  match idp.providers.find? (·.name == provider) with
  | none => .error (.config ("IdP provider '" ++ provider ++ "' not found"))
  | some provider => IdpFederation.fetchUserinfo net provider accessToken

namespace Database

def healthCheck : Handler Unit := query fun _ => ()

end Database

/-- `health_ready` -/
def healthReady (s : Serving) : HttpResponse :=
  match (Database.healthCheck s).1 with
  | .ok () => .ok (.object [("database", .string "ok"), ("status", .string "ready")])
  | .error (.error e) =>
      ⟨503, some (.object [("database", .string e.toString), ("status", .string "not-ready")])⟩
  | .error _ => ⟨503, none⟩

namespace Installation

variable (setup : Setup)

def siteReply (i : Installation) (event : SiteEvent) (input : HttpInput) :
    Except Failure SiteReply :=
  i.site.answer setup.platform setup.idp setup.isAlphanumeric ⟨event, input.arrival, input.tape⟩

/-- What a running server answers to an operation. -/
def answer (i : Installation) (operation : Operation) (readings : HttpReadings)
    (input : HttpInput) : Except Failure HttpResponse :=
  match operation with
  | .call call => do
      let reply ← i.world.reply setup.platform call input.tape
      return .ok (call.document setup.dates reply)
  | .vault call => do
      let reply ← (i.deployment.handle setup.platform setup.aead call readings.vault).1
      return .ok (reply.document setup.dates)
  | .authorize providerName => do
      match ← i.siteReply setup (.authorize providerName) input with
      | .authorization response => return .ok response.document
      | _ => .error .unreachable
  | .callback state code => do
      match ← i.siteReply setup (.callback state code readings.net) input with
      | .login response => return .ok response.document
      | _ => .error .unreachable
  | .userinfo provider accessToken => do
      let userInfo ← (idpUserinfo setup.idp readings.net provider accessToken).mapError .error
      return .ok userInfo.document
  | .listProviders => return .ok setup.idp.document
  | .health =>
      return .ok (.object [("service", .string "patroclus"), ("status", .string "ok")])
  | .healthReady => return healthReady (i.world.serving input.tape)
  | .jwks => return .ok setup.signingKey.publicJwks
  | .dashboard | .prometheusMetrics => return ⟨200, none⟩

/-- The response to a request; without one the connection is closed. -/
def response (i : Installation) (req : HttpRequest) (readings : HttpReadings) (input : HttpInput) :
    Option HttpResponse :=
  if i.world.up then
    match i.letThrough setup req readings.gate with
    | .ok operation =>
        match i.answer setup operation readings input with
        | .ok response => some response
        | .error failure => failure.response
    | .error refusal => refusal.response
  else none

/-- What the client is sent; to a `HEAD` request the body is not sent. -/
def respond (i : Installation) (req : HttpRequest) (readings : HttpReadings) (input : HttpInput) :
    Option HttpResponse :=
  (i.response setup req readings input).map fun response =>
    if req.method = .head then { response with document := none } else response

end Installation

end Patroclus
