import Patroclus.Api.Extract
import Patroclus.Api.Login
import Patroclus.Token.Jwks

/-!
# The installation behind HTTP

An `Installation` is the whole server: the site with its logins and the deployment with its
vault, which share one world. Its inputs are requests of any client, with any path, headers
and body, and restarts. A request that the middleware lets through, the router finds a
handler for and the extractors accept becomes an operation; all others are refused.
-/

namespace Patroclus

open Foundation

/-- The status of a request whose arguments are not extracted. -/
def Rejection.status : Rejection → Nat
  | path | query => 400
  | body .mediaType => 415
  | body .tooLarge => 413
  | body .malformed => 400
  | data => 422

/-- A request that leads to no operation. -/
inductive Refusal where
  | unauthorized (response : Unauthorized)
  | notFound
  | methodNotAllowed
  | rejected (rejection : Rejection)
  | failed (failure : Failure)
deriving DecidableEq, Repr

/-- What a server is started with. -/
structure Setup where
  platform : Platform
  auth : AuthConfig
  idp : IdpConfig
  aead : Aead
  dates : Dates
  isAlphanumeric : Char → Bool
  signingKey : SigningKey

structure Installation where
  deployment : Deployment
  pkceStore : PkceStore
  logins : List LoginRecord

/-- What a request meets on its way: the middleware has readings of its own. -/
structure HttpReadings where
  gate : Tape
  vault : VaultReadings
  net : IdpNetwork

inductive HttpEvent where
  | request (req : HttpRequest) (readings : HttpReadings)
  | restart (fileError : Option String)

structure HttpInput where
  event : HttpEvent
  arrival : Instant
  tape : Tape

namespace Installation

variable (setup : Setup)

def world (i : Installation) : World := i.deployment.world

def site (i : Installation) : Site := ⟨i.world, i.pkceStore, i.logins⟩

def withSite (i : Installation) (site : Site) : Installation :=
  ⟨{ i.deployment with world := site.world }, site.pkceStore, site.logins⟩

/-- Nothing has changed but the time. -/
def idle (i : Installation) (arrival : Instant) : Installation :=
  { i with deployment := { i.deployment with world := { i.world with clock := arrival } } }

/-- The operation that a request is let through to. -/
def letThrough (i : Installation) (req : HttpRequest) (gate : Tape) : Except Refusal Operation :=
  match (createRouter setup.platform setup.auth req.toRequest (i.world.serving gate)).1 with
  | .error failure => .error (.failed failure)
  | .ok (.error response) => .error (.unauthorized response)
  | .ok (.ok .notFound) => .error .notFound
  | .ok (.ok .methodNotAllowed) => .error .methodNotAllowed
  | .ok (.ok (.handled endpoint agent)) =>
      (extract setup.platform setup.dates endpoint agent req).mapError .rejected

def stepSite (i : Installation) (event : SiteEvent) (input : HttpInput) : Installation :=
  i.withSite (i.site.step setup.platform setup.idp setup.isAlphanumeric
    ⟨event, input.arrival, input.tape⟩)

/-- A running server carries an operation out. What is not listed only reads. -/
def perform (i : Installation) (operation : Operation) (readings : HttpReadings)
    (input : HttpInput) : Installation :=
  match operation with
  | .call call => i.stepSite setup (.server (.call call)) input
  | .vault call =>
      let i := i.idle input.arrival
      { i with
        deployment := i.deployment.step setup.platform setup.aead (.vault call readings.vault) }
  | .authorize providerName => i.stepSite setup (.authorize providerName) input
  | .callback state code => i.stepSite setup (.callback state code readings.net) input
  | _ => i.idle input.arrival

def step (i : Installation) (input : HttpInput) : Installation :=
  match input.event with
  | .restart fileError =>
      let i' := i.stepSite setup (.server .restart) input
      let vault :=
        if i'.world.up then i.deployment.loadVault setup.platform fileError else none
      { i' with deployment := { i'.deployment with vault } }
  | .request req readings =>
      if i.world.up then
        match i.letThrough setup req readings.gate with
        | .ok operation => i.perform setup operation readings input
        | .error _ => i.idle input.arrival
      else i.idle input.arrival

/-- The installation after a run. -/
def run (i : Installation) (inputs : List HttpInput) : Installation :=
  inputs.foldl (step setup) i

end Installation

/-- The vault endpoints leave the world alone. -/
theorem Deployment.handle_world (p : Platform) (aead : Aead) (d : Deployment) (call : VaultCall)
    (r : VaultReadings) : (d.handle p aead call r).2.world = d.world := by
  cases hup : d.world.up with
  | false => simp only [handle, hup, Bool.false_eq_true, if_false]
  | true =>
      cases call with
      | list | vend req => simp only [handle, hup, if_true]
      | generateKey =>
          simp only [handle, hup, if_true, generateVaultKey]
          split <;> rfl
      | store req =>
          simp only [handle, hup, if_true]
          cases hstore : d.storeCredential p aead req r with
          | error e => rfl
          | ok answer =>
              obtain ⟨vault, encrypted, nonce, -, -, hafter⟩ := storeCredential_eq_ok hstore
              dsimp only
              rw [hafter]

/-- An installation that has never been started; a key file may be there. -/
def initialInstallation (encryptionKeyPath : String) (keyFile : Option String) : Installation :=
  ⟨initialDeployment encryptionKeyPath keyFile, .new, []⟩

end Patroclus
