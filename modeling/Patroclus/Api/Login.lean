import Patroclus.Api.Federation
import Patroclus.Pkce

/-!
# The site and its logins

A `Site` is the server together with its store of pending authorizations. Beside the
calls and restarts of the server, its inputs are the two ends of a login: a user who asks
for an authorization, and a callback with any state and any code, whoever sends it. A
restart loses the pending authorizations.

The record of logins is not part of the program. It lists what has been authorized and
what has been presented, in order, so that statements can speak about where a login
comes from.
-/

namespace Patroclus

open Foundation

structure IdpAuthorizeResponse where
  authorizationUrl : String
  state : String
  provider : String
deriving DecidableEq, Repr

/-- A pending authorization under its state, as the site has recorded it. -/
structure Authorization where
  state : String
  txn : PkceTransaction
deriving DecidableEq, Repr

inductive LoginRecord where
  | authorized (authorization : Authorization)
  | presented (state code : String)
  | restarted
deriving DecidableEq, Repr

structure Site where
  world : World
  pkceStore : PkceStore
  logins : List LoginRecord

inductive SiteEvent where
  | server (event : Event)
  | authorize (providerName : String)
  | callback (state code : String) (net : IdpNetwork)

structure SiteInput where
  event : SiteEvent
  arrival : Instant
  tape : Tape

inductive SiteReply where
  | server (reply : Reply)
  | authorization (response : IdpAuthorizeResponse)
  | login (response : IdpCallbackResponse)

section

variable (p : Platform) (idp : IdpConfig) (isAlphanumeric : Char → Bool)

/-- `{issuer}/v1/idp/callback` -/
def callbackUri : String := p.config.tokenIssuer ++ "/v1/idp/callback"

/-- The transaction that an authorization records under its state. -/
def newAuthorization (provider : IdpProvider) (tape : Tape) : Authorization where
  state := generateState (tape.random 0)
  txn := ⟨provider.name, generateCodeVerifier (tape.random 1), tape.now 2⟩

/-- What the client of an authorization is told; the verifier is not part of it. -/
def Authorization.response (a : Authorization) (provider : IdpProvider) (providerName : String) :
    IdpAuthorizeResponse where
  authorizationUrl := IdpFederation.authorizationUrl isAlphanumeric provider (callbackUri p) a.state
    (pkceS256Challenge p a.txn.codeVerifier)
  state := a.state
  provider := providerName

/-- `idp_authorize` -/
def idpAuthorize (providerName : String) (tape : Tape) (store : PkceStore) :
    Except PatroclusError (Authorization × IdpAuthorizeResponse) × PkceStore :=
  match idp.providers.find? (·.name == providerName) with
  | none => (.error (.config ("IdP provider '" ++ providerName ++ "' not configured")), store)
  | some provider =>
      let a := newAuthorization provider tape
      (.ok (a, a.response p isAlphanumeric provider providerName),
        store.insert a.state a.txn.providerName a.txn.codeVerifier a.txn.createdAt)

/-- Whether `idp_callback` goes on to look at the state. -/
def IdpConfig.serves (idp : IdpConfig) : Bool := idp.enabled && !idp.providers.isEmpty

namespace Site

/-- The transaction that a callback finds under its state. -/
def presentedTxn (site : Site) (state : String) (tape : Tape) : Option PkceTransaction :=
  (site.pkceStore.consume state (tape.now 0)).1

/-- `idp_callback`. The reading under the lock of the store is the first of the tape. -/
def callback (site : Site) (state code : String) (net : IdpNetwork) (tape : Tape) :
    Except Failure IdpCallbackResponse × Serving :=
  idpCallback p idp net (site.presentedTxn state tape) code (site.world.serving tape).next

def answer (site : Site) (input : SiteInput) : Except Failure SiteReply :=
  match input.event with
  | .server event => (site.world.answer p ⟨event, input.arrival, input.tape⟩).map .server
  | .authorize providerName =>
      if site.world.up then
        match (idpAuthorize p idp isAlphanumeric providerName input.tape site.pkceStore).1 with
        | .ok (_, response) => .ok (.authorization response)
        | .error e => .error (.error e)
      else .error .unreachable
  | .callback state code net =>
      if site.world.up then (site.callback p idp state code net input.tape).1.map .login
      else .error .unreachable

/-- The world after a callback. -/
def afterCallback (site : Site) (state code : String) (net : IdpNetwork) (input : SiteInput) :
    World :=
  let finish := (site.callback p idp state code net input.tape).2
  ⟨finish.app, finish.ledger, true, input.arrival⟩

def step (site : Site) (input : SiteInput) : Site :=
  match input.event with
  | .server .restart => {
      world := site.world.step p ⟨.restart, input.arrival, input.tape⟩
      pkceStore := .new
      logins := site.logins ++ [.restarted] }
  | .server (.call call) =>
      { site with world := site.world.step p ⟨.call call, input.arrival, input.tape⟩ }
  | .authorize providerName =>
      if site.world.up then
        match idpAuthorize p idp isAlphanumeric providerName input.tape site.pkceStore with
        | (.ok (a, _), store) => {
            world := { site.world with clock := input.arrival }
            pkceStore := store
            logins := site.logins ++ [.authorized a] }
        | (.error _, store) =>
            { site with world := { site.world with clock := input.arrival }, pkceStore := store }
      else { site with world := { site.world with clock := input.arrival } }
  | .callback state code net =>
      if site.world.up then
        if idp.serves then {
          world := site.afterCallback p idp state code net input
          pkceStore := (site.pkceStore.consume state (input.tape.now 0)).2
          logins := site.logins ++ [.presented state code] }
        else { site with world := site.afterCallback p idp state code net input }
      else { site with world := { site.world with clock := input.arrival } }

def run (site : Site) (inputs : List SiteInput) : Site :=
  inputs.foldl (step p idp isAlphanumeric) site

end Site

/-- A site that has never been started. -/
def initialSite : Site := ⟨initialWorld, .new, []⟩

end

/-! ## What a login leaves alone -/

/-- A view that sees neither principals nor policies. -/
structure IgnoresLogins {γ : Type*} (view : Serving → γ) : Prop where
  tick : TickFree view
  principals : ∀ s rows, view (s.withDb { s.app.db with principals := rows }) = view s
  policies : ∀ s rows, view (s.withDb { s.app.db with policies := rows }) = view s
  engine : ∀ s engine, view (s.withApp fun app => { app with policyEngine := engine }) = view s

section

variable {p : Platform} {γ : Type*} {view : Serving → γ} (h : IgnoresLogins view)

include h

theorem IgnoresLogins.keeps_createPolicy (name engine definition : String) :
    (createPolicy p name engine definition).Keeps view :=
  Patroclus.keeps_createPolicy h.tick h.policies h.engine

theorem IgnoresLogins.keeps_idpCallback (idp : IdpConfig) (net : IdpNetwork)
    (txn : Option PkceTransaction) (code : String) :
    (idpCallback p idp net txn code).Keeps view := by
  refine (Action.Keeps.lift _).bind fun login => ?_
  refine Action.Keeps.bind ?_ fun principalId => Action.Keeps.bind ?_ fun _ => .pure _
  · refine (Database.keeps_getPrincipalByEmail h.tick _).bind fun found => ?_
    cases found with
    | some principal => exact .pure _
    | none => exact (Database.keeps_createPrincipal h.tick h.principals).bind fun _ => .pure _
  · rw [publishLogin]
    cases login.policyText with
    | some text => exact h.keeps_createPolicy _ _ _
    | none => exact .pure _

end

end Patroclus
