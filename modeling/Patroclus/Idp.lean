import Patroclus.Crate.Chrono
import Patroclus.Crate.Json
import Patroclus.Crate.Text
import Patroclus.Errors
import Mathlib.Logic.Function.Basic

/-!
# Identity providers

The store of pending authorizations, and what a login takes from an identity provider:
the token exchange, the claims of the userinfo response with their defaults, and the
policy fragments that the configuration maps groups to. The answers over the network are
parameters.
-/

namespace Patroclus

/-- Lifetime of a pending authorization. -/
def pkceStateTtlSeconds : Int := 600

structure PkceTransaction where
  providerName : String
  codeVerifier : String
  createdAt : Instant
deriving DecidableEq, Repr

/-- The age of the transaction is below its lifetime. -/
def PkceTransaction.isLive (txn : PkceTransaction) (now : Instant) : Bool :=
  decide (now - txn.createdAt < pkceStateTtlSeconds * 1000000000)

/-- The pending transactions under their single-use `state`. -/
abbrev PkceStore : Type := String → Option PkceTransaction

namespace PkceStore

def new : PkceStore := fun _ => none

/-- Record a pending transaction, after the expired ones have been dropped. -/
def insert (state providerName codeVerifier : String) (now : Instant) (store : PkceStore) :
    PkceStore :=
  let retained : PkceStore := fun key => (store key).filter (·.isLive now)
  Function.update retained state (some ⟨providerName, codeVerifier, now⟩)

/-- Remove the transaction of a state; one that has expired is not returned. -/
def consume (state : String) (now : Instant) (store : PkceStore) :
    Option PkceTransaction × PkceStore :=
  ((store state).filter (·.isLive now), Function.update store state none)

end PkceStore

structure IdpUserInfo where
  subject : String
  email : String
  name : Option String
  groups : List String
  issuer : String
  rawClaims : Json

structure GroupPolicyMapping where
  group : String
  policyYaml : String
  scopes : List String

structure IdpProvider where
  name : String
  issuer : String
  clientId : String
  clientSecret : String
  scopes : List String
  groupClaim : String
  groupPolicyMappings : List GroupPolicyMapping

structure IdpConfig where
  enabled : Bool
  providers : List IdpProvider

namespace Urlencoding

/-- A digit of `{:X}`. -/
def upperHexDigit (n : Nat) : Char := if n < 10 then Char.ofNat (48 + n) else Char.ofNat (55 + n)

/-- `format!("%{:02X}", byte)` -/
def percentTriplet (byte : UInt8) : List Char :=
  ['%', upperHexDigit (byte.toNat / 16), upperHexDigit (byte.toNat % 16)]

/-- Whether a character is kept; `isAlphanumeric` is `char::is_alphanumeric`. -/
def keeps (isAlphanumeric : Char → Bool) (c : Char) : Bool :=
  isAlphanumeric c || c == '-' || c == '_' || c == '.' || c == '~'

/-- Of a character that is not kept `c as u8` leaves the lowest byte. -/
def encode (isAlphanumeric : Char → Bool) (s : String) : String :=
  String.ofList <| s.toList.flatMap fun c =>
    if keeps isAlphanumeric c then [c] else percentTriplet (UInt8.ofNat c.toNat)

end Urlencoding

/-- The answers of the providers: the body of a successful response, or the error that
the program makes of a failure. -/
structure IdpNetwork where
  /-- `POST` of a form to a URL. -/
  post : String → List (String × String) → Except PatroclusError Json
  /-- `GET` of a URL with an `Authorization` header. -/
  get : String → String → Except PatroclusError Json

namespace IdpFederation

/-- The scopes that are asked for. -/
def requestedScopes (provider : IdpProvider) : String :=
  if provider.scopes.isEmpty then "openid email profile" else joinScopes provider.scopes

def authorizationUrl (isAlphanumeric : Char → Bool) (provider : IdpProvider)
    (redirectUri state codeChallenge : String) : String :=
  let encode := Urlencoding.encode isAlphanumeric
  provider.issuer ++ "/authorize?response_type=code&client_id=" ++ encode provider.clientId ++
    "&redirect_uri=" ++ encode redirectUri ++ "&scope=" ++ encode (requestedScopes provider) ++
    "&state=" ++ encode state ++ "&code_challenge=" ++ encode codeChallenge ++
    "&code_challenge_method=S256"

def exchangeOidcToken (net : IdpNetwork) (provider : IdpProvider)
    (authorizationCode redirectUri codeVerifier : String) : Except PatroclusError String := do
  let data ← net.post (provider.issuer ++ "/token") [
    ("grant_type", "authorization_code"),
    ("code", authorizationCode),
    ("redirect_uri", redirectUri),
    ("client_id", provider.clientId),
    ("client_secret", provider.clientSecret),
    ("code_verifier", codeVerifier)]
  match (data.field "access_token").bind Json.asStr with
  | some token => .ok token
  | none => .error (.config "No access_token in IdP response")

/-- The claims of a user; a missing subject or email reads as empty. -/
def userInfoOf (provider : IdpProvider) (claims : Json) : IdpUserInfo where
  subject := ((claims.field "sub").bind Json.asStr).getD ""
  email := ((claims.field "email").bind Json.asStr).getD ""
  name := (claims.field "name").bind Json.asStr
  groups := (((claims.field provider.groupClaim).bind Json.asArray).map fun groups =>
    groups.filterMap Json.asStr).getD []
  issuer := provider.issuer
  rawClaims := claims

def fetchUserinfo (net : IdpNetwork) (provider : IdpProvider) (accessToken : String) :
    Except PatroclusError IdpUserInfo := do
  let claims ← net.get (provider.issuer ++ "/userinfo") ("Bearer " ++ accessToken)
  return userInfoOf provider claims

/-- The fragments and the scopes of the mappings whose group the user is in. -/
def buildPolicyFromGroups (userInfo : IdpUserInfo) (mappings : List GroupPolicyMapping) :
    Option (String × List String) :=
  let matching := mappings.filter fun mapping => userInfo.groups.contains mapping.group
  if matching.isEmpty then none
  else
    let combinedScopes := (matching.flatMap (·.scopes)).mergeSort
    some ("\n".intercalate (matching.map (·.policyYaml)), combinedScopes.eraseReps)

/-- Without a mapped group there is no policy, and with one there is. -/
theorem buildPolicyFromGroups_eq_none {userInfo : IdpUserInfo}
    {mappings : List GroupPolicyMapping} : buildPolicyFromGroups userInfo mappings = none ↔
      ∀ mapping ∈ mappings, mapping.group ∉ userInfo.groups := by
  rw [buildPolicyFromGroups]
  simp

end IdpFederation

end Patroclus
