import Patroclus.Crate.Json
import Patroclus.Foundation.Hex
import Patroclus.Platform
import Patroclus.Errors

/-!
# The credential vault

`Vault` seals refresh tokens under the key of a file and opens them again. The cipher is
a parameter with one law: what was encrypted under a key and a nonce decrypts under them.
A provider exchanges a refresh token over the network for an access token; the network's
answer is a parameter, too.
-/

namespace Patroclus

open Foundation

/-- AES-256-GCM over a key, a nonce and bytes, and the text of a failed UTF-8 decoding. -/
structure Aead where
  encrypt (key nonce plaintext : List UInt8) : Except String (List UInt8)
  decrypt (key nonce ciphertext : List UInt8) : Except String (List UInt8)
  fromUtf8Error : List UInt8 → String
  decrypt_encrypt {key nonce plaintext ciphertext : List UInt8} :
    encrypt key nonce plaintext = .ok ciphertext → decrypt key nonce ciphertext = .ok plaintext

/-- A cipher for concrete runs, which writes the key and the nonce before the text. -/
def Aead.tagged : Aead where
  encrypt key nonce plaintext := .ok (key ++ nonce ++ plaintext)
  decrypt key nonce ciphertext :=
    if key ++ nonce <+: ciphertext then .ok (ciphertext.drop (key ++ nonce).length)
    else .error "aead::Error"
  fromUtf8Error _ := "invalid utf-8 sequence"
  decrypt_encrypt := by
    intro key nonce plaintext ciphertext h
    cases h
    rw [if_pos (List.prefix_append _ plaintext), List.drop_left]

structure Vault where
  encryptionKey : List UInt8
  keyId : String
deriving DecidableEq, Repr

namespace Vault

variable (p : Platform) (aead : Aead)

def new (keyMaterial : List UInt8) : Vault :=
  let key := p.sha256 keyMaterial
  ⟨key, String.ofList (hexBytes (key.take 8))⟩

/-- The key material is the text of the key file. -/
def fromFile (contents : Except String String) : Except PatroclusError Vault :=
  match contents with
  | .ok text => .ok (new p (utf8 text))
  | .error message => .error (.vault ("failed to read vault key: " ++ message))

/-- The text that `generate_key` writes for the drawn bytes. -/
def encodedKey (drawn : Vector UInt8 32) : String := String.ofList (hexBytes drawn.toList)

/-- The ciphertext, and the drawn nonce that it was made with. -/
def encrypt (vault : Vault) (nonce : Vector UInt8 12) (plaintext : String) :
    Except PatroclusError (List UInt8 × List UInt8) :=
  match aead.encrypt vault.encryptionKey nonce.toList (utf8 plaintext) with
  | .ok ciphertext => .ok (ciphertext, nonce.toList)
  | .error message => .error (.vault ("encryption failed: " ++ message))

/-- A nonce that has not 12 bytes is a panic. -/
def decrypt (vault : Vault) (ciphertext nonce : List UInt8) : Except Failure String :=
  if nonce.length = 12 then
    match aead.decrypt vault.encryptionKey nonce ciphertext with
    | .error message => .error (.error (.vault ("decryption failed: " ++ message)))
    | .ok plaintext =>
        match fromUtf8 plaintext with
        | some text => .ok text
        | none => .error (.error (.vault
            ("plaintext decode failed: " ++ aead.fromUtf8Error plaintext)))
  else .error .panic

/-- A vault opens what it has sealed. -/
theorem decrypt_encrypt {vault : Vault} {drawn : Vector UInt8 12} {plaintext : String}
    {ciphertext nonce : List UInt8}
    (h : vault.encrypt aead drawn plaintext = .ok (ciphertext, nonce)) :
    vault.decrypt aead ciphertext nonce = .ok plaintext := by
  rw [encrypt] at h
  split at h
  · rename_i sealed hencrypt
    obtain ⟨rfl, rfl⟩ := Prod.mk.inj (Except.ok.inj h)
    have hlength : drawn.toList.length = 12 := Vector.length_toList
    rw [decrypt, if_pos hlength, aead.decrypt_encrypt hencrypt]
    dsimp only
    rw [fromUtf8_utf8]
  · cases h

end Vault

/-! ## Providers -/

structure ProviderTokenResponse where
  accessToken : String
  tokenType : String
  scope : Option String
  expiresIn : Option Nat
  refreshToken : Option String
deriving DecidableEq, Repr

structure ProviderConfig where
  name : String
  tokenUrl : String
  clientId : String
  clientSecret : String
  defaultScopes : List String
deriving DecidableEq, Repr

/-- A `POST` of a form. -/
structure FormPost where
  url : String
  headers : List (String × String)
  form : List (String × String)

/-- What came of a request: no answer, a status that is no success with its body, a body
that is no JSON, or a JSON value. -/
inductive ProviderAnswer where
  | unreachable (message : String)
  | refused (status body : String)
  | unreadable (message : String)
  | json (data : Json)

/-- What the providers have in common is `exchangeRefresh`; this is what they differ in. -/
structure TokenExchangeProvider where
  config : ProviderConfig
  /-- The provider's name in the texts of errors. -/
  title : String
  headers : List (String × String)
  /-- Whether the requested scopes are sent. -/
  sendsScopes : Bool
  /-- The error that an answer reports. -/
  reported : Json → Option String
  tokenType : Json → String
  expiresIn : Json → Option Nat

namespace Json

/-- `data.get(key).and_then(|v| v.as_str())` -/
def stringField (key : String) (data : Json) : Option String := (data.field key).bind asStr

end Json

/-- An answer with a field `error` reports it. -/
def reportedError (data : Json) : Option String :=
  (data.field "error").map fun err => err.asStr.getD "unknown"

/-- An answer whose field `ok` is not true reports an error. -/
def reportedUnlessOk (data : Json) : Option String :=
  if ((data.field "ok").bind Json.asBool).getD false then none
  else some ((data.stringField "error").getD "unknown")

namespace TokenExchangeProvider

def form (provider : TokenExchangeProvider) (refreshToken : String)
    (requestedScopes : List String) : List (String × String) :=
  [("client_id", provider.config.clientId), ("client_secret", provider.config.clientSecret),
    ("refresh_token", refreshToken), ("grant_type", "refresh_token")] ++
  if provider.sendsScopes && !requestedScopes.isEmpty then
    [("scope", joinScopes requestedScopes)]
  else []

def exchangeRefresh (provider : TokenExchangeProvider) (network : FormPost → ProviderAnswer)
    (refreshToken : String) (requestedScopes : List String) :
    Except PatroclusError ProviderTokenResponse :=
  match network ⟨provider.config.tokenUrl, provider.headers,
      provider.form refreshToken requestedScopes⟩ with
  | .unreachable message =>
      .error (.vault (provider.title ++ " token exchange failed: " ++ message))
  | .refused status body =>
      .error (.vault (provider.title ++ " token exchange HTTP " ++ status ++ ": " ++ body))
  | .unreadable message =>
      .error (.vault (provider.title ++ " response parse error: " ++ message))
  | .json data =>
      match provider.reported data with
      | some message => .error (.vault (provider.title ++ " token exchange error: " ++ message))
      | none => .ok {
          accessToken := (data.stringField "access_token").getD ""
          tokenType := provider.tokenType data
          scope := data.stringField "scope"
          expiresIn := provider.expiresIn data
          refreshToken := data.stringField "refresh_token" }

end TokenExchangeProvider

def gitHubProvider (clientId clientSecret : String) : TokenExchangeProvider where
  config := ⟨"github", "https://github.com/login/oauth/access_token", clientId, clientSecret,
    ["repo", "read:user"]⟩
  title := "GitHub"
  headers := [("Accept", "application/json")]
  sendsScopes := true
  reported := reportedError
  tokenType data := (data.stringField "token_type").getD "bearer"
  expiresIn data := (data.field "expires_in").bind Json.asU64

def googleProvider (clientId clientSecret : String) : TokenExchangeProvider where
  config := ⟨"google", "https://oauth2.googleapis.com/token", clientId, clientSecret,
    ["https://www.googleapis.com/auth/userinfo.email"]⟩
  title := "Google"
  headers := []
  sendsScopes := true
  reported := reportedError
  tokenType data := (data.stringField "token_type").getD "Bearer"
  expiresIn data := (data.field "expires_in").bind Json.asU64

/-- Slack is not told the requested scopes. -/
def slackProvider (clientId clientSecret : String) : TokenExchangeProvider where
  config := ⟨"slack", "https://slack.com/api/oauth.token", clientId, clientSecret,
    ["chat:write", "channels:read"]⟩
  title := "Slack"
  headers := []
  sendsScopes := false
  reported := reportedUnlessOk
  tokenType _ := "bearer"
  expiresIn _ := none

def createProvider (providerName clientId clientSecret : String) :
    Option TokenExchangeProvider :=
  if providerName = "github" then some (gitHubProvider clientId clientSecret)
  else if providerName = "google" then some (googleProvider clientId clientSecret)
  else if providerName = "slack" then some (slackProvider clientId clientSecret)
  else none

/-- The names that `create_provider` knows. -/
def knownProviders : List String := ["github", "google", "slack"]

theorem createProvider_isSome_iff {providerName clientId clientSecret : String} :
    (createProvider providerName clientId clientSecret).isSome ↔ providerName ∈ knownProviders := by
  simp only [createProvider, knownProviders, List.mem_cons, List.not_mem_nil, or_false]
  split_ifs with hgithub hgoogle hslack
  · exact iff_of_true rfl (.inl hgithub)
  · exact iff_of_true rfl (.inr (.inl hgoogle))
  · exact iff_of_true rfl (.inr (.inr hslack))
  · exact iff_of_false Bool.false_ne_true fun h => by simp_all

/-- The answer of a provider that vends an access token. -/
def vendingAnswer : ProviderAnswer :=
  .json (.object [("access_token", .string "access"), ("ok", .bool true)])

/-- No provider asks for more than that: it reads the token, and no time of expiry. -/
theorem exchangeRefresh_vendingAnswer {providerName clientId clientSecret : String}
    {provider : TokenExchangeProvider}
    (h : createProvider providerName clientId clientSecret = some provider)
    (refreshToken : String) (requestedScopes : List String) :
    ∃ response, provider.exchangeRefresh (fun _ => vendingAnswer) refreshToken requestedScopes =
      .ok response ∧ response.expiresIn = none := by
  rw [createProvider] at h
  split_ifs at h <;> cases h <;> exact ⟨_, rfl, rfl⟩

end Patroclus
