import Patroclus.Policy.YamlEngine
import Patroclus.Token.Basic
import Patroclus.Crate.Rfc3339
import Patroclus.Crate.Text

/-!
# The platform

What the program takes from third-party crates and from its deployment: the
configuration, the JWT codec with the key pair, SHA-256, the printers and
parsers of dates, JSON, YAML and UUIDs. They are parameters, with the documented
behaviour that the program relies on as laws.
-/

namespace Patroclus

/-- The configuration values that the handlers read. TOML integers are `i64`. -/
structure Config where
  tokenIssuer : String
  defaultTtlSeconds : Nat
  maxTtlSeconds : Nat
  policyEngine : String
  maxDelegationDepth : Nat
  maxDelegationDepth_lt : maxDelegationDepth < 2 ^ 63

/-- What `decode` is told to check. -/
structure Validation where
  issuer : String
  audience : Option String
deriving DecidableEq, Repr

inductive JwtError where
  | expiredSignature
  | other (message : String)
deriving DecidableEq, Repr

/-- The claims pass the checks at a time in seconds. Expiry has a leeway of a
minute, and `exp` is read as an unsigned number. -/
def Validation.Accepts (validation : Validation) (claims : AgentClaims) (now : Int) : Prop :=
  0 ≤ claims.exp ∧ now - 60 ≤ claims.exp ∧ claims.iss = validation.issuer ∧
    (validation.audience = none ∨ validation.audience = some claims.aud)

instance (validation : Validation) (claims : AgentClaims) (now : Int) :
    Decidable (validation.Accepts claims now) :=
  inferInstanceAs (Decidable (_ ∧ _ ∧ _ ∧ (_ ∨ _)))

/-- `jsonwebtoken` over the server's RS256 key pair. `payload` reads the claims
of a text whose signature is valid under the public key. -/
structure Jwt where
  encode : AgentClaims → Except String String
  payload : String → Option AgentClaims
  decode : String → Validation → Int → Except JwtError AgentClaims
  payload_encode {claims : AgentClaims} {token : String} :
    encode claims = .ok token → payload token = some claims
  decode_ok_iff {token : String} {validation : Validation} {now : Int} {claims : AgentClaims} :
    decode token validation now = .ok claims ↔
      payload token = some claims ∧ validation.Accepts claims now

structure Platform where
  config : Config
  jwt : Jwt
  sha256 : List UInt8 → List UInt8
  toRfc3339 : Instant → String
  parseFromRfc3339 : String → Option Instant
  jsonToString : Json → String
  jsonFromStr : String → Option Json
  parseUuid : String → Option Uuid
  parseUuid_toString (id : Uuid) : parseUuid id.toString = some id
  parseYaml : String → Except String (List Rule)
  /-- The text of the error that a panic inside a database task becomes. -/
  joinError : String
  /-- Whether the SQLite build enforces foreign keys by default. -/
  foreignKeys : Bool

/-! ## A platform for concrete runs -/

namespace Jwt

/-- The codec over given signatures, which decodes as the crate does. -/
def ofPayload (encode : AgentClaims → Except String String) (payload : String → Option AgentClaims)
    (payload_encode : ∀ {claims : AgentClaims} {token : String},
      encode claims = .ok token → payload token = some claims) : Jwt where
  encode := encode
  payload := payload
  decode token validation now :=
    match payload token with
    | none => .error (.other "InvalidSignature")
    | some claims =>
        if validation.Accepts claims now then .ok claims
        else if claims.exp < now - 60 then .error .expiredSignature
        else .error (.other "InvalidClaims")
  payload_encode := payload_encode
  decode_ok_iff := by
    intro token validation now claims
    cases payload token with
    | none => simp
    | some found =>
        dsimp only
        split_ifs with haccepts
        · grind
        · simp only [false_iff]
          grind
        · simp only [false_iff]
          grind

/-- The text that the codec below signs claims as. -/
def tableToken (claims : AgentClaims) : String := "jwt:" ++ claims.jti

/-- A codec for finitely many claims with distinct `jti`. -/
def ofTable (table : List AgentClaims) (distinct : (table.map (·.jti)).Nodup) : Jwt :=
  ofPayload (fun claims => if claims ∈ table then .ok (tableToken claims) else
      .error "not in the table")
    (fun token => table.find? fun claims => tableToken claims == token) <| by
  intro claims token h
  split_ifs at h with hmem
  cases h
  obtain ⟨found, hfound⟩ := Option.isSome_iff_exists.mp (List.find?_isSome.mpr
    (⟨claims, hmem, beq_self_eq_true _⟩ :
      ∃ c ∈ table, (tableToken c == tableToken claims) = true))
  have htoken : tableToken found = tableToken claims := by
    simpa using List.find?_some hfound
  have hjti : found.jti = claims.jti := by
    simpa [tableToken] using htoken
  rw [hfound, List.inj_on_of_nodup_map distinct (List.mem_of_find?_eq_some hfound) hmem hjti]

end Jwt

/-- RFC 3339 on the whole seconds of the first day of the epoch. -/
def firstDayText (t : Instant) : String :=
  let seconds := t.timestamp.toNat
  let two (n : Nat) : List Char := [Char.ofNat (48 + n / 10), Char.ofNat (48 + n % 10)]
  "1970-01-01T" ++ String.ofList (two (seconds / 3600) ++ ':' :: two (seconds / 60 % 60) ++
    ':' :: two (seconds % 60)) ++ "+00:00"

/-- Reads what `firstDayText` prints. -/
def firstDayInstant (text : String) : Option Instant :=
  let number (i : Nat) : Nat :=
    10 * ((text.toList.getD i '0').toNat - 48) + ((text.toList.getD (i + 1) '0').toNat - 48)
  let t : Instant := (number 11 * 3600 + number 14 * 60 + number 17 : Nat) * 1000000000
  if firstDayText t = text then some t else none

/-- The policy text of a fresh database. -/
def denyByDefault : String :=
  "- name: deny-by-default\n  decision: deny\n  reason: No matching policy\n"

/-- A rule that lists nothing but its decision and the reason for it. -/
def Rule.plain (decision reason : String) : Rule where
  agentTypes := []
  actions := []
  resources := []
  scopes := []
  decision := decision
  reason := reason
  constraints := []
  rateLimitPerMinute := none
  maxSpend := none
  minTrustLevel := none
  requirePriorAction := none
  maxActionsInSession := none

/-- A parser that knows one policy text beside that of a fresh database. -/
def parseKnown (text : String) (rules : List Rule) (yaml : String) : Except String (List Rule) :=
  if yaml = text then .ok rules
  else if yaml = denyByDefault then .ok [.plain "deny" "No matching policy"]
  else .error "unknown policy text"

/-- A platform with a given codec and policy parser, on the first day of the epoch.
Its hash is the identity, which is injective, and its JSON reader knows only the
empty array. -/
def Platform.concrete (jwt : Jwt) (parseYaml : String → Except String (List Rule)) : Platform where
  config := ⟨"patroclus", 900, 3600, "yaml", 3, by decide⟩
  jwt := jwt
  sha256 := id
  toRfc3339 := firstDayText
  parseFromRfc3339 := firstDayInstant
  jsonToString _ := "[]"
  jsonFromStr text := if text = "[]" then some (.array []) else none
  parseUuid := Uuid.parse
  parseUuid_toString := Uuid.parse_toString
  parseYaml := parseYaml
  joinError := "task panicked"
  foreignKeys := true

/-- A platform whose codec signs nothing, under the default policy. -/
def Platform.unsigned : Platform :=
  .concrete (.ofTable [] List.nodup_nil) (parseKnown denyByDefault [])

example : firstDayInstant (firstDayText (75 * 1000000000)) = some (75 * 1000000000) := by decide

/-! ## The dates of the crate -/

/-- Dates are printed and parsed as `chrono` documents it: the parser reads back what the
printer writes, but of the years it reads only those without a sign. -/
structure Platform.UsesChrono (p : Platform) : Prop where
  prints (t : Instant) : p.toRfc3339 t = t.rfc3339
  parses {t : Instant} : t.Common → p.parseFromRfc3339 t.rfc3339 = some t
  rejects {t : Instant} : ¬ t.Common → p.parseFromRfc3339 t.rfc3339 = none

open Classical in
/-- A parser that knows exactly the texts without a sign. -/
noncomputable def unsignedInstant (text : String) : Option Instant :=
  if h : ∃ t : Instant, t.Common ∧ t.rfc3339 = text then some h.choose else none

/-- A platform with the dates of the crate. -/
noncomputable def Platform.chrono : Platform :=
  { Platform.unsigned with
    toRfc3339 := Instant.rfc3339
    parseFromRfc3339 := unsignedInstant }

theorem Platform.chrono_usesChrono : Platform.chrono.UsesChrono where
  prints _ := rfl
  parses := by
    intro t hcommon
    have h : ∃ t' : Instant, t'.Common ∧ t'.rfc3339 = t.rfc3339 := ⟨t, hcommon, rfl⟩
    exact (dif_pos h).trans (congrArg some (Instant.rfc3339_inj h.choose_spec.2))
  rejects := by
    intro t hcommon
    refine dif_neg ?_
    rintro ⟨t', hcommon', heq⟩
    rw [Instant.rfc3339_inj heq] at hcommon'
    exact hcommon hcommon'

end Patroclus
