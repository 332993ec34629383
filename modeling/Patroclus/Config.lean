import Patroclus.Crate.Toml
import Patroclus.Foundation.OrderedMap
import Patroclus.Idp
import Mathlib.Data.String.Basic

/-!
# The configuration file and the environment

`FileConfig` is the configuration as it is loaded from a file, and `layerWithEnv` lays the
variables of the environment over it. A variable names a section and a field; the section
is written as a TOML table, the value of the variable is guessed to be an array, a number,
a truth value or a string and put in the place of the field, and the section is read back.
-/

namespace Patroclus

open Foundation

def envPrefix : String := "PATROCLUS_"

def envNestSeparator : String := "__"

structure ServerConfig where
  host : String
  port : UInt16
  corsAllowedOrigins : List String
deriving DecidableEq, Repr

structure DatabaseConfig where
  path : String
  readPoolSize : UInt64
deriving DecidableEq, Repr

structure TokenConfig where
  issuer : String
  privateKeyPath : String
  publicKeyPath : String
  defaultTtlSeconds : UInt64
  maxTtlSeconds : UInt64
deriving DecidableEq, Repr

structure PolicyConfig where
  engine : String
  defaultDecision : String
  maxDelegationDepth : UInt64
deriving DecidableEq, Repr

structure VaultConfig where
  encryptionKeyPath : String
deriving DecidableEq, Repr

/-- A `usize` has 64 bits. -/
structure FileConfig where
  server : ServerConfig
  database : DatabaseConfig
  token : TokenConfig
  policy : PolicyConfig
  vault : VaultConfig
  idp : IdpConfig

/-- `Config::default()` -/
def FileConfig.default : FileConfig where
  server := ⟨"127.0.0.1", 8484, []⟩
  database := ⟨"patroclus.db", 0⟩
  token := ⟨"http://localhost:8484", "keys/private.pem", "keys/public.pem", 900, 3600⟩
  policy := ⟨"yaml", "deny", 3⟩
  vault := ⟨"keys/vault.key"⟩
  idp := ⟨false, []⟩

/-- What stops the layering: an array that is no TOML, a section that cannot be written as
a table, or a field that cannot be read back. -/
inductive ConfigError where
  | parse (message : String)
  | serialize (message : String)
  | missingField (field : String)
  | invalidType (field : String)
  | invalidValue (field : String)
deriving DecidableEq, Repr

/-! ## Fields -/

/-- The types of fields. -/
inductive Kind where
  | string
  | strings
  | u16
  | u64
deriving DecidableEq, Repr

namespace Kind

abbrev Value : Kind → Type
  | .string => String
  | .strings => List String
  | .u16 => UInt16
  | .u64 => UInt64

/-- A TOML integer is an `i64`. -/
def Fits : (k : Kind) → k.Value → Prop
  | .u64, n => n.toNat < 2 ^ 63
  | _, _ => True

instance : (k : Kind) → (value : k.Value) → Decidable (k.Fits value)
  | .u64, n => inferInstanceAs (Decidable (n.toNat < 2 ^ 63))
  | .string, _ | .strings, _ | .u16, _ => inferInstanceAs (Decidable True)

def literal : (k : Kind) → k.Value → Toml.Value
  | .string, s => .string s
  | .strings, items => .array (items.map .string)
  | .u16, n => .integer (.ofInt n.toNat)
  | .u64, n => .integer (.ofInt n.toNat)

def serialize (k : Kind) (value : k.Value) : Except ConfigError Toml.Value :=
  if k.Fits value then .ok (k.literal value)
  else .error (.serialize "u64 value was too large")

def deserialize (field : String) : (k : Kind) → Toml.Value → Except ConfigError k.Value
  | .string, .string s => .ok s
  | .strings, .array items =>
      items.mapM fun item =>
        match item with
        | .string s => .ok s
        | _ => .error (.invalidType field)
  | .u16, .integer n =>
      if 0 ≤ n.toInt ∧ n.toInt < 2 ^ 16 then .ok (.ofNat n.toInt.toNat)
      else .error (.invalidValue field)
  | .u64, .integer n =>
      if 0 ≤ n.toInt then .ok (.ofNat n.toInt.toNat) else .error (.invalidValue field)
  | _, _ => .error (.invalidType field)

end Kind

/-! ## Sections -/

abbrev Table : Type := OrderedMap String Toml.Value

/-- A field that has to be there. -/
def Table.required (table : Table) (k : Kind) (field : String) : Except ConfigError k.Value :=
  match table.get? field with
  | some value => k.deserialize field value
  | none => .error (.missingField field)

/-- A field with `#[serde(default)]`. -/
def Table.defaulted (table : Table) (k : Kind) (default : k.Value) (field : String) :
    Except ConfigError k.Value :=
  match table.get? field with
  | some value => k.deserialize field value
  | none => .ok default

/-- The table of some fields. -/
def tableOf (fields : List (String × Except ConfigError Toml.Value)) :
    Except ConfigError Table := do
  let entries ← fields.mapM fun field => do return (field.1, ← field.2)
  return .ofList entries

namespace ServerConfig

def serialize (c : ServerConfig) : Except ConfigError Table := tableOf [
  ("host", Kind.string.serialize c.host),
  ("port", Kind.u16.serialize c.port),
  ("cors_allowed_origins", Kind.strings.serialize c.corsAllowedOrigins)]

def deserialize (table : Table) : Except ConfigError ServerConfig := do
  let host ← table.required .string "host"
  let port ← table.required .u16 "port"
  let corsAllowedOrigins ← table.defaulted .strings [] "cors_allowed_origins"
  return { host, port, corsAllowedOrigins }

end ServerConfig

namespace DatabaseConfig

def serialize (c : DatabaseConfig) : Except ConfigError Table := tableOf [
  ("path", Kind.string.serialize c.path),
  ("read_pool_size", Kind.u64.serialize c.readPoolSize)]

def deserialize (table : Table) : Except ConfigError DatabaseConfig := do
  let path ← table.required .string "path"
  let readPoolSize ← table.defaulted .u64 0 "read_pool_size"
  return { path, readPoolSize }

end DatabaseConfig

namespace TokenConfig

def serialize (c : TokenConfig) : Except ConfigError Table := tableOf [
  ("issuer", Kind.string.serialize c.issuer),
  ("private_key_path", Kind.string.serialize c.privateKeyPath),
  ("public_key_path", Kind.string.serialize c.publicKeyPath),
  ("default_ttl_seconds", Kind.u64.serialize c.defaultTtlSeconds),
  ("max_ttl_seconds", Kind.u64.serialize c.maxTtlSeconds)]

def deserialize (table : Table) : Except ConfigError TokenConfig := do
  let issuer ← table.required .string "issuer"
  let privateKeyPath ← table.required .string "private_key_path"
  let publicKeyPath ← table.required .string "public_key_path"
  let defaultTtlSeconds ← table.required .u64 "default_ttl_seconds"
  let maxTtlSeconds ← table.required .u64 "max_ttl_seconds"
  return { issuer, privateKeyPath, publicKeyPath, defaultTtlSeconds, maxTtlSeconds }

end TokenConfig

namespace PolicyConfig

def serialize (c : PolicyConfig) : Except ConfigError Table := tableOf [
  ("engine", Kind.string.serialize c.engine),
  ("default_decision", Kind.string.serialize c.defaultDecision),
  ("max_delegation_depth", Kind.u64.serialize c.maxDelegationDepth)]

def deserialize (table : Table) : Except ConfigError PolicyConfig := do
  let engine ← table.required .string "engine"
  let defaultDecision ← table.required .string "default_decision"
  let maxDelegationDepth ← table.required .u64 "max_delegation_depth"
  return { engine, defaultDecision, maxDelegationDepth }

end PolicyConfig

namespace VaultConfig

def serialize (c : VaultConfig) : Except ConfigError Table := tableOf [
  ("encryption_key_path", Kind.string.serialize c.encryptionKeyPath)]

def deserialize (table : Table) : Except ConfigError VaultConfig := do
  let encryptionKeyPath ← table.required .string "encryption_key_path"
  return { encryptionKeyPath }

end VaultConfig

/-- The sections that the environment reaches. -/
inductive SectionName where
  | server
  | database
  | token
  | policy
  | vault
deriving DecidableEq, Repr

namespace SectionName

def name : SectionName → String
  | .server => "server"
  | .database => "database"
  | .token => "token"
  | .policy => "policy"
  | .vault => "vault"

abbrev Config : SectionName → Type
  | .server => ServerConfig
  | .database => DatabaseConfig
  | .token => TokenConfig
  | .policy => PolicyConfig
  | .vault => VaultConfig

def ofName (name : String) : Option SectionName :=
  [server, database, token, policy, vault].find? (·.name = name)

def serialize : (s : SectionName) → s.Config → Except ConfigError Table
  | .server => ServerConfig.serialize
  | .database => DatabaseConfig.serialize
  | .token => TokenConfig.serialize
  | .policy => PolicyConfig.serialize
  | .vault => VaultConfig.serialize

def deserialize : (s : SectionName) → Table → Except ConfigError s.Config
  | .server => ServerConfig.deserialize
  | .database => DatabaseConfig.deserialize
  | .token => TokenConfig.deserialize
  | .policy => PolicyConfig.deserialize
  | .vault => VaultConfig.deserialize

end SectionName

namespace FileConfig

def get (c : FileConfig) : (s : SectionName) → s.Config
  | .server => c.server
  | .database => c.database
  | .token => c.token
  | .policy => c.policy
  | .vault => c.vault

def set (c : FileConfig) : (s : SectionName) → s.Config → FileConfig
  | .server, server => { c with server }
  | .database, database => { c with database }
  | .token, token => { c with token }
  | .policy, policy => { c with policy }
  | .vault, vault => { c with vault }

end FileConfig

/-! ## The environment -/

/-- The section and the field that a variable names. -/
def envTarget (name : String) : Option (String × String) := do
  let remainder ← stripPrefix name envPrefix
  let (sectionRaw, key) ← splitOnce envNestSeparator.toList remainder.toList
  return (toAsciiLowercase (.ofList sectionRaw), toAsciiLowercase (.ofList key))

/-- The variables that name a section and a field, section by section. -/
def groupBySection (vars : List (String × String)) :
    OrderedMap String (OrderedMap String String) :=
  vars.foldl
    (fun bySection var =>
      match envTarget var.1 with
      | some (name, field) =>
          bySection.insert name (((bySection.get? name).getD .empty).insert field var.2)
      | none => bySection)
    .empty

/-- The text has the brackets of a TOML array. -/
def isBracketed (text : String) : Bool :=
  text.toList.head? == some '[' && text.toList.getLast? == some ']'

section

variable (toml : Toml.Parser)

/-- The value that the text of a variable is taken for. -/
def parseEnvScalar (raw : String) : Except ConfigError Toml.Value :=
  let trimmed := trim raw
  if isBracketed trimmed then
    match toml.fromStr ("value = " ++ trimmed) with
    | .ok document => .ok ((document.get "value").getD (.string raw))
    | .error message => .error (.parse message)
  else
    match parseI64 trimmed with
    | some n => .ok (.integer n)
    | none =>
        if isF64 trimmed then .ok (.float trimmed)
        else
          match parseBool trimmed with
          | some b => .ok (.boolean b)
          | none => .ok (.string raw)

/-- Put the values of the variables in the place of the fields that the table has. -/
def patchTable (fields : List (String × String)) (table : Table) : Except ConfigError Table :=
  fields.foldlM
    (fun table field => do
      let parsed ← parseEnvScalar toml field.2
      return if (table.get? field.1).isSome then table.insert field.1 parsed else table)
    table

def patchSection (s : SectionName) (current : s.Config) (fields : OrderedMap String String) :
    Except ConfigError s.Config := do
  let base ← s.serialize current
  let table ← patchTable toml fields.entries base
  s.deserialize table

/-- A section that is not known is ignored. -/
def patchConfig (c : FileConfig) (entry : String × OrderedMap String String) :
    Except ConfigError FileConfig :=
  match SectionName.ofName entry.1 with
  | some s => do return c.set s (← patchSection toml s (c.get s) entry.2)
  | none => .ok c

def layerWithEnv (c : FileConfig) (vars : List (String × String)) :
    Except ConfigError FileConfig :=
  (groupBySection vars).entries.foldlM (patchConfig toml) c

end

end Patroclus
