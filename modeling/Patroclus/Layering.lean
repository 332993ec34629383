import Patroclus.Config
import Patroclus.Foundation.Outcome

/-!
# Laws of the layering

The fields of a section are one family: each is written under its key, read back from it,
and replaced alone when the table holds another value there. A section takes part in the
layering with the writes to it, in their order, and the sections do not meet.
-/

namespace Patroclus

open Foundation

/-! ## Fields -/

/-- The fields that the environment reaches. -/
inductive Field : SectionName → Kind → Type
  | host : Field .server .string
  | port : Field .server .u16
  | corsAllowedOrigins : Field .server .strings
  | path : Field .database .string
  | readPoolSize : Field .database .u64
  | issuer : Field .token .string
  | privateKeyPath : Field .token .string
  | publicKeyPath : Field .token .string
  | defaultTtlSeconds : Field .token .u64
  | maxTtlSeconds : Field .token .u64
  | engine : Field .policy .string
  | defaultDecision : Field .policy .string
  | maxDelegationDepth : Field .policy .u64
  | encryptionKeyPath : Field .vault .string

namespace Field

variable {s : SectionName} {k : Kind}

def key : Field s k → String
  | host => "host"
  | port => "port"
  | corsAllowedOrigins => "cors_allowed_origins"
  | path => "path"
  | readPoolSize => "read_pool_size"
  | issuer => "issuer"
  | privateKeyPath => "private_key_path"
  | publicKeyPath => "public_key_path"
  | defaultTtlSeconds => "default_ttl_seconds"
  | maxTtlSeconds => "max_ttl_seconds"
  | engine => "engine"
  | defaultDecision => "default_decision"
  | maxDelegationDepth => "max_delegation_depth"
  | encryptionKeyPath => "encryption_key_path"

def get : Field s k → s.Config → k.Value
  | host, c => c.host
  | port, c => c.port
  | corsAllowedOrigins, c => c.corsAllowedOrigins
  | path, c => c.path
  | readPoolSize, c => c.readPoolSize
  | issuer, c => c.issuer
  | privateKeyPath, c => c.privateKeyPath
  | publicKeyPath, c => c.publicKeyPath
  | defaultTtlSeconds, c => c.defaultTtlSeconds
  | maxTtlSeconds, c => c.maxTtlSeconds
  | engine, c => c.engine
  | defaultDecision, c => c.defaultDecision
  | maxDelegationDepth, c => c.maxDelegationDepth
  | encryptionKeyPath, c => c.encryptionKeyPath

/-- The section with another value in the field. -/
def set : Field s k → k.Value → s.Config → s.Config
  | host, value, c => { c with host := value }
  | port, value, c => { c with port := value }
  | corsAllowedOrigins, value, c => { c with corsAllowedOrigins := value }
  | path, value, c => { c with path := value }
  | readPoolSize, value, c => { c with readPoolSize := value }
  | issuer, value, c => { c with issuer := value }
  | privateKeyPath, value, c => { c with privateKeyPath := value }
  | publicKeyPath, value, c => { c with publicKeyPath := value }
  | defaultTtlSeconds, value, c => { c with defaultTtlSeconds := value }
  | maxTtlSeconds, value, c => { c with maxTtlSeconds := value }
  | engine, value, c => { c with engine := value }
  | defaultDecision, value, c => { c with defaultDecision := value }
  | maxDelegationDepth, value, c => { c with maxDelegationDepth := value }
  | encryptionKeyPath, value, c => { c with encryptionKeyPath := value }

/-- The field as it is read from a table. -/
def read : Field s k → Table → Except ConfigError k.Value
  | host, table => table.required .string "host"
  | port, table => table.required .u16 "port"
  | corsAllowedOrigins, table => table.defaulted .strings [] "cors_allowed_origins"
  | path, table => table.required .string "path"
  | readPoolSize, table => table.defaulted .u64 0 "read_pool_size"
  | issuer, table => table.required .string "issuer"
  | privateKeyPath, table => table.required .string "private_key_path"
  | publicKeyPath, table => table.required .string "public_key_path"
  | defaultTtlSeconds, table => table.required .u64 "default_ttl_seconds"
  | maxTtlSeconds, table => table.required .u64 "max_ttl_seconds"
  | engine, table => table.required .string "engine"
  | defaultDecision, table => table.required .string "default_decision"
  | maxDelegationDepth, table => table.required .u64 "max_delegation_depth"
  | encryptionKeyPath, table => table.required .string "encryption_key_path"

variable {k' : Kind} {f : Field s k} {g : Field s k'}

theorem eq_of_key (h : g.key = f.key) : ∃ hkind : k' = k, hkind ▸ g = f := by
  cases f <;> cases g <;> first | exact ⟨rfl, rfl⟩ | exact absurd h (by decide)

theorem get_set_self (f : Field s k) (value : k.Value) (c : s.Config) :
    f.get (f.set value c) = value := by
  cases f <;> rfl

theorem get_set_of_ne (h : g.key ≠ f.key) (value : k.Value) (c : s.Config) :
    g.get (f.set value c) = g.get c := by
  cases f <;> cases g <;> first | rfl | exact absurd rfl h

end Field

namespace SectionName

/-- The values of a section under their keys. -/
def values : (s : SectionName) → s.Config → List (String × Σ k : Kind, k.Value)
  | server, c => [("host", ⟨.string, c.host⟩), ("port", ⟨.u16, c.port⟩),
      ("cors_allowed_origins", ⟨.strings, c.corsAllowedOrigins⟩)]
  | database, c => [("path", ⟨.string, c.path⟩), ("read_pool_size", ⟨.u64, c.readPoolSize⟩)]
  | token, c => [("issuer", ⟨.string, c.issuer⟩), ("private_key_path", ⟨.string, c.privateKeyPath⟩),
      ("public_key_path", ⟨.string, c.publicKeyPath⟩),
      ("default_ttl_seconds", ⟨.u64, c.defaultTtlSeconds⟩),
      ("max_ttl_seconds", ⟨.u64, c.maxTtlSeconds⟩)]
  | policy, c => [("engine", ⟨.string, c.engine⟩),
      ("default_decision", ⟨.string, c.defaultDecision⟩),
      ("max_delegation_depth", ⟨.u64, c.maxDelegationDepth⟩)]
  | vault, c => [("encryption_key_path", ⟨.string, c.encryptionKeyPath⟩)]

def fieldNames : SectionName → List String
  | server => ["host", "port", "cors_allowed_origins"]
  | database => ["path", "read_pool_size"]
  | token => ["issuer", "private_key_path", "public_key_path", "default_ttl_seconds",
      "max_ttl_seconds"]
  | policy => ["engine", "default_decision", "max_delegation_depth"]
  | vault => ["encryption_key_path"]

/-- Every number of the section is a TOML integer. -/
def Fits (s : SectionName) (c : s.Config) : Prop := ∀ field ∈ s.values c, field.2.1.Fits field.2.2

instance (s : SectionName) (c : s.Config) : Decidable (s.Fits c) := List.decidableBAll _ _

/-- The section as a table. -/
def table (s : SectionName) (c : s.Config) : Table :=
  .ofList ((s.values c).map fun field => (field.1, field.2.1.literal field.2.2))

end SectionName

/-! ## Writing a section and reading it back -/

section

variable {s : SectionName} {k : Kind}

theorem Kind.serialize_eq_ok {value : k.Value} {literal : Toml.Value} :
    k.serialize value = .ok literal ↔ k.Fits value ∧ literal = k.literal value := by
  rw [Kind.serialize]
  split
  · rename_i hfits
    rw [Except.ok.injEq, and_iff_right hfits]
    exact eq_comm
  · rename_i hfits
    exact iff_of_false nofun fun h => hfits h.1

/-- A value that fits is read back. -/
theorem Kind.deserialize_literal {value : k.Value} (field : String) (fits : k.Fits value) :
    k.deserialize field (k.literal value) = .ok value := by
  cases k with
  | string => rfl
  | strings =>
      show (value.map Toml.Value.string).mapM _ = (.ok value : Except ConfigError (List String))
      induction value with
      | nil => rfl
      | cons item items ih =>
          rw [List.map_cons, List.mapM_cons, ih trivial]
          rfl
  | u16 =>
      have hlt : (value.toNat : Int) < 2 ^ 16 := by exact_mod_cast value.toNat_lt
      have hint : (Int64.ofInt value.toNat).toInt = value.toNat :=
        Int64.toInt_ofInt_of_le (by omega) (by omega)
      simp only [Kind.literal, Kind.deserialize, hint]
      rw [if_pos ⟨Int.natCast_nonneg _, hlt⟩, Int.toNat_natCast, UInt16.ofNat_toNat]
  | u64 =>
      have hlt : (value.toNat : Int) < 2 ^ 63 := by exact_mod_cast fits
      have hint : (Int64.ofInt value.toNat).toInt = value.toNat :=
        Int64.toInt_ofInt_of_le (by omega) hlt
      simp only [Kind.literal, Kind.deserialize, hint]
      rw [if_pos (Int.natCast_nonneg _), Int.toNat_natCast, UInt64.ofNat_toNat]

/-- What is read from a file fits. -/
theorem Kind.fits_of_deserialize {field : String} {literal : Toml.Value} {value : k.Value}
    (h : k.deserialize field literal = .ok value) : k.Fits value := by
  cases k with
  | string | strings | u16 => trivial
  | u64 =>
      cases literal with
      | integer n =>
          simp only [Kind.deserialize] at h
          split_ifs at h with hnonneg
          obtain rfl := Except.ok.inj h
          have hlt := n.toInt_lt
          show (UInt64.ofNat n.toInt.toNat).toNat < 2 ^ 63
          rw [UInt64.toNat_ofNat']
          omega
      | _ => cases h

theorem tableOf_eq_ok {fields : List (String × Σ k : Kind, k.Value)} {table : Table} :
    tableOf (fields.map fun field => (field.1, field.2.1.serialize field.2.2)) = .ok table ↔
      (∀ field ∈ fields, field.2.1.Fits field.2.2) ∧
        table = .ofList (fields.map fun field => (field.1, field.2.1.literal field.2.2)) := by
  have hstep : ∀ (field : String × Σ k : Kind, k.Value) (entry : String × Toml.Value),
      (do return (field.1, ← field.2.1.serialize field.2.2)) =
          (.ok entry : Except ConfigError (String × Toml.Value)) ↔
        field.2.1.Fits field.2.2 ∧ entry = (field.1, field.2.1.literal field.2.2) := by
    intro field entry
    rw [Outcome.bind_eq_ok]
    constructor
    · rintro ⟨literal, hserialize, hentry⟩
      obtain ⟨hfits, rfl⟩ := Kind.serialize_eq_ok.mp hserialize
      exact ⟨hfits, (Except.ok.inj hentry).symm⟩
    · rintro ⟨hfits, rfl⟩
      exact ⟨_, Kind.serialize_eq_ok.mpr ⟨hfits, rfl⟩, rfl⟩
  rw [tableOf, List.mapM_map, Outcome.bind_eq_ok]
  constructor
  · rintro ⟨entries, hentries, htable⟩
    obtain ⟨hfits, rfl⟩ := (Outcome.mapM_eq_ok hstep).mp hentries
    exact ⟨hfits, (Except.ok.inj htable).symm⟩
  · rintro ⟨hfits, rfl⟩
    exact ⟨_, (Outcome.mapM_eq_ok hstep).mpr ⟨hfits, rfl⟩, rfl⟩

/-- A section that fits is written as its table. -/
theorem SectionName.serialize_eq_ok {c : s.Config} {table : Table} :
    s.serialize c = .ok table ↔ s.Fits c ∧ table = s.table c := by
  have hserialize : s.serialize c =
      tableOf ((s.values c).map fun field => (field.1, field.2.1.serialize field.2.2)) := by
    cases s <;> rfl
  rw [hserialize, tableOf_eq_ok]
  rfl

theorem Field.get?_table (f : Field s k) (c : s.Config) :
    (s.table c).get? f.key = some (k.literal (f.get c)) := by
  rw [SectionName.table, OrderedMap.get?_ofList]
  cases f <;> rfl

theorem Field.mem_values (f : Field s k) (c : s.Config) :
    (f.key, (⟨k, f.get c⟩ : Σ k : Kind, k.Value)) ∈ s.values c := by
  cases f <;> simp [SectionName.values, Field.key, Field.get]

/-- The keys of a table are the names of the fields. -/
theorem SectionName.get?_table_isSome {c : s.Config} {name : String} :
    ((s.table c).get? name).isSome ↔ name ∈ s.fieldNames := by
  have hkeys : (s.values c).map (·.1) = s.fieldNames := by cases s <;> rfl
  rw [← hkeys, SectionName.table, OrderedMap.get?_ofList, latest_isSome_iff, List.map_map]
  rfl

theorem Table.required_of_get? {table : Table} {field : String} {literal : Toml.Value}
    (h : table.get? field = some literal) :
    table.required k field = k.deserialize field literal := by
  rw [Table.required, h]

theorem Table.defaulted_of_get? {table : Table} {default : k.Value} {field : String}
    {literal : Toml.Value} (h : table.get? field = some literal) :
    table.defaulted k default field = k.deserialize field literal := by
  rw [Table.defaulted, h]

theorem Field.read_of_get? {f : Field s k} {table : Table} {literal : Toml.Value}
    (h : table.get? f.key = some literal) : f.read table = k.deserialize f.key literal := by
  cases f with
  | corsAllowedOrigins | readPoolSize => exact Table.defaulted_of_get? h
  | _ => exact Table.required_of_get? h

/-- A section is read from a table field by field. -/
theorem SectionName.deserialize_eq_ok {table : Table} {c : s.Config} :
    s.deserialize table = .ok c ↔ ∀ {k : Kind} (f : Field s k), f.read table = .ok (f.get c) := by
  constructor
  · intro h k f
    cases s with
    | server =>
        obtain ⟨host, hhost, h⟩ := Outcome.bind_eq_ok.mp h
        obtain ⟨port, hport, h⟩ := Outcome.bind_eq_ok.mp h
        obtain ⟨origins, horigins, h⟩ := Outcome.bind_eq_ok.mp h
        cases h
        cases f <;> assumption
    | database =>
        obtain ⟨path, hpath, h⟩ := Outcome.bind_eq_ok.mp h
        obtain ⟨size, hsize, h⟩ := Outcome.bind_eq_ok.mp h
        cases h
        cases f <;> assumption
    | token =>
        obtain ⟨issuer, hissuer, h⟩ := Outcome.bind_eq_ok.mp h
        obtain ⟨privateKey, hprivate, h⟩ := Outcome.bind_eq_ok.mp h
        obtain ⟨publicKey, hpublic, h⟩ := Outcome.bind_eq_ok.mp h
        obtain ⟨defaultTtl, hdefault, h⟩ := Outcome.bind_eq_ok.mp h
        obtain ⟨maxTtl, hmax, h⟩ := Outcome.bind_eq_ok.mp h
        cases h
        cases f <;> assumption
    | policy =>
        obtain ⟨engine, hengine, h⟩ := Outcome.bind_eq_ok.mp h
        obtain ⟨decision, hdecision, h⟩ := Outcome.bind_eq_ok.mp h
        obtain ⟨depth, hdepth, h⟩ := Outcome.bind_eq_ok.mp h
        cases h
        cases f <;> assumption
    | vault =>
        obtain ⟨path, hpath, h⟩ := Outcome.bind_eq_ok.mp h
        cases h
        cases f
        exact hpath
  · intro h
    cases s with
    | server =>
        refine Outcome.bind_eq_ok.mpr ⟨_, h .host, ?_⟩
        refine Outcome.bind_eq_ok.mpr ⟨_, h .port, ?_⟩
        exact Outcome.bind_eq_ok.mpr ⟨_, h .corsAllowedOrigins, rfl⟩
    | database =>
        refine Outcome.bind_eq_ok.mpr ⟨_, h .path, ?_⟩
        exact Outcome.bind_eq_ok.mpr ⟨_, h .readPoolSize, rfl⟩
    | token =>
        refine Outcome.bind_eq_ok.mpr ⟨_, h .issuer, ?_⟩
        refine Outcome.bind_eq_ok.mpr ⟨_, h .privateKeyPath, ?_⟩
        refine Outcome.bind_eq_ok.mpr ⟨_, h .publicKeyPath, ?_⟩
        refine Outcome.bind_eq_ok.mpr ⟨_, h .defaultTtlSeconds, ?_⟩
        exact Outcome.bind_eq_ok.mpr ⟨_, h .maxTtlSeconds, rfl⟩
    | policy =>
        refine Outcome.bind_eq_ok.mpr ⟨_, h .engine, ?_⟩
        refine Outcome.bind_eq_ok.mpr ⟨_, h .defaultDecision, ?_⟩
        exact Outcome.bind_eq_ok.mpr ⟨_, h .maxDelegationDepth, rfl⟩
    | vault => exact Outcome.bind_eq_ok.mpr ⟨_, h .encryptionKeyPath, rfl⟩

theorem Table.fits_of_required {table : Table} {field : String} {value : k.Value}
    (h : table.required k field = .ok value) : k.Fits value := by
  rw [Table.required] at h
  split at h
  · exact Kind.fits_of_deserialize h
  · cases h

theorem Table.fits_of_defaulted {table : Table} {default value : k.Value} {field : String}
    (fits : k.Fits default) (h : table.defaulted k default field = .ok value) : k.Fits value := by
  rw [Table.defaulted] at h
  split at h
  · exact Kind.fits_of_deserialize h
  · exact Except.ok.inj h ▸ fits

theorem Field.fits_of_read {f : Field s k} {table : Table} {value : k.Value}
    (h : f.read table = .ok value) : k.Fits value := by
  cases f with
  | corsAllowedOrigins => trivial
  | readPoolSize => exact Table.fits_of_defaulted (by decide) h
  | _ => exact Table.fits_of_required h

/-- What is read from a file can be written again. -/
theorem SectionName.fits_of_deserialize {table : Table} {c : s.Config}
    (h : s.deserialize table = .ok c) : s.Fits c := by
  have hfits {k : Kind} (f : Field s k) : k.Fits (f.get c) :=
    Field.fits_of_read (deserialize_eq_ok.mp h f)
  cases s with
  | server => simpa [Fits, values] using ⟨hfits .host, hfits .port, hfits .corsAllowedOrigins⟩
  | database => simpa [Fits, values] using ⟨hfits .path, hfits .readPoolSize⟩
  | token => simpa [Fits, values] using ⟨hfits .issuer, hfits .privateKeyPath,
      hfits .publicKeyPath, hfits .defaultTtlSeconds, hfits .maxTtlSeconds⟩
  | policy => simpa [Fits, values] using ⟨hfits .engine, hfits .defaultDecision,
      hfits .maxDelegationDepth⟩
  | vault => exact List.forall_mem_singleton.mpr (hfits .encryptionKeyPath)

/-- A section is read back from its table. -/
theorem SectionName.deserialize_table {c : s.Config} (fits : s.Fits c) :
    s.deserialize (s.table c) = .ok c := by
  rw [deserialize_eq_ok]
  intro k f
  rw [Field.read_of_get? (f.get?_table c)]
  exact Kind.deserialize_literal f.key (fits _ (f.mem_values c))

/-- A table that differs from that of a section in one field is read back as the section
with that field changed. -/
theorem SectionName.deserialize_insert {f : Field s k} {c c' : s.Config} (fits : s.Fits c)
    {literal : Toml.Value} : s.deserialize ((s.table c).insert f.key literal) = .ok c' ↔
      ∃ value, k.deserialize f.key literal = .ok value ∧ c' = f.set value c := by
  have hself : ((s.table c).insert f.key literal).get? f.key = some literal := by
    rw [OrderedMap.get?_insert, if_pos rfl]
  have hset : ∀ value, k.deserialize f.key literal = .ok value →
      s.deserialize ((s.table c).insert f.key literal) = .ok (f.set value c) := by
    intro value hvalue
    rw [deserialize_eq_ok]
    intro k' g
    by_cases hkey : g.key = f.key
    · obtain ⟨rfl, rfl⟩ := Field.eq_of_key hkey
      rw [Field.read_of_get? hself, hvalue, Field.get_set_self]
    · have hother : ((s.table c).insert f.key literal).get? g.key =
          some (k'.literal (g.get c)) := by
        rw [OrderedMap.get?_insert, if_neg hkey, g.get?_table]
      rw [Field.read_of_get? hother, Field.get_set_of_ne hkey]
      exact Kind.deserialize_literal g.key (fits _ (g.mem_values c))
  constructor
  · intro h
    have hvalue := deserialize_eq_ok.mp h f
    rw [Field.read_of_get? hself] at hvalue
    exact ⟨_, hvalue, Except.ok.inj (h.symm.trans (hset _ hvalue))⟩
  · rintro ⟨value, hvalue, rfl⟩
    exact hset value hvalue

end

/-! ## Patching a section -/

section

variable {toml : Toml.Parser} {s : SectionName}

/-- The value of a variable is not refused. -/
def Accepted (toml : Toml.Parser) (raw : String) : Prop :=
  ∃ parsed, parseEnvScalar toml raw = .ok parsed

theorem patchTable_cons {field : String × String} {fields : List (String × String)}
    {table patched : Table} : patchTable toml (field :: fields) table = .ok patched ↔
      ∃ parsed, parseEnvScalar toml field.2 = .ok parsed ∧
        patchTable toml fields
          (if (table.get? field.1).isSome then table.insert field.1 parsed else table) =
            .ok patched := by
  rw [patchTable, List.foldlM_cons, bind_assoc, Outcome.bind_eq_ok]
  rfl

/-- Variables without a field change nothing, but their values are read. -/
theorem patchTable_eq_ok {names : List String} {fields : List (String × String)}
    {table patched : Table} (h : ∀ name, (table.get? name).isSome = true ↔ name ∈ names) :
    patchTable toml fields table = .ok patched ↔
      (∀ field ∈ fields, field.1 ∉ names → Accepted toml field.2) ∧
        patchTable toml (fields.filter fun field => names.contains field.1) table =
          .ok patched := by
  induction fields generalizing table with
  | nil => simp
  | cons field fields ih =>
      by_cases hknown : field.1 ∈ names
      · have hkeys : ∀ parsed name,
            ((table.insert field.1 parsed).get? name).isSome = true ↔ name ∈ names := by
          intro parsed name
          rw [OrderedMap.get?_insert]
          split
          · rename_i hname
            exact iff_of_true rfl (hname ▸ hknown)
          · exact h name
        have hsome := (h field.1).mpr hknown
        rw [List.filter_cons_of_pos (by simpa using hknown), patchTable_cons, patchTable_cons]
        simp only [hsome, if_true, ih (hkeys _), List.forall_mem_cons, hknown, not_true_eq_false,
          false_implies, true_and]
        constructor
        · rintro ⟨parsed, hparsed, hforeign, hpatched⟩
          exact ⟨hforeign, parsed, hparsed, hpatched⟩
        · rintro ⟨hforeign, parsed, hparsed, hpatched⟩
          exact ⟨parsed, hparsed, hforeign, hpatched⟩
      · have hnone : ¬ (table.get? field.1).isSome = true := fun hsome =>
          hknown ((h field.1).mp hsome)
        rw [List.filter_cons_of_neg (by simpa using hknown), patchTable_cons]
        simp only [hnone, Bool.false_eq_true, if_false, ih h, List.forall_mem_cons, hknown,
          not_false_eq_true, true_implies, Accepted]
        constructor
        · rintro ⟨parsed, hparsed, hforeign, hpatched⟩
          exact ⟨⟨⟨parsed, hparsed⟩, hforeign⟩, hpatched⟩
        · rintro ⟨⟨⟨parsed, hparsed⟩, hforeign⟩, hpatched⟩
          exact ⟨parsed, hparsed, hforeign, hpatched⟩

theorem patchSection_eq_ok {c c' : s.Config} {fields : OrderedMap String String} :
    patchSection toml s c fields = .ok c' ↔ s.Fits c ∧ ∃ patched,
      patchTable toml fields.entries (s.table c) = .ok patched ∧
        s.deserialize patched = .ok c' := by
  rw [patchSection, Outcome.bind_eq_ok]
  simp only [Outcome.bind_eq_ok, SectionName.serialize_eq_ok]
  constructor
  · rintro ⟨_, ⟨hfits, rfl⟩, hpatched⟩
    exact ⟨hfits, hpatched⟩
  · rintro ⟨hfits, hpatched⟩
    exact ⟨_, ⟨hfits, rfl⟩, hpatched⟩

/-- The variables that name a field of the section. -/
def SectionName.own (s : SectionName) (fields : OrderedMap String String) :
    OrderedMap String String :=
  fields.restrict s.fieldNames.contains

/-- A section is patched by the variables that name one of its fields; the others may only
stop it. -/
theorem patchSection_own {c c' : s.Config} {fields : OrderedMap String String} :
    patchSection toml s c fields = .ok c' ↔
      (∀ field ∈ fields.entries, field.1 ∉ s.fieldNames → Accepted toml field.2) ∧
        patchSection toml s c (s.own fields) = .ok c' := by
  have hkeys : ∀ name, ((s.table c).get? name).isSome = true ↔ name ∈ s.fieldNames :=
    fun name => SectionName.get?_table_isSome
  rw [patchSection_eq_ok, patchSection_eq_ok]
  constructor
  · rintro ⟨hfits, patched, hpatched, hread⟩
    obtain ⟨hforeign, hpatched⟩ := (patchTable_eq_ok hkeys).mp hpatched
    exact ⟨hforeign, hfits, patched, hpatched, hread⟩
  · rintro ⟨hforeign, hfits, patched, hpatched, hread⟩
    exact ⟨hfits, patched, (patchTable_eq_ok hkeys).mpr ⟨hforeign, hpatched⟩, hread⟩

/-- Without variables a section that can be written stays as it is. -/
theorem patchSection_empty {c c' : s.Config} :
    patchSection toml s c .empty = .ok c' ↔ s.Fits c ∧ c' = c := by
  rw [patchSection_eq_ok]
  refine and_congr_right fun hfits => ?_
  constructor
  · rintro ⟨patched, hpatched, hread⟩
    obtain rfl : s.table c = patched := Except.ok.inj hpatched
    exact Except.ok.inj (hread.symm.trans (SectionName.deserialize_table hfits))
  · rintro rfl
    exact ⟨_, rfl, SectionName.deserialize_table hfits⟩

end

/-! ## Patching a configuration -/

namespace FileConfig

variable {c c' : FileConfig}

theorem get_set_self (c : FileConfig) (s : SectionName) (value : s.Config) :
    (c.set s value).get s = value := by
  cases s <;> rfl

theorem get_set_of_ne {s s' : SectionName} (h : s' ≠ s) (c : FileConfig) (value : s.Config) :
    (c.set s value).get s' = c.get s' := by
  cases s <;> cases s' <;> first | rfl | exact absurd rfl h

theorem set_idp (c : FileConfig) (s : SectionName) (value : s.Config) :
    (c.set s value).idp = c.idp := by
  cases s <;> rfl

theorem ext_get (idp : c.idp = c'.idp) (h : ∀ s, c.get s = c'.get s) : c = c' := by
  have hserver := h .server
  have hdatabase := h .database
  have htoken := h .token
  have hpolicy := h .policy
  have hvault := h .vault
  cases c
  cases c'
  simp only [FileConfig.mk.injEq]
  exact ⟨hserver, hdatabase, htoken, hpolicy, hvault, idp⟩

/-- A configuration is another with the sections patched for which there are variables. -/
structure PatchedBy (toml : Toml.Parser) (fields : SectionName → Option (OrderedMap String String))
    (c c' : FileConfig) : Prop where
  idp : c'.idp = c.idp
  untouched : ∀ s, fields s = none → c'.get s = c.get s
  patched : ∀ s own, fields s = some own → patchSection toml s (c.get s) own = .ok (c'.get s)

end FileConfig

theorem SectionName.ofName_eq_some {name : String} {s : SectionName} :
    SectionName.ofName name = some s ↔ name = s.name := by
  constructor
  · intro h
    have hfound := List.find?_some h
    exact (of_decide_eq_true hfound).symm
  · rintro rfl
    cases s <;> rfl

theorem SectionName.ofName_eq_none {name : String} :
    SectionName.ofName name = none ↔ ∀ s : SectionName, s.name ≠ name := by
  constructor
  · rintro h s rfl
    rw [SectionName.ofName_eq_some.mpr rfl] at h
    cases h
  · intro h
    cases hname : SectionName.ofName name with
    | none => rfl
    | some s => exact absurd (SectionName.ofName_eq_some.mp hname).symm (h s)

theorem SectionName.name_injective : Function.Injective SectionName.name := by
  intro s s' h
  cases s <;> cases s' <;> first | rfl | exact absurd h (by decide)

section

variable {toml : Toml.Parser} {c c' : FileConfig}

theorem patchConfig_eq_ok {entry : String × OrderedMap String String} :
    patchConfig toml c entry = .ok c' ↔
      c.PatchedBy toml (fun s => if s.name = entry.1 then some entry.2 else none) c' := by
  rw [patchConfig]
  cases hname : SectionName.ofName entry.1 with
  | none =>
      have hother := SectionName.ofName_eq_none.mp hname
      simp only [Except.ok.injEq]
      constructor
      · rintro rfl
        exact ⟨rfl, fun _ _ => rfl, fun s own h => by simp [hother s] at h⟩
      · intro h
        exact FileConfig.ext_get h.idp.symm fun s => (h.untouched s (if_neg (hother s))).symm
  | some s =>
      have heq := SectionName.ofName_eq_some.mp hname
      have hother : ∀ {s' : SectionName}, s' ≠ s → s'.name ≠ entry.1 := fun hne hs' =>
        hne (SectionName.name_injective (hs'.trans heq))
      dsimp only
      rw [Outcome.bind_eq_ok]
      constructor
      · rintro ⟨value, hvalue, hset⟩
        obtain rfl : c.set s value = c' := Except.ok.inj hset
        refine ⟨c.set_idp s value, fun s' hs' => ?_, fun s' own hs' => ?_⟩
        · refine FileConfig.get_set_of_ne ?_ c value
          rintro rfl
          rw [if_pos heq.symm] at hs'
          cases hs'
        · by_cases hsame : s' = s
          · subst hsame
            rw [if_pos heq.symm] at hs'
            obtain rfl := Option.some.inj hs'
            rw [FileConfig.get_set_self]
            exact hvalue
          · rw [if_neg (hother hsame)] at hs'
            cases hs'
      · intro h
        refine ⟨c'.get s, h.patched s entry.2 (if_pos heq.symm), congrArg Except.ok ?_⟩
        refine FileConfig.ext_get ((c.set_idp s _).trans h.idp.symm) fun s' => ?_
        by_cases hsame : s' = s
        · subst hsame
          exact FileConfig.get_set_self c _ _
        · rw [FileConfig.get_set_of_ne hsame]
          exact (h.untouched s' (if_neg (hother hsame))).symm

/-- The sections are patched one after the other, and each on its own. -/
theorem foldlM_patchConfig_eq_ok {entries : List (String × OrderedMap String String)}
    (ordered : entries.Pairwise fun a b => a.1 < b.1) :
    entries.foldlM (patchConfig toml) c = .ok c' ↔
      c.PatchedBy toml (fun s => entries.lookup s.name) c' := by
  induction entries generalizing c with
  | nil =>
      constructor
      · intro h
        obtain rfl := Except.ok.inj h
        exact ⟨rfl, fun _ _ => rfl, fun _ _ h => nomatch h⟩
      · intro h
        exact congrArg Except.ok (FileConfig.ext_get h.idp.symm fun s => (h.untouched s rfl).symm)
  | cons entry entries ih =>
      obtain ⟨hentry, hentries⟩ := List.pairwise_cons.mp ordered
      have hlater : ∀ s : SectionName, s.name = entry.1 → entries.lookup s.name = none := by
        intro s hs
        rw [List.lookup_eq_none_iff]
        intro other hother
        exact bne_iff_ne.mpr (hs ▸ (hentry other hother).ne)
      rw [List.foldlM_cons, Outcome.bind_eq_ok]
      simp only [patchConfig_eq_ok, ih hentries, OrderedMap.lookup_entry]
      constructor
      · rintro ⟨middle, hfirst, hrest⟩
        refine ⟨hrest.idp.trans hfirst.idp, fun s hs => ?_, fun s own hs => ?_⟩
        · by_cases hname : s.name = entry.1
          · rw [if_pos hname] at hs
            cases hs
          · rw [if_neg hname] at hs
            rw [hrest.untouched s hs, hfirst.untouched s (if_neg hname)]
        · by_cases hname : s.name = entry.1
          · rw [if_pos hname] at hs
            rw [hrest.untouched s (hlater s hname)]
            exact hfirst.patched s own (by rw [if_pos hname, hs])
          · rw [if_neg hname] at hs
            rw [← hfirst.untouched s (if_neg hname)]
            exact hrest.patched s own hs
      · intro h
        cases hname : SectionName.ofName entry.1 with
        | none =>
            have hother := SectionName.ofName_eq_none.mp hname
            refine ⟨c, ⟨rfl, fun _ _ => rfl, fun s own hs => ?_⟩, h.idp, fun s hs => ?_,
              fun s own hs => ?_⟩
            · rw [if_neg (hother s)] at hs
              cases hs
            · exact h.untouched s (by rw [if_neg (hother s), hs])
            · exact h.patched s own (by rw [if_neg (hother s), hs])
        | some s =>
            have heq := SectionName.ofName_eq_some.mp hname
            have hother : ∀ {s' : SectionName}, s' ≠ s → s'.name ≠ entry.1 := fun hne hs' =>
              hne (SectionName.name_injective (hs'.trans heq))
            have hfirst : patchConfig toml c entry = .ok (c.set s (c'.get s)) := by
              rw [patchConfig, hname]
              exact Outcome.bind_eq_ok.mpr
                ⟨_, h.patched s entry.2 (by rw [if_pos heq.symm]), rfl⟩
            refine ⟨_, patchConfig_eq_ok.mp hfirst, h.idp.trans (c.set_idp s _).symm,
              fun s' hs' => ?_, fun s' own hs' => ?_⟩
            · by_cases hsame : s' = s
              · subst hsame
                rw [FileConfig.get_set_self]
              · rw [FileConfig.get_set_of_ne hsame]
                exact h.untouched s' (by rw [if_neg (hother hsame), hs'])
            · by_cases hsame : s' = s
              · subst hsame
                rw [hlater s' heq.symm] at hs'
                cases hs'
              · rw [FileConfig.get_set_of_ne hsame]
                exact h.patched s' own (by rw [if_neg (hother hsame), hs'])

/-! ## The variables of a section -/

/-- The fields of a section that are named by variables, with the values given to them. -/
def sectionWrites (name : String) (vars : List (String × String)) : List (String × String) :=
  vars.filterMap fun var =>
    (envTarget var.1).bind fun target =>
      if target.1 = name then some (target.2, var.2) else none

theorem sectionWrites_append (name : String) (vars vars' : List (String × String)) :
    sectionWrites name (vars ++ vars') = sectionWrites name vars ++ sectionWrites name vars' :=
  List.filterMap_append

/-- A variable writes to its section alone. -/
theorem sectionWrites_singleton {name : String} (var : String × String)
    {target : String × String} (h : envTarget var.1 = some target) :
    sectionWrites name [var] = if target.1 = name then [(target.2, var.2)] else [] := by
  rw [sectionWrites, List.filterMap_cons, List.filterMap_nil, h, Option.bind_some]
  split <;> split <;> simp_all

/-- What a section is grouped to is what is written to it. -/
theorem get?_groupBySection (name : String) (vars : List (String × String)) :
    (groupBySection vars).get? name =
      if sectionWrites name vars = [] then none else some (.ofList (sectionWrites name vars)) := by
  induction vars using List.reverseRecOn with
  | nil => rfl
  | append_singleton vars var ih =>
      rw [groupBySection, List.foldl_append, ← groupBySection, List.foldl_cons, List.foldl_nil,
        sectionWrites_append]
      cases htarget : envTarget var.1 with
      | none =>
          have hwrites : sectionWrites name [var] = [] := by simp [sectionWrites, htarget]
          rw [hwrites, List.append_nil]
          exact ih
      | some target =>
          rw [sectionWrites_singleton var htarget]
          show ((groupBySection vars).insert target.1 _).get? name = _
          rw [OrderedMap.get?_insert]
          by_cases hname : name = target.1
          · subst hname
            have hsofar : ((groupBySection vars).get? target.1).getD .empty =
                .ofList (sectionWrites target.1 vars) := by
              rw [ih]
              split
              · rename_i hnil
                rw [hnil]
                rfl
              · rfl
            rw [if_pos rfl, if_pos rfl, hsofar, OrderedMap.ofList_concat, if_neg (by simp)]
          · rw [if_neg hname, if_neg (Ne.symm hname), List.append_nil, ih]

/-- The layering patches each section that a variable names, with the writes to it. -/
theorem layerWithEnv_eq_ok {vars : List (String × String)} :
    layerWithEnv toml c vars = .ok c' ↔ c.PatchedBy toml
      (fun s => if sectionWrites s.name vars = [] then none
        else some (.ofList (sectionWrites s.name vars))) c' := by
  rw [layerWithEnv, foldlM_patchConfig_eq_ok (groupBySection vars).ordered]
  have hfound : (fun s : SectionName => (groupBySection vars).entries.lookup s.name) = fun s =>
      if sectionWrites s.name vars = [] then none
      else some (.ofList (sectionWrites s.name vars)) :=
    funext fun s => get?_groupBySection s.name vars
  rw [hfound]

end

end Patroclus
