import Patroclus.Crate.Json
import Patroclus.Crate.Uuid

/-!
# Reading JSON documents into structs

What the derived `Deserialize` of a struct makes of a document. Here the fields of an object
stand in the order of the document, and a key may be repeated. A struct is read from an
object, whose unknown fields are skipped and in which none of its own fields may be repeated,
or from an array of its fields in the order of their declaration.
-/

namespace Patroclus

namespace Serde

/-- A field by its name, with whether it is marked as `default`. -/
structure Field where
  name : String
  default : Bool
deriving DecidableEq, Repr

/-- A field without the mark. -/
def plain (name : String) : Field := ⟨name, false⟩

/-- The values that a document gives the fields of a struct. In an array the fields at the end
may be missing, if they are marked. -/
def structFields (fields : List Field) : Json → Option (String → Option Json)
  | .object entries =>
      if fields.all fun f => entries.countP (·.1 == f.name) ≤ 1 then
        some fun name => entries.lookup name
      else none
  | .array items =>
      if items.length ≤ fields.length ∧ (fields.drop items.length).all (·.default) then
        some fun name => items[fields.findIdx (·.name == name)]?
      else none
  | _ => none

section

variable {α : Type}

/-- A field of a type that has no value for a missing field. -/
def required (read : Json → Option α) (value : Option Json) : Option α := value.bind read

/-- A field of an `Option` type: nothing and `null` are `None`. -/
def nullable (read : Json → Option α) : Option Json → Option (Option α)
  | none | some .null => some none
  | some value => (read value).map some

/-- A field with a value for when it is missing. -/
def orDefault (default : α) (read : Json → Option α) : Option Json → Option α
  | none => some default
  | some value => read value

/-- `Vec<T>` -/
def vec (read : Json → Option α) (value : Json) : Option (List α) :=
  value.asArray.bind fun items => items.mapM read

def strings : Json → Option (List String) := vec Json.asStr

/-- A variant without fields, by its name or as the key of `null`. -/
def variant (variants : List (String × α)) : Json → Option α
  | .string name => variants.lookup name
  | .object [(name, .null)] => variants.lookup name
  | _ => none

end

def f64 : Json → Option F64
  | .number (.posInt n) => some (.ofInt n)
  | .number (.negInt n) => some (.ofInt n)
  | .number (.float x) => some x
  | _ => none

mutual

/-- `serde_json::Value`: the last value of a repeated key stands. -/
def value : Json → Json
  | .array items => .array (values items)
  | .object entries => .object (collect [] entries)
  | document => document

def values : List Json → List Json
  | [] => []
  | item :: items => value item :: values items

def collect (map : List (String × Json)) : List (String × Json) → List (String × Json)
  | [] => map
  | (key, item) :: entries => collect (Json.insertField key (value item) map) entries

end

/-- The values of named parameters, where no name that is read may be repeated. -/
def parameter (name : String) (pairs : List (String × String)) : Option String :=
  if pairs.countP (·.1 == name) ≤ 1 then pairs.lookup name else none

/-! ## Reading what was written -/

section

variable {α : Type} {read : Json → Option α} {write : α → Json}

/-- An object in which no key is repeated is read field by field. -/
theorem structFields_object {fields : List Field} {entries : List (String × Json)}
    (nodup : (entries.map (·.1)).Nodup) :
    structFields fields (.object entries) = some fun name => entries.lookup name := by
  rw [structFields, if_pos]
  rw [List.all_eq_true]
  intro f _
  rw [decide_eq_true_eq]
  have hcount : (entries.map (·.1)).count f.name ≤ 1 := List.nodup_iff_count.mp nodup f.name
  rwa [List.count, List.countP_map] at hcount

/-- A key is looked up past the keys that it is not. -/
@[simp] theorem lookup_cons_of_ne {β : Type} {key other : String} {item : β}
    {entries : List (String × β)} (h : key ≠ other) :
    ((other, item) :: entries).lookup key = entries.lookup key := by
  rw [List.lookup_cons, beq_eq_false_iff_ne.mpr h]

@[simp] theorem required_some (read : Json → Option α) (document : Json) :
    required read (some document) = read document := rfl

@[simp] theorem nullable_none (read : Json → Option α) : nullable read none = some none := rfl

@[simp] theorem nullable_string (read : Json → Option α) (s : String) :
    nullable read (some (.string s)) = (read (.string s)).map some := rfl

@[simp] theorem nullable_object (read : Json → Option α) (entries : List (String × Json)) :
    nullable read (some (.object entries)) = (read (.object entries)).map some := rfl

theorem vec_map (roundTrip : ∀ a, read (write a) = some a) (items : List α) :
    vec read (.array (items.map write)) = some items := by
  rw [vec, Json.asArray, Option.bind_some]
  induction items with
  | nil => rfl
  | cons a items ih =>
      rw [List.map_cons, List.mapM_cons, roundTrip, ih]
      rfl

theorem strings_map (items : List String) :
    strings (.array (items.map .string)) = some items :=
  vec_map (fun s : String => (rfl : Json.asStr (.string s) = some s)) items

end

end Serde

end Patroclus
