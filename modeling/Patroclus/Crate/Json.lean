import Patroclus.Crate.F64
import Mathlib.Data.List.Basic

/-!
# JSON values

The values of `serde_json`. An object is kept as its fields in key order, which
is the order in which the crate's map iterates and prints. `insertField` is the
map's `insert`: the last value written for a key is the one that is read.
-/

namespace Patroclus

inductive JsonNumber where
  | posInt (n : Nat)
  | negInt (n : Int)
  | float (x : F64)
deriving DecidableEq, Repr

inductive Json where
  | null
  | bool (b : Bool)
  | number (n : JsonNumber)
  | string (s : String)
  | array (items : List Json)
  | object (fields : List (String × Json))
deriving Repr

namespace Json

-- The deriving handler does not reach through the nested lists.
mutual

private def decEq : (a b : Json) → Decidable (a = b)
  | .null, .null => isTrue rfl
  | .bool a, .bool b => decidable_of_iff (a = b) (by simp)
  | .number a, .number b => decidable_of_iff (a = b) (by simp)
  | .string a, .string b => decidable_of_iff (a = b) (by simp)
  | .array a, .array b =>
      have := decEqList a b
      decidable_of_iff (a = b) (by simp)
  | .object a, .object b =>
      have := decEqFields a b
      decidable_of_iff (a = b) (by simp)
  | .null, .bool _ | .null, .number _ | .null, .string _ | .null, .array _ | .null, .object _
  | .bool _, .null | .bool _, .number _ | .bool _, .string _ | .bool _, .array _
  | .bool _, .object _ | .number _, .null | .number _, .bool _ | .number _, .string _
  | .number _, .array _ | .number _, .object _ | .string _, .null | .string _, .bool _
  | .string _, .number _ | .string _, .array _ | .string _, .object _ | .array _, .null
  | .array _, .bool _ | .array _, .number _ | .array _, .string _ | .array _, .object _
  | .object _, .null | .object _, .bool _ | .object _, .number _ | .object _, .string _
  | .object _, .array _ => isFalse nofun

private def decEqList : (a b : List Json) → Decidable (a = b)
  | [], [] => isTrue rfl
  | x :: xs, y :: ys =>
      have := decEq x y
      have := decEqList xs ys
      decidable_of_iff (x = y ∧ xs = ys) (by simp)
  | [], _ :: _ | _ :: _, [] => isFalse nofun

private def decEqFields : (a b : List (String × Json)) → Decidable (a = b)
  | [], [] => isTrue rfl
  | (k, x) :: xs, (l, y) :: ys =>
      have := decEq x y
      have := decEqFields xs ys
      decidable_of_iff (k = l ∧ x = y ∧ xs = ys) (by simp [and_assoc])
  | [], _ :: _ | _ :: _, [] => isFalse nofun

end

instance : DecidableEq Json := decEq

/-- `Map::insert`, on fields kept in key order. -/
def insertField (key : String) (value : Json) : List (String × Json) → List (String × Json)
  | [] => [(key, value)]
  | (k, v) :: rest =>
      if key < k then (key, value) :: (k, v) :: rest
      else if key = k then (key, value) :: rest
      else (k, v) :: insertField key value rest

/-- The value an object holds for a key; other values hold none. -/
def field (key : String) : Json → Option Json
  | .object fields => fields.lookup key
  | _ => none

/-- `as_str` -/
def asStr : Json → Option String
  | .string s => some s
  | _ => none

/-- `as_array` -/
def asArray : Json → Option (List Json)
  | .array items => some items
  | _ => none

/-- `as_bool` -/
def asBool : Json → Option Bool
  | .bool b => some b
  | _ => none

/-- `as_u64` -/
def asU64 : Json → Option Nat
  | .number (.posInt n) => some n
  | _ => none

@[simp] theorem lookup_insertField_self (key : String) (value : Json)
    (fields : List (String × Json)) : (insertField key value fields).lookup key = some value := by
  induction fields with
  | nil => simp [insertField]
  | cons head rest ih =>
      obtain ⟨k, v⟩ := head
      simp only [insertField]
      split
      · simp
      · split
        · simp
        · rename_i hne
          rw [List.lookup_cons]
          have hbeq : (key == k) = false := by simpa using hne
          rw [hbeq, ih]

theorem lookup_insertField_of_ne {key other : String} (h : other ≠ key) (value : Json)
    (fields : List (String × Json)) :
    (insertField key value fields).lookup other = fields.lookup other := by
  have hbeq : (other == key) = false := by simpa using h
  induction fields with
  | nil => simp [insertField, List.lookup_cons, hbeq]
  | cons head rest ih =>
      obtain ⟨k, v⟩ := head
      simp only [insertField]
      split
      · rw [List.lookup_cons, hbeq]
      · split
        · rename_i heq
          subst heq
          simp only [List.lookup_cons, hbeq]
        · simp only [List.lookup_cons, ih]

end Json

end Patroclus
