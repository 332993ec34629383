import Patroclus.Crate.Text
import Mathlib.Algebra.Group.Int.Defs
import Mathlib.Algebra.Group.Nat.Defs

/-!
# TOML values

The values of the `toml` crate, and the numbers and truth values that `str::parse` reads.
What the program never looks into, the value of a float and of a date, is kept as its
literal. The parser of documents is a parameter.
-/

namespace Patroclus

namespace Toml

inductive Value where
  | string (s : String)
  | integer (n : Int64)
  | float (literal : String)
  | boolean (b : Bool)
  | datetime (literal : String)
  | array (items : List Value)
  | table (fields : List (String × Value))

/-- `value.get(key)` -/
def Value.get (key : String) : Value → Option Value
  | .table fields => fields.lookup key
  | _ => none

/-- `toml::from_str`. A value whose text begins with a bracket is an array. -/
structure Parser where
  fromStr : String → Except String Value
  fromStr_array {text : String} {document : Value} :
    text.toList.head? = some '[' → fromStr ("value = " ++ text) = .ok document →
      ∃ items, document.get "value" = some (.array items)

/-- A parser for runs without arrays, which reads no document. -/
def Parser.refusing : Parser where
  fromStr _ := .error "TOML parse error"
  fromStr_array := nofun

end Toml

/-! ## Scalars -/

/-- The digits of a signed text, and whether the sign is a minus. -/
def splitSign : List Char → Bool × List Char
  | '-' :: digits => (true, digits)
  | '+' :: digits => (false, digits)
  | digits => (false, digits)

/-- `text.parse::<i64>().ok()` -/
def parseI64 (text : String) : Option Int64 :=
  let (negative, digits) := splitSign text.toList
  if digits ≠ [] ∧ digits.all Char.isDigit = true then
    let n : Int := Nat.ofDigitChars 10 digits 0
    let value := if negative then -n else n
    if -2 ^ 63 ≤ value ∧ value < 2 ^ 63 then some (.ofInt value) else none
  else none

/-- An exponent, or nothing. -/
def isExponent : List Char → Bool
  | [] => true
  | c :: rest =>
      let digits := (splitSign rest).2
      c.toLower == 'e' && !digits.isEmpty && digits.all Char.isDigit

/-- Digits with at most one point among or around them, and at most one exponent. -/
def isDecimal (cs : List Char) : Bool :=
  let whole := cs.takeWhile Char.isDigit
  match cs.dropWhile Char.isDigit with
  | '.' :: rest =>
      (!whole.isEmpty || !(rest.takeWhile Char.isDigit).isEmpty) &&
        isExponent (rest.dropWhile Char.isDigit)
  | rest => !whole.isEmpty && isExponent rest

/-- `text.parse::<f64>().is_ok()` -/
def isF64 (text : String) : Bool :=
  let unsigned := (splitSign text.toList).2
  ["inf", "infinity", "nan"].contains (String.ofList (unsigned.map Char.toLower)) ||
    isDecimal unsigned

/-- `text.parse::<bool>().ok()` -/
def parseBool (text : String) : Option Bool :=
  if text = "true" then some true else if text = "false" then some false else none

private theorem splitSign_digits {digits : List Char} (h : ∀ c ∈ digits, c.isDigit = true) :
    splitSign digits = (false, digits) := by
  cases digits with
  | nil => rfl
  | cons c rest =>
      have hc := h c List.mem_cons_self
      have hminus : c ≠ '-' := by
        rintro rfl
        cases hc
      have hplus : c ≠ '+' := by
        rintro rfl
        cases hc
      rw [splitSign.eq_3]
      · intro digits hdigits
        exact hminus (List.cons.inj hdigits).1
      · intro digits hdigits
        exact hplus (List.cons.inj hdigits).1

/-- The decimal text of a number in range is read as that number. -/
theorem parseI64_toString {n : Nat} (h : n < 2 ^ 63) :
    parseI64 (toString n) = some (Int64.ofInt n) := by
  have htext : (toString n).toList = Nat.toDigits 10 n := Nat.toList_repr
  have hdigits : ∀ c ∈ Nat.toDigits 10 n, c.isDigit = true := fun c hc =>
    Nat.isDigit_of_mem_toDigits (by decide) (by decide) hc
  have hrange : -2 ^ 63 ≤ (n : Int) ∧ (n : Int) < 2 ^ 63 := by omega
  simp only [parseI64, htext, splitSign_digits hdigits, Nat.ofDigitChars_ten_toDigits]
  rw [if_pos ⟨Nat.toDigits_ne_nil, List.all_eq_true.mpr hdigits⟩]
  simp only [Bool.false_eq_true, if_false]
  rw [if_pos hrange]

example : parseI64 "-42" = some (-42) := by decide +kernel
example : isF64 "1e5" = true ∧ isF64 "." = false := by decide +kernel

end Patroclus
