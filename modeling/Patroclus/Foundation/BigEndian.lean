import Mathlib.Data.Nat.Digits.Lemmas

/-!
# Numbers as bytes

The bytes of a number, the most significant one first. None of them is left out and none is
added; zero is one byte.
-/

namespace Foundation.BigEndian

def bytes (n : Nat) : List UInt8 :=
  if n = 0 then [0] else (Nat.digits 256 n).reverse.map UInt8.ofNat

/-- The number that bytes stand for. -/
def value (bytes : List UInt8) : Nat := Nat.ofDigits 256 (bytes.reverse.map UInt8.toNat)

theorem map_toNat_ofNat {digits : List Nat} (h : ∀ digit ∈ digits, digit < 256) :
    (digits.map UInt8.ofNat).map UInt8.toNat = digits := by
  rw [List.map_map]
  conv_rhs => rw [← List.map_id digits]
  exact List.map_congr_left fun digit hdigit => UInt8.toNat_ofNat_of_lt (h digit hdigit)

/-- The bytes of a number stand for it. -/
theorem value_bytes (n : Nat) : value (bytes n) = n := by
  rw [bytes]
  split
  · rename_i hzero
    rw [hzero]
    rfl
  · rw [value, ← List.map_reverse, List.reverse_reverse,
      map_toNat_ofNat fun digit hdigit => Nat.digits_lt_base (by decide) hdigit,
      Nat.ofDigits_digits]

end Foundation.BigEndian
