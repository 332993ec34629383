import Mathlib.Algebra.Order.Ring.Int
import Mathlib.Data.List.Basic

/-!
# Fixed-width lower-case hexadecimal

`hexDigits width n` prints the `width` low hexadecimal digits of `n`, the most
significant first. On numbers below `16 ^ width` nothing is lost, so printing
bytes two digits at a time is injective as well.
-/

namespace Foundation

def hexDigit (n : Nat) : Char := if n < 10 then Char.ofNat (48 + n) else Char.ofNat (87 + n)

def hexDigits : Nat → Nat → List Char
  | 0, _ => []
  | width + 1, n => hexDigits width (n / 16) ++ [hexDigit (n % 16)]

/-- Two digits for each byte. -/
def hexBytes (bytes : List UInt8) : List Char := bytes.flatMap fun byte => hexDigits 2 byte.toNat

@[simp] theorem length_hexDigits (width n : Nat) : (hexDigits width n).length = width := by
  induction width generalizing n with
  | zero => rfl
  | succ width ih => simp [hexDigits, ih]

@[simp] theorem length_hexBytes (bytes : List UInt8) :
    (hexBytes bytes).length = 2 * bytes.length := by
  simp [hexBytes, Nat.mul_comm]

def hexValue (c : Char) : Nat := if c.toNat < 58 then c.toNat - 48 else c.toNat - 87

/-- The number that a list of digits prints. -/
def hexNumber (digits : List Char) : Nat := digits.foldl (fun acc c => 16 * acc + hexValue c) 0

private theorem hexValue_hexDigit : ∀ a < 16, hexValue (hexDigit a) = a := by decide

theorem hexNumber_hexDigits {width n : Nat} (h : n < 16 ^ width) :
    hexNumber (hexDigits width n) = n := by
  induction width generalizing n with
  | zero => exact (Nat.lt_one_iff.mp h).symm
  | succ width ih =>
      have hhigh := ih (n := n / 16) (by rw [Nat.pow_succ] at h; omega)
      simp only [hexNumber] at hhigh
      simp only [hexNumber, hexDigits, List.foldl_append, hhigh, List.foldl_cons, List.foldl_nil,
        hexValue_hexDigit _ (Nat.mod_lt n (by decide : 0 < 16))]
      omega

private theorem hexDigit_ne_hyphen : ∀ a < 16, hexDigit a ≠ '-' := by decide

theorem hexDigits_injective {width a b : Nat} (ha : a < 16 ^ width) (hb : b < 16 ^ width)
    (h : hexDigits width a = hexDigits width b) : a = b := by
  rw [← hexNumber_hexDigits ha, h, hexNumber_hexDigits hb]

theorem hyphen_notMem_hexDigits (width n : Nat) : '-' ∉ hexDigits width n := by
  induction width generalizing n with
  | zero => simp [hexDigits]
  | succ width ih =>
      simp only [hexDigits, List.mem_append, List.mem_singleton, not_or]
      exact ⟨ih _, fun h => hexDigit_ne_hyphen _ (Nat.mod_lt _ (by decide)) h.symm⟩

theorem hexBytes_injective : Function.Injective hexBytes := by
  intro xs
  induction xs with
  | nil =>
      intro ys h
      cases ys with
      | nil => rfl
      | cons y ys => simp [hexBytes, hexDigits] at h
  | cons x xs ih =>
      intro ys h
      cases ys with
      | nil => simp [hexBytes, hexDigits] at h
      | cons y ys =>
          obtain ⟨hhead, htail⟩ := List.append_inj h (by simp)
          have hbyte : x.toNat = y.toNat :=
            hexDigits_injective (Nat.lt_of_lt_of_le x.toNat_lt (by decide))
              (Nat.lt_of_lt_of_le y.toNat_lt (by decide)) hhead
          rw [UInt8.toNat_inj.mp hbyte, ih htail]

end Foundation
