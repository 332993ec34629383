import Patroclus.Foundation.Hex

/-!
# UUIDs and their hyphenated text

A `Uuid` is a 128-bit value. The program prints ids with `to_string` and inside
`format!`, always in the hyphenated lower-case form of 36 ASCII characters.
Equal texts come from equal ids, so a text such as `agent:<id>` names one agent.
-/

namespace Patroclus

open Foundation

structure Uuid where
  value : BitVec 128
deriving DecidableEq, Repr

namespace Uuid

/-- The default value, `Uuid::nil()`. -/
def nil : Uuid := ⟨0⟩

private def digits (id : Uuid) : List Char := hexDigits 32 id.value.toNat

/-- Hyphens after 8, 12, 16 and 20 digits. -/
private def hyphenate (ds : List Char) : List Char :=
  ds.take 8 ++ '-' :: ((ds.drop 8).take 4 ++ '-' :: ((ds.drop 12).take 4 ++
    '-' :: ((ds.drop 16).take 4 ++ '-' :: ds.drop 20)))

protected def toString (id : Uuid) : String := String.ofList (hyphenate id.digits)

example : (⟨0x0189abcd⟩ : Uuid).toString = "00000000-0000-0000-0000-00000189abcd" := by decide

private theorem filter_hyphenate {ds : List Char} (h : '-' ∉ ds) :
    (hyphenate ds).filter (· ≠ '-') = ds := by
  have keep : ∀ part : List Char, (∀ c ∈ part, c ∈ ds) → part.filter (· ≠ '-') = part := by
    intro part hpart
    rw [List.filter_eq_self]
    intro c hc
    have hne : c ≠ '-' := fun heq => h (heq ▸ hpart c hc)
    simpa using hne
  have take (k n : Nat) := keep ((ds.drop k).take n) fun _ hc =>
    List.mem_of_mem_drop (List.mem_of_mem_take hc)
  simp only [hyphenate, List.filter_append, List.filter_cons, ne_eq, not_true_eq_false,
    decide_false, Bool.false_eq_true, if_false]
  simp only [ne_eq] at keep take
  rw [keep (ds.take 8) fun _ hc => List.mem_of_mem_take hc, take 8 4, take 12 4, take 16 4,
    keep (ds.drop 20) fun _ hc => List.mem_of_mem_drop hc,
    show ds.drop 20 = (ds.drop 16).drop 4 by simp, List.take_append_drop,
    show ds.drop 16 = (ds.drop 12).drop 4 by simp, List.take_append_drop,
    show ds.drop 12 = (ds.drop 8).drop 4 by simp, List.take_append_drop, List.take_append_drop]

theorem toString_injective : Function.Injective Uuid.toString := by
  intro a b h
  have hchars : hyphenate a.digits = hyphenate b.digits := by
    simpa [Uuid.toString] using congrArg String.toList h
  have hfree (id : Uuid) : '-' ∉ id.digits := hyphen_notMem_hexDigits 32 id.value.toNat
  have hdigits : a.digits = b.digits := by
    rw [← filter_hyphenate (hfree a), ← filter_hyphenate (hfree b), hchars]
  have hvalue : a.value.toNat = b.value.toNat :=
    hexDigits_injective a.value.isLt b.value.isLt hdigits
  cases a
  cases b
  exact congrArg Uuid.mk (BitVec.eq_of_toNat_eq hvalue)

/-- Reads the text that `toString` prints, and nothing else. -/
def parse (text : String) : Option Uuid :=
  let id : Uuid := ⟨BitVec.ofNat 128 (hexNumber (text.toList.filter (· ≠ '-')))⟩
  if id.toString = text then some id else none

theorem parse_toString (id : Uuid) : parse id.toString = some id := by
  have hvalue : hexNumber (id.toString.toList.filter (· ≠ '-')) = id.value.toNat := by
    have hfree : '-' ∉ id.digits := hyphen_notMem_hexDigits 32 id.value.toNat
    rw [Uuid.toString, String.toList_ofList, filter_hyphenate hfree]
    exact hexNumber_hexDigits id.value.isLt
  rw [parse, hvalue, BitVec.ofNat_toNat, BitVec.setWidth_eq]
  exact if_pos rfl

@[simp] theorem length_toString (id : Uuid) : id.toString.toList.length = 36 := by
  simp [Uuid.toString, hyphenate, digits]

end Uuid

end Patroclus
