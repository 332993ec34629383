import Mathlib.Algebra.Order.Ring.Int
import Mathlib.Data.Char
import Mathlib.Data.List.Lex
import Mathlib.Data.Nat.Log
import Mathlib.Tactic.Tauto

/-!
# Decimal digits in order

Digits written in a fixed width are ordered as the numbers are, so a record of such fields is
ordered as its numbers are, field by field. Digits of different width are not. What follows the
digits decides where one text ends first: it keeps the order of texts whose trailing zeros have
been dropped if it comes before every digit.
-/

namespace Foundation

/-! ## Lexicographic order -/

section

variable {α : Type*} [LinearOrder α] {xs ys us vs : List α} {z mark : α}

theorem append_lt_append_iff (same : xs.length = ys.length) :
    xs ++ us < ys ++ vs ↔ xs < ys ∨ xs = ys ∧ us < vs := by
  induction xs generalizing ys with
  | nil =>
      obtain rfl : ys = [] := List.eq_nil_of_length_eq_zero same.symm
      simp
  | cons x xs ih =>
      obtain ⟨y, ys, rfl⟩ := List.exists_cons_of_length_eq_add_one same.symm
      rw [List.cons_append, List.cons_append, List.cons_lt_cons_iff, List.cons_lt_cons_iff,
        ih (Nat.succ.inj same), List.cons.injEq]
      tauto

/-- A mark below every element ends a sequence without changing the order. -/
theorem append_mark_lt_iff (hxs : ∀ x ∈ xs, mark < x) (hys : ∀ y ∈ ys, mark < y) :
    xs ++ mark :: us < ys ++ mark :: vs ↔ xs < ys ∨ xs = ys ∧ us < vs := by
  induction xs generalizing ys with
  | nil =>
      cases ys with
      | nil => simp
      | cons y ys => simp [List.cons_lt_cons_iff, hys y List.mem_cons_self]
  | cons x xs ih =>
      have hx := hxs x List.mem_cons_self
      cases ys with
      | nil => simp [List.cons_lt_cons_iff, hx.ne', not_lt_of_gt hx]
      | cons y ys =>
          rw [List.cons_append, List.cons_append, List.cons_lt_cons_iff, List.cons_lt_cons_iff,
            ih (fun c hc => hxs c (List.mem_cons_of_mem x hc))
              (fun c hc => hys c (List.mem_cons_of_mem y hc)), List.cons.injEq]
          tauto

/-- Nothing of the same length is below a sequence of zeros. -/
theorem not_lt_zeros (same : xs.length = ys.length) (hxs : ∀ x ∈ xs, z ≤ x)
    (zeros : ∀ y ∈ ys, y = z) : ¬ xs < ys := by
  induction xs generalizing ys with
  | nil =>
      obtain rfl : ys = [] := List.eq_nil_of_length_eq_zero same.symm
      exact List.not_lt_nil _
  | cons x xs ih =>
      obtain ⟨y, ys, rfl⟩ := List.exists_cons_of_length_eq_add_one same.symm
      rw [List.cons_lt_cons_iff, zeros y List.mem_cons_self]
      rintro (hlt | ⟨-, hlt⟩)
      · exact absurd hlt (not_lt_of_ge (hxs x List.mem_cons_self))
      · exact ih (Nat.succ.inj same) (fun c hc => hxs c (List.mem_cons_of_mem x hc))
          (fun c hc => zeros c (List.mem_cons_of_mem y hc)) hlt

/-- Dropping trailing zeros keeps the order if a smaller mark follows. -/
theorem take_append_mark_lt {j k : Nat} (same : xs.length = ys.length)
    (hxs : ∀ x ∈ xs, z ≤ x) (hmark : mark < z) (hys : ∀ y ∈ ys, z ≤ y)
    (zeros : ∀ y ∈ ys.drop k, y = z) (h : xs < ys) :
    xs.take j ++ mark :: us < ys.take k ++ mark :: vs := by
  induction xs generalizing ys j k with
  | nil =>
      obtain rfl : ys = [] := List.eq_nil_of_length_eq_zero same.symm
      exact absurd h (List.not_lt_nil _)
  | cons x xs ih =>
      obtain ⟨y, ys, rfl⟩ := List.exists_cons_of_length_eq_add_one same.symm
      cases k with
      | zero => exact absurd h (not_lt_zeros same hxs zeros)
      | succ k =>
          cases j with
          | zero =>
              rw [List.take_zero, List.nil_append, List.take_succ_cons, List.cons_append,
                List.cons_lt_cons_iff]
              exact .inl (hmark.trans_le (hys y List.mem_cons_self))
          | succ j =>
              rw [List.take_succ_cons, List.take_succ_cons, List.cons_append, List.cons_append,
                List.cons_lt_cons_iff]
              obtain hlt | ⟨heq, hlt⟩ := List.cons_lt_cons_iff.mp h
              · exact .inl hlt
              · exact .inr ⟨heq, ih (Nat.succ.inj same)
                  (fun c hc => hxs c (List.mem_cons_of_mem x hc))
                  (fun c hc => hys c (List.mem_cons_of_mem y hc)) zeros hlt⟩

end

/-! ## Digits of a fixed width -/

/-- The decimal digits of a number below `10 ^ width`, with leading zeros. -/
def digits : Nat → Nat → List Char
  | 0, _ => []
  | width + 1, n => (n / 10 ^ width).digitChar :: digits width (n % 10 ^ width)

section

variable {width n m : Nat}

@[simp] theorem length_digits : (digits width n).length = width := by
  induction width generalizing n with
  | zero => rfl
  | succ width ih => rw [digits, List.length_cons, ih]

theorem digitChar_lt_iff {d e : Nat} (hd : d < 10) (he : e < 10) :
    d.digitChar < e.digitChar ↔ d < e := by
  have hall : ∀ d < 10, ∀ e < 10, Nat.digitChar d < Nat.digitChar e ↔ d < e := by decide
  exact hall d hd e he

theorem digitChar_inj {d e : Nat} (hd : d < 10) (he : e < 10) (h : d.digitChar = e.digitChar) :
    d = e := by
  obtain hlt | heq | hgt := Nat.lt_trichotomy d e
  · exact absurd h ((digitChar_lt_iff hd he).mpr hlt).ne
  · exact heq
  · exact absurd h ((digitChar_lt_iff he hd).mpr hgt).ne'

theorem lead_lt (h : n < 10 ^ (width + 1)) : n / 10 ^ width < 10 := by
  rw [Nat.div_lt_iff_lt_mul (Nat.pow_pos (by decide)), ← Nat.pow_succ']
  exact h

theorem rest_lt : n % 10 ^ width < 10 ^ width := Nat.mod_lt _ (Nat.pow_pos (by decide))

/-- The digits of a number are digits. -/
theorem isDigit_of_mem_digits {c : Char} (h : n < 10 ^ width) (hc : c ∈ digits width n) :
    c.isDigit = true := by
  induction width generalizing n with
  | zero => cases hc
  | succ width ih =>
      rw [digits, List.mem_cons] at hc
      obtain rfl | hc := hc
      · rw [Nat.isDigit_digitChar]
        exact decide_eq_true (lead_lt h)
      · exact ih rest_lt hc

theorem digits_zero : digits width 0 = List.replicate width '0' := by
  induction width with
  | zero => rfl
  | succ width ih => rw [digits, Nat.zero_div, Nat.zero_mod, ih]; rfl

/-- Numbers are ordered by their leading digit and then by the rest. -/
theorem lt_iff_lead_rest : n < m ↔ n / 10 ^ width < m / 10 ^ width ∨
    n / 10 ^ width = m / 10 ^ width ∧ n % 10 ^ width < m % 10 ^ width := by
  have hn := Nat.div_add_mod n (10 ^ width)
  have hm := Nat.div_add_mod m (10 ^ width)
  have hnr : n % 10 ^ width < 10 ^ width := rest_lt
  have hmr : m % 10 ^ width < 10 ^ width := rest_lt
  obtain hlt | heq | hgt := Nat.lt_trichotomy (n / 10 ^ width) (m / 10 ^ width)
  · have hstep : 10 ^ width * (n / 10 ^ width + 1) ≤ 10 ^ width * (m / 10 ^ width) :=
      Nat.mul_le_mul_left _ hlt
    rw [Nat.mul_add, Nat.mul_one] at hstep
    omega
  · rw [heq] at hn ⊢
    omega
  · have hstep : 10 ^ width * (m / 10 ^ width + 1) ≤ 10 ^ width * (n / 10 ^ width) :=
      Nat.mul_le_mul_left _ hgt
    rw [Nat.mul_add, Nat.mul_one] at hstep
    omega

/-- In a fixed width the digits are ordered as the numbers. -/
theorem digits_lt_iff (hn : n < 10 ^ width) (hm : m < 10 ^ width) :
    digits width n < digits width m ↔ n < m := by
  induction width generalizing n m with
  | zero =>
      obtain rfl : n = m := by omega
      exact iff_of_false (List.not_lt_nil _) (Nat.lt_irrefl n)
  | succ width ih =>
      have hlead : (n / 10 ^ width).digitChar = (m / 10 ^ width).digitChar ↔
          n / 10 ^ width = m / 10 ^ width :=
        ⟨digitChar_inj (lead_lt hn) (lead_lt hm), fun h => by rw [h]⟩
      rw [digits, digits, List.cons_lt_cons_iff, ih rest_lt rest_lt,
        digitChar_lt_iff (lead_lt hn) (lead_lt hm), hlead]
      exact lt_iff_lead_rest.symm

theorem digits_inj (hn : n < 10 ^ width) (hm : m < 10 ^ width)
    (h : digits width n = digits width m) : n = m := by
  obtain hlt | heq | hgt := Nat.lt_trichotomy n m
  · exact absurd h ((digits_lt_iff hn hm).mpr hlt).ne
  · exact heq
  · exact absurd h ((digits_lt_iff hm hn).mpr hgt).ne'

theorem digits_add {a b : Nat} (h : n < 10 ^ (a + b)) :
    digits (a + b) n = digits a (n / 10 ^ b) ++ digits b (n % 10 ^ b) := by
  induction a generalizing n with
  | zero =>
      rw [Nat.zero_add] at h ⊢
      rw [Nat.mod_eq_of_lt h]
      rfl
  | succ a ih =>
      have hlead : n / 10 ^ (a + b) = n / 10 ^ b / 10 ^ a := by
        rw [Nat.div_div_eq_div_mul, ← Nat.pow_add, Nat.add_comm]
      have hrest : n % 10 ^ (a + b) / 10 ^ b = n / 10 ^ b % 10 ^ a := by
        rw [Nat.add_comm, Nat.pow_add, Nat.mod_mul_right_div_self]
      have hlast : n % 10 ^ (a + b) % 10 ^ b = n % 10 ^ b := by
        rw [Nat.add_comm, Nat.pow_add, Nat.mod_mul_right_mod]
      rw [Nat.succ_add, digits, digits, ih rest_lt, List.cons_append, hlead, hrest, hlast]

/-- The digits of a number with trailing zeros are those of its quotient, and zeros. -/
theorem digits_of_mod_eq_zero {a b : Nat} (h : n < 10 ^ (a + b)) (zeros : n % 10 ^ b = 0) :
    (digits (a + b) n).take a = digits a (n / 10 ^ b) ∧
      ∀ c ∈ (digits (a + b) n).drop a, c = '0' := by
  rw [digits_add h, zeros, digits_zero]
  constructor
  · exact List.take_left' length_digits
  · rw [List.drop_left' length_digits]
    exact fun c hc => List.eq_of_mem_replicate hc

end

end Foundation
