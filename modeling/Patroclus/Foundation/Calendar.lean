import Mathlib.Algebra.BigOperators.Group.List.Basic
import Mathlib.Algebra.Order.Ring.Int
import Mathlib.Data.Int.ConditionallyCompleteOrder
import Mathlib.Order.ConditionallyCompleteLattice.Basic

/-!
# The proleptic Gregorian calendar

Days are counted from the first day of year 0. A day lies in the year whose first day is the
last one that is not after it, and in the month in which the lengths of the months before it
are used up. Later days have later dates, in the order of year, month and day.
-/

namespace Foundation

namespace Calendar

/-- The first day of a year. -/
def daysBefore (year : Int) : Int :=
  365 * year + (year + 3) / 4 - (year + 99) / 100 + (year + 399) / 400

def isLeap (year : Int) : Bool := (year % 4 == 0 && year % 100 != 0) || year % 400 == 0

/-- The year of a day. The quotient is off by one at most. -/
def yearOf (day : Int) : Int :=
  let year := 400 * day / 146097
  if day < daysBefore year then year - 1
  else if daysBefore (year + 1) ≤ day then year + 1
  else year

def monthLengths (leap : Bool) : List Nat :=
  [31, if leap then 29 else 28, 31, 30, 31, 30, 31, 31, 30, 31, 30, 31]

/-- The month and the day of the month, for a day that is counted from the first day of
`month`. -/
def monthDay : List Nat → Nat → Nat → Nat × Nat
  | [], month, day => (month, day + 1)
  | length :: lengths, month, day =>
      if day < length then (month, day + 1) else monthDay lengths (month + 1) (day - length)

/-! ## Years -/

section

variable {day day' year : Int}

theorem daysBefore_succ (year : Int) :
    daysBefore (year + 1) = daysBefore year + if isLeap year then 366 else 365 := by
  simp only [daysBefore, isLeap, Bool.or_eq_true, Bool.and_eq_true, beq_iff_eq, bne_iff_ne]
  split <;> omega

theorem daysBefore_strictMono : StrictMono daysBefore := by
  refine strictMono_int_of_lt_succ fun year => ?_
  rw [daysBefore_succ]
  split <;> omega

/-- The quotient by the mean length of a year is at most one year away. -/
theorem quotient_near (h : year = 400 * day / 146097) :
    daysBefore (year - 1) ≤ day ∧ day < daysBefore (year + 1 + 1) := by
  have hquotient : 146097 * year ≤ 400 * day ∧ 400 * day < 146097 * year + 146097 := by omega
  simp only [daysBefore]
  constructor
  · omega
  · omega

theorem yearOf_spec (day : Int) : daysBefore (yearOf day) ≤ day ∧
    day < daysBefore (yearOf day + 1) := by
  obtain ⟨hlow, hhigh⟩ := @quotient_near day _ rfl
  rw [yearOf]
  split
  · rename_i hbefore
    rw [Int.sub_add_cancel]
    exact ⟨hlow, hbefore⟩
  · rename_i hsame
    split
    · rename_i hafter
      exact ⟨hafter, hhigh⟩
    · rename_i hnot
      exact ⟨Int.not_lt.mp hsame, Int.not_le.mp hnot⟩

/-- Years follow the order of the days. -/
theorem yearOf_mono (h : day ≤ day') : yearOf day ≤ yearOf day' := by
  have hlt : daysBefore (yearOf day) < daysBefore (yearOf day' + 1) :=
    lt_of_le_of_lt (yearOf_spec day).1 (lt_of_le_of_lt h (yearOf_spec day').2)
  exact Int.lt_add_one_iff.mp (daysBefore_strictMono.lt_iff_lt.mp hlt)

end

/-! ## Months -/

section

variable {lengths : List Nat} {month day day' : Nat}

theorem le_monthDay : month ≤ (monthDay lengths month day).1 := by
  induction lengths generalizing month day with
  | nil => exact Nat.le_refl month
  | cons length lengths ih =>
      rw [monthDay]
      split
      · exact Nat.le_refl month
      · exact Nat.le_of_succ_le ih

/-- Later days have later months, or later days in the same month. -/
theorem monthDay_lt (h : day < day') :
    (monthDay lengths month day).1 < (monthDay lengths month day').1 ∨
      (monthDay lengths month day).1 = (monthDay lengths month day').1 ∧
        (monthDay lengths month day).2 < (monthDay lengths month day').2 := by
  induction lengths generalizing month day day' with
  | nil => exact .inr ⟨rfl, Nat.succ_lt_succ h⟩
  | cons length lengths ih =>
      rw [monthDay, monthDay]
      split
      · split
        · exact .inr ⟨rfl, Nat.succ_lt_succ h⟩
        · exact .inl le_monthDay
      · rw [if_neg (by omega)]
        exact ih (by omega)

/-- A day within the months has one of their numbers, and a day of the month. -/
theorem monthDay_bounds {longest : Nat} (short : ∀ length ∈ lengths, length ≤ longest)
    (h : day < lengths.sum) : (monthDay lengths month day).1 < month + lengths.length ∧
      (monthDay lengths month day).2 ≤ longest := by
  induction lengths generalizing month day with
  | nil => cases h
  | cons length lengths ih =>
      rw [List.sum_cons] at h
      rw [monthDay, List.length_cons]
      split
      · rename_i hday
        have hlength := short length List.mem_cons_self
        exact ⟨by omega, by omega⟩
      · obtain ⟨hmonth, hlongest⟩ := @ih (month + 1) (day - length)
          (fun l hl => short l (List.mem_cons_of_mem length hl)) (by omega)
        exact ⟨by omega, hlongest⟩

/-- The lengths of the months add up to the length of the year. -/
theorem daysBefore_succ_eq_sum (year : Int) : daysBefore (year + 1) =
    daysBefore year + ((monthLengths (isLeap year)).sum : Nat) := by
  rw [daysBefore_succ]
  cases isLeap year with
  | false => rfl
  | true => rfl

end

end Calendar

end Foundation
