import Mathlib.Algebra.Order.Ring.Int
import Mathlib.Data.Int.ConditionallyCompleteOrder
import Mathlib.Order.ConditionallyCompleteLattice.Basic

/-!
# Instants and durations

An `Instant` is a `DateTime<Utc>`: nanoseconds since the Unix epoch. The
arithmetic that can panic in `chrono` returns `none` there: a duration outside
`i64` milliseconds, a sum outside the range of dates.
-/

namespace Patroclus

/-- `n as i64` for a `u64` value `n`. -/
def asI64 (n : Nat) : Int :=
  if n % 2 ^ 64 < 2 ^ 63 then (n % 2 ^ 64 : Nat) else (n % 2 ^ 64 : Nat) - 2 ^ 64

theorem asI64_lt (n : Nat) : asI64 n < 2 ^ 63 := by
  rw [asI64]
  split <;> omega

theorem asI64_of_lt {n : Nat} (h : n < 2 ^ 63) : asI64 n = n := by
  rw [asI64]
  split <;> omega

/-- Nanoseconds since the epoch. -/
abbrev Instant : Type := Int

/-- `Duration::seconds`, in nanoseconds; out of range it panics. -/
def durationSeconds (seconds : Int) : Option Int :=
  if -(2 ^ 63 / 1000) ≤ seconds ∧ seconds ≤ (2 ^ 63 - 1) / 1000 then some (seconds * 1000000000)
  else none

namespace Instant

def minUtc : Instant := -8334601228800 * 1000000000

def maxUtc : Instant := 8210266876799 * 1000000000 + 999999999

/-- Whole seconds since the epoch, rounded down. -/
def timestamp (t : Instant) : Int := t / 1000000000

/-- `t + Duration::seconds(seconds)`; `none` is a panic. -/
def addSeconds (t : Instant) (seconds : Int) : Option Instant := do
  let sum := t + (← durationSeconds seconds)
  if minUtc ≤ sum ∧ sum ≤ maxUtc then some sum else none

/-- `DateTime::from_timestamp(seconds, 0)`. -/
def fromTimestamp (seconds : Int) : Option Instant :=
  let t := seconds * 1000000000
  if minUtc ≤ t ∧ t ≤ maxUtc then some t else none

/-- `(later - earlier).num_seconds()`: whole seconds, truncated towards zero. -/
def secondsSince (later earlier : Instant) : Int := (later - earlier).tdiv 1000000000

/-- Below zero nothing is left of a number of seconds that is read as unsigned. -/
theorem toNat_secondsSince (later earlier : Instant) :
    (later.secondsSince earlier).toNat = ((later - earlier) / 1000000000).toNat := by
  rw [secondsSince]
  obtain hnonneg | hneg := Int.le_total 0 (later - earlier)
  · rw [Int.tdiv_eq_ediv_of_nonneg hnonneg]
  · have htrunc : (later - earlier).tdiv 1000000000 ≤ 0 := by
      rw [← Int.neg_neg (later - earlier), Int.neg_tdiv]
      exact Int.neg_nonpos_of_nonneg (Int.tdiv_nonneg (Int.neg_nonneg_of_nonpos hneg) (by decide))
    have hfloor : (later - earlier) / 1000000000 ≤ 0 :=
      Int.ediv_nonpos_of_nonpos_of_neg hneg (by decide)
    rw [Int.toNat_of_nonpos htrunc, Int.toNat_of_nonpos hfloor]

/-- A sum is computed if the seconds make a duration and the sum is a date. -/
theorem addSeconds_eq_some {t sum : Instant} {seconds : Int} :
    t.addSeconds seconds = some sum ↔
      (-(2 ^ 63 / 1000) ≤ seconds ∧ seconds ≤ (2 ^ 63 - 1) / 1000) ∧
      (minUtc ≤ sum ∧ sum ≤ maxUtc) ∧ sum = t + seconds * 1000000000 := by
  simp only [addSeconds, durationSeconds, Option.bind_eq_bind, Option.bind_eq_some_iff,
    Option.ite_none_right_eq_some, Option.some.injEq]
  constructor
  · rintro ⟨_, ⟨hduration, rfl⟩, hdate, rfl⟩
    exact ⟨hduration, hdate, rfl⟩
  · rintro ⟨hduration, hdate, rfl⟩
    exact ⟨_, ⟨hduration, rfl⟩, hdate, rfl⟩

theorem addSeconds_le {t sum : Instant} {seconds : Int} (h : t.addSeconds seconds = some sum) :
    sum ≤ maxUtc :=
  (addSeconds_eq_some.mp h).2.1.2

theorem fromTimestamp_eq {seconds : Int} {t : Instant} (h : fromTimestamp seconds = some t) :
    t = seconds * 1000000000 := by
  simp only [fromTimestamp, Option.ite_none_right_eq_some, Option.some.injEq] at h
  exact h.2.symm

/-- A number of seconds that is no date, and is not negative, lies after every date. -/
theorem lt_of_fromTimestamp_eq_none {seconds : Int} (h : fromTimestamp seconds = none)
    (nonneg : 0 ≤ seconds) : maxUtc < seconds * 1000000000 := by
  simp only [fromTimestamp, ite_eq_right_iff, reduceCtorEq, imp_false, not_and, not_le] at h
  apply h
  show (-8334601228800 * 1000000000 : Int) ≤ seconds * 1000000000
  omega

theorem addSeconds_eq {t sum : Instant} {seconds : Int} (h : t.addSeconds seconds = some sum) :
    sum = t + seconds * 1000000000 :=
  (addSeconds_eq_some.mp h).2.2

/-- Adding whole seconds adds them to the timestamp. -/
theorem timestamp_add (t : Instant) (seconds : Int) :
    timestamp (t + seconds * 1000000000) = t.timestamp + seconds :=
  Int.add_mul_ediv_right _ _ (by decide)

theorem timestamp_mono {s t : Instant} (h : s ≤ t) : s.timestamp ≤ t.timestamp :=
  Int.ediv_le_ediv (by decide) h

end Instant

end Patroclus
