import Patroclus.Crate.Chrono
import Patroclus.Foundation.Calendar
import Patroclus.Foundation.Decimal
import Mathlib.Data.String.Basic

/-!
# RFC 3339

The text that `chrono` prints for an instant, in UTC: a date, a time, and 0, 3, 6 or 9 digits
of a fraction. A year outside 0 to 9999 has a sign and as many digits as it needs. Texts of the
same year are ordered as the instants, although the fraction has no fixed width: the offset
that follows it starts with a character below every digit. Texts of different years are ordered
as the texts of the years, which is the order of the years between 0 and 9999.
-/

namespace Patroclus

open Foundation

namespace Instant

/-- Days since the first day of year 0. -/
def dayNumber (t : Instant) : Int := t / 86400000000000 + 719528

def year (t : Instant) : Int := Calendar.yearOf t.dayNumber

/-- Days since the first day of the year. -/
def dayOfYear (t : Instant) : Nat := (t.dayNumber - Calendar.daysBefore t.year).toNat

def monthDay (t : Instant) : Nat × Nat :=
  Calendar.monthDay (Calendar.monthLengths (Calendar.isLeap t.year)) 1 t.dayOfYear

def secondOfDay (t : Instant) : Nat := (t % 86400000000000 / 1000000000).toNat

def nano (t : Instant) : Nat := (t % 1000000000).toNat

/-- The year is printed as four digits, and with a sign where four digits are not enough. -/
def yearText (year : Int) : List Char :=
  if 0 ≤ year ∧ year ≤ 9999 then digits 4 year.toNat
  else (if year < 0 then '-' else '+') ::
    digits (max 4 (Nat.log 10 year.natAbs + 1)) year.natAbs

def dateText (monthDay : Nat × Nat) : List Char :=
  digits 2 monthDay.1 ++ '-' :: digits 2 monthDay.2

def timeText (second : Nat) : List Char :=
  digits 2 (second / 3600) ++ ':' :: (digits 2 (second / 60 % 60) ++ ':' :: digits 2 (second % 60))

/-- `SecondsFormat::AutoSi` -/
def fractionText (nano : Nat) : List Char :=
  if nano = 0 then []
  else if nano % 1000000 = 0 then '.' :: digits 3 (nano / 1000000)
  else if nano % 1000 = 0 then '.' :: digits 6 (nano / 1000)
  else '.' :: digits 9 nano

/-- The offset of UTC. -/
def offsetText : List Char := ['+', '0', '0', ':', '0', '0']

/-- The text of an instant after its year. -/
def restText (t : Instant) : List Char :=
  dateText t.monthDay ++ 'T' :: (timeText t.secondOfDay ++ (fractionText t.nano ++ offsetText))

/-- `DateTime<Utc>::to_rfc3339` -/
def rfc3339 (t : Instant) : String := String.ofList (yearText t.year ++ '-' :: t.restText)

example : rfc3339 0 = "1970-01-01T00:00:00+00:00" := by decide +kernel
example : rfc3339 1709164800250000000 = "2024-02-29T00:00:00.250+00:00" := by decide +kernel
example : rfc3339 (-62198755200000000000) = "-0001-01-01T00:00:00+00:00" := by decide +kernel

/-! ## The order of the fields -/

theorem lt_of_isDigit {c : Char} (h : c.isDigit = true) : '0' ≤ c ∧ '+' < c ∧ '-' < c := by
  rw [Char.isDigit, Bool.and_eq_true, decide_eq_true_eq, decide_eq_true_eq] at h
  have hplus : '+' < '0' := by decide
  have hminus : '-' < '0' := by decide
  exact ⟨h.1, lt_of_lt_of_le hplus h.1, lt_of_lt_of_le hminus h.1⟩

theorem dateText_lt_iff {date date' : Nat × Nat} (h : date.1 < 100 ∧ date.2 < 100)
    (h' : date'.1 < 100 ∧ date'.2 < 100) : dateText date < dateText date' ↔
      date.1 < date'.1 ∨ date.1 = date'.1 ∧ date.2 < date'.2 := by
  rw [dateText, dateText, append_lt_append_iff (by simp), digits_lt_iff h.1 h'.1,
    List.cons_lt_cons_self, digits_lt_iff h.2 h'.2]
  refine or_congr Iff.rfl (and_congr ?_ Iff.rfl)
  exact ⟨digits_inj h.1 h'.1, fun heq => by rw [heq]⟩

theorem timeText_lt_iff {second second' : Nat} (h : second < 86400) (h' : second' < 86400) :
    timeText second < timeText second' ↔ second < second' := by
  have hiff {width n m : Nat} (hn : n < 10 ^ width) (hm : m < 10 ^ width) :
      digits width n = digits width m ↔ n = m := ⟨digits_inj hn hm, fun h => by rw [h]⟩
  rw [timeText, timeText, append_lt_append_iff (by simp), List.cons_lt_cons_self,
    append_lt_append_iff (by simp), List.cons_lt_cons_self, digits_lt_iff (by omega) (by omega),
    digits_lt_iff (by omega) (by omega), digits_lt_iff (by omega) (by omega),
    hiff (by omega) (by omega), hiff (by omega) (by omega)]
  omega

/-- A fraction that is not zero is printed in nine digits, without some of the trailing zeros. -/
theorem fractionText_eq_take {nano : Nat} (h : nano < 10 ^ 9) (pos : 0 < nano) :
    ∃ k, fractionText nano = '.' :: (digits 9 nano).take k ∧
      ∀ c ∈ (digits 9 nano).drop k, c = '0' := by
  rw [fractionText, if_neg (by omega)]
  split
  · rename_i hmillis
    obtain ⟨htake, hzeros⟩ := digits_of_mod_eq_zero (a := 3) (b := 6) h hmillis
    exact ⟨3, congrArg ('.' :: ·) htake.symm, hzeros⟩
  · split
    · rename_i hmicros
      obtain ⟨htake, hzeros⟩ := digits_of_mod_eq_zero (a := 6) (b := 3) h hmicros
      exact ⟨6, congrArg ('.' :: ·) htake.symm, hzeros⟩
    · exact ⟨9, by rw [List.take_of_length_le (by simp)], by
        rw [List.drop_of_length_le (by simp)]
        nofun⟩

theorem fractionText_lt {nano nano' : Nat} (h : nano < nano') (h' : nano' < 10 ^ 9) :
    fractionText nano ++ offsetText < fractionText nano' ++ offsetText := by
  obtain ⟨k', htext', hzeros'⟩ := fractionText_eq_take h' (by omega)
  rw [htext']
  obtain rfl | hpos := Nat.eq_zero_or_pos nano
  · show offsetText < _
    rw [offsetText, List.cons_append, List.cons_lt_cons_iff]
    exact .inl (by decide)
  · obtain ⟨k, htext, -⟩ := fractionText_eq_take (h.trans h') hpos
    rw [htext, List.cons_append, List.cons_append, List.cons_lt_cons_self]
    exact take_append_mark_lt (by simp)
      (fun c hc => (lt_of_isDigit (isDigit_of_mem_digits (h.trans h') hc)).1) (by decide)
      (fun c hc => (lt_of_isDigit (isDigit_of_mem_digits h' hc)).1) hzeros'
      ((digits_lt_iff (h.trans h') h').mpr h)

/-! ## Within a year -/

section

variable {t t' : Instant}

theorem dayNumber_mono (h : t ≤ t') : t.dayNumber ≤ t'.dayNumber :=
  Int.add_le_add_right (Int.ediv_le_ediv (by decide) h) 719528

theorem year_mono (h : t ≤ t') : t.year ≤ t'.year := Calendar.yearOf_mono (dayNumber_mono h)

theorem dayOfYear_eq (t : Instant) :
    t.dayNumber = Calendar.daysBefore t.year + t.dayOfYear := by
  have hstart := (Calendar.yearOf_spec t.dayNumber).1
  rw [dayOfYear, year]
  omega

theorem monthDay_lt_hundred (t : Instant) : t.monthDay.1 < 100 ∧ t.monthDay.2 < 100 := by
  have hday : t.dayOfYear < (Calendar.monthLengths (Calendar.isLeap t.year)).sum := by
    have hend := (Calendar.yearOf_spec t.dayNumber).2
    have hday := dayOfYear_eq t
    rw [Calendar.daysBefore_succ_eq_sum] at hend
    rw [year] at hday ⊢
    omega
  have hshort : ∀ length ∈ Calendar.monthLengths (Calendar.isLeap t.year), length ≤ 31 := by
    cases Calendar.isLeap t.year with
    | false => decide
    | true => decide
  obtain ⟨hmonth, hlast⟩ : t.monthDay.1 < 1 + 12 ∧ t.monthDay.2 ≤ 31 :=
    Calendar.monthDay_bounds hshort hday
  exact ⟨Nat.lt_trans hmonth (by decide), Nat.lt_of_le_of_lt hlast (by decide)⟩

theorem secondOfDay_lt (t : Instant) : t.secondOfDay < 86400 := by
  have hsecond (t : Int) : (t % 86400000000000 / 1000000000).toNat < 86400 := by omega
  exact hsecond t

theorem nano_lt (t : Instant) : t.nano < 10 ^ 9 := by
  have hnano (t : Int) : (t % 1000000000).toNat < 10 ^ 9 := by omega
  exact hnano t

/-- Of two instants the later has the later day, second of the day, or nanosecond. -/
theorem fields_of_lt (h : t < t') : t.dayNumber < t'.dayNumber ∨ t.dayNumber = t'.dayNumber ∧
    (t.secondOfDay < t'.secondOfDay ∨ t.secondOfDay = t'.secondOfDay ∧ t.nano < t'.nano) := by
  have hfields (t t' : Int) (h : t < t') : t / 86400000000000 < t' / 86400000000000 ∨
      t / 86400000000000 = t' / 86400000000000 ∧
      ((t % 86400000000000 / 1000000000).toNat < (t' % 86400000000000 / 1000000000).toNat ∨
        (t % 86400000000000 / 1000000000).toNat = (t' % 86400000000000 / 1000000000).toNat ∧
        (t % 1000000000).toNat < (t' % 1000000000).toNat) := by omega
  rw [dayNumber, dayNumber, Int.add_lt_add_iff_right, Int.add_left_inj]
  exact hfields t t' h

/-- Later instants of a year have greater texts. -/
theorem restText_lt (same : t.year = t'.year) (h : t < t') : t.restText < t'.restText := by
  have hday := dayOfYear_eq t
  have hday' := dayOfYear_eq t'
  rw [same] at hday
  rw [restText, restText, append_lt_append_iff (by simp [dateText]), List.cons_lt_cons_self,
    append_lt_append_iff (by simp [timeText]), dateText_lt_iff (monthDay_lt_hundred t)
      (monthDay_lt_hundred t'), timeText_lt_iff (secondOfDay_lt t) (secondOfDay_lt t')]
  obtain hdays | ⟨hdays, htime⟩ := fields_of_lt h
  · have hlater : t.dayOfYear < t'.dayOfYear := by omega
    rw [monthDay, monthDay, same]
    exact .inl (Calendar.monthDay_lt hlater)
  · have hdate : t.monthDay = t'.monthDay := by
      have hsame : t.dayOfYear = t'.dayOfYear := by omega
      rw [monthDay, monthDay, same, hsame]
    refine .inr ⟨by rw [hdate], ?_⟩
    obtain hlater | ⟨hsecond, hnano⟩ := htime
    · exact .inl hlater
    · exact .inr ⟨by rw [hsecond], fractionText_lt hnano (nano_lt t')⟩

end

/-! ## The year -/

section

variable {y y' : Int} {us vs : List Char}

theorem natAbs_lt_pow (y : Int) : y.natAbs < 10 ^ max 4 (Nat.log 10 y.natAbs + 1) :=
  lt_of_lt_of_le (Nat.lt_pow_succ_log_self (by decide) _)
    (Nat.pow_le_pow_right (by decide) (le_max_right _ _))

/-- After its first character a year consists of digits. -/
theorem yearText_eq_cons (y : Int) :
    ∃ c rest, yearText y = c :: rest ∧ ∀ digit ∈ rest, '-' < digit := by
  rw [yearText]
  split
  · rename_i hcommon
    refine ⟨_, _, rfl, fun digit hdigit => ?_⟩
    have hrest : y.toNat % 10 ^ 3 < 10 ^ 3 := rest_lt
    exact (lt_of_isDigit (isDigit_of_mem_digits hrest hdigit)).2.2
  · refine ⟨_, _, rfl, fun digit hdigit => ?_⟩
    exact (lt_of_isDigit (isDigit_of_mem_digits (natAbs_lt_pow y) hdigit)).2.2

/-- What follows the year does not matter unless the years are the same. -/
theorem yearText_append_lt_iff : yearText y ++ '-' :: us < yearText y' ++ '-' :: vs ↔
    yearText y < yearText y' ∨ yearText y = yearText y' ∧ us < vs := by
  obtain ⟨c, rest, htext, hrest⟩ := yearText_eq_cons y
  obtain ⟨c', rest', htext', hrest'⟩ := yearText_eq_cons y'
  rw [htext, htext', List.cons_append, List.cons_append, List.cons_lt_cons_iff,
    append_mark_lt_iff hrest hrest', List.cons_lt_cons_iff, List.cons.injEq]
  tauto

theorem yearText_of_common (h : 0 ≤ y ∧ y ≤ 9999) : yearText y = digits 4 y.toNat := if_pos h

theorem yearText_lt_iff_of_common (h : 0 ≤ y ∧ y ≤ 9999) (h' : 0 ≤ y' ∧ y' ≤ 9999) :
    yearText y < yearText y' ↔ y < y' := by
  rw [yearText_of_common h, yearText_of_common h', digits_lt_iff (by omega) (by omega)]
  omega

/-- A sign comes before every digit. -/
theorem yearText_signed_lt (h : 0 ≤ y ∧ y ≤ 9999) (h' : ¬ (0 ≤ y' ∧ y' ≤ 9999)) :
    yearText y' < yearText y := by
  have hfirst : (y.toNat / 10 ^ 3).digitChar.isDigit = true := by
    rw [Nat.isDigit_digitChar]
    exact decide_eq_true (lead_lt (by omega))
  rw [yearText_of_common h, yearText, if_neg h', digits, List.cons_lt_cons_iff]
  left
  split
  · exact (lt_of_isDigit hfirst).2.2
  · exact (lt_of_isDigit hfirst).2.1

theorem yearText_inj (h : yearText y = yearText y') : y = y' := by
  by_cases hy : 0 ≤ y ∧ y ≤ 9999
  · by_cases hy' : 0 ≤ y' ∧ y' ≤ 9999
    · rw [yearText_of_common hy, yearText_of_common hy'] at h
      have hnat : y.toNat = y'.toNat := digits_inj (by omega) (by omega) h
      omega
    · exact absurd h (yearText_signed_lt hy hy').ne'
  · by_cases hy' : 0 ≤ y' ∧ y' ≤ 9999
    · exact absurd h (yearText_signed_lt hy' hy).ne
    · rw [yearText, yearText, if_neg hy, if_neg hy'] at h
      obtain ⟨hsign, hdigits⟩ := List.cons.inj h
      have hwidth : max 4 (Nat.log 10 y.natAbs + 1) = max 4 (Nat.log 10 y'.natAbs + 1) := by
        simpa only [length_digits] using congrArg List.length hdigits
      rw [hwidth] at hdigits
      have habs : y.natAbs = y'.natAbs :=
        digits_inj (hwidth ▸ natAbs_lt_pow y) (natAbs_lt_pow y') hdigits
      split at hsign
      · split at hsign
        · omega
        · cases hsign
      · split at hsign
        · cases hsign
        · omega

end

/-! ## The order of the texts -/

section

variable {t t' : Instant}

/-- Texts are ordered as the texts of the years, and within a year as the instants. -/
theorem rfc3339_lt_iff : rfc3339 t < rfc3339 t' ↔
    yearText t.year < yearText t'.year ∨ t.year = t'.year ∧ t < t' := by
  rw [String.lt_iff_toList_lt, rfc3339, rfc3339, String.toList_ofList, String.toList_ofList,
    yearText_append_lt_iff]
  refine or_congr Iff.rfl ?_
  constructor
  · rintro ⟨htext, hrest⟩
    have hsame := yearText_inj htext
    refine ⟨hsame, lt_of_not_ge fun hle => ?_⟩
    obtain heq | hlt := eq_or_lt_of_le hle
    · rw [heq] at hrest
      exact lt_irrefl _ hrest
    · exact lt_asymm hrest (restText_lt hsame.symm hlt)
  · rintro ⟨hsame, hlt⟩
    exact ⟨by rw [hsame], restText_lt hsame hlt⟩

theorem lt_iff_year : t < t' ↔ t.year < t'.year ∨ t.year = t'.year ∧ t < t' := by
  constructor
  · intro h
    obtain hlt | heq := lt_or_eq_of_le (year_mono h.le)
    · exact .inl hlt
    · exact .inr ⟨heq, h⟩
  · rintro (hlt | ⟨-, h⟩)
    · exact lt_of_not_ge fun hle => absurd (year_mono hle) (not_le_of_gt hlt)
    · exact h

/-- The texts of the years are in the order of the years. -/
def YearsOrdered (t t' : Instant) : Prop :=
  yearText t.year < yearText t'.year ↔ t.year < t'.year

/-- Two instants are ordered as their texts exactly if their years are. -/
theorem rfc3339_ordered_iff : (rfc3339 t < rfc3339 t' ↔ t < t') ↔ t.YearsOrdered t' := by
  rw [rfc3339_lt_iff, lt_iff_year (t := t), YearsOrdered]
  by_cases hsame : t.year = t'.year
  · have hirrefl : ¬ yearText t'.year < yearText t'.year := lt_irrefl _
    rw [hsame]
    exact iff_of_true (by tauto) (iff_of_false hirrefl (Int.lt_irrefl _))
  · rw [or_iff_left fun h => hsame h.1, or_iff_left fun h => hsame h.1]

/-- The years that are printed without a sign. -/
def Common (t : Instant) : Prop := 0 ≤ t.year ∧ t.year ≤ 9999

instance (t : Instant) : Decidable t.Common := inferInstanceAs (Decidable (_ ∧ _))

/-- Seen from a year between 0 and 9999, the texts of the later years are misplaced, and
those of the years before 0 are not. -/
theorem yearsOrdered_iff (h : t.Common) : t.YearsOrdered t' ↔ t'.year ≤ 9999 := by
  rw [YearsOrdered]
  by_cases hlate : t'.year ≤ 9999
  · refine iff_of_true ?_ hlate
    by_cases hearly : 0 ≤ t'.year
    · exact yearText_lt_iff_of_common h ⟨hearly, hlate⟩
    · have hlt : ¬ t.year < t'.year := by
        have hstart := h.1
        omega
      refine iff_of_false ?_ hlt
      exact lt_asymm (yearText_signed_lt h fun h' => hearly h'.1)
  · have hlt : t.year < t'.year := by
      have hend := h.2
      omega
    refine iff_of_false (fun hordered => ?_) hlate
    exact lt_asymm (yearText_signed_lt h fun h' => hlate h'.2) (hordered.mpr hlt)

/-- Between the years 0 and 9999 texts are ordered as the instants. -/
theorem rfc3339_lt_iff_lt (h : t.Common) (h' : t'.Common) :
    rfc3339 t < rfc3339 t' ↔ t < t' :=
  rfc3339_ordered_iff.mpr (yearText_lt_iff_of_common h h')

theorem rfc3339_inj (h : rfc3339 t = rfc3339 t') : t = t' := by
  have hnot : ¬ rfc3339 t < rfc3339 t' := by rw [h]; exact lt_irrefl _
  have hnot' : ¬ rfc3339 t' < rfc3339 t := by rw [h]; exact lt_irrefl _
  rw [rfc3339_lt_iff, not_or] at hnot hnot'
  have hsame : t.year = t'.year :=
    yearText_inj (le_antisymm (le_of_not_gt hnot'.1) (le_of_not_gt hnot.1))
  exact le_antisymm (le_of_not_gt fun h => hnot'.2 ⟨hsame.symm, h⟩)
    (le_of_not_gt fun h => hnot.2 ⟨hsame, h⟩)

end

end Instant

end Patroclus
