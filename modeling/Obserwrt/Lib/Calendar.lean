import Mathlib.Algebra.Order.Ring.Int
import Mathlib.Tactic.IntervalCases

/-!
# The calendar

Days since 1970-01-01 and dates of the Gregorian calendar.  A date is found the
way C libraries do it: from 1 March 2000 on, in cycles of 400, 100 and 4 years
and then years, so that the leap day is the last of each.  The days of a date
are counted from the leap rule, and the two are inverse.
-/

namespace Obserwrt
namespace Lib

/-- A date. -/
structure Date where
  year : Int
  month : Nat
  day : Nat
  deriving DecidableEq

/-- The leap rule. -/
def isLeap (y : Int) : Bool := y % 4 == 0 && (y % 100 != 0 || y % 400 == 0)

/-- The days of a month of a year. -/
def monthDays (y : Int) : Nat → Nat
  | 2 => if isLeap y then 29 else 28
  | 4 => 30
  | 6 => 30
  | 9 => 30
  | 11 => 30
  | _ => 31

/-- The days of a year before a month. -/
def daysBeforeMonth (y : Int) (m : Nat) : Nat :=
  ((List.range (m - 1)).map fun i => monthDays y (i + 1)).sum

/-- The days before a year, from 1 January of the year 1. -/
def daysBeforeYear (y : Int) : Int :=
  365 * (y - 1) + (y - 1) / 4 - (y - 1) / 100 + (y - 1) / 400

/-- The days from 1970-01-01 to a date. -/
def daysOfDate (d : Date) : Int :=
  daysBeforeYear d.year + daysBeforeMonth d.year d.month + d.day - 1 - 719162

/-- A date of the calendar. -/
def Date.valid (d : Date) : Bool :=
  1 ≤ d.month && d.month ≤ 12 && 1 ≤ d.day && d.day ≤ monthDays d.year d.month

/-- The days of the months from March on. -/
def marchMonths : List Nat := [31, 30, 31, 30, 31, 31, 30, 31, 30, 31, 31, 29]

/-- The month that a day falls in, and its day there, both from zero. -/
def splitMonths : List Nat → Nat → Nat × Nat
  | [], r => (0, r)
  | n :: ns, r =>
      if n ≤ r then ((splitMonths ns (r - n)).1 + 1, (splitMonths ns (r - n)).2) else (0, r)

/-- A number of days cut into cycles, of which the last is a day longer. -/
def splitCycle (length count r : Nat) : Nat × Nat :=
  (min (r / length) (count - 1), r - min (r / length) (count - 1) * length)

/-- The date of a month from March on; January and February are in the next year. -/
def dateFromMarch (year : Int) (month : Nat × Nat) : Date :=
  if 10 ≤ month.1 then ⟨year + 1, month.1 - 9, month.2 + 1⟩
  else ⟨year, month.1 + 3, month.2 + 1⟩

/-- The date a number of days from 1970-01-01; 2000-03-01 is day 11017. -/
def dateOfDays (z : Int) : Date :=
  let days := z - 11017
  let centuries := splitCycle 36524 4 (days % 146097).toNat
  let leaps := splitCycle 1461 25 centuries.2
  let years := splitCycle 365 4 leaps.2
  dateFromMarch (2000 + 400 * (days / 146097) + 100 * centuries.1 + 4 * leaps.1 + years.1)
    (splitMonths marchMonths years.2)

example : dateOfDays 0 = ⟨1970, 1, 1⟩ ∧ dateOfDays 11016 = ⟨2000, 2, 29⟩ ∧
    dateOfDays (-719162) = ⟨1, 1, 1⟩ := by
  decide

/-! ## Cycles -/

theorem splitCycle_spec {length count r : Nat} (hlength : 0 < length) (hcount : 0 < count)
    (hr : r ≤ length * count) :
    (splitCycle length count r).1 < count ∧
      r = length * (splitCycle length count r).1 + (splitCycle length count r).2 ∧
      (splitCycle length count r).2 ≤ length ∧
      ((splitCycle length count r).2 = length → (splitCycle length count r).1 = count - 1) := by
  have hdiv := Nat.div_add_mod r length
  have hmod := Nat.mod_lt r hlength
  by_cases hfull : r / length ≤ count - 1
  · have hfirst : (splitCycle length count r).1 = r / length := min_eq_left hfull
    have hsecond : (splitCycle length count r).2 = r % length := by
      rw [splitCycle, min_eq_left hfull, Nat.mul_comm]
      omega
    rw [hfirst, hsecond]
    refine ⟨by omega, hdiv.symm, hmod.le, fun heq => absurd heq (Nat.ne_of_lt hmod)⟩
  · have hquot : r / length = count := by
      have hle : r / length ≤ count := Nat.div_le_of_le_mul hr
      omega
    have hall : r = length * count := by
      rw [hquot] at hdiv
      omega
    have hsplit : length * count = length * (count - 1) + length := by
      rw [← Nat.mul_succ, Nat.succ_eq_add_one, Nat.sub_add_cancel hcount]
    have hfirst : (splitCycle length count r).1 = count - 1 := min_eq_right (by omega)
    have hsecond : (splitCycle length count r).2 = length := by
      rw [splitCycle, min_eq_right (by omega), Nat.mul_comm]
      omega
    rw [hfirst, hsecond]
    exact ⟨by omega, hall.trans hsplit, le_rfl, fun _ => rfl⟩

theorem splitMonths_spec {ns : List Nat} {r : Nat} (hr : r < ns.sum) :
    ∃ m d, splitMonths ns r = (m, d) ∧ m < ns.length ∧ r = (ns.take m).sum + d ∧
      d < ns.getD m 0 := by
  induction ns generalizing r with
  | nil => exact absurd hr (Nat.not_lt_zero r)
  | cons n ns ih =>
      rw [splitMonths]
      by_cases hn : n ≤ r
      · rw [List.sum_cons] at hr
        obtain ⟨m, d, hsplit, hm, hsum, hd⟩ := ih (r := r - n) (by omega)
        refine ⟨m + 1, d, by rw [if_pos hn, hsplit], by simpa using hm, ?_, by simpa using hd⟩
        rw [List.take_succ_cons, List.sum_cons]
        omega
      · exact ⟨0, r, if_neg hn, by simp, by simp, by simpa using hn⟩

/-! ## Years -/

theorem daysBeforeYear_succ (y : Int) :
    daysBeforeYear (y + 1) = daysBeforeYear y + 365 + if isLeap y then 1 else 0 := by
  have hadd : y + 1 - 1 = y := by omega
  rw [daysBeforeYear, daysBeforeYear, hadd]
  simp only [isLeap, Bool.and_eq_true, Bool.or_eq_true, beq_iff_eq, bne_iff_ne]
  split <;> omega

/-- The year of a March, from its cycles. -/
theorem daysBeforeYear_cycles {era : Int} {c q n : Nat} (hc : c < 4) (hq : q < 25) (hn : n < 4) :
    daysBeforeYear (2000 + 400 * era + 100 * c + 4 * q + n + 1) =
      730485 + 146097 * era + 36524 * c + 1461 * q + 365 * n := by
  rw [daysBeforeYear]
  omega

/-- A number of days in cycles.  Day 365 of a year from March on is the leap
day, so the year is the last of its four, and of its century only in the last
century of the 400 years. -/
theorem dateOfDays_cycles (z : Int) :
    ∃ (era : Int) (c q n r : Nat), c < 4 ∧ q < 25 ∧ n < 4 ∧ r ≤ 365 ∧
      (r = 365 → n = 3 ∧ (q = 24 → c = 3)) ∧
      z = 11017 + 146097 * era + 36524 * c + 1461 * q + 365 * n + r ∧
      dateOfDays z =
        dateFromMarch (2000 + 400 * era + 100 * c + 4 * q + n) (splitMonths marchMonths r) := by
  have hera : ((z - 11017) % 146097).toNat ≤ 36524 * 4 := by omega
  obtain ⟨hc, hcsum, hcrest, hclast⟩ := splitCycle_spec (by decide) (by decide) hera
  have hcentury : (splitCycle 36524 4 ((z - 11017) % 146097).toNat).2 ≤ 1461 * 25 :=
    hcrest.trans (by decide)
  obtain ⟨hq, hqsum, hqrest, hqlast⟩ := splitCycle_spec (by decide) (by decide) hcentury
  have hleap : (splitCycle 1461 25
      (splitCycle 36524 4 ((z - 11017) % 146097).toNat).2).2 ≤ 365 * 4 := by omega
  obtain ⟨hn, hnsum, hnrest, hnlast⟩ := splitCycle_spec (by decide) (by decide) hleap
  refine ⟨(z - 11017) / 146097, _, _, _, _, hc, hq, hn, hnrest, ?_, ?_, rfl⟩
  · intro hday
    refine ⟨hnlast hday, fun hlast => ?_⟩
    rw [hday, hnlast hday] at hnsum
    rw [hnsum, hlast] at hqsum
    exact hclast hqsum
  · omega

/-- The day of a year from March on. -/
theorem splitMonths_march {r : Nat} (hr : r ≤ 365) :
    ∃ m d, splitMonths marchMonths r = (m, d) ∧ m < 12 ∧ r = (marchMonths.take m).sum + d ∧
      d < marchMonths.getD m 0 :=
  splitMonths_spec (Nat.lt_succ_of_le hr)

/-- The months from March to December. -/
theorem daysBeforeMonth_march (y : Int) {m : Nat} (hm : m < 10) :
    daysBeforeMonth y (m + 3) =
      (marchMonths.take m).sum + 59 + if isLeap y then 1 else 0 := by
  cases hleap : isLeap y with
  | false =>
      interval_cases m <;> simp [daysBeforeMonth, List.range_succ, monthDays, hleap, marchMonths]
  | true =>
      interval_cases m <;> simp [daysBeforeMonth, List.range_succ, monthDays, hleap, marchMonths]

/-- January and February. -/
theorem daysBeforeMonth_january (y : Int) {m : Nat} (hle : 10 ≤ m) (hm : m < 12) :
    daysBeforeMonth y (m - 9) + 306 = (marchMonths.take m).sum := by
  interval_cases m <;> rfl

/-- A month from March on, in days from 1970-01-01. -/
theorem daysOfDate_fromMarch (y : Int) {m : Nat} (hm : m < 12) (d : Nat) :
    daysOfDate (dateFromMarch y (m, d)) =
      daysBeforeYear (y + 1) - 306 + (marchMonths.take m).sum + d - 719162 := by
  by_cases hnext : 10 ≤ m
  · have hmonth := daysBeforeMonth_january (y + 1) hnext hm
    simp only [dateFromMarch, hnext, if_true, daysOfDate]
    omega
  · have hmonth := daysBeforeMonth_march y (Nat.lt_of_not_le hnext)
    simp only [dateFromMarch, hnext, if_false, daysOfDate, daysBeforeYear_succ, hmonth]
    split <;> omega

/-- **The days of the date are the days.** -/
theorem daysOfDate_dateOfDays (z : Int) : daysOfDate (dateOfDays z) = z := by
  obtain ⟨era, c, q, n, r, hc, hq, hn, hr, -, hz, hdate⟩ := dateOfDays_cycles z
  obtain ⟨m, d, hsplit, hm, hday, -⟩ := splitMonths_march hr
  rw [hdate, hsplit, daysOfDate_fromMarch _ hm, daysBeforeYear_cycles hc hq hn]
  omega

/-- A day of a month from March on is in the calendar; the 29th of February
needs a leap year. -/
theorem dateFromMarch_valid {y : Int} {m d : Nat} (hm : m < 12) (hd : d < marchMonths.getD m 0)
    (hleap : m = 11 → d = 28 → isLeap (y + 1) = true) :
    (dateFromMarch y (m, d)).valid = true := by
  by_cases hfebruary : m = 11
  · subst hfebruary
    have hlast : d < 29 := hd
    have hdate : dateFromMarch y (11, d) = ⟨y + 1, 2, d + 1⟩ := rfl
    have hdays : d + 1 ≤ monthDays (y + 1) 2 := by
      rw [monthDays]
      split
      · exact hlast
      · rename_i hcommon
        have hnot : d ≠ 28 := fun h => hcommon (hleap rfl h)
        omega
    simp [hdate, Date.valid, hdays]
  · have hm' : m < 11 := by omega
    have hlast := Nat.succ_le_of_lt hd
    interval_cases m <;> simpa [dateFromMarch, Date.valid, monthDays, marchMonths] using hlast

/-- The date is one of the calendar. -/
theorem dateOfDays_valid (z : Int) : (dateOfDays z).valid = true := by
  obtain ⟨era, c, q, n, r, hc, hq, hn, hr, hleap, -, hdate⟩ := dateOfDays_cycles z
  obtain ⟨m, d, hsplit, hm, hday, hd⟩ := splitMonths_march hr
  rw [hdate, hsplit]
  refine dateFromMarch_valid hm hd ?_
  rintro rfl rfl
  obtain ⟨hlast, hcentury⟩ := hleap hday
  simp only [isLeap, Bool.and_eq_true, Bool.or_eq_true, beq_iff_eq, bne_iff_ne]
  omega

end Lib
end Obserwrt
