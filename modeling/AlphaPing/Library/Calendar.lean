import Mathlib.Algebra.BigOperators.Group.Finset.Basic

/-!
# The proleptic Gregorian calendar

Days are counted from the first of January of the year 0, by the lengths of the months.
-/

namespace AlphaPing.Library.Calendar

def isLeap (year : ℕ) : Bool :=
  year % 4 = 0 && (year % 100 ≠ 0 || year % 400 = 0)

def monthLength (year : ℕ) : ℕ → ℕ
  | 2 => if isLeap year then 29 else 28
  | 4 | 6 | 9 | 11 => 30
  | _ => 31

theorem monthLength_le (year month : ℕ) : monthLength year month ≤ 31 := by
  unfold monthLength
  split
  · split <;> decide
  all_goals decide

/-- The days of a year before a month; the whole year is before the thirteenth. -/
def daysBefore (year month : ℕ) : ℕ :=
  ∑ earlier ∈ Finset.range (month - 1), monthLength year (earlier + 1)

/-- The days before a day. -/
def dayNumber (year month day : ℕ) : ℕ :=
  ∑ earlier ∈ Finset.range year, daysBefore earlier 13 + daysBefore year month + (day - 1)

theorem daysBefore_thirteenth (year : ℕ) :
    daysBefore year 13 = 365 + if isLeap year then 1 else 0 := by
  simp only [daysBefore, Finset.sum_range_succ, Finset.sum_range_zero, monthLength]
  split <;> rfl

theorem sum_daysBefore (year : ℕ) :
    ∑ earlier ∈ Finset.range year, daysBefore earlier 13 + (year + 99) / 100 =
      365 * year + (year + 3) / 4 + (year + 399) / 400 := by
  induction year with
  | zero => rfl
  | succ year ih =>
    rw [Finset.sum_range_succ, daysBefore_thirteenth]
    by_cases hleap : isLeap year = true
    · rw [if_pos hleap]
      simp only [isLeap, Bool.and_eq_true, Bool.or_eq_true, decide_eq_true_eq] at hleap
      omega
    · rw [if_neg hleap]
      simp only [isLeap, Bool.and_eq_true, Bool.or_eq_true, decide_eq_true_eq] at hleap
      omega

end AlphaPing.Library.Calendar
