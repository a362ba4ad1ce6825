import Mathlib.Tactic.Linarith
import Mathlib.Tactic.Ring

/-!
# Schedules

A schedule has a period and a phase; its times are a period apart from each other. Time is divided
into windows of one width as well. No two times of the schedule meet in one window exactly if the
period is at least that width, whatever the phase is.
-/

namespace AlphaPing.Library.Schedules

variable {period phase width first second : ℤ}

def Scheduled (period phase time : ℤ) : Prop := ∃ turn : ℤ, time = turn * period + phase

/-- The last time of the schedule that is not after `now`. -/
def lastTime (period phase now : ℤ) : ℤ := (now - phase) / period * period + phase

/-- No two times of the schedule are in one window. -/
def Spread (period phase width : ℤ) : Prop :=
  ∀ first second, Scheduled period phase first → Scheduled period phase second →
    first ≠ second → first / width ≠ second / width

theorem scheduled_lastTime (period phase now : ℤ) :
    Scheduled period phase (lastTime period phase now) :=
  ⟨_, rfl⟩

theorem lastTime_of_scheduled (hperiod : 0 < period) (h : Scheduled period phase first) :
    lastTime period phase first = first := by
  obtain ⟨turn, rfl⟩ := h
  rw [lastTime, Int.add_sub_cancel, Int.mul_ediv_cancel _ hperiod.ne']

/-- The times of a schedule are the last times that are seen from anywhere. -/
theorem scheduled_iff_lastTime (hperiod : 0 < period) :
    Scheduled period phase first ↔ ∃ now, first = lastTime period phase now := by
  constructor
  · intro h
    exact ⟨first, (lastTime_of_scheduled hperiod h).symm⟩
  · rintro ⟨now, rfl⟩
    exact scheduled_lastTime period phase now

theorem add_period_le (hperiod : 0 < period) (hfirst : Scheduled period phase first)
    (hsecond : Scheduled period phase second) (hlt : first < second) :
    first + period ≤ second := by
  obtain ⟨turn, rfl⟩ := hfirst
  obtain ⟨later, rfl⟩ := hsecond
  have hturn : turn < later := by
    by_contra hnot
    have hmul := mul_le_mul_of_nonneg_right (not_lt.mp hnot) hperiod.le
    omega
  calc
    turn * period + phase + period = (turn + 1) * period + phase := by ring
    _ ≤ later * period + phase :=
      add_le_add_left (mul_le_mul_of_nonneg_right hturn hperiod.le) phase

/-- Two times that are a window's width apart are in two windows. -/
theorem ediv_lt_ediv_of_add_le (hwidth : 0 < width) (h : first + width ≤ second) :
    first / width < second / width := by
  calc
    first / width < first / width + 1 := Int.lt_succ _
    _ = (first + width) / width := by
      rw [← Int.add_mul_ediv_right _ _ hwidth.ne', one_mul]
    _ ≤ second / width := Int.ediv_le_ediv hwidth h

/-- If every turn begins another window, the windows are not behind the turns. -/
theorem add_le_window (hspread : Spread period phase width) (hperiod : 0 < period)
    (hwidth : 0 < width) (turns : ℕ) :
    phase / width + turns ≤ (turns * period + phase) / width := by
  induction turns with
  | zero => simp
  | succ turns ih =>
    have hle : (turns * period + phase) / width ≤ ((turns + 1) * period + phase) / width := by
      apply Int.ediv_le_ediv hwidth
      rw [add_mul]
      omega
    have hne : (turns * period + phase) / width ≠ ((turns + 1) * period + phase) / width := by
      apply hspread _ _ ⟨turns, rfl⟩ ⟨turns + 1, rfl⟩
      rw [add_mul]
      omega
    push_cast
    omega

theorem spread_iff (hperiod : 0 < period) (hwidth : 0 < width) :
    Spread period phase width ↔ width ≤ period := by
  constructor
  · intro h
    -- after `width` turns the schedule is `width * width` ahead
    have hwindows := add_le_window h hperiod hwidth width.toNat
    rw [Int.toNat_of_nonneg hwidth.le, mul_comm width, Int.add_comm (period * width),
      Int.add_mul_ediv_right _ _ hwidth.ne'] at hwindows
    omega
  · intro h first second hfirst hsecond hne
    rcases lt_or_gt_of_ne hne with hlt | hlt
    · have hapart := add_period_le hperiod hfirst hsecond hlt
      exact (ediv_lt_ediv_of_add_le hwidth (by omega)).ne
    · have hapart := add_period_le hperiod hsecond hfirst hlt
      exact (ediv_lt_ediv_of_add_le hwidth (by omega)).ne'

end AlphaPing.Library.Schedules
