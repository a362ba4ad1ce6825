import AlphaPing.Agent.Probes.Scheduler
import AlphaPing.Checks.Scheduler
import AlphaPing.Library.Schedules
import AlphaPing.Monitoring.Control

/-!
# The due times of a check

A check is due at the times of a schedule, and a result is stored in the slot of its block that the
due time belongs to. A check that is run centrally has at most one due time in a minute, so each of
them has a slot of its own. An agent may run a check every five seconds; the results of one minute
are then stored together, in one slot.
-/

namespace AlphaPing.Checks.DueTimes

open Library.Schedules Ingest.Blocks Monitoring.Control Scheduler

/-! ## Blocks and slots -/

def floorToMinute (timestampMs : ℤ) : ℤ := timestampMs / 60000 * 60000

def floorToFiveMinuteBlock (timestampMs : ℤ) : ℤ := timestampMs / 300000 * 300000

/-- `reportSlot`; `none` is its `RangeError`. -/
def reportSlot (timestampMs : ℤ) : Option ℤ :=
  let slot := (floorToMinute timestampMs - floorToFiveMinuteBlock timestampMs) / 60000
  if slot < 0 ∨ 5 ≤ slot then none else some slot

/-- The block and the slot that `prepareCheckBlockWrite` names. -/
def blockAndSlot (nominalMinute : ℤ) : ℤ × Option ℤ :=
  (floorToFiveMinuteBlock nominalMinute, reportSlot nominalMinute)

variable (timestampMs : ℤ)

theorem slot_minute :
    (floorToMinute timestampMs - floorToFiveMinuteBlock timestampMs) / 60000 =
      timestampMs / 60000 - 5 * (timestampMs / 300000) := by
  unfold floorToMinute floorToFiveMinuteBlock
  omega

theorem reportSlot_eq :
    reportSlot timestampMs = some (timestampMs / 60000 - 5 * (timestampMs / 300000)) := by
  have hrange : ¬ (timestampMs / 60000 - 5 * (timestampMs / 300000) < 0 ∨
      5 ≤ timestampMs / 60000 - 5 * (timestampMs / 300000)) := by omega
  rw [reportSlot, slot_minute]
  exact if_neg hrange

theorem blockAndSlot_eq :
    blockAndSlot timestampMs = (blockStart timestampMs, some ↑(slotOf timestampMs).val) := by
  have hslot : ((slotOf timestampMs).val : ℤ) =
      timestampMs / 60000 - 5 * (timestampMs / 300000) := by
    simp only [slotOf, blockStart]
    omega
  rw [blockAndSlot, reportSlot_eq, hslot]
  rfl

theorem blockAndSlot_inj {first second : ℤ} :
    blockAndSlot first = blockAndSlot second ↔ first / 60000 = second / 60000 := by
  simp only [blockAndSlot, reportSlot_eq, Prod.mk.injEq, Option.some.injEq,
    floorToFiveMinuteBlock]
  omega

/-! ## Due times -/

def isDue (nowMs : ℤ) (intervalSeconds phaseSeconds : ℕ) (lastClaimedSlot : ℤ) : Bool :=
  decide (lastClaimedSlot < dueSlot nowMs intervalSeconds phaseSeconds)

/-- The last condition of the query of `loadDueChecks`: the quotient is cut off, not rounded
down. -/
def dueCondition (scheduledAt : ℤ) (intervalSeconds phaseSeconds : ℕ) (lastClaimedSlot : ℤ) :
    Bool :=
  decide (lastClaimedSlot <
    Int.tdiv (scheduledAt / 1000 - phaseSeconds) intervalSeconds * intervalSeconds + phaseSeconds)

/-- `compileServiceConfig` accepts the interval of a check that is run there. -/
def intervalAccepted (executorKind : ExecutorKind) (intervalSeconds : ℕ) : Bool :=
  decide ((if executorKind = .cloudflare then 60 else 5) ≤ intervalSeconds) &&
    decide (intervalSeconds ≤ 86400)

/-- A configuration that is accepted; its phase is a remainder of a division by its interval. -/
structure AcceptedCheck where
  executorKind : ExecutorKind
  intervalSeconds : ℕ
  phaseSeconds : ℕ
  interval_accepted : intervalAccepted executorKind intervalSeconds
  phase_lt : phaseSeconds < intervalSeconds

theorem AcceptedCheck.interval_pos (check : AcceptedCheck) : 0 < check.intervalSeconds :=
  Nat.zero_lt_of_lt check.phase_lt

theorem AcceptedCheck.minute_le_interval (check : AcceptedCheck)
    (h : check.executorKind = .cloudflare) : 60 ≤ check.intervalSeconds := by
  have haccepted := check.interval_accepted
  rw [intervalAccepted, h] at haccepted
  simp only [if_true, Bool.and_eq_true, decide_eq_true_eq] at haccepted
  exact haccepted.1

/-- The configuration that the web application stores for a check. -/
def AcceptedCheck.stored (executorKind : ExecutorKind) (intervalSeconds telemetryPk : ℕ)
    (h : intervalAccepted executorKind intervalSeconds) : AcceptedCheck where
  executorKind := executorKind
  intervalSeconds := intervalSeconds
  phaseSeconds := telemetryPk % intervalSeconds
  interval_accepted := h
  phase_lt := by
    apply Nat.mod_lt
    unfold intervalAccepted at h
    cases executorKind <;> simp at h <;> omega

variable (check : AcceptedCheck)

def AcceptedCheck.Due (slotSeconds : ℤ) : Prop :=
  ∃ nowMs, slotSeconds = dueSlot nowMs check.intervalSeconds check.phaseSeconds

/-- The slots of all due times are inside their blocks. -/
def SlotsInside : Prop :=
  ∀ slotSeconds, check.Due slotSeconds → ∃ slot, 0 ≤ slot ∧ slot < 5 ∧
    reportSlot (slotSeconds * 1000) = some slot ∧
    floorToFiveMinuteBlock (slotSeconds * 1000) + slot * 60000 = floorToMinute (slotSeconds * 1000)

/-- Each due time has a slot of its own. -/
def SlotsDistinct : Prop :=
  ∀ first second, check.Due first → check.Due second → first ≠ second →
    blockAndSlot (first * 1000) ≠ blockAndSlot (second * 1000)

/-- The query selects the check when it is due. -/
def SelectionExact : Prop :=
  ∀ nowMs lastClaimedSlot : ℤ, check.phaseSeconds ≤ nowMs / 1000 →
    dueCondition nowMs check.intervalSeconds check.phaseSeconds lastClaimedSlot =
      isDue nowMs check.intervalSeconds check.phaseSeconds lastClaimedSlot

theorem dueSlot_eq_lastTime (nowMs : ℤ) (intervalSeconds phaseSeconds : ℕ) :
    dueSlot nowMs intervalSeconds phaseSeconds =
      lastTime intervalSeconds phaseSeconds (nowMs / 1000) :=
  rfl

theorem due_iff_scheduled {slotSeconds : ℤ} :
    check.Due slotSeconds ↔
      Scheduled check.intervalSeconds check.phaseSeconds slotSeconds := by
  have hpos : (0 : ℤ) < check.intervalSeconds := by exact_mod_cast check.interval_pos
  rw [scheduled_iff_lastTime hpos]
  constructor
  · rintro ⟨nowMs, rfl⟩
    exact ⟨nowMs / 1000, rfl⟩
  · rintro ⟨now, rfl⟩
    refine ⟨now * 1000, ?_⟩
    rw [dueSlot_eq_lastTime, Int.mul_ediv_cancel _ (by decide)]

theorem dueSlotMs_eq_dueSlot (nowMs : ℤ) (task : Protocol.ProbeTask) :
    Agent.Probes.Scheduler.dueSlotMs nowMs task =
      dueSlot nowMs task.intervalSeconds task.phaseSeconds * 1000 := by
  have hquotient : (nowMs - task.phaseSeconds * 1000) / (task.intervalSeconds * 1000 : ℤ) =
      (nowMs / 1000 - task.phaseSeconds) / task.intervalSeconds := by
    rw [Int.mul_comm (task.intervalSeconds : ℤ), ← Int.ediv_ediv_of_nonneg (by decide)]
    congr 1
    omega
  rw [Agent.Probes.Scheduler.dueSlotMs, dueSlot, hquotient]
  ring

/-- An agent and the checks worker find the same due time, and both ingestions the same slot. -/
theorem check_slots_agree (nowMs : ℤ) (task : Protocol.ProbeTask) :
    let due := Agent.Probes.Scheduler.dueSlotMs nowMs task
    due = dueSlot nowMs task.intervalSeconds task.phaseSeconds * 1000 ∧
      blockAndSlot due = (blockStart due, some ↑(slotOf due).val) :=
  ⟨dueSlotMs_eq_dueSlot nowMs task, blockAndSlot_eq _⟩

theorem isDue_row (scheduledAt : ℤ) (row : CheckConfigRow) :
    Scheduler.isDue scheduledAt row =
      (!row.parentDeleted && row.enabled && row.central && row.supported &&
        dueCondition scheduledAt row.intervalSeconds row.phaseSeconds row.lastClaimedSlot) :=
  rfl

theorem slotsInside : SlotsInside check := by
  intro slotSeconds _
  refine ⟨_, ?_, ?_, reportSlot_eq _, ?_⟩
  · omega
  · omega
  · unfold floorToFiveMinuteBlock floorToMinute
    omega

theorem selectionExact : SelectionExact check := by
  intro nowMs lastClaimedSlot hphase
  have hquotient : Int.tdiv (nowMs / 1000 - check.phaseSeconds) check.intervalSeconds =
      (nowMs / 1000 - check.phaseSeconds) / check.intervalSeconds :=
    Int.tdiv_eq_ediv_of_nonneg (Int.sub_nonneg.mpr hphase)
  rw [dueCondition, isDue, hquotient, dueSlot]

theorem slotsDistinct_iff_spread :
    SlotsDistinct check ↔ Spread check.intervalSeconds check.phaseSeconds 60 := by
  have hminute (first second : ℤ) :
      blockAndSlot (first * 1000) = blockAndSlot (second * 1000) ↔
        first / 60 = second / 60 := by
    rw [blockAndSlot_inj]
    omega
  unfold SlotsDistinct Spread
  simp only [due_iff_scheduled, ne_eq, hminute]

/-- The slots of a check are inside their blocks and the query selects what is due. The due times
have slots of their own if the check is run centrally, or at most once in a minute; in no other
case. -/
theorem due_slots_iff :
    SlotsInside check ∧ SelectionExact check ∧
      (SlotsDistinct check ↔ check.executorKind = .cloudflare ∨ 60 ≤ check.intervalSeconds) := by
  refine ⟨slotsInside check, selectionExact check, ?_⟩
  have hpos : (0 : ℤ) < check.intervalSeconds := by exact_mod_cast check.interval_pos
  rw [slotsDistinct_iff_spread, spread_iff hpos (by decide)]
  constructor
  · intro h
    exact .inr (by exact_mod_cast h)
  · rintro (hcentral | hminute)
    · exact_mod_cast check.minute_le_interval hcentral
    · exact_mod_cast hminute

/-- A check that an agent runs every five seconds. -/
def frequentCheck : AcceptedCheck where
  executorKind := .agent
  intervalSeconds := 5
  phaseSeconds := 0
  interval_accepted := by decide
  phase_lt := by decide

/-- Its first two due times share the first slot. -/
theorem frequent_due_times_share_a_slot :
    ¬ ∀ check : AcceptedCheck,
      SlotsInside check ∧ SelectionExact check ∧ SlotsDistinct check := by
  intro h
  have hdistinct := (h frequentCheck).2.2
  exact hdistinct 0 5 ⟨0, by decide⟩ ⟨5000, by decide⟩ (by decide) (by decide)

end AlphaPing.Checks.DueTimes
