import AlphaPing.Ingest.CheckResults

/-!
# Confirmation windows of the two workers

A check is executed by an agent, whose results the ingest worker confirms in Rust, or by the
checks worker, which confirms them in TypeScript. Both read the row of `check_latest`, count
results of one kind in a row, and change the confirmed state when a threshold is reached. The row
outlives a change of the executor.

The counters of the ingest worker are 32 bits wide and saturate. The ones of the checks worker are
doubles, exact up to `2^53`, where adding one stops to change them.
-/

namespace AlphaPing.Checks

open Ingest.CheckResults

/-- The states of `ExecutedCheck`. -/
inductive ExecutedState where
  | healthy
  | degraded
  | down
  deriving DecidableEq

def ExecutedState.toResultState : ExecutedState → ResultState
  | healthy => .healthy
  | degraded => .degraded
  | down => .down

structure ExecutedCheck where
  state : ExecutedState
  latencyMs : Option ℕ
  failureCode : Option String
  failureSummary : Option String
  deriving DecidableEq

/-- The thresholds of a check, as the table constrains them. -/
structure Thresholds where
  failureConfirmations : ℕ
  recoveryConfirmations : ℕ
  failure_range : 1 ≤ failureConfirmations ∧ failureConfirmations ≤ 20
  recovery_range : 1 ≤ recoveryConfirmations ∧ recoveryConfirmations ≤ 20

structure ConfirmedResult where
  state : ResultState
  latencyMs : Option ℕ
  failureCode : Option String
  failureSummary : Option String
  consecutiveFailures : ℕ
  consecutiveSuccesses : ℕ

/-- `+ 1` on a counter that is a double. -/
def numberSuccessor (count : ℕ) : ℕ := min (count + 1) 9007199254740992

/-! ## The checks worker -/

/-- `applyConfirmationWindow`, for a healthy result. -/
def confirmSuccess (thresholds : Thresholds) (previous : Option PreviousConfirmation)
    (result : ExecutedCheck) : ConfirmedResult :=
  let successes := numberSuccessor
    ((previous.map PreviousConfirmation.consecutiveSuccesses).getD 0)
  let priorState := (previous.map PreviousConfirmation.state).getD .healthy
  let confirmed := previous.isNone || priorState == .healthy ||
    decide (thresholds.recoveryConfirmations ≤ successes)
  let pending := some "recovery_pending"
  { state := if confirmed then .healthy else if priorState = .unknown then .unknown else priorState
    latencyMs := result.latencyMs
    failureCode := if confirmed then none
      else (previous.bind PreviousConfirmation.failureCode).orElse fun _ ↦ pending
    failureSummary := if confirmed then none
      else (previous.bind PreviousConfirmation.failureSummary).orElse fun _ ↦ pending
    consecutiveFailures := 0
    consecutiveSuccesses := successes }

/-- `applyConfirmationWindow`, for any other result. -/
def confirmFailure (thresholds : Thresholds) (previous : Option PreviousConfirmation)
    (result : ExecutedCheck) : ConfirmedResult :=
  let failures := numberSuccessor
    ((previous.map PreviousConfirmation.consecutiveFailures).getD 0)
  let priorState := (previous.map PreviousConfirmation.state).getD .unknown
  let alreadyFailed := priorState == .down || priorState == .degraded
  let confirmed := alreadyFailed || decide (thresholds.failureConfirmations ≤ failures)
  { state :=
      if priorState = .down ∧ result.state = .degraded then .down
      else if confirmed then result.state.toResultState else priorState
    latencyMs := result.latencyMs
    failureCode := if confirmed then result.failureCode else some "failure_pending"
    failureSummary := if confirmed then result.failureSummary
      else result.failureSummary.orElse fun _ ↦ result.failureCode
    consecutiveFailures := failures
    consecutiveSuccesses := 0 }

def applyConfirmationWindow (thresholds : Thresholds) (previous : Option PreviousConfirmation)
    (result : ExecutedCheck) : ConfirmedResult :=
  if result.state = .healthy then confirmSuccess thresholds previous result
  else confirmFailure thresholds previous result

/-- The columns of `check_latest` that are read as the previous row. The summary is cut, here after
160 characters; the code counts one outside of the basic plane twice. -/
def ConfirmedResult.row (confirmed : ConfirmedResult) : PreviousConfirmation where
  state := confirmed.state
  failureCode := confirmed.failureCode
  failureSummary := confirmed.failureSummary.map fun summary ↦ (summary.take 160).toString
  consecutiveFailures := confirmed.consecutiveFailures
  consecutiveSuccesses := confirmed.consecutiveSuccesses

/-! ## The ingest worker -/

/-- A number that is read `as u32`. -/
def asU32 (number : ℕ) : ℕ := min number 4294967295

@[simp] theorem asU32_zero : asU32 0 = 0 := rfl

@[simp] theorem asU32_asU32 (number : ℕ) : asU32 (asU32 number) = asU32 number := by
  simp [asU32]

/-- The previous row, as `current_state_statements` hands it to `confirm`. -/
def readPrevious (row : PreviousConfirmation) : PreviousConfirmation :=
  { row with
    consecutiveFailures := asU32 row.consecutiveFailures
    consecutiveSuccesses := asU32 row.consecutiveSuccesses }

/-- The thresholds, as `persist_probe_results` reads them. -/
def withThresholds (config : AssignedCheck) (thresholds : Thresholds) : AssignedCheck :=
  { config with
    failureConfirmations := asU32 thresholds.failureConfirmations
    recoveryConfirmations := asU32 thresholds.recoveryConfirmations }

def confirmOnRow (thresholds : Thresholds) (previous : Option PreviousConfirmation)
    (batch : ResultBatch) : PreviousConfirmation :=
  confirm (withThresholds batch.config thresholds) (previous.map readPrevious) batch

/-! ## Agreement -/

/-- What both workers take into account of a row, in the width of the narrower one. -/
structure Standing where
  state : ResultState
  failures : ℕ
  successes : ℕ

def standing (row : PreviousConfirmation) : Standing where
  state := row.state
  failures := asU32 row.consecutiveFailures
  successes := asU32 row.consecutiveSuccesses

/-- The window on standings: what a result of a state does to a check. -/
def Standing.confirm (thresholds : Thresholds) (previous : Option Standing)
    (observed : ExecutedState) : Standing :=
  if observed = .healthy then
    let successes := asU32 (((previous.map Standing.successes).getD 0) + 1)
    let prior := (previous.map Standing.state).getD .healthy
    { state := if prior = .healthy ∨ thresholds.recoveryConfirmations ≤ successes then .healthy
        else prior
      failures := 0
      successes }
  else
    let failures := asU32 (((previous.map Standing.failures).getD 0) + 1)
    let prior := (previous.map Standing.state).getD .unknown
    { state :=
        if prior = .down ∧ observed = .degraded then .down
        else if prior = .down ∨ prior = .degraded ∨ thresholds.failureConfirmations ≤ failures then
          observed.toResultState
        else prior
      failures
      successes := 0 }

theorem successor_asU32 (count : ℕ) : successor (asU32 count) = asU32 (asU32 count + 1) := by
  unfold successor asU32
  omega

theorem asU32_numberSuccessor (count : ℕ) :
    asU32 (numberSuccessor count) = asU32 (asU32 count + 1) := by
  unfold numberSuccessor asU32
  omega

theorem asU32_eq_self {threshold : ℕ} (h : threshold ≤ 20) : asU32 threshold = threshold := by
  unfold asU32
  omega

theorem le_numberSuccessor_iff {threshold : ℕ} (h : threshold ≤ 20) (count : ℕ) :
    threshold ≤ numberSuccessor count ↔ threshold ≤ asU32 (asU32 count + 1) := by
  unfold numberSuccessor asU32
  omega

theorem toResultState_eq_healthy (state : ExecutedState) :
    state.toResultState = .healthy ↔ state = .healthy := by
  cases state <;> simp [ExecutedState.toResultState]

theorem toResultState_eq_degraded (state : ExecutedState) :
    state.toResultState = .degraded ↔ state = .degraded := by
  cases state <;> simp [ExecutedState.toResultState]

variable (thresholds : Thresholds)

variable (previous : Option PreviousConfirmation)

theorem standing_confirmOnRow {batch : ResultBatch} {observed : ExecutedState}
    (hstate : batch.state = observed.toResultState) :
    standing (confirmOnRow thresholds previous batch) =
      Standing.confirm thresholds (previous.map standing) observed := by
  have hfailure := asU32_eq_self thresholds.failure_range.2
  have hrecovery := asU32_eq_self thresholds.recovery_range.2
  unfold confirmOnRow confirm Standing.confirm
  simp only [hstate, toResultState_eq_healthy]
  by_cases hhealthy : observed = .healthy
  · rw [if_pos hhealthy, if_pos hhealthy]
    cases previous with
    | none => rfl
    | some row =>
      cases hprior : row.state <;>
        simp [confirmHealthy, standing, withThresholds, readPrevious, hprior, successor_asU32,
          hrecovery]
  · rw [if_neg hhealthy, if_neg hhealthy]
    cases previous with
    | none => simp [confirmFailing, standing, withThresholds, hstate, asU32]
    | some row =>
      cases hprior : row.state <;>
        simp [confirmFailing, standing, withThresholds, readPrevious, hprior, hstate,
          successor_asU32, toResultState_eq_degraded, hfailure]

theorem standing_applyConfirmationWindow (result : ExecutedCheck) :
    standing (applyConfirmationWindow thresholds previous result).row =
      Standing.confirm thresholds (previous.map standing) result.state := by
  have hfailure := le_numberSuccessor_iff thresholds.failure_range.2
  have hrecovery := le_numberSuccessor_iff thresholds.recovery_range.2
  unfold applyConfirmationWindow Standing.confirm
  by_cases hhealthy : result.state = .healthy
  · rw [if_pos hhealthy, if_pos hhealthy]
    cases previous with
    | none => rfl
    | some row =>
      cases hprior : row.state <;>
        simp [confirmSuccess, standing, ConfirmedResult.row, hprior, asU32_numberSuccessor,
          hrecovery]
  · rw [if_neg hhealthy, if_neg hhealthy]
    cases previous with
    | none =>
      simp [confirmFailure, standing, ConfirmedResult.row, asU32_numberSuccessor, hfailure]
    | some row =>
      cases hprior : row.state <;>
        simp [confirmFailure, standing, ConfirmedResult.row, hprior, asU32_numberSuccessor,
          hfailure]

theorem standing_counters (batch : ResultBatch) :
    let confirmed := confirmOnRow thresholds previous batch
    (standing confirmed).failures = confirmed.consecutiveFailures ∧
      (standing confirmed).successes = confirmed.consecutiveSuccesses := by
  unfold confirmOnRow confirm
  split <;> cases previous <;> simp [confirmHealthy, confirmFailing, standing, successor, asU32]

/-! ## Histories -/

inductive Executor where
  | agent
  | cloudflare
  deriving DecidableEq

/-- A result, as an agent's batch and as the checks worker would see it. -/
structure Sighting where
  batch : ResultBatch
  check : ExecutedCheck
  same_state : batch.state = check.state.toResultState

/-- The row after a result. -/
def nextRow (thresholds : Thresholds) (previous : Option PreviousConfirmation)
    (sighting : Sighting) : Executor → PreviousConfirmation
  | .agent => confirmOnRow thresholds previous sighting.batch
  | .cloudflare => (applyConfirmationWindow thresholds previous sighting.check).row

/-- The rows after each result, when the executor may change from one to the next. -/
def history (thresholds : Thresholds) (executorOf : ℕ → Executor) :
    Option PreviousConfirmation → List Sighting → List PreviousConfirmation
  | _, [] => []
  | previous, sighting :: rest =>
    let row := nextRow thresholds previous sighting (executorOf 0)
    row :: history thresholds (fun index ↦ executorOf (index + 1)) (some row) rest

/-- The standings after each result. -/
def standings (thresholds : Thresholds) : Option Standing → List ExecutedState → List Standing
  | _, [] => []
  | previous, observed :: rest =>
    let next := Standing.confirm thresholds previous observed
    next :: standings thresholds (some next) rest

theorem standing_nextRow (sighting : Sighting) (executor : Executor) :
    standing (nextRow thresholds previous sighting executor) =
      Standing.confirm thresholds (previous.map standing) sighting.check.state := by
  cases executor with
  | agent => exact standing_confirmOnRow thresholds previous sighting.same_state
  | cloudflare => exact standing_applyConfirmationWindow thresholds previous sighting.check

theorem map_standing_history (executorOf : ℕ → Executor) (previous : Option PreviousConfirmation)
    (sightings : List Sighting) :
    (history thresholds executorOf previous sightings).map standing =
      standings thresholds (previous.map standing)
        (sightings.map fun sighting ↦ sighting.check.state) := by
  induction sightings generalizing previous executorOf with
  | nil => rfl
  | cons sighting rest ih =>
    have hnext := standing_nextRow thresholds previous sighting (executorOf 0)
    simp only [history, standings, List.map_cons, hnext, ih, Option.map_some]

/-- On any row the two windows confirm the same state and count the same up to `u32::MAX`; so two
histories of the same results show the same states and counters, whichever executor has executed
which result. -/
theorem windows_agree (thresholds : Thresholds) (previous : Option PreviousConfirmation) :
    (∀ sighting : Sighting,
      let confirmed := confirmOnRow thresholds previous sighting.batch
      let applied := applyConfirmationWindow thresholds previous sighting.check
      confirmed.state = applied.state ∧
        confirmed.consecutiveFailures = asU32 applied.consecutiveFailures ∧
        confirmed.consecutiveSuccesses = asU32 applied.consecutiveSuccesses) ∧
      ∀ (first second : ℕ → Executor) (sightings : List Sighting),
        (history thresholds first previous sightings).map standing =
          (history thresholds second previous sightings).map standing := by
  constructor
  · intro sighting
    have hsame := (standing_confirmOnRow thresholds previous sighting.same_state).trans
      (standing_applyConfirmationWindow thresholds previous sighting.check).symm
    obtain ⟨hfailures, hsuccesses⟩ := standing_counters thresholds previous sighting.batch
    refine ⟨congrArg Standing.state hsame, ?_, ?_⟩
    · exact hfailures.symm.trans (congrArg Standing.failures hsame)
    · exact hsuccesses.symm.trans (congrArg Standing.successes hsame)
  · intro first second sightings
    rw [map_standing_history, map_standing_history]

/-- A check, to run the workers with. -/
def sampleCheck : AssignedCheck where
  id := "check"
  checkPk := 1
  servicePk := 1
  workspacePk := 1
  assignmentRevision := 1
  intervalSeconds := 60
  phaseSeconds := 0
  failureConfirmations := 3
  recoveryConfirmations := 2
  critical := true
  maintenanceUntil := none

/-- A failure that either worker may see. -/
def failedSighting : Sighting where
  batch :=
    { config := sampleCheck
      nominalMinute := 0
      resultId := []
      payload :=
        { v := 2
          id := []
          observedAt := 0
          state := .down
          latencyMs := none
          failureCode := none
          failureSummary := none
          executorAgentId := "agent"
          configRevision := 1
          samples := [] }
      observedAt := 0
      state := .down
      latencyMs := none
      failureCode := none
      failureSummary := none }
  check := { state := .down, latencyMs := none, failureCode := none, failureSummary := none }
  same_state := rfl

/-- The row of a check after `u32::MAX` failures. -/
def saturatedRow : PreviousConfirmation where
  state := .down
  failureCode := none
  failureSummary := none
  consecutiveFailures := 4294967295
  consecutiveSuccesses := 0

/-- After `u32::MAX` failures in a row one more is counted by the checks worker only. -/
theorem saturated_counters_differ :
    ¬ ∀ (thresholds : Thresholds) (previous : Option PreviousConfirmation) (sighting : Sighting),
      (confirmOnRow thresholds previous sighting.batch).consecutiveFailures =
        (applyConfirmationWindow thresholds previous sighting.check).consecutiveFailures := by
  intro h
  have hrow := h ⟨3, 2, by decide, by decide⟩ (some saturatedRow) failedSighting
  exact absurd hrow (by decide)

end AlphaPing.Checks
