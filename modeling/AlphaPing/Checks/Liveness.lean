import AlphaPing.Ingest.CheckResults
import AlphaPing.Ingest.Telemetry

/-!
# Machines that have stopped reporting

`reconcileMachineLiveness` reads the latest rows of the machines it was given, fifty at a time,
and then writes the transitions that are due, twenty-five in a batch. A transition is an event and
an update; both look for the row as it was read, by its time of receipt and its state, and the
update does not ask whether the event was inserted.
-/

namespace AlphaPing.Checks.Liveness

open Protocol Library.Tables Ingest.CheckResults Ingest.Telemetry

def latestQueryBatch : ℕ := 50

def transitionBatch : ℕ := 25

structure MachineControlRow where
  telemetryPk : ℕ
  offlineAfterSeconds : ℕ
  maintenanceUntil : Option ℤ
  deriving DecidableEq

structure MachineLatestRow where
  machinePk : ℕ
  receivedAt : ℤ
  state : StoredState

structure OfflineTransition where
  eventId : Bytes
  machinePk : ℕ
  occurredAt : ℤ
  previousState : StoredState
  receivedAt : ℤ

structure MachineLivenessResult where
  scanned : ℕ
  transitioned : ℕ

def offlineTransitionAt (machine : MachineControlRow) (latest : MachineLatestRow) (now : ℤ) :
    Option ℤ :=
  if latest.state = .offline ∨ latest.state = .reported .maintenance ∨
      machine.maintenanceUntil.any fun until_ ↦ decide (now < until_) then none
  else
    let transitionAt := latest.receivedAt + machine.offlineAfterSeconds * 1000
    if transitionAt ≤ now then some transitionAt else none

def offlineEventId (sha256 : Bytes → Bytes) (machinePk : ℕ) (occurredAt : ℤ) : Bytes :=
  sha256 (utf8 ("alphaping:machine-offline:v1:" ++ toString machinePk ++ ":" ++
    toString occurredAt))

/-- One query of `loadLatestRows`. -/
def loadLatestRows (latest : List MachineLatest) (batch : List MachineControlRow) :
    List MachineLatestRow :=
  (latest.filter fun row ↦ (batch.map MachineControlRow.telemetryPk).contains row.machinePk).map
    fun row ↦ ⟨row.machinePk, row.receivedAt, row.state⟩

def transitionOf (sha256 : Bytes → Bytes) (found : List MachineLatestRow) (now : ℤ)
    (machine : MachineControlRow) : Option OfflineTransition := do
  let latest ← found.find? fun row ↦ row.machinePk == machine.telemetryPk
  let occurredAt ← offlineTransitionAt machine latest now
  return {
    eventId := offlineEventId sha256 machine.telemetryPk occurredAt
    machinePk := machine.telemetryPk
    occurredAt
    previousState := latest.state
    receivedAt := latest.receivedAt }

/-- The row that the statements of a transition look for. -/
def OfflineTransition.finds (transition : OfflineTransition) (row : MachineLatest) : Bool :=
  row.machinePk == transition.machinePk && row.receivedAt == transition.receivedAt &&
    row.state == transition.previousState

def OfflineTransition.event (transition : OfflineTransition) (row : MachineLatest) :
    StateEvent where
  workspacePk := row.workspacePk
  resourceType := 1
  resourcePk := row.machinePk
  occurredAt := transition.occurredAt
  eventId := transition.eventId
  previousState := row.state
  currentState := .offline
  reasonCode := "report_timeout"

/-- The two statements of a transition. -/
def persistTransition (tables : MachineTables) (transition : OfflineTransition) : MachineTables :=
  { tables with
    stateEvents := ((tables.latest.filter transition.finds).map transition.event).foldl insertEvent
      tables.stateEvents
    latest := updateWhere transition.finds (fun row ↦ { row with state := .offline })
      tables.latest }

/-- One batch of `persistOfflineTransitions`, with the number of rows it updates. -/
def persistOfflineTransitions (tables : MachineTables) (batch : List OfflineTransition) :
    MachineTables × ℕ :=
  batch.foldl (fun (tables, changes) transition ↦
    (persistTransition tables transition, changes + tables.latest.countP transition.finds))
      (tables, 0)

/-! ## A pass -/

inductive PassStage where
  /-- Machines that are still to be read, and the rows found so far, the last one first. -/
  | loading (machines : List MachineControlRow) (found : List MachineLatestRow)
  | persisting (transitions : List OfflineTransition) (transitioned : ℕ)
  | returned (result : MachineLivenessResult)

/-- A call of `reconcileMachineLiveness`. -/
structure Pass where
  now : ℤ
  machines : List MachineControlRow
  stage : PassStage

def reconcileMachineLiveness (now : ℤ) (machines : List MachineControlRow) : Pass where
  now := now
  machines := machines
  stage := .loading machines []

def advance (sha256 : Bytes → Bytes) (tables : MachineTables) (pass : Pass) :
    MachineTables × Pass :=
  match pass.stage with
  | .loading [] found =>
    (tables, { pass with
      stage := .persisting (pass.machines.filterMap (transitionOf sha256 found pass.now)) 0 })
  | .loading machines found =>
    (tables, { pass with
      stage := .loading (machines.drop latestQueryBatch)
        ((loadLatestRows tables.latest (machines.take latestQueryBatch)).reverse ++ found) })
  | .persisting [] transitioned =>
    (tables, { pass with stage := .returned ⟨pass.machines.length, transitioned⟩ })
  | .persisting transitions transitioned =>
    let (tables, changes) := persistOfflineTransitions tables (transitions.take transitionBatch)
    (tables, { pass with
      stage := .persisting (transitions.drop transitionBatch) (transitioned + changes) })
  | .returned _ => (tables, pass)

end AlphaPing.Checks.Liveness
