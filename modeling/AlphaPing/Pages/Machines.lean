import AlphaPing.Ingest.Telemetry
import AlphaPing.PublicStatus.Projection

/-!
# Machines on the pages of a workspace

The dashboard and the pages of the machines show the same record of a machine, each with a
normalization of its own. A machine whose latest report is older than its offline limit is shown
offline; neither page reads the maintenance window of the machine.
-/

namespace AlphaPing.Pages.Machines

open Ingest.Telemetry
open PublicStatus.Projection (MachineState)

structure MachineRow where
  id : String
  telemetryPk : ℤ
  name : String
  labelsJson : String
  offlineAfterSeconds : ℤ
  containerMonitoringEnabled : ℤ
  agentVersion : Option String
  platform : Option String
  arch : Option String

structure MachineLatestRow where
  machinePk : ℤ
  observedAt : ℤ
  receivedAt : ℤ
  state : String
  cpuPermille : ℤ
  memoryUsedBytes : ℤ
  memoryTotalBytes : ℤ
  storageUsedBytes : ℤ
  storageTotalBytes : ℤ
  networkRxBps : ℤ
  networkTxBps : ℤ
  networkRxTotal : ℤ
  networkTxTotal : ℤ
  load1mMilli : Option ℤ
  uptimeSeconds : Option ℤ

structure DashboardMachine where
  id : String
  name : String
  labels : List (String × String)
  state : MachineState
  observedAt : Option ℤ
  cpuPermille : ℤ
  memoryUsedBytes : ℤ
  memoryTotalBytes : ℤ
  storageUsedBytes : ℤ
  storageTotalBytes : ℤ
  networkRxBps : ℤ
  networkTxBps : ℤ
  networkRxTotal : ℤ
  networkTxTotal : ℤ
  load1mMilli : Option ℤ
  uptimeSeconds : Option ℤ
  agentVersion : Option String
  platform : Option String
  arch : Option String
  containersEnabled : Bool

def latestColumn (latest : Option MachineLatestRow) (column : MachineLatestRow → ℤ) : ℤ :=
  (latest.map column).getD 0

/-- The record of a machine. `parseLabels` reads `labels_json`. -/
def machineCard (normalize : String → MachineState)
    (parseLabels : String → List (String × String)) (machine : MachineRow)
    (latest : Option MachineLatestRow) (now : ℤ) : DashboardMachine :=
  let stale := latest.any fun row ↦
    decide (now - row.receivedAt > machine.offlineAfterSeconds * 1000)
  { id := machine.id
    name := machine.name
    labels := parseLabels machine.labelsJson
    state :=
      match latest with
      | none => .unknown
      | some row => if stale then .offline else normalize row.state
    observedAt := latest.map (·.observedAt)
    cpuPermille := latestColumn latest (·.cpuPermille)
    memoryUsedBytes := latestColumn latest (·.memoryUsedBytes)
    memoryTotalBytes := latestColumn latest (·.memoryTotalBytes)
    storageUsedBytes := latestColumn latest (·.storageUsedBytes)
    storageTotalBytes := latestColumn latest (·.storageTotalBytes)
    networkRxBps := latestColumn latest (·.networkRxBps)
    networkTxBps := latestColumn latest (·.networkTxBps)
    networkRxTotal := latestColumn latest (·.networkRxTotal)
    networkTxTotal := latestColumn latest (·.networkTxTotal)
    load1mMilli := latest.bind (·.load1mMilli)
    uptimeSeconds := latest.bind (·.uptimeSeconds)
    agentVersion := machine.agentVersion
    platform := machine.platform
    arch := machine.arch
    containersEnabled := machine.containerMonitoringEnabled == 1 }

/-! ## The dashboard -/

/-- `normalizeMachineState` of the dashboard. -/
def normalizeMachineState (state : String) : MachineState :=
  if state = "healthy" then .healthy
  else if state = "degraded" then .degraded
  else if state = "down" then .down
  else if state = "offline" then .offline
  else if state = "maintenance" then .maintenance
  else .unknown

/-- A machine in `loadDashboardSnapshot`. -/
def dashboardMachine : (String → List (String × String)) → MachineRow →
    Option MachineLatestRow → ℤ → DashboardMachine :=
  machineCard normalizeMachineState

/-! ## The pages of the machines -/

/-- `normalizeState` of the machines. -/
def normalizeState (state : String) : MachineState :=
  if state = "healthy" then .healthy
  else if state = "degraded" then .degraded
  else if state = "down" then .down
  else if state = "offline" then .offline
  else if state = "maintenance" then .maintenance
  else .unknown

def toDashboardMachine : (String → List (String × String)) → MachineRow →
    Option MachineLatestRow → ℤ → DashboardMachine :=
  machineCard normalizeState

/-! ## The rows that are read -/

/-- `machine_latest.state`. -/
def stateText : StoredState → String
  | .reported .healthy => "healthy"
  | .reported .degraded => "degraded"
  | .reported .down => "down"
  | .reported .maintenance => "maintenance"
  | .offline => "offline"
  | .unknown => "unknown"

def latestColumns (row : MachineLatest) : MachineLatestRow where
  machinePk := row.machinePk
  observedAt := row.sample.observedAtMs
  receivedAt := row.receivedAt
  state := stateText row.state
  cpuPermille := row.sample.cpuPermille
  memoryUsedBytes := row.sample.memoryUsedBytes
  memoryTotalBytes := row.sample.memoryTotalBytes
  storageUsedBytes := row.sample.storageUsedBytes
  storageTotalBytes := row.sample.storageTotalBytes
  networkRxBps := row.sample.networkRxBytesPerSecond
  networkTxBps := row.sample.networkTxBytesPerSecond
  networkRxTotal := row.sample.networkRxBytesTotal
  networkTxTotal := row.sample.networkTxBytesTotal
  load1mMilli := row.sample.load1mMilli.map Int.ofNat
  uptimeSeconds := row.sample.uptimeSeconds.map Int.ofNat

theorem text_normalizeState (state : StoredState) :
    (normalizeState (stateText state)).text = stateText state := by
  cases state with
  | reported state => cases state <;> rfl
  | offline => rfl
  | unknown => rfl

end AlphaPing.Pages.Machines
