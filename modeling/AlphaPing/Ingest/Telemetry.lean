import AlphaPing.Ingest.Blocks
import AlphaPing.Ingest.Containers

/-!
# The telemetry tables of machines

An accepted report is written by one batch: the block upsert, the event of a state transition,
the latest values, and the rollups that the report closes. The batch is a transaction, but none
of its statements looks at what another one changed, and the handler does not look at the number
of rows the block upsert changed.
-/

namespace AlphaPing.Ingest.Telemetry

open Protocol Library.Tables Database Blocks Containers

/-! ## Machine health -/

inductive MachineHealthState where
  | healthy
  | degraded
  | down
  | maintenance
  deriving DecidableEq

/-- `machine_latest.state`; other workers write the last two. -/
inductive StoredState where
  | reported (state : MachineHealthState)
  | offline
  | unknown
  deriving DecidableEq

/-- The largest `u64`. -/
def maxU64 : ℕ := 18446744073709551615

/-- `u64::saturating_mul`. -/
def saturatingMul (first second : ℕ) : ℕ := min (first * second) maxU64

/-- `u64::saturating_add`. -/
def saturatingAdd (first second : ℕ) : ℕ := min (first + second) maxU64

def usagePermille (used total : ℕ) : ℕ :=
  if total = 0 then 0 else saturatingMul used 1000 / total

def cpuDegradedPermille : ℕ := 800
def cpuDownPermille : ℕ := 950
def capacityDegradedPermille : ℕ := 850
def capacityDownPermille : ℕ := 950

def machineHealthState (sample : MetricSample) (maintenance : Bool) : MachineHealthState :=
  let memory := usagePermille sample.memoryUsedBytes sample.memoryTotalBytes
  let storage := usagePermille sample.storageUsedBytes sample.storageTotalBytes
  if maintenance then .maintenance
  else if cpuDownPermille ≤ sample.cpuPermille ∨ capacityDownPermille ≤ memory ∨
      capacityDownPermille ≤ storage then .down
  else if cpuDegradedPermille ≤ sample.cpuPermille ∨ capacityDegradedPermille ≤ memory ∨
      capacityDegradedPermille ≤ storage then .degraded
  else .healthy

/-! ## The tables -/

/-- A row of `machine_latest`; the columns copied from the last sample are that sample. -/
structure MachineLatest where
  machinePk : ℕ
  workspacePk : ℕ
  agentId : String
  receivedAt : ℤ
  state : StoredState
  sample : MetricSample
  reportId : Bytes
  containerInventory : Option StoredInventory
  deriving DecidableEq

structure StateEvent where
  workspacePk : ℕ
  resourceType : ℕ
  resourcePk : ℕ
  occurredAt : ℤ
  eventId : Bytes
  previousState : StoredState
  currentState : StoredState
  reasonCode : String

/-- A row of `machine_rollups_5m` or `machine_rollups_1h`. -/
structure RollupRow where
  machinePk : ℕ
  workspacePk : ℕ
  bucketStart : ℤ
  sampleCount : ℕ
  cpuAvgPermille : ℕ
  cpuMaxPermille : ℕ
  memoryAvgBytes : ℕ
  storageMaxBytes : ℕ
  networkRxBytes : ℕ
  networkTxBytes : ℕ
  deriving DecidableEq

structure MachineTables where
  blocks : List (Block MachineReport)
  latest : List MachineLatest
  stateEvents : List StateEvent
  rollups5m : List RollupRow
  rollups1h : List RollupRow

/-! ## Rollups -/

structure MachineRollup where
  sampleCount : ℕ := 0
  cpuTotalPermille : ℕ := 0
  cpuMaxPermille : ℕ := 0
  memoryTotalBytes : ℕ := 0
  storageMaxBytes : ℕ := 0
  networkRxBytes : ℕ := 0
  networkTxBytes : ℕ := 0

namespace MachineRollup

def addSample (rollup : MachineRollup) (sample : MetricSample) : MachineRollup where
  sampleCount := rollup.sampleCount + 1
  cpuTotalPermille := rollup.cpuTotalPermille + sample.cpuPermille
  cpuMaxPermille := max rollup.cpuMaxPermille sample.cpuPermille
  memoryTotalBytes := saturatingAdd rollup.memoryTotalBytes sample.memoryUsedBytes
  storageMaxBytes := max rollup.storageMaxBytes sample.storageUsedBytes
  networkRxBytes := saturatingAdd rollup.networkRxBytes
    (saturatingMul sample.networkRxBytesPerSecond 10)
  networkTxBytes := saturatingAdd rollup.networkTxBytes
    (saturatingMul sample.networkTxBytesPerSecond 10)

def addReport (rollup : MachineRollup) (report : MachineReport) : MachineRollup :=
  report.samples.foldl addSample rollup

def cpuAveragePermille (rollup : MachineRollup) : ℕ :=
  rollup.cpuTotalPermille / max rollup.sampleCount 1

def memoryAverageBytes (rollup : MachineRollup) : ℕ :=
  rollup.memoryTotalBytes / max rollup.sampleCount 1

/-- A row of the hour's five-minute buckets is added to the hour. -/
def addStored (hour : MachineRollup) (stored : RollupRow) : MachineRollup where
  sampleCount := saturatingAdd hour.sampleCount stored.sampleCount
  cpuTotalPermille := saturatingAdd hour.cpuTotalPermille
    (saturatingMul stored.cpuAvgPermille stored.sampleCount)
  cpuMaxPermille := max hour.cpuMaxPermille stored.cpuMaxPermille
  memoryTotalBytes := saturatingAdd hour.memoryTotalBytes
    (saturatingMul stored.memoryAvgBytes stored.sampleCount)
  storageMaxBytes := max hour.storageMaxBytes stored.storageMaxBytes
  networkRxBytes := saturatingAdd hour.networkRxBytes stored.networkRxBytes
  networkTxBytes := saturatingAdd hour.networkTxBytes stored.networkTxBytes

def addBucket (hour five : MachineRollup) : MachineRollup where
  sampleCount := saturatingAdd hour.sampleCount five.sampleCount
  cpuTotalPermille := saturatingAdd hour.cpuTotalPermille five.cpuTotalPermille
  cpuMaxPermille := max hour.cpuMaxPermille five.cpuMaxPermille
  memoryTotalBytes := saturatingAdd hour.memoryTotalBytes five.memoryTotalBytes
  storageMaxBytes := max hour.storageMaxBytes five.storageMaxBytes
  networkRxBytes := saturatingAdd hour.networkRxBytes five.networkRxBytes
  networkTxBytes := saturatingAdd hour.networkTxBytes five.networkTxBytes

def toRow (rollup : MachineRollup) (report : MachineReport) (bucketStart : ℤ) : RollupRow where
  machinePk := report.machinePk
  workspacePk := report.workspacePk
  bucketStart := bucketStart
  sampleCount := rollup.sampleCount
  cpuAvgPermille := rollup.cpuAveragePermille
  cpuMaxPermille := rollup.cpuMaxPermille
  memoryAvgBytes := rollup.memoryAverageBytes
  storageMaxBytes := rollup.storageMaxBytes
  networkRxBytes := rollup.networkRxBytes
  networkTxBytes := rollup.networkTxBytes

end MachineRollup

/-- The upsert of `rollup_statement`, on either table. -/
def upsertRollup (rows : List RollupRow) (row : RollupRow) : List RollupRow :=
  upsert (fun old ↦ (old.machinePk, old.bucketStart))
    (fun old ↦ old.workspacePk == row.workspacePk)
    (fun old ↦ { row with
      machinePk := old.machinePk
      workspacePk := old.workspacePk
      bucketStart := old.bucketStart })
    row rows

/-- The rollups that a report closes: of its block, and of its hour. -/
structure ClosedRollups where
  five : Option MachineRollup := none
  hour : Option MachineRollup := none

def closesBlock (report : MachineReport) : Bool := slotOf report.nominalMinuteMs == 4

def closesHour (report : MachineReport) : Bool :=
  report.nominalMinuteMs % 3600000 / 60000 == 59

def hourStart (report : MachineReport) : ℤ := report.nominalMinuteMs / 3600000 * 3600000

/-- The first read of `closed_rollups`, for a report that closes its block. -/
def closedFive (tables : MachineTables) (report : MachineReport) : MachineRollup :=
  let stored := [0, 1, 2, 3].filterMap fun minute : ℤ ↦
    (readSlot tables.blocks report.machinePk report.workspacePk
      (blockStart report.nominalMinuteMs + minute * 60000)).map SlotColumns.payload
  (stored.foldl MachineRollup.addReport {}).addReport report

/-- The second read of `closed_rollups`, for a report that closes its hour. -/
def closedHour (tables : MachineTables) (report : MachineReport) (five : MachineRollup) :
    MachineRollup :=
  let previous := (tables.rollups5m.filter fun row ↦
    row.workspacePk == report.workspacePk && row.machinePk == report.machinePk &&
      decide (hourStart report ≤ row.bucketStart) &&
      decide (row.bucketStart < blockStart report.nominalMinuteMs)).insertionSort
    fun first second ↦ first.bucketStart ≤ second.bucketStart
  (previous.foldl MachineRollup.addStored {}).addBucket five

/-! ## Statements -/

/-- What the block upsert writes. -/
def blockWrite (report : MachineReport) (payloadHash : Bytes) : SlotWrite MachineReport where
  resourcePk := report.machinePk
  workspacePk := report.workspacePk
  nominalMinuteMs := report.nominalMinuteMs
  columns := { payload := report, id := report.reportId, payloadHash := payloadHash }
  schemaVersion := report.schemaVersion

def blockStatement (tables : MachineTables) (report : MachineReport) (payloadHash : Bytes) :
    MachineTables :=
  { tables with
    blocks := (blockWrite report payloadHash).perform (fun _ ↦ report.schemaVersion)
      tables.blocks }

/-- The reason of a transition that does not end an offline state. -/
def transitionReason : MachineHealthState → String
  | .healthy => "resource_recovered"
  | .degraded | .down => "resource_threshold"
  | .maintenance => "maintenance_window"

/-- `INSERT OR IGNORE INTO state_events`. -/
def insertEvent (events : List StateEvent) (event : StateEvent) : List StateEvent :=
  if events.any fun old ↦ old.resourceType == event.resourceType &&
      old.resourcePk == event.resourcePk && old.occurredAt == event.occurredAt &&
      old.eventId == event.eventId then events
  else events ++ [event]

def stateTransitionStatement (tables : MachineTables) (report : MachineReport)
    (sample : MetricSample) (state : MachineHealthState) (now : ℤ) : MachineTables :=
  let changed := tables.latest.filter fun row ↦
    row.workspacePk == report.workspacePk && row.machinePk == report.machinePk &&
      row.state != .reported state && decide (row.sample.observedAtMs ≤ sample.observedAtMs)
  let events := changed.map fun row ↦
    { workspacePk := row.workspacePk
      resourceType := 1
      resourcePk := row.machinePk
      occurredAt := now
      eventId := report.reportId
      previousState := row.state
      currentState := .reported state
      reasonCode := if row.state = .offline then "agent_report_received"
        else transitionReason state : StateEvent }
  { tables with stateEvents := events.foldl insertEvent tables.stateEvents }

/-- The row that the `INSERT` of `latest_statement` would create. -/
def latestRow (agentId : String) (report : MachineReport) (sample : MetricSample)
    (state : MachineHealthState) (now : ℤ) (previous : Option StoredInventory) :
    MachineLatest where
  machinePk := report.machinePk
  workspacePk := report.workspacePk
  agentId := agentId
  receivedAt := now
  state := .reported state
  sample := sample
  reportId := report.reportId
  containerInventory := containerInventoryJson report previous

def latestStatement (tables : MachineTables) (row : MachineLatest) : MachineTables :=
  { tables with
    latest := upsert MachineLatest.machinePk
      (fun old ↦ old.workspacePk == row.workspacePk &&
        decide (old.sample.observedAtMs ≤ row.sample.observedAtMs))
      (fun old ↦ { row with
        machinePk := old.machinePk
        containerInventory := row.containerInventory.orElse fun _ ↦ old.containerInventory })
      row tables.latest }

/-- The statements of `closed_rollups`. -/
def rollupStatements (tables : MachineTables) (report : MachineReport) (closed : ClosedRollups) :
    MachineTables :=
  { tables with
    rollups5m := (closed.five.map fun five ↦
      upsertRollup tables.rollups5m (five.toRow report (blockStart report.nominalMinuteMs))).getD
        tables.rollups5m
    rollups1h := (closed.hour.map fun hour ↦
      upsertRollup tables.rollups1h (hour.toRow report (hourStart report))).getD
        tables.rollups1h }

/-! ## Reading -/

/-- `classify_slot`: whether the report is a duplicate. -/
def classifySlot (tables : MachineTables) (report : MachineReport) (payloadHash : Bytes) :
    Except IngestError Bool :=
  match readSlot tables.blocks report.machinePk report.workspacePk report.nominalMinuteMs with
  | none => .ok false
  | some held =>
    if held.id = report.reportId ∧ held.payloadHash = payloadHash then .ok true
    else .error .conflict

def previousInventory (tables : MachineTables) (report : MachineReport) :
    Option StoredInventory :=
  (tables.latest.find? fun row ↦ row.workspacePk == report.workspacePk &&
    row.machinePk == report.machinePk).bind MachineLatest.containerInventory

/-- A report that is not a duplicate, with what the handler has read for its batch. -/
structure PreparedReport where
  report : MachineReport
  payloadHash : Bytes
  agentId : String
  sample : MetricSample
  state : MachineHealthState
  now : ℤ
  previous : Option StoredInventory
  closed : ClosedRollups

/-- The batch of `durable_ack`. -/
def durableBatch (tables : MachineTables) (prepared : PreparedReport) : MachineTables :=
  let tables := blockStatement tables prepared.report prepared.payloadHash
  let tables := stateTransitionStatement tables prepared.report prepared.sample prepared.state
    prepared.now
  let tables := latestStatement tables (latestRow prepared.agentId prepared.report prepared.sample
    prepared.state prepared.now prepared.previous)
  rollupStatements tables prepared.report prepared.closed

@[simp] theorem blocks_durableBatch (tables : MachineTables) (prepared : PreparedReport) :
    (durableBatch tables prepared).blocks =
      (blockWrite prepared.report prepared.payloadHash).perform
        (fun _ ↦ prepared.report.schemaVersion) tables.blocks :=
  rfl

end AlphaPing.Ingest.Telemetry
