import AlphaPing.Library.Restrictions
import AlphaPing.System.StoredInventories

/-!
# What a public page shows of a machine and of a service

The projection of a resource follows the profile of its public policy: under `summary` the
description and the metrics are left out. A machine whose report is older than its offline limit
is shown offline; the containers of a machine are those that have a policy of their own, looked up
in the stored inventory. A service is shown with a timeline of forty-eight half hours.
-/

namespace AlphaPing.PublicStatus.Projection

open Library.Restrictions
open System.StoredInventories (MachineContainer MachineContainerInventory)

/-- `projection_profile`. -/
inductive Profile where
  | summary
  | detailed
  deriving DecidableEq

inductive MachineState where
  | healthy
  | degraded
  | down
  | offline
  | maintenance
  | unknown
  deriving DecidableEq

inductive MonitorState where
  | healthy
  | degraded
  | down
  | maintenance
  | unknown
  deriving DecidableEq

def MachineState.text : MachineState → String
  | .healthy => "healthy"
  | .degraded => "degraded"
  | .down => "down"
  | .offline => "offline"
  | .maintenance => "maintenance"
  | .unknown => "unknown"

def MonitorState.text : MonitorState → String
  | .healthy => "healthy"
  | .degraded => "degraded"
  | .down => "down"
  | .maintenance => "maintenance"
  | .unknown => "unknown"

/-! ## The rows that are projected -/

structure PublicMachineRow where
  id : String
  publicSlug : String
  telemetryPk : ℤ
  name : String
  description : String
  offlineAfterSeconds : ℤ
  projectionProfile : Profile

/-- A row of `machine_latest`. What `container_inventory_json` holds is left open: it is read by
`parseContainerInventory` and by nothing else. -/
structure PublicMachineLatestRow (Stored : Type) where
  workspacePk : ℤ
  machinePk : ℤ
  observedAt : ℤ
  receivedAt : ℤ
  state : String
  cpuPermille : ℤ
  memoryUsedBytes : ℤ
  memoryTotalBytes : ℤ
  storageUsedBytes : ℤ
  storageTotalBytes : ℤ
  networkRxBps : ℤ
  networkTxBps : ℤ
  containerInventory : Stored

structure PublicContainerRow where
  id : String
  machineId : String
  projectionProfile : Profile

structure PublicServiceRow where
  id : String
  telemetryPk : ℤ
  name : String
  slug : Option String
  description : String
  projectionProfile : Profile

/-- A row of `service_latest`. -/
structure PublicServiceLatestRow where
  workspacePk : ℤ
  servicePk : ℤ
  state : String
  lastTransitionAt : ℤ

/-- A row of `status_buckets`. -/
structure PublicStatusBucketRow where
  workspacePk : ℤ
  resourceType : ℕ
  resourcePk : ℤ
  bucketSeconds : ℕ
  bucketStart : ℤ
  state : String
  availabilityPermille : ℤ
  latencyAvgMs : Option ℤ
  summaryCode : String

/-! ## What is shown -/

structure PublicStatusContainer where
  name : String
  state : String
  health : String
  cpuPermille : Option ℤ
  memoryUsedBytes : Option ℤ

structure PublicStatusMachine where
  slug : String
  name : String
  description : String
  state : MachineState
  observedAt : Option ℤ
  cpuPermille : Option ℤ
  memoryUsedBytes : Option ℤ
  memoryTotalBytes : Option ℤ
  storageUsedBytes : Option ℤ
  storageTotalBytes : Option ℤ
  networkRxBps : Option ℤ
  networkTxBps : Option ℤ
  containers : List PublicStatusContainer

structure ServiceTimelineBucket where
  bucketStart : ℤ
  state : MonitorState
  availabilityPermille : Option ℤ
  latencyMs : Option ℤ
  summaryCode : Option String

structure PublicStatusService where
  name : String
  slug : String
  description : String
  state : MonitorState
  lastCheckedAt : Option ℤ
  lastTransitionAt : Option ℤ
  availability24hPermille : Option ℤ
  timeline : List ServiceTimelineBucket

/-! ## The projections -/

def normalizeState (value : String) : MonitorState :=
  if value = "healthy" then .healthy
  else if value = "degraded" then .degraded
  else if value = "down" then .down
  else if value = "maintenance" then .maintenance
  else .unknown

def normalizeMachineState (value : String) : MachineState :=
  if value = "healthy" then .healthy
  else if value = "degraded" then .degraded
  else if value = "down" then .down
  else if value = "offline" then .offline
  else if value = "maintenance" then .maintenance
  else .unknown

def projectContainer (policy : PublicContainerRow) (container : MachineContainer) :
    PublicStatusContainer where
  name := container.name
  state := container.state
  health := container.health
  cpuPermille := if policy.projectionProfile = .detailed then some container.cpuPermille else none
  memoryUsedBytes :=
    if policy.projectionProfile = .detailed then some container.memoryUsedBytes else none

def whenDetailed (profile : Profile) (column : Option ℤ) : Option ℤ :=
  if profile = .detailed then column else none

section

variable {Stored : Type}

def projectPublicStatusMachine (machine : PublicMachineRow)
    (latest : Option (PublicMachineLatestRow Stored))
    (inventory : Option MachineContainerInventory) (publicContainers : List PublicContainerRow)
    (now : ℤ) : PublicStatusMachine where
  slug := machine.publicSlug
  name := machine.name
  description := if machine.projectionProfile = .detailed then machine.description else ""
  state :=
    match latest with
    | none => .unknown
    | some row =>
      if now - row.receivedAt > machine.offlineAfterSeconds * 1000 then .offline
      else normalizeMachineState row.state
  observedAt := latest.map (·.observedAt)
  cpuPermille := whenDetailed machine.projectionProfile (latest.map (·.cpuPermille))
  memoryUsedBytes := whenDetailed machine.projectionProfile (latest.map (·.memoryUsedBytes))
  memoryTotalBytes := whenDetailed machine.projectionProfile (latest.map (·.memoryTotalBytes))
  storageUsedBytes := whenDetailed machine.projectionProfile (latest.map (·.storageUsedBytes))
  storageTotalBytes := whenDetailed machine.projectionProfile (latest.map (·.storageTotalBytes))
  networkRxBps := whenDetailed machine.projectionProfile (latest.map (·.networkRxBps))
  networkTxBps := whenDetailed machine.projectionProfile (latest.map (·.networkTxBps))
  containers := publicContainers.filterMap fun policy ↦
    (lookupLast MachineContainer.id policy.id ((inventory.map (·.containers)).getD [])).map
      (projectContainer policy)

end

def stateRank : MonitorState → ℕ
  | .unknown => 0
  | .healthy => 1
  | .degraded => 2
  | .down => 3
  | .maintenance => 4

/-- `Math.round(total / count)`. -/
def roundedMean (total count : ℤ) : ℤ :=
  (2 * total + count) / (2 * count)

/-- A half hour while its rows are added. -/
structure TimelineEntry where
  bucketStart : ℤ
  hasRows : Bool
  state : MonitorState
  availabilityTotal : ℤ
  availabilityCount : ℤ
  latencyTotal : ℤ
  latencyCount : ℤ
  summaryCode : Option String

def bucketMs : ℤ := 30 * 60000

def TimelineEntry.empty (start : ℤ) (index : ℕ) : TimelineEntry where
  bucketStart := start + index * bucketMs
  hasRows := false
  state := .unknown
  availabilityTotal := 0
  availabilityCount := 0
  latencyTotal := 0
  latencyCount := 0
  summaryCode := none

def TimelineEntry.add (row : PublicStatusBucketRow) (entry : TimelineEntry) : TimelineEntry :=
  let candidate := normalizeState row.state
  let worse := entry.hasRows = false ∨ stateRank entry.state < stateRank candidate
  { entry with
    state := if worse then candidate else entry.state
    summaryCode := if worse then some row.summaryCode else entry.summaryCode
    hasRows := true
    availabilityTotal := entry.availabilityTotal + row.availabilityPermille
    availabilityCount := entry.availabilityCount + 1
    latencyTotal := entry.latencyTotal + row.latencyAvgMs.getD 0
    latencyCount := entry.latencyCount + if row.latencyAvgMs.isSome then 1 else 0 }

def TimelineEntry.shown (entry : TimelineEntry) : ServiceTimelineBucket where
  bucketStart := entry.bucketStart
  state := entry.state
  availabilityPermille :=
    if entry.availabilityCount = 0 then none
    else some (roundedMean entry.availabilityTotal entry.availabilityCount)
  latencyMs :=
    if entry.latencyCount = 0 then none
    else some (roundedMean entry.latencyTotal entry.latencyCount)
  summaryCode := entry.summaryCode

/-- The end of the half hour that the time is in. -/
def timelineEnd (now : ℤ) : ℤ :=
  now / bucketMs * bucketMs + bucketMs

def timelineStart (now : ℤ) : ℤ :=
  timelineEnd now - 48 * bucketMs

/-- One row of the loop over the buckets: rows of another service and rows outside the timeline
are passed over. -/
def addRow (servicePk now : ℤ) (timeline : List TimelineEntry) (row : PublicStatusBucketRow) :
    List TimelineEntry :=
  let index := (row.bucketStart - timelineStart now) / bucketMs
  if row.resourcePk ≠ servicePk ∨ index < 0 ∨ row.bucketStart ≥ timelineEnd now then timeline
  else timeline.modify index.toNat (TimelineEntry.add row)

def buildTimeline (servicePk : ℤ) (buckets : List PublicStatusBucketRow) (now : ℤ) :
    List ServiceTimelineBucket :=
  (buckets.foldl (addRow servicePk now)
    ((List.range 48).map (TimelineEntry.empty (timelineStart now)))).map TimelineEntry.shown

def projectPublicStatusService (service : PublicServiceRow)
    (latest : Option PublicServiceLatestRow) (lastCheckedAt : Option ℤ)
    (buckets : List PublicStatusBucketRow) (now : ℤ) : PublicStatusService :=
  let serviceBuckets := buckets.filter fun row ↦ row.resourcePk = service.telemetryPk
  { name := service.name
    slug := service.slug.getD service.id
    description := if service.projectionProfile = .detailed then service.description else ""
    state := (latest.map fun row ↦ normalizeState row.state).getD .unknown
    lastCheckedAt := lastCheckedAt
    lastTransitionAt := latest.map (·.lastTransitionAt)
    availability24hPermille :=
      if serviceBuckets.isEmpty then none
      else some (roundedMean (serviceBuckets.map (·.availabilityPermille)).sum
        serviceBuckets.length)
    timeline := buildTimeline service.telemetryPk serviceBuckets now }

end AlphaPing.PublicStatus.Projection
