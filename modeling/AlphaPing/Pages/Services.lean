import AlphaPing.Library.QueryBatches
import AlphaPing.PublicStatus.Pages

/-!
# Services on the pages of a workspace

The dashboard, the collection of the services and the page of one service read the same tables
with limits of their own. The state of a service is the one that `service_latest` has, or, without
a row, the worst that its enabled checks show. The dashboard takes the weight of a check from its
configuration and shows an open maintenance window; the other pages take the weight from the
latest result and do not read the window. A public page knows the stored state only.

A query without an order gives its rows as the database has them: `arrange` is that order.
-/

namespace AlphaPing.Pages.Services

open Library.Restrictions Library.Tables Library.QueryBatches
open PublicStatus.Projection (Profile MonitorState PublicServiceRow
  PublicServiceLatestRow PublicStatusBucketRow PublicStatusService ServiceTimelineBucket bucketMs
  timelineStart timelineEnd stateRank roundedMean projectPublicStatusService)
open PublicStatus.Pages (latestOf dayMs)

/-! ## The tables -/

/-- A row of `services`. -/
structure ServiceRow where
  id : String
  telemetryPk : ℤ
  workspaceId : String
  name : String
  slug : Option String
  description : String
  maintenanceUntil : Option ℤ
  createdAt : ℤ
  deletedAt : Option ℤ

/-- A row of `check_configs`. -/
structure CheckRow where
  id : String
  telemetryPk : ℤ
  workspaceId : String
  serviceId : String
  enabled : Bool
  critical : Bool
  createdAt : ℤ

/-- `check_latest.state`. -/
inductive CheckState where
  | healthy
  | degraded
  | down
  | unknown
  deriving DecidableEq

structure CheckLatestRow where
  workspacePk : ℤ
  checkPk : ℤ
  observedAt : ℤ
  state : CheckState
  latencyMs : Option ℤ
  critical : Bool

structure ServiceLatestRow where
  workspacePk : ℤ
  servicePk : ℤ
  state : MonitorState
  lastTransitionAt : ℤ

structure Tables where
  services : List ServiceRow
  checks : List CheckRow
  serviceLatest : List ServiceLatestRow
  checkLatest : List CheckLatestRow
  statusBuckets : List PublicStatusBucketRow

/-- A member's access to a workspace; the two conditions are those of
`resourceCapabilityCondition`. -/
structure Access where
  workspaceId : String
  workspacePk : ℤ
  canView : String → Bool
  canManage : String → Bool

/-- The services of a workspace that a member may view, the first ones by name. -/
def loadServiceRows (tables : Tables) (access : Access) (limit : ℕ) : List ServiceRow :=
  selectOrdered ServiceRow.name limit (tables.services.filter fun service ↦
    service.workspaceId = access.workspaceId && service.deletedAt.isNone &&
      access.canView service.id)

/-- The state that the results of some checks show; a result comes with the weight of its
check. -/
def fallbackState (results : List (Bool × CheckState)) : MonitorState :=
  if results.any fun result ↦ result.2 == .down && result.1 then .down
  else if results.any fun result ↦ result.2 == .down || result.2 == .degraded then .degraded
  else if results.any fun result ↦ result.2 == .healthy then .healthy
  else .unknown

/-! ## The dashboard -/

/-- `DashboardService` before its timeline is read. -/
structure DashboardService where
  id : String
  name : String
  state : MonitorState
  lastCheckedAt : Option ℤ

/-- The checks that `loadDashboardSnapshot` reads. -/
def dashboardChecks (arrange : List CheckRow → List CheckRow) (tables : Tables)
    (access : Access) : List CheckRow :=
  let visible := (loadServiceRows tables access 500).map ServiceRow.id
  (arrange (tables.checks.filter fun check ↦ visible.contains check.serviceId &&
    check.workspaceId = access.workspaceId && check.enabled)).take 1000

def dashboardCurrent (tables : Tables) (checks : List CheckRow) (service : ServiceRow) :
    List CheckLatestRow :=
  let latestChecks := selectIn 90 CheckLatestRow.checkPk (fun _ ↦ true)
    (checks.map CheckRow.telemetryPk) tables.checkLatest
  ((checks.filter fun check ↦ check.serviceId = service.id).map CheckRow.telemetryPk).filterMap
    fun checkPk ↦ lookupLast CheckLatestRow.checkPk checkPk latestChecks

def criticalByCheck (checks : List CheckRow) (checkPk : ℤ) : Bool :=
  (lookupLast CheckRow.telemetryPk checkPk checks).any CheckRow.critical

def dashboardResults (tables : Tables) (checks : List CheckRow) (service : ServiceRow) :
    List (Bool × CheckState) :=
  (dashboardCurrent tables checks service).map fun latest ↦
    (criticalByCheck checks latest.checkPk, latest.state)

/-- A maintenance window is open. -/
def inMaintenance (service : ServiceRow) (now : ℤ) : Bool :=
  service.maintenanceUntil.any fun until_ ↦ decide (until_ > now)

/-- The services of `loadDashboardSnapshot`: the summary counts all of them, and the preview shows
ten. -/
def dashboardServices (arrange : List CheckRow → List CheckRow) (tables : Tables)
    (access : Access) (now : ℤ) : List DashboardService :=
  let allowedServices := loadServiceRows tables access 500
  let checks := dashboardChecks arrange tables access
  let latestServices := selectIn 90 ServiceLatestRow.servicePk
    (fun row ↦ row.workspacePk = access.workspacePk) (allowedServices.map ServiceRow.telemetryPk)
    tables.serviceLatest
  allowedServices.map fun service ↦
    { id := service.id
      name := service.name
      state :=
        if inMaintenance service now then .maintenance
        else ((lookupLast ServiceLatestRow.servicePk service.telemetryPk latestServices).map
          ServiceLatestRow.state).getD (fallbackState (dashboardResults tables checks service))
      lastCheckedAt :=
        latestOf none ((dashboardCurrent tables checks service).map CheckLatestRow.observedAt) }

/-! ## The pages of the services -/

/-- `loadCheckRows`, of one service or of all that are listed. -/
def loadCheckRows (tables : Tables) (access : Access) (serviceId : Option String) :
    List CheckRow :=
  let chosen : CheckRow → Bool := match serviceId with
    | some id => fun check ↦ check.serviceId = id && access.canView check.serviceId
    | none => fun check ↦
      ((loadServiceRows tables access 200).map ServiceRow.id).contains check.serviceId
  selectOrdered (fun check ↦ toLex (check.serviceId, check.createdAt)) 1000
    (tables.checks.filter fun check ↦ check.workspaceId = access.workspaceId && chosen check)

structure Telemetry where
  services : List ServiceLatestRow
  checks : List CheckLatestRow
  buckets : List PublicStatusBucketRow

def loadTelemetry (tables : Tables) (workspacePk : ℤ) (servicePks checkPks : List ℤ) (now : ℤ) :
    Telemetry :=
  if servicePks.isEmpty then ⟨[], [], []⟩
  else
    { services := selectIn 90 ServiceLatestRow.servicePk
        (fun row ↦ row.workspacePk = workspacePk) servicePks tables.serviceLatest
      checks := selectIn 90 CheckLatestRow.checkPk
        (fun row ↦ row.workspacePk = workspacePk) checkPks tables.checkLatest
      buckets := (batches 90 servicePks).flatMap fun batch ↦
        (tables.statusBuckets.filter fun row ↦ row.workspacePk = workspacePk &&
          row.resourceType = 2 && row.bucketSeconds = 300 && batch.contains row.resourcePk &&
          decide (row.bucketStart ≥ now - dayMs)).insertionSort fun first second ↦
            first.bucketStart ≤ second.bucketStart }

/-- `normalizeState` of the services. -/
def normalizeState (state : String) : MonitorState :=
  if state = "healthy" then .healthy
  else if state = "degraded" then .degraded
  else if state = "down" then .down
  else if state = "maintenance" then .maintenance
  else .unknown

/-- The half hours of the last day. -/
def timelineForService (servicePk : ℤ) (rows : List PublicStatusBucketRow) (now : ℤ) :
    List ServiceTimelineBucket :=
  let shown := rows.filter fun row ↦ row.resourcePk = servicePk &&
    decide (timelineStart now ≤ row.bucketStart) && decide (row.bucketStart < timelineEnd now)
  (List.range 48).map fun index ↦
    let bucketStart := timelineStart now + index * bucketMs
    let group := shown.filter fun row ↦ row.bucketStart / bucketMs * bucketMs = bucketStart
    let state := group.foldl (fun worst row ↦
      if stateRank worst < stateRank (normalizeState row.state) then normalizeState row.state
      else worst) MonitorState.unknown
    let latencies := group.filterMap (·.latencyAvgMs)
    { bucketStart
      state
      availabilityPermille :=
        if group.isEmpty then none
        else some (roundedMean (group.map (·.availabilityPermille)).sum group.length)
      latencyMs :=
        if latencies.isEmpty then none else some (roundedMean latencies.sum latencies.length)
      summaryCode := (group.find? fun row ↦ normalizeState row.state = state).map (·.summaryCode) }

structure ServiceSummary where
  id : String
  name : String
  slug : String
  description : String
  state : MonitorState
  checkCount : ℕ
  lastCheckedAt : Option ℤ
  lastTransitionAt : Option ℤ
  latencyMs : Option ℤ
  availability24hPermille : Option ℤ
  timeline : List ServiceTimelineBucket
  canManage : Bool

/-- The latest results of some checks, with the weight that they were written with. -/
def summaryResults (checks : List CheckRow) (telemetry : Telemetry) : List (Bool × CheckState) :=
  (telemetry.checks.filter fun check ↦
    (checks.map CheckRow.telemetryPk).contains check.checkPk).map fun latest ↦
      (latest.critical, latest.state)

def summarizeService (service : ServiceRow) (checks : List CheckRow) (telemetry : Telemetry)
    (canManage : Bool) (now : ℤ) : ServiceSummary :=
  let latestService := telemetry.services.find? fun row ↦ row.servicePk = service.telemetryPk
  let latestChecks := telemetry.checks.filter fun check ↦
    (checks.map CheckRow.telemetryPk).contains check.checkPk
  let serviceBuckets := telemetry.buckets.filter fun row ↦ row.resourcePk = service.telemetryPk
  let latencies := latestChecks.filterMap CheckLatestRow.latencyMs
  { id := service.id
    name := service.name
    slug := service.slug.getD service.id
    description := service.description
    state := (latestService.map fun row ↦ normalizeState row.state.text).getD
      (fallbackState (summaryResults checks telemetry))
    checkCount := checks.length
    lastCheckedAt := latestOf none (latestChecks.map CheckLatestRow.observedAt)
    lastTransitionAt := latestService.map ServiceLatestRow.lastTransitionAt
    latencyMs := latencies.max?
    availability24hPermille :=
      if serviceBuckets.isEmpty then none
      else some (roundedMean (serviceBuckets.map (·.availabilityPermille)).sum
        serviceBuckets.length)
    timeline := timelineForService service.telemetryPk telemetry.buckets now
    canManage := canManage }

/-- The enabled checks of the services that `loadServiceCollection` lists. -/
def collectionChecks (tables : Tables) (access : Access) : List CheckRow :=
  let allowedIds := (loadServiceRows tables access 200).map ServiceRow.id
  (loadCheckRows tables access none).filter fun check ↦
    allowedIds.contains check.serviceId && check.enabled

def collectionTelemetry (tables : Tables) (access : Access) (now : ℤ) : Telemetry :=
  loadTelemetry tables access.workspacePk
    ((loadServiceRows tables access 200).map ServiceRow.telemetryPk)
    ((collectionChecks tables access).map CheckRow.telemetryPk) now

/-- The services of `loadServiceCollection`. -/
def loadServiceCollection (tables : Tables) (access : Access) (now : ℤ) : List ServiceSummary :=
  (loadServiceRows tables access 200).map fun service ↦
    summarizeService service
      ((collectionChecks tables access).filter fun check ↦ check.serviceId = service.id)
      (collectionTelemetry tables access now) (access.canManage service.id) now

def detailTelemetry (tables : Tables) (access : Access) (service : ServiceRow) (now : ℤ) :
    Telemetry :=
  loadTelemetry tables access.workspacePk [service.telemetryPk]
    ((loadCheckRows tables access (some service.id)).map CheckRow.telemetryPk) now

/-- `service` of `ServiceDetail`, with its window and the time of its creation. -/
structure DetailedService extends ServiceSummary where
  maintenanceUntil : Option ℤ
  createdAt : ℤ

/-- `service` of `loadServiceDetail`; nothing when the service is not found. -/
def loadServiceDetail (tables : Tables) (access : Access) (serviceId : String) (now : ℤ) :
    Option DetailedService :=
  (tables.services.find? fun service ↦ service.workspaceId = access.workspaceId &&
    service.id = serviceId && service.deletedAt.isNone && access.canView service.id).map
    fun service ↦
      { summarizeService service
          ((loadCheckRows tables access (some service.id)).filter CheckRow.enabled)
          (detailTelemetry tables access service now) (access.canManage service.id) now with
        maintenanceUntil := service.maintenanceUntil
        createdAt := service.createdAt }

/-! ## The public page -/

def publicRow (service : ServiceRow) (profile : Profile) : PublicServiceRow where
  id := service.id
  telemetryPk := service.telemetryPk
  name := service.name
  slug := service.slug
  description := service.description
  projectionProfile := profile

def publicLatest (row : ServiceLatestRow) : PublicServiceLatestRow where
  workspacePk := row.workspacePk
  servicePk := row.servicePk
  state := row.state.text
  lastTransitionAt := row.lastTransitionAt

/-- A service of a public page, which has it among some others. -/
def publicService (tables : Tables) (workspacePk : ℤ) (servicePks : List ℤ)
    (service : ServiceRow) (profile : Profile) (lastCheckedAt : Option ℤ)
    (buckets : List PublicStatusBucketRow) (now : ℤ) : PublicStatusService :=
  projectPublicStatusService (publicRow service profile)
    ((lookupLast ServiceLatestRow.servicePk service.telemetryPk
      (selectIn 90 ServiceLatestRow.servicePk (fun row ↦ row.workspacePk = workspacePk) servicePks
        tables.serviceLatest)).map publicLatest)
    lastCheckedAt buckets now

/-! ## What the results show -/

def criticalDown (results : List (Bool × CheckState)) : Bool :=
  results.any fun result ↦ result.2 == .down && result.1

def failing (results : List (Bool × CheckState)) : Bool :=
  results.any fun result ↦ result.2 == .down || result.2 == .degraded

def passing (results : List (Bool × CheckState)) : Bool :=
  results.any fun result ↦ result.2 == .healthy

/-- Both have a critical check that is down; or neither, and both have a failed check; or neither,
and both have a check that passed, or neither. -/
def SameVerdict (first second : List (Bool × CheckState)) : Prop :=
  criticalDown first = criticalDown second ∧ (criticalDown first = false →
    failing first = failing second ∧ (failing first = false → passing first = passing second))

variable (results : List (Bool × CheckState))

theorem fallbackState_eq :
    fallbackState results =
      if criticalDown results then .down else if failing results then .degraded
      else if passing results then .healthy else .unknown := rfl

theorem fallbackState_eq_iff (first second : List (Bool × CheckState)) :
    fallbackState first = fallbackState second ↔ SameVerdict first second := by
  rw [fallbackState_eq, fallbackState_eq, SameVerdict]
  cases criticalDown first <;> cases criticalDown second <;> cases failing first <;>
    cases failing second <;> cases passing first <;> cases passing second <;> simp

theorem fallbackState_eq_unknown_iff :
    fallbackState results = .unknown ↔ ∀ result ∈ results, result.2 = .unknown := by
  rw [fallbackState_eq]
  constructor
  · intro h result hresult
    have hfailing : failing results = false := by
      cases hfailing : failing results with
      | false => rfl
      | true => cases hcritical : criticalDown results <;> simp [hfailing, hcritical] at h
    have hpassing : passing results = false := by
      cases hpassing : passing results with
      | false => rfl
      | true =>
        cases hcritical : criticalDown results <;> simp [hfailing, hpassing, hcritical] at h
    have hfailed := List.any_eq_false.mp hfailing result hresult
    have hpassed := List.any_eq_false.mp hpassing result hresult
    cases hstate : result.2 with
    | unknown => rfl
    | healthy => simp [hstate] at hpassed
    | degraded => simp [hstate] at hfailed
    | down => simp [hstate] at hfailed
  · intro h
    have hcritical : criticalDown results = false :=
      List.any_eq_false.mpr fun result hresult ↦ by simp [h result hresult]
    have hfailing : failing results = false :=
      List.any_eq_false.mpr fun result hresult ↦ by simp [h result hresult]
    have hpassing : passing results = false :=
      List.any_eq_false.mpr fun result hresult ↦ by simp [h result hresult]
    rw [hcritical, hfailing, hpassing]
    rfl

theorem fallbackState_ne_maintenance : fallbackState results ≠ .maintenance := by
  unfold fallbackState
  split
  · exact MonitorState.noConfusion
  · split
    · exact MonitorState.noConfusion
    · split <;> exact MonitorState.noConfusion

theorem normalizeState_text (state : MonitorState) : normalizeState state.text = state := by
  cases state <;> rfl

end AlphaPing.Pages.Services
