import AlphaPing.PublicStatus.Projection
import Mathlib.Data.Prod.Lex

/-!
# The loaders of the public pages

The loaders read a control database, which has the dashboards, the resources, their public
policies and the incidents, and a telemetry database, which has what is measured. A resource is
on a public page when the default dashboard of its workspace is public and lists it without a
`deny`, its public policy allows it, and nothing of the chain is deleted.

Statements run in batches of ninety values. Texts are ordered by their characters, which is how
the binary collation and the hexadecimal sort keys order them; identifiers are hexadecimal, so
`compareText` orders them alike.
-/

namespace AlphaPing.PublicStatus.Pages

open Library.Restrictions Library.Tables
open Projection
open System.StoredInventories (MachineContainerInventory maxSafeInteger)

/-! ## The control database -/

structure Workspace where
  id : String
  telemetryPk : ℤ
  slug : String
  name : String
  defaultDashboardId : Option String
  deletedAt : Option ℤ
  deriving DecidableEq

inductive Visibility where
  | private_
  | authenticated
  | public_
  deriving DecidableEq

structure Dashboard where
  id : String
  name : String
  appearanceJson : String
  visibility : Visibility
  deletedAt : Option ℤ
  deriving DecidableEq

inductive ResourceType where
  | machine
  | container
  | service
  deriving DecidableEq

inductive PublicOverride where
  | inherit
  | allow
  | deny
  deriving DecidableEq

structure DashboardResource where
  dashboardId : String
  resourceType : ResourceType
  resourceId : String
  sortOrder : ℤ
  publicOverride : PublicOverride
  deriving DecidableEq

inductive Effect where
  | allow
  | deny
  deriving DecidableEq

/-- A row of `resource_public_policies`. -/
structure Policy where
  workspaceId : String
  resourceType : ResourceType
  resourceId : String
  effect : Effect
  projectionProfile : Profile
  deriving DecidableEq

/-- The columns that machines and services have in common. -/
structure Resource where
  id : String
  telemetryPk : ℤ
  workspaceId : String
  name : String
  description : String
  deletedAt : Option ℤ
  deriving DecidableEq

structure Machine extends Resource where
  publicSlug : String
  offlineAfterSeconds : ℤ
  expectedHost : Option String
  labelsJson : String
  deriving DecidableEq

structure Service extends Resource where
  slug : Option String
  deriving DecidableEq

structure Container where
  id : String
  workspaceId : String
  machineId : String
  name : String
  image : String
  deletedAt : Option ℤ
  deriving DecidableEq

structure CheckConfig where
  telemetryPk : ℤ
  workspaceId : String
  serviceId : String
  enabled : Bool
  deriving DecidableEq

inductive Severity where
  | minor
  | major
  | critical
  deriving DecidableEq

inductive IncidentState where
  | investigating
  | identified
  | monitoring
  | resolved
  deriving DecidableEq

structure Incident where
  id : String
  workspaceId : String
  title : String
  summary : String
  severity : Severity
  state : IncidentState
  startsAt : ℤ
  resolvedAt : Option ℤ
  deletedAt : Option ℤ

inductive Impact where
  | degraded
  | down
  deriving DecidableEq

structure IncidentResource where
  incidentId : String
  resourceType : ResourceType
  resourceId : String
  impact : Impact

structure IncidentUpdate where
  id : String
  incidentId : String
  state : String
  body : String
  publishedAt : Option ℤ
  createdAt : ℤ

inductive AnnouncementSeverity where
  | info
  | maintenance
  | minor
  | major
  | critical
  deriving DecidableEq

structure Announcement where
  id : String
  workspaceId : String
  title : String
  body : String
  severity : AnnouncementSeverity
  visibility : Visibility
  startsAt : ℤ
  expiresAt : ℤ
  deletedAt : Option ℤ

structure ControlDb where
  workspaces : List Workspace
  dashboards : List Dashboard
  dashboardResources : List DashboardResource
  policies : List Policy
  machines : List Machine
  services : List Service
  containers : List Container
  checks : List CheckConfig
  incidents : List Incident
  incidentResources : List IncidentResource
  incidentUpdates : List IncidentUpdate
  announcements : List Announcement

/-! ## The telemetry database -/

structure CheckLatestRow where
  workspacePk : ℤ
  checkPk : ℤ
  observedAt : ℤ

structure TelemetryDb (Stored : Type) where
  machineLatest : List (PublicMachineLatestRow Stored)
  serviceLatest : List PublicServiceLatestRow
  checkLatest : List CheckLatestRow
  statusBuckets : List PublicStatusBucketRow

/-! ## The pages -/

inductive PublicStatusError where
  | notFound
  | data
  deriving DecidableEq

inductive PublicStatusOverallState where
  | healthy
  | degraded
  | down
  | maintenance
  | unknown
  deriving DecidableEq

structure AffectedService where
  name : String
  impact : Impact

structure PublicIncidentUpdate where
  id : String
  state : String
  body : String
  publishedAt : ℤ

structure PublicIncident where
  id : String
  title : String
  summary : String
  severity : Severity
  state : IncidentState
  startsAt : ℤ
  resolvedAt : Option ℤ
  affectedServices : List AffectedService
  updates : List PublicIncidentUpdate

structure PublicAnnouncement where
  id : String
  title : String
  body : String
  severity : AnnouncementSeverity
  startsAt : ℤ
  expiresAt : ℤ

structure ServicePagination where
  page : ℕ
  pageSize : ℕ
  pageCount : ℕ
  total : ℕ
  from_ : ℕ
  to_ : ℕ

/-- The workspace and the dashboard as a page names them; the appearance is what
`parseSiteAppearance` makes of the stored text. -/
structure PageHead (Appearance : Type) where
  workspaceName : String
  workspaceSlug : String
  dashboardName : String
  appearance : Appearance

/-- `PaginatedPublicStatusPage`. -/
structure PublicStatusPage (Appearance : Type) where
  head : PageHead Appearance
  machines : List PublicStatusMachine
  services : List PublicStatusService
  incidents : List PublicIncident
  announcements : List PublicAnnouncement
  updatedAt : Option ℤ
  overallState : PublicStatusOverallState
  servicePagination : ServicePagination

structure PublicMachinesStatusPage (Appearance : Type) where
  head : PageHead Appearance
  machines : List PublicStatusMachine
  overallState : PublicStatusOverallState
  updatedAt : Option ℤ

structure PublicMachineStatusPage (Appearance : Type) where
  head : PageHead Appearance
  machine : PublicStatusMachine
  updatedAt : Option ℤ

structure PublicServiceStatusPage (Appearance : Type) where
  head : PageHead Appearance
  service : PublicStatusService
  updatedAt : Option ℤ

/-! ## Queries -/

/-- A workspace and its default dashboard. -/
abbrev Home := Workspace × Dashboard

/-- A resource with its place on the dashboard and its public policy. -/
abbrev Listed (Row : Type) := (DashboardResource × Row) × Policy

/-- `queryInBatches`: one statement for each ninety values, their rows one after the other. -/
def queryInBatches {Value Row : Type} (values : List Value) (query : List Value → List Row) :
    List Row :=
  (List.range ((values.length + 89) / 90)).flatMap fun batch ↦
    query ((values.drop (90 * batch)).take 90)

section Batches

variable {Value Row Seen : Type} {values : List Value} {query query' : List Value → List Row}

theorem batch_subset (batch : ℕ) : (values.drop (90 * batch)).take 90 ⊆ values :=
  List.Subset.trans (List.take_subset _ _) (List.drop_subset _ _)

theorem queryInBatches_congr (h : ∀ batch ⊆ values, query batch = query' batch) :
    queryInBatches values query = queryInBatches values query' := by
  rw [queryInBatches, queryInBatches]
  congr 1
  funext batch
  exact h _ (batch_subset batch)

theorem map_queryInBatches (change : Row → Seen) :
    (queryInBatches values query).map change =
      queryInBatches values fun batch ↦ (query batch).map change := by
  rw [queryInBatches, List.map_flatMap]
  rfl

theorem mem_queryInBatches {row : Row} (h : row ∈ queryInBatches values query) :
    ∃ batch ⊆ values, row ∈ query batch := by
  obtain ⟨batch, -, hrow⟩ := List.mem_flatMap.mp h
  exact ⟨_, batch_subset batch, hrow⟩

end Batches

/-- The join of `loadPublicWorkspace`. -/
def publicHomes (control : ControlDb) (workspaceSlug : String) : List Home :=
  joinOn (fun workspace dashboard ↦ workspace.defaultDashboardId = some dashboard.id)
    (control.workspaces.filter fun workspace ↦
      workspace.slug = workspaceSlug && workspace.deletedAt.isNone)
    (control.dashboards.filter fun dashboard ↦
      dashboard.deletedAt.isNone && dashboard.visibility = .public_)

/-- The join of a dashboard's entries, the resources of one kind and their policies. -/
def publicResources {Row : Type} (resourceType : ResourceType) (resource : Row → Resource)
    (rows : List Row) (control : ControlDb) (workspaceId dashboardId : String) :
    List (Listed Row) :=
  joinOn (fun pair policy ↦ policy.workspaceId = (resource pair.2).workspaceId &&
      policy.resourceType = resourceType && policy.resourceId = (resource pair.2).id &&
      policy.effect = .allow)
    (joinOn (fun entry row ↦ (resource row).id = entry.resourceId &&
        (resource row).workspaceId = workspaceId && (resource row).deletedAt.isNone)
      (control.dashboardResources.filter fun entry ↦ entry.dashboardId = dashboardId &&
        entry.resourceType = resourceType && entry.publicOverride ≠ .deny)
      rows)
    control.policies

def publicMachineRows (control : ControlDb) (workspaceId dashboardId : String) :
    List (Listed Machine) :=
  publicResources .machine Machine.toResource control.machines control workspaceId dashboardId

def publicServiceRows (control : ControlDb) (workspaceId dashboardId : String) :
    List (Listed Service) :=
  publicResources .service Service.toResource control.services control workspaceId dashboardId

def publicContainerRows (control : ControlDb) (workspaceId : String) (machineIds : List String) :
    List (Container × Policy) :=
  joinOn (fun container policy ↦ policy.workspaceId = container.workspaceId &&
      policy.resourceType = .container && policy.resourceId = container.id &&
      policy.effect = .allow)
    (control.containers.filter fun container ↦ container.workspaceId = workspaceId &&
      container.deletedAt.isNone && machineIds.contains container.machineId)
    control.policies

def machineRow (listed : Listed Machine) : PublicMachineRow where
  id := listed.1.2.id
  publicSlug := listed.1.2.publicSlug
  telemetryPk := listed.1.2.telemetryPk
  name := listed.1.2.name
  description := listed.1.2.description
  offlineAfterSeconds := listed.1.2.offlineAfterSeconds
  projectionProfile := listed.2.projectionProfile

def serviceRow (listed : Listed Service) : PublicServiceRow where
  id := listed.1.2.id
  telemetryPk := listed.1.2.telemetryPk
  name := listed.1.2.name
  slug := listed.1.2.slug
  description := listed.1.2.description
  projectionProfile := listed.2.projectionProfile

def containerRow (pair : Container × Policy) : PublicContainerRow where
  id := pair.1.id
  machineId := pair.1.machineId
  projectionProfile := pair.2.projectionProfile

/-- `ORDER BY dr.sort_order, name`. -/
def listedKey {Row : Type} (resource : Row → Resource) (listed : Listed Row) : ℤ ×ₗ String :=
  toLex (listed.1.1.sortOrder, (resource listed.1.2).name)

/-- `ORDER BY c.name, c.id`. -/
def containerKey (pair : Container × Policy) : String ×ₗ String :=
  toLex (pair.1.name, pair.1.id)

/-! ## Machines -/

section

variable {Stored : Type} (read : Stored → Option MachineContainerInventory)

def machineLatestRows (telemetry : TelemetryDb Stored) (workspacePk : ℤ) (machinePks : List ℤ) :
    List (PublicMachineLatestRow Stored) :=
  telemetry.machineLatest.filter fun row ↦
    row.workspacePk = workspacePk && machinePks.contains row.machinePk

def projectMachine (now : ℤ) (latest : List (PublicMachineLatestRow Stored))
    (containers : List (Container × Policy)) (listed : Listed Machine) : PublicStatusMachine :=
  let row := lookupLast PublicMachineLatestRow.machinePk listed.1.2.telemetryPk latest
  projectPublicStatusMachine (machineRow listed) row
    (row.bind fun latest ↦ read latest.containerInventory)
    ((containers.filter fun pair ↦ pair.1.machineId = listed.1.2.id).map containerRow) now

/-- The machines of `loadPublicMachineProjection` before they are projected. -/
def listedMachines (control : ControlDb) (home : Home) : List (Listed Machine) :=
  selectOrdered (listedKey Machine.toResource) 200
    (publicMachineRows control home.1.id home.2.id)

def listedContainers (control : ControlDb) (home : Home) (machines : List (Listed Machine)) :
    List (Container × Policy) :=
  selectOrdered containerKey 500
    (queryInBatches (machines.map fun listed ↦ listed.1.2.id) fun batch ↦
      selectOrdered containerKey 500 (publicContainerRows control home.1.id batch))

def loadPublicMachineProjection (control : ControlDb) (telemetry : TelemetryDb Stored)
    (home : Home) (now : ℤ) :
    List PublicStatusMachine × List (PublicMachineLatestRow Stored) :=
  let machines := listedMachines control home
  let latest := queryInBatches (machines.map fun listed ↦ listed.1.2.telemetryPk) fun batch ↦
    machineLatestRows telemetry home.1.telemetryPk batch
  (machines.map (projectMachine read now latest (listedContainers control home machines)), latest)

/-! ## The states of a page -/

def summarizePublicStatusState (states : List String) : PublicStatusOverallState :=
  if states.any fun state ↦ state = "down" || state = "offline" then .down
  else if states.any fun state ↦ state = "degraded" then .degraded
  else if states.any fun state ↦ state = "maintenance" then .maintenance
  else if 0 < states.length ∧ states.all (fun state ↦ state = "healthy") then .healthy
  else .unknown

/-- The latest of some times, which counts no time before the epoch. -/
def latestOf (start : Option ℤ) (times : List ℤ) : Option ℤ :=
  times.foldl (fun latest time ↦ some (max (latest.getD 0) time)) start

variable {Appearance : Type} (parseSiteAppearance : String → Appearance)

def pageHead (home : Home) : PageHead Appearance where
  workspaceName := home.1.name
  workspaceSlug := home.1.slug
  dashboardName := home.2.name
  appearance := parseSiteAppearance home.2.appearanceJson

def loadPublicWorkspace (control : ControlDb) (workspaceSlug : String) :
    Except PublicStatusError Home :=
  match (publicHomes control workspaceSlug).head? with
  | none => .error .notFound
  | some home => .ok home

def loadPublicMachinesStatusPage (control : ControlDb) (telemetry : TelemetryDb Stored)
    (workspaceSlug : String) (now : ℤ) :
    Except PublicStatusError (PublicMachinesStatusPage Appearance) := do
  let home ← loadPublicWorkspace control workspaceSlug
  let (machines, latest) := loadPublicMachineProjection read control telemetry home now
  return {
    head := pageHead parseSiteAppearance home
    machines
    overallState := summarizePublicStatusState (machines.map fun machine ↦ machine.state.text)
    updatedAt := latestOf none (latest.map (·.observedAt)) }

/-- The join of the single machine's page is that of the list for each home, with the slug. -/
def publicMachineContexts (control : ControlDb) (workspaceSlug machineSlug : String) :
    List (Home × Listed Machine) :=
  (publicHomes control workspaceSlug).flatMap fun home ↦
    ((publicMachineRows control home.1.id home.2.id).filter fun listed ↦
      listed.1.2.publicSlug = machineSlug).map fun listed ↦ (home, listed)

def loadPublicMachineStatusPage (control : ControlDb) (telemetry : TelemetryDb Stored)
    (workspaceSlug machineSlug : String) (now : ℤ) :
    Except PublicStatusError (PublicMachineStatusPage Appearance) :=
  match (publicMachineContexts control workspaceSlug machineSlug).head? with
  | none => .error .notFound
  | some (home, listed) =>
    let latest := machineLatestRows telemetry home.1.telemetryPk [listed.1.2.telemetryPk]
    let containers := selectOrdered containerKey 100
      (publicContainerRows control home.1.id [listed.1.2.id])
    let machine := projectMachine read now latest.head?.toList containers listed
    .ok { head := pageHead parseSiteAppearance home, machine, updatedAt := machine.observedAt }

/-! ## Services -/

def serviceLatestRows (telemetry : TelemetryDb Stored) (workspacePk : ℤ) (servicePks : List ℤ) :
    List PublicServiceLatestRow :=
  telemetry.serviceLatest.filter fun row ↦
    row.workspacePk = workspacePk && servicePks.contains row.servicePk

def enabledChecks (control : ControlDb) (workspaceId : String) (serviceIds : List String) :
    List CheckConfig :=
  control.checks.filter fun check ↦ check.workspaceId = workspaceId && check.enabled &&
    serviceIds.contains check.serviceId

def checkLatestRows (telemetry : TelemetryDb Stored) (workspacePk : ℤ) (checkPks : List ℤ) :
    List CheckLatestRow :=
  telemetry.checkLatest.filter fun row ↦
    row.workspacePk = workspacePk && checkPks.contains row.checkPk

def dayMs : ℤ := 24 * 60 * 60000

/-- `resource_type = 2`, `bucket_seconds = 300`. -/
def statusBucketRows (telemetry : TelemetryDb Stored) (workspacePk : ℤ) (servicePks : List ℤ)
    (since : ℤ) : List PublicStatusBucketRow :=
  telemetry.statusBuckets.filter fun row ↦ row.workspacePk = workspacePk &&
    row.resourceType = 2 && row.bucketSeconds = 300 && servicePks.contains row.resourcePk &&
    decide (row.bucketStart ≥ since)

def publicServiceContexts (control : ControlDb) (workspaceSlug serviceSlug : String) :
    List (Home × Listed Service) :=
  (publicHomes control workspaceSlug).flatMap fun home ↦
    ((publicServiceRows control home.1.id home.2.id).filter fun listed ↦
      listed.1.2.slug = some serviceSlug ||
        (listed.1.2.slug.isNone && listed.1.2.id = serviceSlug)).map fun listed ↦ (home, listed)

def loadPublicServiceStatusPage (control : ControlDb) (telemetry : TelemetryDb Stored)
    (workspaceSlug serviceSlug : String) (now : ℤ) :
    Except PublicStatusError (PublicServiceStatusPage Appearance) :=
  match (publicServiceContexts control workspaceSlug serviceSlug).head? with
  | none => .error .notFound
  | some (home, listed) =>
    let checks := selectOrdered CheckConfig.telemetryPk 1001
      (enabledChecks control home.1.id [listed.1.2.id])
    if 1000 < checks.length then .error .data else
    let latest := (serviceLatestRows telemetry home.1.telemetryPk [listed.1.2.telemetryPk]).head?
    let latestChecks := queryInBatches (checks.map (·.telemetryPk)) fun batch ↦
      checkLatestRows telemetry home.1.telemetryPk batch
    let buckets := selectOrdered PublicStatusBucketRow.bucketStart 288
      (statusBucketRows telemetry home.1.telemetryPk [listed.1.2.telemetryPk] (now - dayMs))
    let lastCheckedAt := (latestChecks.map (·.observedAt)).foldl max 0
    let service := projectPublicStatusService (serviceRow listed) latest
      (if lastCheckedAt = 0 then none else some lastCheckedAt) buckets now
    .ok { head := pageHead parseSiteAppearance home, service, updatedAt := service.lastCheckedAt }

def safeInteger (number : ℤ) : Bool :=
  decide (-maxSafeInteger ≤ number ∧ number ≤ maxSafeInteger)

def buildPublicStatusServicePage {Row : Type} (services : List Row)
    (requestedPage requestedPageSize : ℤ) : List Row × ServicePagination :=
  let pageSize :=
    if safeInteger requestedPageSize ∧ 0 < requestedPageSize then min requestedPageSize.toNat 200
    else 200
  let total := services.length
  let pageCount := max 1 ((total + pageSize - 1) / pageSize)
  let page :=
    if safeInteger requestedPage ∧ 0 < requestedPage then min requestedPage.toNat pageCount else 1
  let offset := (page - 1) * pageSize
  let to_ := min (offset + pageSize) total
  ((services.take to_).drop offset,
    { page, pageSize, pageCount, total, from_ := if total = 0 then 0 else offset + 1, to_ })

def listedServices (control : ControlDb) (home : Home) : List (Listed Service) :=
  selectOrdered (listedKey Service.toResource) 200
    (publicServiceRows control home.1.id home.2.id)

/-- `lastCheckedByService`. -/
def lastChecked (checks : List CheckConfig) (latestChecks : List CheckLatestRow)
    (serviceId : String) : Option ℤ :=
  latestOf none ((latestChecks.filter fun row ↦
    (lookupLast CheckConfig.telemetryPk row.checkPk checks).map (·.serviceId) =
      some serviceId).map (·.observedAt))

/-! ## Incidents and announcements -/

/-- An incident is listed while it is open and for seven days after. -/
def incidentShown (now : ℤ) (incident : Incident) : Bool :=
  incident.deletedAt.isNone && (incident.state ≠ .resolved ||
    incident.resolvedAt.any fun resolvedAt ↦ resolvedAt ≥ now - 7 * dayMs)

/-- `SELECT DISTINCT`: an incident comes once, however many of its links match. -/
def incidentCandidates (control : ControlDb) (workspaceId : String) (now : ℤ)
    (serviceIds : List String) : List Incident :=
  control.incidents.filter fun incident ↦ incident.workspaceId = workspaceId &&
    incidentShown now incident && control.incidentResources.any fun link ↦
      link.incidentId = incident.id && link.resourceType = .service &&
        serviceIds.contains link.resourceId

/-- `ORDER BY i.starts_at DESC, i.id`. -/
def incidentKey (incident : Incident) : ℤ ×ₗ String :=
  toLex (-incident.startsAt, incident.id)

/-- `[...new Map(rows.map((row) => [row.id, row])).values()]`: one row for each identifier, at the
place of the first and with the columns of the last. -/
def distinctIncidents (rows : List Incident) : List Incident :=
  (rows.map (·.id)).reverse.dedup.reverse.filterMap fun id ↦ lookupLast Incident.id id rows

def incidentRows (control : ControlDb) (workspaceId : String) (now : ℤ)
    (serviceIds : List String) : List Incident :=
  selectOrdered incidentKey 20 (distinctIncidents (queryInBatches serviceIds fun batch ↦
    selectOrdered incidentKey 20 (incidentCandidates control workspaceId now batch)))

def incidentServicesLimit : ℕ := 20

def incidentLinks (control : ControlDb) (incidentId : String) : List IncidentResource :=
  control.incidentResources.filter fun link ↦
    link.resourceType = .service && link.incidentId = incidentId

/-- The links of the incidents in turn, one more than the limit at most for each. -/
def incidentResourceRows (control : ControlDb) (incidentIds : List String) :
    List IncidentResource :=
  incidentIds.flatMap fun incidentId ↦
    selectOrdered IncidentResource.resourceId (incidentServicesLimit + 1)
      (incidentLinks control incidentId)

/-- The loop that counts the links of each incident and throws above the limit. -/
def tooManyLinks (rows : List IncidentResource) : Bool :=
  rows.any fun link ↦
    decide (incidentServicesLimit < rows.countP fun other ↦ other.incidentId = link.incidentId)

def IncidentUpdate.time (update : IncidentUpdate) : ℤ :=
  update.publishedAt.getD update.createdAt

/-- `ORDER BY COALESCE(published_at, created_at) DESC, id`. -/
def updateKey (update : IncidentUpdate) : ℤ ×ₗ String :=
  toLex (-update.time, update.id)

def loadLatestIncidentUpdates (control : ControlDb) (incidentIds : List String)
    (perIncidentLimit globalLimit : ℕ) : List IncidentUpdate :=
  selectOrdered updateKey globalLimit (incidentIds.flatMap fun incidentId ↦
    selectOrdered updateKey perIncidentLimit
      (control.incidentUpdates.filter fun update ↦ update.incidentId = incidentId))

def announcementRows (control : ControlDb) (workspaceId : String) (now : ℤ) :
    List Announcement :=
  selectOrdered (fun announcement ↦ -announcement.startsAt) 20
    (control.announcements.filter fun announcement ↦
      announcement.workspaceId = workspaceId && announcement.visibility = .public_ &&
        announcement.deletedAt.isNone && decide (announcement.startsAt ≤ now) &&
        decide (announcement.expiresAt > now))

def publicAnnouncement (announcement : Announcement) : PublicAnnouncement where
  id := announcement.id
  title := announcement.title
  body := announcement.body
  severity := announcement.severity
  startsAt := announcement.startsAt
  expiresAt := announcement.expiresAt

def publicUpdate (update : IncidentUpdate) : PublicIncidentUpdate where
  id := update.id
  state := update.state
  body := update.body
  publishedAt := update.time

/-- An incident with the services of the page that it affects. -/
def publicIncident (services : List (Listed Service)) (links : List IncidentResource)
    (updates : List IncidentUpdate) (incident : Incident) : PublicIncident where
  id := incident.id
  title := incident.title
  summary := incident.summary
  severity := incident.severity
  state := incident.state
  startsAt := incident.startsAt
  resolvedAt := incident.resolvedAt
  affectedServices := (links.filter fun link ↦ link.incidentId = incident.id).filterMap fun link ↦
    (lookupLast (fun listed : Listed Service ↦ listed.1.2.id) link.resourceId services).map
      fun listed ↦ ⟨listed.1.2.name, link.impact⟩
  updates := (updates.filter fun update ↦ update.incidentId = incident.id).map publicUpdate

/-! ## The page -/

structure PublicStatusPageOptions where
  servicePage : Option ℤ
  servicePageSize : Option ℤ

/-- What `loadPublicStatusPage` returns once the workspace is found and no incident has too many
links. -/
def statusPage (control : ControlDb) (telemetry : TelemetryDb Stored) (home : Home) (now : ℤ)
    (options : PublicStatusPageOptions) : PublicStatusPage Appearance :=
  let (machines, latestMachines) := loadPublicMachineProjection read control telemetry home now
  let services := listedServices control home
  let (pagedServices, pagination) := buildPublicStatusServicePage services
    (options.servicePage.getD 1) (options.servicePageSize.getD 200)
  let serviceIds := services.map fun listed ↦ listed.1.2.id
  let checks := queryInBatches serviceIds (enabledChecks control home.1.id)
  let latestServices := queryInBatches (services.map fun listed ↦ listed.1.2.telemetryPk)
    (serviceLatestRows telemetry home.1.telemetryPk)
  let latestChecks := queryInBatches (checks.map (·.telemetryPk))
    (checkLatestRows telemetry home.1.telemetryPk)
  let buckets := queryInBatches (pagedServices.map fun listed ↦ listed.1.2.telemetryPk) fun batch ↦
    (statusBucketRows telemetry home.1.telemetryPk batch (now - dayMs)).insertionSort
      fun first second ↦ first.bucketStart ≤ second.bucketStart
  let publicServices := pagedServices.map fun listed ↦
    projectPublicStatusService (serviceRow listed)
      (lookupLast PublicServiceLatestRow.servicePk listed.1.2.telemetryPk latestServices)
      (lastChecked checks latestChecks listed.1.2.id)
      (buckets.filter fun bucket ↦ bucket.resourcePk = listed.1.2.telemetryPk) now
  let incidents := incidentRows control home.1.id now serviceIds
  let links := incidentResourceRows control (incidents.map (·.id))
  let updates := loadLatestIncidentUpdates control (incidents.map (·.id)) 20 200
  { head := pageHead parseSiteAppearance home
    machines
    services := publicServices
    incidents := incidents.map (publicIncident services links updates)
    announcements := (announcementRows control home.1.id now).map publicAnnouncement
    updatedAt := latestOf (latestOf none (latestChecks.map (·.observedAt)))
      (latestMachines.map (·.observedAt))
    overallState := summarizePublicStatusState (machines.map (fun machine ↦ machine.state.text) ++
      services.map fun listed ↦ ((lookupLast PublicServiceLatestRow.servicePk
        listed.1.2.telemetryPk latestServices).map (·.state)).getD "unknown")
    servicePagination := pagination }

def loadPublicStatusPage (control : ControlDb) (telemetry : TelemetryDb Stored)
    (workspaceSlug : String) (now : ℤ) (options : PublicStatusPageOptions) :
    Except PublicStatusError (PublicStatusPage Appearance) := do
  let home ← loadPublicWorkspace control workspaceSlug
  let incidents := incidentRows control home.1.id now
    ((listedServices control home).map fun listed ↦ listed.1.2.id)
  if tooManyLinks (incidentResourceRows control (incidents.map (·.id))) then throw .data
  return statusPage read parseSiteAppearance control telemetry home now options

end

end AlphaPing.PublicStatus.Pages
