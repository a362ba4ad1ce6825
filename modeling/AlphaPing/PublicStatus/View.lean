import AlphaPing.PublicStatus.Pages

/-!
# The public part of the databases

What the public pages of a workspace may depend on, as a pair of databases: the rows of its public
dashboard, of the resources that the dashboard lists, that are not deleted and whose effective
public policy is `allow`, and of what belongs to them. Under the summary profile the description
and the metrics are blanked; what describes the host of a machine or the image of a container is
blanked always. A stored inventory is replaced by what the reader makes of it, cut down to the
containers that are public themselves.
-/

namespace AlphaPing.PublicStatus.View

open Library.Restrictions
open Projection PublicStatus.Pages
open System.StoredInventories (MachineContainer MachineContainerInventory)

section

variable (control : ControlDb) (slug : String) (now : ℤ)

/-! ## The resources that are public -/

def shownMachines : List (Home × Listed Machine) :=
  (publicHomes control slug).flatMap fun home ↦
    (publicMachineRows control home.1.id home.2.id).map fun listed ↦ (home, listed)

def shownServices : List (Home × Listed Service) :=
  (publicHomes control slug).flatMap fun home ↦
    (publicServiceRows control home.1.id home.2.id).map fun listed ↦ (home, listed)

/-- The public containers of the public machines. -/
def shownContainers : List ((Home × Listed Machine) × (Container × Policy)) :=
  (shownMachines control slug).flatMap fun shown ↦
    (publicContainerRows control shown.1.1.id [shown.2.1.2.id]).map fun pair ↦ (shown, pair)

/-- The enabled checks of the public services. -/
def shownChecks : List (Home × CheckConfig) :=
  (shownServices control slug).flatMap fun shown ↦
    (enabledChecks control shown.1.1.id [shown.2.1.2.id]).map fun check ↦ (shown.1, check)

/-- The incidents of the workspace that affect a public service. -/
def incidentPublic (incident : Incident) : Bool :=
  incidentShown now incident && (shownServices control slug).any fun shown ↦
    shown.1.1.id = incident.workspaceId && control.incidentResources.any fun link ↦
      link.incidentId = incident.id && link.resourceType = .service &&
        link.resourceId = shown.2.1.2.id

def shownIncidents : List Incident :=
  control.incidents.filter (incidentPublic control slug now)

/-! ## The control database -/

/-- Whether the whole of a machine is public and not its summary only. -/
def machineDetailed (machine : Machine) : Bool :=
  (shownMachines control slug).any fun shown ↦
    shown.2.1.2 = machine && shown.2.2.projectionProfile = .detailed

def serviceDetailed (service : Service) : Bool :=
  (shownServices control slug).any fun shown ↦
    shown.2.1.2 = service && shown.2.2.projectionProfile = .detailed

def blankMachine (machine : Machine) : Machine :=
  { machine with
    description := if machineDetailed control slug machine then machine.description else ""
    expectedHost := none
    labelsJson := "" }

def blankService (service : Service) : Service :=
  { service with
    description := if serviceDetailed control slug service then service.description else "" }

def blankContainer (container : Container) : Container :=
  { container with image := "" }

def entryPublic (entry : DashboardResource) : Bool :=
  (shownMachines control slug).any (fun shown ↦ shown.2.1.1 = entry) ||
    (shownServices control slug).any fun shown ↦ shown.2.1.1 = entry

def policyPublic (policy : Policy) : Bool :=
  (shownMachines control slug).any (fun shown ↦ shown.2.2 = policy) ||
    (shownServices control slug).any (fun shown ↦ shown.2.2 = policy) ||
    (shownContainers control slug).any fun shown ↦ shown.2.2 = policy

def linkPublic (link : IncidentResource) : Bool :=
  link.resourceType = .service &&
    (shownServices control slug).any (fun shown ↦ shown.2.1.2.id = link.resourceId) &&
    (shownIncidents control slug now).any fun incident ↦ incident.id = link.incidentId

def announcementPublic (announcement : Announcement) : Bool :=
  (publicHomes control slug).any (fun home ↦ home.1.id = announcement.workspaceId) &&
    announcement.visibility = .public_ && announcement.deletedAt.isNone &&
    decide (announcement.startsAt ≤ now) && decide (announcement.expiresAt > now)

def publicControl : ControlDb where
  workspaces := restrict
    (fun workspace ↦ (publicHomes control slug).any fun home ↦ home.1 = workspace) id
    control.workspaces
  dashboards := restrict
    (fun dashboard ↦ (publicHomes control slug).any fun home ↦ home.2 = dashboard) id
    control.dashboards
  dashboardResources := restrict (entryPublic control slug) id control.dashboardResources
  policies := restrict (policyPublic control slug) id control.policies
  machines := restrict
    (fun machine ↦ (shownMachines control slug).any fun shown ↦ shown.2.1.2 = machine)
    (blankMachine control slug) control.machines
  services := restrict
    (fun service ↦ (shownServices control slug).any fun shown ↦ shown.2.1.2 = service)
    (blankService control slug) control.services
  containers := restrict
    (fun container ↦ (shownContainers control slug).any fun shown ↦ shown.2.1 = container)
    blankContainer control.containers
  checks := restrict (fun check ↦ (shownChecks control slug).any fun shown ↦ shown.2 = check) id
    control.checks
  incidents := restrict (incidentPublic control slug now) id control.incidents
  incidentResources := restrict (linkPublic control slug now) id control.incidentResources
  incidentUpdates := restrict (fun update ↦ (shownIncidents control slug now).any fun incident ↦
    incident.id = update.incidentId) id control.incidentUpdates
  announcements := restrict (announcementPublic control slug now) id control.announcements

/-! ## The telemetry database -/

variable {Stored : Type} (read : Stored → Option MachineContainerInventory)

def latestPublic (row : PublicMachineLatestRow Stored) : Bool :=
  (shownMachines control slug).any fun shown ↦
    shown.1.1.telemetryPk = row.workspacePk && shown.2.1.2.telemetryPk = row.machinePk

def latestDetailed (row : PublicMachineLatestRow Stored) : Bool :=
  (shownMachines control slug).any fun shown ↦
    shown.1.1.telemetryPk = row.workspacePk && shown.2.1.2.telemetryPk = row.machinePk &&
      shown.2.2.projectionProfile = .detailed

def storedPublic (row : PublicMachineLatestRow Stored) (container : MachineContainer) : Bool :=
  (shownContainers control slug).any fun shown ↦
    shown.1.1.1.telemetryPk = row.workspacePk && shown.1.2.1.2.telemetryPk = row.machinePk &&
      shown.2.1.id = container.id

def storedDetailed (row : PublicMachineLatestRow Stored) (container : MachineContainer) : Bool :=
  (shownContainers control slug).any fun shown ↦
    shown.1.1.1.telemetryPk = row.workspacePk && shown.1.2.1.2.telemetryPk = row.machinePk &&
      shown.2.1.id = container.id && shown.2.2.projectionProfile = .detailed

/-- A container of which only the name, the state and the health are left, and under the detailed
profile what it uses. -/
def blankStored (row : PublicMachineLatestRow Stored) (container : MachineContainer) :
    MachineContainer where
  id := container.id
  runtime := ""
  runtimeInstance := ""
  name := container.name
  image := ""
  state := container.state
  health := container.health
  startedAt := 0
  restartCount := 0
  cpuPermille := if storedDetailed control slug row container then container.cpuPermille else 0
  memoryUsedBytes :=
    if storedDetailed control slug row container then container.memoryUsedBytes else 0
  memoryLimitBytes := 0
  networkRxBps := 0
  networkTxBps := 0
  ports := []

def publicInventory (row : PublicMachineLatestRow Stored)
    (inventory : MachineContainerInventory) : MachineContainerInventory where
  observedAt := 0
  runtimes := []
  containers := restrict (storedPublic control slug row) (blankStored control slug row)
    inventory.containers

/-- A report of a public machine: its state and its times, and under the detailed profile its
metrics. -/
def blankLatest (row : PublicMachineLatestRow Stored) :
    PublicMachineLatestRow (Option MachineContainerInventory) where
  workspacePk := row.workspacePk
  machinePk := row.machinePk
  observedAt := row.observedAt
  receivedAt := row.receivedAt
  state := row.state
  cpuPermille := if latestDetailed control slug row then row.cpuPermille else 0
  memoryUsedBytes := if latestDetailed control slug row then row.memoryUsedBytes else 0
  memoryTotalBytes := if latestDetailed control slug row then row.memoryTotalBytes else 0
  storageUsedBytes := if latestDetailed control slug row then row.storageUsedBytes else 0
  storageTotalBytes := if latestDetailed control slug row then row.storageTotalBytes else 0
  networkRxBps := if latestDetailed control slug row then row.networkRxBps else 0
  networkTxBps := if latestDetailed control slug row then row.networkTxBps else 0
  containerInventory := (read row.containerInventory).map (publicInventory control slug row)

def publicTelemetry (telemetry : TelemetryDb Stored) :
    TelemetryDb (Option MachineContainerInventory) where
  machineLatest := restrict (latestPublic control slug) (blankLatest control slug read)
    telemetry.machineLatest
  serviceLatest := restrict (fun row ↦ (shownServices control slug).any fun shown ↦
    shown.1.1.telemetryPk = row.workspacePk && shown.2.1.2.telemetryPk = row.servicePk) id
    telemetry.serviceLatest
  checkLatest := restrict (fun row ↦ (shownChecks control slug).any fun shown ↦
    shown.1.1.telemetryPk = row.workspacePk && shown.2.telemetryPk = row.checkPk) id
    telemetry.checkLatest
  statusBuckets := restrict (fun row ↦ row.resourceType = 2 && row.bucketSeconds = 300 &&
    decide (row.bucketStart ≥ now - dayMs) && (shownServices control slug).any fun shown ↦
      shown.1.1.telemetryPk = row.workspacePk && shown.2.1.2.telemetryPk = row.resourcePk) id
    telemetry.statusBuckets

end

/-! ## The queries over the public part -/

section

variable {control : ControlDb} {slug : String} {now : ℤ} {home : Home}

theorem mem_shownMachines {shown : Home × Listed Machine} :
    shown ∈ shownMachines control slug ↔ shown.1 ∈ publicHomes control slug ∧
      shown.2 ∈ publicMachineRows control shown.1.1.id shown.1.2.id := by
  obtain ⟨home, listed⟩ := shown
  simp only [shownMachines, List.mem_flatMap, List.mem_map, Prod.mk.injEq]
  constructor
  · rintro ⟨_, hhome, _, hlisted, rfl, rfl⟩
    exact ⟨hhome, hlisted⟩
  · rintro ⟨hhome, hlisted⟩
    exact ⟨home, hhome, listed, hlisted, rfl, rfl⟩

theorem mem_shownServices {shown : Home × Listed Service} :
    shown ∈ shownServices control slug ↔ shown.1 ∈ publicHomes control slug ∧
      shown.2 ∈ publicServiceRows control shown.1.1.id shown.1.2.id := by
  obtain ⟨home, listed⟩ := shown
  simp only [shownServices, List.mem_flatMap, List.mem_map, Prod.mk.injEq]
  constructor
  · rintro ⟨_, hhome, _, hlisted, rfl, rfl⟩
    exact ⟨hhome, hlisted⟩
  · rintro ⟨hhome, hlisted⟩
    exact ⟨home, hhome, listed, hlisted, rfl, rfl⟩

theorem mem_shownContainers {shown : (Home × Listed Machine) × (Container × Policy)} :
    shown ∈ shownContainers control slug ↔ shown.1 ∈ shownMachines control slug ∧
      shown.2 ∈ publicContainerRows control shown.1.1.1.id [shown.1.2.1.2.id] := by
  obtain ⟨machine, pair⟩ := shown
  simp only [shownContainers, List.mem_flatMap, List.mem_map, Prod.mk.injEq]
  constructor
  · rintro ⟨_, hmachine, _, hpair, rfl, rfl⟩
    exact ⟨hmachine, hpair⟩
  · rintro ⟨hmachine, hpair⟩
    exact ⟨machine, hmachine, pair, hpair, rfl, rfl⟩

theorem mem_shownChecks {shown : Home × CheckConfig} :
    shown ∈ shownChecks control slug ↔ ∃ service ∈ shownServices control slug,
      service.1 = shown.1 ∧ shown.2 ∈ enabledChecks control shown.1.1.id [service.2.1.2.id] := by
  obtain ⟨home, check⟩ := shown
  simp only [shownChecks, List.mem_flatMap, List.mem_map, Prod.mk.injEq]
  constructor
  · rintro ⟨service, hservice, _, hcheck, rfl, rfl⟩
    exact ⟨service, hservice, rfl, hcheck⟩
  · rintro ⟨service, hservice, rfl, hcheck⟩
    exact ⟨service, hservice, check, hcheck, rfl, rfl⟩

theorem any_of_mem {Row : Type} {rows : List Row} {condition : Row → Bool} {row : Row}
    (h : row ∈ rows) (hcondition : condition row = true) : rows.any condition = true :=
  List.any_eq_true.mpr ⟨row, h, hcondition⟩

theorem publicHomes_publicControl :
    publicHomes (publicControl control slug now) slug = publicHomes control slug := by
  rw [publicHomes, publicControl]
  dsimp only
  rw [filter_restrict _ fun _ _ _ ↦ rfl, filter_restrict _ fun _ _ _ ↦ rfl,
    joinOn_restrict _ fun _ _ _ _ _ _ ↦ rfl, restrict_eq_map]
  · exact List.map_id _
  · intro pair hpair
    exact Bool.and_eq_true_iff.mpr
      ⟨any_of_mem hpair (by simp), any_of_mem hpair (by simp)⟩

theorem publicResources_restrict {Row : Type} {resourceType : ResourceType}
    {resource : Row → Resource} {rows : List Row} {control' : ControlDb}
    {workspaceId dashboardId : String} {keepEntry : DashboardResource → Bool}
    {keepRow : Row → Bool} {keepPolicy : Policy → Bool} {blank : Row → Row}
    (hentries : control'.dashboardResources = restrict keepEntry id control.dashboardResources)
    (hpolicies : control'.policies = restrict keepPolicy id control.policies)
    (hid : ∀ row, (resource (blank row)).id = (resource row).id)
    (hworkspace : ∀ row, (resource (blank row)).workspaceId = (resource row).workspaceId)
    (hdeleted : ∀ row, (resource (blank row)).deletedAt = (resource row).deletedAt)
    (hkeep : ∀ listed ∈ publicResources resourceType resource rows control workspaceId dashboardId,
      keepEntry listed.1.1 = true ∧ keepRow listed.1.2 = true ∧ keepPolicy listed.2 = true) :
    publicResources resourceType resource (restrict keepRow blank rows) control' workspaceId
        dashboardId =
      (publicResources resourceType resource rows control workspaceId dashboardId).map
        fun listed ↦ ((listed.1.1, blank listed.1.2), listed.2) := by
  rw [publicResources, hentries, hpolicies, filter_restrict _ fun _ _ _ ↦ rfl,
    joinOn_restrict (fun entry row ↦ (resource row).id = entry.resourceId &&
        (resource row).workspaceId = workspaceId && (resource row).deletedAt.isNone)
      fun entry _ row _ _ _ ↦ by simp only [hid, hworkspace, hdeleted, id],
    joinOn_restrict (fun pair policy ↦
        policy.workspaceId = (resource pair.2).workspaceId &&
        policy.resourceType = resourceType && policy.resourceId = (resource pair.2).id &&
        policy.effect = .allow)
      fun pair _ policy _ _ _ ↦ by simp only [hid, hworkspace, id],
    restrict_eq_map]
  · rfl
  · intro listed hlisted
    obtain ⟨hentry, hrow, hpolicy⟩ := hkeep listed hlisted
    rw [hentry, hrow, hpolicy]
    rfl

/-- A machine on the page without what its profile leaves out. -/
def blankListedMachine (control : ControlDb) (slug : String) (listed : Listed Machine) :
    Listed Machine :=
  ((listed.1.1, blankMachine control slug listed.1.2), listed.2)

def blankListedService (control : ControlDb) (slug : String) (listed : Listed Service) :
    Listed Service :=
  ((listed.1.1, blankService control slug listed.1.2), listed.2)

def blankPair (pair : Container × Policy) : Container × Policy :=
  (blankContainer pair.1, pair.2)

theorem publicMachineRows_publicControl (hhome : home ∈ publicHomes control slug) :
    publicMachineRows (publicControl control slug now) home.1.id home.2.id =
      (publicMachineRows control home.1.id home.2.id).map (blankListedMachine control slug) := by
  refine publicResources_restrict rfl rfl (fun _ ↦ rfl) (fun _ ↦ rfl) (fun _ ↦ rfl)
    fun listed hlisted ↦ ?_
  have hshown : (home, listed) ∈ shownMachines control slug :=
    mem_shownMachines.mpr ⟨hhome, hlisted⟩
  refine ⟨?_, any_of_mem hshown (by simp), ?_⟩
  · rw [entryPublic, any_of_mem hshown (by simp), Bool.true_or]
  · rw [policyPublic, any_of_mem hshown (by simp), Bool.true_or, Bool.true_or]

theorem publicServiceRows_publicControl (hhome : home ∈ publicHomes control slug) :
    publicServiceRows (publicControl control slug now) home.1.id home.2.id =
      (publicServiceRows control home.1.id home.2.id).map (blankListedService control slug) := by
  refine publicResources_restrict rfl rfl (fun _ ↦ rfl) (fun _ ↦ rfl) (fun _ ↦ rfl)
    fun listed hlisted ↦ ?_
  have hshown : (home, listed) ∈ shownServices control slug :=
    mem_shownServices.mpr ⟨hhome, hlisted⟩
  refine ⟨?_, any_of_mem hshown (by simp), ?_⟩
  · rw [entryPublic, any_of_mem hshown (by simp), Bool.or_true]
  · rw [policyPublic, any_of_mem hshown (by simp), Bool.or_true, Bool.true_or]

/-- The containers of a machine are those of the machine among the containers of several. -/
theorem publicContainerRows_single {workspaceId machineId : String} {machineIds : List String}
    {pair : Container × Policy} (hpair : pair ∈ publicContainerRows control workspaceId machineIds)
    (hmachine : pair.1.machineId = machineId) :
    pair ∈ publicContainerRows control workspaceId [machineId] := by
  obtain ⟨hcontainer, hpolicy, hmatched⟩ := mem_joinOn.mp hpair
  refine mem_joinOn.mpr ⟨?_, hpolicy, hmatched⟩
  rw [List.mem_filter] at hcontainer ⊢
  simp only [Bool.and_eq_true] at hcontainer ⊢
  exact ⟨hcontainer.1, hcontainer.2.1, by simp [hmachine]⟩

theorem machineId_mem_of_publicContainerRows {workspaceId : String} {machineIds : List String}
    {pair : Container × Policy}
    (hpair : pair ∈ publicContainerRows control workspaceId machineIds) :
    pair.1.machineId ∈ machineIds := by
  have hcontainer := (List.mem_filter.mp (mem_joinOn.mp hpair).1).2
  simp only [Bool.and_eq_true, List.contains_iff_mem] at hcontainer
  exact hcontainer.2

theorem publicContainerRows_publicControl (hhome : home ∈ publicHomes control slug)
    {machineIds : List String} (hmachines : ∀ id ∈ machineIds,
      ∃ listed ∈ publicMachineRows control home.1.id home.2.id, listed.1.2.id = id) :
    publicContainerRows (publicControl control slug now) home.1.id machineIds =
      (publicContainerRows control home.1.id machineIds).map blankPair := by
  rw [publicContainerRows, publicControl]
  dsimp only
  rw [filter_restrict _ fun _ _ _ ↦ rfl, joinOn_restrict _ fun _ _ _ _ _ _ ↦ rfl, restrict_eq_map]
  · rfl
  · intro pair hpair
    obtain ⟨listed, hlisted, hid⟩ := hmachines _ (machineId_mem_of_publicContainerRows hpair)
    have hshown : ((home, listed), pair) ∈ shownContainers control slug :=
      mem_shownContainers.mpr ⟨mem_shownMachines.mpr ⟨hhome, hlisted⟩,
        publicContainerRows_single hpair hid.symm⟩
    have hpolicy : policyPublic control slug pair.2 = true := by
      rw [policyPublic, any_of_mem hshown (by simp), Bool.or_true]
    rw [hpolicy, any_of_mem hshown (by simp)]
    rfl

theorem enabledChecks_publicControl (hhome : home ∈ publicHomes control slug)
    {serviceIds : List String} (hservices : ∀ id ∈ serviceIds,
      ∃ listed ∈ publicServiceRows control home.1.id home.2.id, listed.1.2.id = id) :
    enabledChecks (publicControl control slug now) home.1.id serviceIds =
      enabledChecks control home.1.id serviceIds := by
  rw [enabledChecks, publicControl]
  dsimp only
  rw [filter_restrict _ fun _ _ _ ↦ rfl, restrict_eq_map]
  · exact List.map_id _
  · intro check hcheck
    obtain ⟨hmem, hcondition⟩ := List.mem_filter.mp hcheck
    simp only [id_eq, Bool.and_eq_true, List.contains_iff_mem, decide_eq_true_eq] at hcondition
    obtain ⟨listed, hlisted, hid⟩ := hservices _ hcondition.2
    have hsingle : check ∈ enabledChecks control home.1.id [listed.1.2.id] := by
      refine List.mem_filter.mpr ⟨hmem, ?_⟩
      simp [hcondition.1, hid]
    have hshown : (home, check) ∈ shownChecks control slug :=
      mem_shownChecks.mpr ⟨(home, listed), mem_shownServices.mpr ⟨hhome, hlisted⟩, rfl, hsingle⟩
    exact any_of_mem hshown (by simp)

theorem incidentPublic_of_candidate (hhome : home ∈ publicHomes control slug)
    {serviceIds : List String} (hservices : ∀ id ∈ serviceIds,
      ∃ listed ∈ publicServiceRows control home.1.id home.2.id, listed.1.2.id = id)
    {incident : Incident}
    (h : incident ∈ incidentCandidates control home.1.id now serviceIds) :
    incidentPublic control slug now incident = true := by
  obtain ⟨-, hcondition⟩ := List.mem_filter.mp h
  simp only [Bool.and_eq_true, decide_eq_true_eq, List.any_eq_true, List.contains_iff_mem]
    at hcondition
  obtain ⟨⟨hworkspace, hshown⟩, link, hlink, hof, hservice⟩ := hcondition
  obtain ⟨listed, hlisted, hid⟩ := hservices _ hservice
  have hlinked : (control.incidentResources.any fun link ↦ link.incidentId = incident.id &&
      link.resourceType = .service && link.resourceId = listed.1.2.id) = true := by
    refine any_of_mem hlink ?_
    simp [hof, hid]
  have hlisted : (home, listed) ∈ shownServices control slug :=
    mem_shownServices.mpr ⟨hhome, hlisted⟩
  rw [incidentPublic, hshown, Bool.true_and]
  refine any_of_mem hlisted ?_
  dsimp only
  rw [hlinked, hworkspace]
  simp

theorem incidentCandidates_publicControl (hhome : home ∈ publicHomes control slug)
    {serviceIds : List String} (hservices : ∀ id ∈ serviceIds,
      ∃ listed ∈ publicServiceRows control home.1.id home.2.id, listed.1.2.id = id) :
    incidentCandidates (publicControl control slug now) home.1.id now serviceIds =
      incidentCandidates control home.1.id now serviceIds := by
  have hlinks : ∀ incident ∈ control.incidents, incidentPublic control slug now incident = true →
      (restrict (linkPublic control slug now) id control.incidentResources).any (fun link ↦
        link.incidentId = incident.id && link.resourceType = .service &&
          serviceIds.contains link.resourceId) =
      control.incidentResources.any fun link ↦
        link.incidentId = incident.id && link.resourceType = .service &&
          serviceIds.contains link.resourceId := by
    intro incident hmem hincident
    refine any_restrict (fun _ _ _ ↦ rfl) fun link _ hcondition ↦ ?_
    simp only [Bool.and_eq_true, decide_eq_true_eq, List.contains_iff_mem] at hcondition
    obtain ⟨⟨hof, htype⟩, hservice⟩ := hcondition
    obtain ⟨listed, hlisted, hid⟩ := hservices _ hservice
    have hshown : (home, listed) ∈ shownServices control slug :=
      mem_shownServices.mpr ⟨hhome, hlisted⟩
    have hpublic : incident ∈ shownIncidents control slug now :=
      List.mem_filter.mpr ⟨hmem, hincident⟩
    rw [linkPublic, any_of_mem hshown (decide_eq_true hid),
      any_of_mem hpublic (decide_eq_true hof.symm), htype]
    rfl
  rw [incidentCandidates, publicControl]
  dsimp only
  rw [filter_restrict (fun incident ↦ incident.workspaceId = home.1.id &&
    incidentShown now incident && control.incidentResources.any fun link ↦
      link.incidentId = incident.id && link.resourceType = .service &&
        serviceIds.contains link.resourceId) fun incident hmem hincident ↦ by
      rw [id, hlinks incident hmem hincident], restrict_eq_map]
  · exact List.map_id _
  · exact fun incident hincident ↦ incidentPublic_of_candidate hhome hservices hincident

theorem loadLatestIncidentUpdates_publicControl {incidentIds : List String}
    (h : ∀ id ∈ incidentIds, ∃ incident ∈ shownIncidents control slug now, incident.id = id)
    (perIncidentLimit globalLimit : ℕ) :
    loadLatestIncidentUpdates (publicControl control slug now) incidentIds perIncidentLimit
        globalLimit =
      loadLatestIncidentUpdates control incidentIds perIncidentLimit globalLimit := by
  rw [loadLatestIncidentUpdates, loadLatestIncidentUpdates]
  congr 1
  refine List.flatMap_congr fun incidentId hid ↦ ?_
  congr 1
  rw [publicControl]
  dsimp only
  rw [filter_restrict (fun update ↦ decide (update.incidentId = incidentId)) fun _ _ _ ↦ rfl,
    restrict_eq_map]
  · exact List.map_id _
  · intro update hupdate
    obtain ⟨incident, hincident, heq⟩ := h incidentId hid
    refine any_of_mem hincident (decide_eq_true ?_)
    exact heq.trans (of_decide_eq_true (List.mem_filter.mp hupdate).2).symm

theorem announcementRows_publicControl (hhome : home ∈ publicHomes control slug) :
    announcementRows (publicControl control slug now) home.1.id now =
      announcementRows control home.1.id now := by
  rw [announcementRows, announcementRows]
  congr 1
  rw [publicControl]
  dsimp only
  rw [filter_restrict (fun announcement ↦
    announcement.workspaceId = home.1.id && announcement.visibility = .public_ &&
      announcement.deletedAt.isNone && decide (announcement.startsAt ≤ now) &&
      decide (announcement.expiresAt > now)) fun _ _ _ ↦ rfl, restrict_eq_map]
  · exact List.map_id _
  · intro announcement hannouncement
    have hcondition := (List.mem_filter.mp hannouncement).2
    simp only [Bool.and_eq_true, decide_eq_true_eq] at hcondition
    obtain ⟨⟨⟨⟨hworkspace, hvisibility⟩, hdeleted⟩, hstarts⟩, hexpires⟩ := hcondition
    have hplace : (publicHomes control slug).any
        (fun home ↦ home.1.id = announcement.workspaceId) = true :=
      any_of_mem hhome (decide_eq_true hworkspace.symm)
    rw [announcementPublic, hplace, hvisibility, hdeleted, decide_eq_true hstarts,
      decide_eq_true hexpires]
    rfl

theorem incidentLinks_publicControl (incidentId : String) :
    incidentLinks (publicControl control slug now) incidentId =
      (incidentLinks control incidentId).filter (linkPublic control slug now) := by
  rw [incidentLinks, publicControl]
  dsimp only
  rw [filter_restrict (fun link ↦ link.resourceType = .service && link.incidentId = incidentId)
    fun _ _ _ ↦ rfl, restrict, List.map_id]
  rfl

section Telemetry

variable {Stored : Type} {read : Stored → Option MachineContainerInventory}
  {telemetry : TelemetryDb Stored}

theorem machineLatestRows_publicTelemetry (hhome : home ∈ publicHomes control slug)
    {machinePks : List ℤ} (hmachines : ∀ pk ∈ machinePks,
      ∃ listed ∈ publicMachineRows control home.1.id home.2.id, listed.1.2.telemetryPk = pk) :
    machineLatestRows (publicTelemetry control slug now read telemetry) home.1.telemetryPk
        machinePks =
      (machineLatestRows telemetry home.1.telemetryPk machinePks).map
        (blankLatest control slug read) := by
  rw [machineLatestRows, publicTelemetry]
  dsimp only
  rw [filter_restrict (fun row ↦ row.workspacePk = home.1.telemetryPk &&
    machinePks.contains row.machinePk) fun _ _ _ ↦ rfl, restrict_eq_map]
  · rfl
  · intro row hrow
    have hcondition := (List.mem_filter.mp hrow).2
    simp only [Bool.and_eq_true, decide_eq_true_eq, List.contains_iff_mem] at hcondition
    obtain ⟨listed, hlisted, hpk⟩ := hmachines _ hcondition.2
    refine any_of_mem (mem_shownMachines.mpr ⟨hhome, hlisted⟩ :
      (home, listed) ∈ shownMachines control slug) ?_
    simp [hcondition.1, hpk]

theorem serviceLatestRows_publicTelemetry (hhome : home ∈ publicHomes control slug)
    {servicePks : List ℤ} (hservices : ∀ pk ∈ servicePks,
      ∃ listed ∈ publicServiceRows control home.1.id home.2.id, listed.1.2.telemetryPk = pk) :
    serviceLatestRows (publicTelemetry control slug now read telemetry) home.1.telemetryPk
        servicePks =
      serviceLatestRows telemetry home.1.telemetryPk servicePks := by
  rw [serviceLatestRows, publicTelemetry]
  dsimp only
  rw [filter_restrict (fun row ↦ row.workspacePk = home.1.telemetryPk &&
    servicePks.contains row.servicePk) fun _ _ _ ↦ rfl, restrict_eq_map]
  · exact List.map_id _
  · intro row hrow
    have hcondition := (List.mem_filter.mp hrow).2
    simp only [Bool.and_eq_true, decide_eq_true_eq, List.contains_iff_mem] at hcondition
    obtain ⟨listed, hlisted, hpk⟩ := hservices _ hcondition.2
    refine any_of_mem (mem_shownServices.mpr ⟨hhome, hlisted⟩ :
      (home, listed) ∈ shownServices control slug) ?_
    simp [hcondition.1, hpk]

theorem checkLatestRows_publicTelemetry {checkPks : List ℤ}
    (hchecks : ∀ pk ∈ checkPks,
      ∃ check, (home, check) ∈ shownChecks control slug ∧ check.telemetryPk = pk) :
    checkLatestRows (publicTelemetry control slug now read telemetry) home.1.telemetryPk
        checkPks =
      checkLatestRows telemetry home.1.telemetryPk checkPks := by
  rw [checkLatestRows, publicTelemetry]
  dsimp only
  rw [filter_restrict (fun row ↦ row.workspacePk = home.1.telemetryPk &&
    checkPks.contains row.checkPk) fun _ _ _ ↦ rfl, restrict_eq_map]
  · exact List.map_id _
  · intro row hrow
    have hcondition := (List.mem_filter.mp hrow).2
    simp only [Bool.and_eq_true, decide_eq_true_eq, List.contains_iff_mem] at hcondition
    obtain ⟨check, hcheck, hpk⟩ := hchecks _ hcondition.2
    refine any_of_mem hcheck ?_
    simp [hcondition.1, hpk]

theorem statusBucketRows_publicTelemetry (hhome : home ∈ publicHomes control slug)
    {servicePks : List ℤ} (hservices : ∀ pk ∈ servicePks,
      ∃ listed ∈ publicServiceRows control home.1.id home.2.id, listed.1.2.telemetryPk = pk) :
    statusBucketRows (publicTelemetry control slug now read telemetry) home.1.telemetryPk
        servicePks (now - dayMs) =
      statusBucketRows telemetry home.1.telemetryPk servicePks (now - dayMs) := by
  rw [statusBucketRows, publicTelemetry]
  dsimp only
  rw [filter_restrict (fun row ↦ row.workspacePk = home.1.telemetryPk &&
    row.resourceType = 2 && row.bucketSeconds = 300 && servicePks.contains row.resourcePk &&
    decide (row.bucketStart ≥ now - dayMs)) fun _ _ _ ↦ rfl, restrict_eq_map]
  · exact List.map_id _
  · intro row hrow
    have hcondition := (List.mem_filter.mp hrow).2
    simp only [Bool.and_eq_true, decide_eq_true_eq, List.contains_iff_mem] at hcondition
    obtain ⟨⟨⟨⟨hworkspace, htype⟩, hseconds⟩, hpk⟩, hsince⟩ := hcondition
    obtain ⟨listed, hlisted, heq⟩ := hservices _ hpk
    have hshown : (home, listed) ∈ shownServices control slug :=
      mem_shownServices.mpr ⟨hhome, hlisted⟩
    simp only [htype, hseconds, decide_eq_true hsince, decide_true, Bool.true_and]
    refine any_of_mem hshown ?_
    simp [hworkspace, heq]

end Telemetry

end

end AlphaPing.PublicStatus.View
