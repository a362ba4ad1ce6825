import AlphaPing.PublicStatus.View
import Mathlib.Data.List.Dedup

/-!
# What the public pages depend on

Every public page is a function of the public part of the databases and of one more fact: a page
that lists incidents is refused when one of them is linked to more than twenty services, private
ones among them. Two pairs of databases with the same public part, and the same incidents over
that limit, have the same pages.

The public part holds each stored inventory as the reader gives it. The reader takes an inventory
as a whole or not at all, so a container that has no public row decides with the rest of its
inventory whether the public containers beside it are shown.
-/

namespace AlphaPing.PublicStatus.Noninterference

open Library.Restrictions Library.Tables
open Projection PublicStatus.Pages View
open System.StoredInventories
open Library.Json Library.Texts
open Monitoring.Handlers (utf16Length)

section

variable {control : ControlDb} {slug : String} {now : ℤ} {home : Home} {Stored : Type}
  {read : Stored → Option MachineContainerInventory} {telemetry : TelemetryDb Stored}

/-! ## Machines -/

theorem whenDetailed_congr {profile : Profile} {first second : Option ℤ}
    (h : profile = .detailed → first = second) :
    whenDetailed profile first = whenDetailed profile second := by
  rw [whenDetailed, whenDetailed]
  split
  · next hprofile => exact h hprofile
  · rfl

theorem projectContainer_congr {policy : PublicContainerRow} {first second : MachineContainer}
    (hname : first.name = second.name) (hstate : first.state = second.state)
    (hhealth : first.health = second.health)
    (h : policy.projectionProfile = .detailed →
      first.cpuPermille = second.cpuPermille ∧ first.memoryUsedBytes = second.memoryUsedBytes) :
    projectContainer policy first = projectContainer policy second := by
  rw [projectContainer, projectContainer, hname, hstate, hhealth]
  by_cases hprofile : policy.projectionProfile = .detailed
  · rw [(h hprofile).1, (h hprofile).2]
  · simp only [if_neg hprofile]

variable {listed : Listed Machine} {serviceIds : List String}

/-- A public container is found in the public part of the inventory, with what its profile
shows. -/
theorem shownContainer_publicInventory {pair : Container × Policy}
    (hshown : ((home, listed), pair) ∈ shownContainers control slug)
    {row : PublicMachineLatestRow Stored} (hworkspace : row.workspacePk = home.1.telemetryPk)
    (hmachine : row.machinePk = listed.1.2.telemetryPk) (containers : List MachineContainer) :
    (lookupLast MachineContainer.id (containerRow pair).id
        (restrict (storedPublic control slug row) (blankStored control slug row) containers)).map
        (projectContainer (containerRow pair)) =
      (lookupLast MachineContainer.id (containerRow pair).id containers).map
        (projectContainer (containerRow pair)) := by
  have hkeep : ∀ container ∈ containers, container.id = (containerRow pair).id →
      storedPublic control slug row container = true := by
    intro container _ hid
    refine any_of_mem hshown ?_
    simp [hworkspace, hmachine, hid, containerRow]
  have hid : ∀ container ∈ containers,
      (blankStored control slug row container).id = container.id := fun _ _ ↦ rfl
  rw [lookupLast_restrict hid hkeep, Option.map_map]
  cases hfound : lookupLast MachineContainer.id (containerRow pair).id containers with
  | none => rfl
  | some container =>
    refine congrArg some (projectContainer_congr rfl rfl rfl fun hprofile ↦ ?_)
    have hid := (lookupLast_eq_some hfound).2
    have hdetailed : storedDetailed control slug row container = true := by
      refine any_of_mem hshown ?_
      simp [hworkspace, hmachine, hid, containerRow, (show pair.2.projectionProfile = .detailed
        from hprofile)]
    exact ⟨if_pos hdetailed, if_pos hdetailed⟩

theorem projectMachine_public (hshown : (home, listed) ∈ shownMachines control slug)
    {latest : List (PublicMachineLatestRow Stored)}
    (hlatest : ∀ row ∈ latest, row.workspacePk = home.1.telemetryPk)
    {containers : List (Container × Policy)}
    (hcontainers : ∀ pair ∈ containers, pair.1.machineId = listed.1.2.id →
      pair ∈ publicContainerRows control home.1.id [listed.1.2.id]) :
    projectMachine id now (latest.map (blankLatest control slug read))
        (containers.map blankPair) (blankListedMachine control slug listed) =
      projectMachine read now latest containers listed := by
  have hrow : lookupLast PublicMachineLatestRow.machinePk listed.1.2.telemetryPk
      (latest.map (blankLatest control slug read)) =
      (lookupLast PublicMachineLatestRow.machinePk listed.1.2.telemetryPk latest).map
        (blankLatest control slug read) := lookupLast_map fun _ _ ↦ rfl
  have hrows : ((containers.map blankPair).filter fun pair ↦
        pair.1.machineId = listed.1.2.id).map containerRow =
      (containers.filter fun pair ↦ pair.1.machineId = listed.1.2.id).map containerRow := by
    rw [List.filter_map, List.map_map]
    rfl
  have hdescription : (if listed.2.projectionProfile = .detailed then
        (blankMachine control slug listed.1.2).description else "") =
      if listed.2.projectionProfile = .detailed then listed.1.2.description else "" := by
    refine ite_congr rfl (fun hprofile ↦ if_pos ?_) fun _ ↦ rfl
    exact any_of_mem hshown (by simp [hprofile])
  change projectPublicStatusMachine (machineRow (blankListedMachine control slug listed))
    (lookupLast PublicMachineLatestRow.machinePk listed.1.2.telemetryPk
      (latest.map (blankLatest control slug read)))
    ((lookupLast PublicMachineLatestRow.machinePk listed.1.2.telemetryPk
      (latest.map (blankLatest control slug read))).bind fun row ↦ id row.containerInventory)
    (((containers.map blankPair).filter fun pair ↦ pair.1.machineId = listed.1.2.id).map
      containerRow) now = projectMachine read now latest containers listed
  rw [hrow, hrows, projectMachine]
  cases hfound : lookupLast PublicMachineLatestRow.machinePk listed.1.2.telemetryPk latest with
  | none => exact PublicStatusMachine.mk.injEq .. ▸ ⟨rfl, rfl, hdescription, rfl, rfl, rfl, rfl,
      rfl, rfl, rfl, rfl, rfl, rfl⟩
  | some row =>
    obtain ⟨hmem, hmachine⟩ := lookupLast_eq_some hfound
    have hdetailed : listed.2.projectionProfile = .detailed →
        latestDetailed control slug row = true := fun hprofile ↦
      any_of_mem hshown (by simp [hlatest row hmem, hmachine, hprofile])
    have hmetric : ∀ column : ℤ, whenDetailed listed.2.projectionProfile
          (some (if latestDetailed control slug row then column else 0)) =
        whenDetailed listed.2.projectionProfile (some column) := fun column ↦
      whenDetailed_congr fun hprofile ↦ by rw [if_pos (hdetailed hprofile)]
    refine PublicStatusMachine.mk.injEq .. ▸ ⟨rfl, rfl, hdescription, rfl, rfl, hmetric _,
      hmetric _, hmetric _, hmetric _, hmetric _, hmetric _, hmetric _, ?_⟩
    refine List.filterMap_congr fun policy hpolicy ↦ ?_
    obtain ⟨pair, hpair, rfl⟩ := List.mem_map.mp hpolicy
    obtain ⟨hmem', hof⟩ := List.mem_filter.mp hpair
    have hcontainer : ((home, listed), pair) ∈ shownContainers control slug :=
      mem_shownContainers.mpr ⟨hshown, hcontainers pair hmem' (of_decide_eq_true hof)⟩
    have hfind := shownContainer_publicInventory hcontainer (hlatest row hmem) hmachine
    cases hread : read row.containerInventory with
    | none =>
      simp only [Option.map_some, Option.bind_some, blankLatest, hread, id]
      rfl
    | some inventory =>
      simp only [Option.map_some, Option.bind_some, blankLatest, hread, id, Option.getD_some]
      exact hfind inventory.containers

theorem listedMachines_publicControl (hhome : home ∈ publicHomes control slug) :
    listedMachines (publicControl control slug now) home =
      (listedMachines control home).map (blankListedMachine control slug) := by
  rw [listedMachines, publicMachineRows_publicControl hhome]
  exact selectOrdered_map fun _ _ ↦ rfl

theorem publicMachineRow_of_listed (h : listed ∈ listedMachines control home) :
    listed ∈ publicMachineRows control home.1.id home.2.id :=
  mem_of_mem_selectOrdered h

theorem selectOrdered_blankPair (limit : ℕ) (rows : List (Container × Policy)) :
    selectOrdered containerKey limit (rows.map blankPair) =
      (selectOrdered containerKey limit rows).map blankPair :=
  selectOrdered_map fun _ _ ↦ rfl

theorem listedContainers_publicControl (hhome : home ∈ publicHomes control slug) :
    listedContainers (publicControl control slug now) home
        ((listedMachines control home).map (blankListedMachine control slug)) =
      (listedContainers control home (listedMachines control home)).map blankPair := by
  have hids : ((listedMachines control home).map (blankListedMachine control slug)).map
      (fun listed ↦ listed.1.2.id) = (listedMachines control home).map fun listed ↦ listed.1.2.id :=
    List.map_map
  rw [listedContainers, listedContainers, hids, ← selectOrdered_blankPair,
    map_queryInBatches]
  congr 1
  refine queryInBatches_congr fun batch hbatch ↦ ?_
  rw [publicContainerRows_publicControl hhome, selectOrdered_blankPair]
  intro id hid
  obtain ⟨listed, hlisted, rfl⟩ := List.mem_map.mp (hbatch hid)
  exact ⟨listed, publicMachineRow_of_listed hlisted, rfl⟩

/-- The machines of a page, and their reports without what is not shown of them. -/
theorem loadPublicMachineProjection_public (hhome : home ∈ publicHomes control slug) :
    loadPublicMachineProjection id (publicControl control slug now)
        (publicTelemetry control slug now read telemetry) home now =
      ((loadPublicMachineProjection read control telemetry home now).1,
        (loadPublicMachineProjection read control telemetry home now).2.map
          (blankLatest control slug read)) := by
  have hpks : ((listedMachines control home).map (blankListedMachine control slug)).map
      (fun listed ↦ listed.1.2.telemetryPk) =
      (listedMachines control home).map fun listed ↦ listed.1.2.telemetryPk :=
    List.map_map
  have hlatest : (queryInBatches
      ((listedMachines control home).map fun listed ↦ listed.1.2.telemetryPk) fun batch ↦
        machineLatestRows (publicTelemetry control slug now read telemetry) home.1.telemetryPk
          batch) =
      (queryInBatches
        ((listedMachines control home).map fun listed ↦ listed.1.2.telemetryPk) fun batch ↦
          machineLatestRows telemetry home.1.telemetryPk batch).map
        (blankLatest control slug read) := by
    rw [map_queryInBatches]
    refine queryInBatches_congr fun batch hbatch ↦ machineLatestRows_publicTelemetry hhome ?_
    intro pk hpk
    obtain ⟨listed, hlisted, rfl⟩ := List.mem_map.mp (hbatch hpk)
    exact ⟨listed, publicMachineRow_of_listed hlisted, rfl⟩
  rw [loadPublicMachineProjection, loadPublicMachineProjection]
  simp only [listedMachines_publicControl hhome, hpks, hlatest,
    listedContainers_publicControl hhome, List.map_map]
  refine Prod.ext (List.map_congr_left fun listed hlisted ↦ ?_) rfl
  have hmachine := publicMachineRow_of_listed hlisted
  refine projectMachine_public (mem_shownMachines.mpr ⟨hhome, hmachine⟩) (fun row hrow ↦ ?_)
    fun pair hpair hof ↦ ?_
  · obtain ⟨batch, -, hmem⟩ := mem_queryInBatches hrow
    have hcondition := (List.mem_filter.mp hmem).2
    simp only [Bool.and_eq_true, decide_eq_true_eq] at hcondition
    exact hcondition.1
  · obtain ⟨batch, -, hmem⟩ := mem_queryInBatches (mem_of_mem_selectOrdered hpair)
    exact publicContainerRows_single (mem_of_mem_selectOrdered hmem) hof

theorem mem_publicHomes_of_load (h : loadPublicWorkspace control slug = .ok home) :
    home ∈ publicHomes control slug := by
  rw [loadPublicWorkspace] at h
  split at h
  · cases h
  · next first hfirst =>
    cases h
    exact List.mem_of_head? hfirst

theorem loadPublicWorkspace_publicControl :
    loadPublicWorkspace (publicControl control slug now) slug =
      loadPublicWorkspace control slug := by
  rw [loadPublicWorkspace, publicHomes_publicControl, loadPublicWorkspace]

variable {Appearance : Type} (parseSiteAppearance : String → Appearance)

theorem observedAt_blankLatest (rows : List (PublicMachineLatestRow Stored)) :
    (rows.map (blankLatest control slug read)).map (·.observedAt) = rows.map (·.observedAt) :=
  List.map_map

theorem loadPublicMachinesStatusPage_public :
    loadPublicMachinesStatusPage id parseSiteAppearance (publicControl control slug now)
        (publicTelemetry control slug now read telemetry) slug now =
      loadPublicMachinesStatusPage read parseSiteAppearance control telemetry slug now := by
  rw [loadPublicMachinesStatusPage, loadPublicMachinesStatusPage, loadPublicWorkspace_publicControl]
  cases hload : loadPublicWorkspace control slug with
  | error failure => rfl
  | ok home =>
    have hhome := mem_publicHomes_of_load hload
    simp only [bind, Except.bind, loadPublicMachineProjection_public hhome,
      observedAt_blankLatest]

theorem publicMachineContexts_publicControl (machineSlug : String) :
    publicMachineContexts (publicControl control slug now) slug machineSlug =
      (publicMachineContexts control slug machineSlug).map fun context ↦
        (context.1, blankListedMachine control slug context.2) := by
  rw [publicMachineContexts, publicHomes_publicControl, publicMachineContexts, List.map_flatMap]
  refine List.flatMap_congr fun home hhome ↦ ?_
  rw [publicMachineRows_publicControl hhome, List.filter_map, List.map_map, List.map_map]
  rfl

theorem mem_publicMachineContexts {machineSlug : String} {context : Home × Listed Machine}
    (h : context ∈ publicMachineContexts control slug machineSlug) :
    context ∈ shownMachines control slug := by
  obtain ⟨home, hhome, hmem⟩ := List.mem_flatMap.mp h
  obtain ⟨listed, hlisted, rfl⟩ := List.mem_map.mp hmem
  exact mem_shownMachines.mpr ⟨hhome, List.mem_of_mem_filter hlisted⟩

theorem loadPublicMachineStatusPage_public (machineSlug : String) :
    loadPublicMachineStatusPage id parseSiteAppearance (publicControl control slug now)
        (publicTelemetry control slug now read telemetry) slug machineSlug now =
      loadPublicMachineStatusPage read parseSiteAppearance control telemetry slug machineSlug
        now := by
  rw [loadPublicMachineStatusPage, publicMachineContexts_publicControl, List.head?_map,
    loadPublicMachineStatusPage]
  cases hcontext : (publicMachineContexts control slug machineSlug).head? with
  | none => rfl
  | some context =>
    obtain ⟨home, listed⟩ := context
    have hshown := mem_publicMachineContexts (List.mem_of_head? hcontext)
    obtain ⟨hhome, hlisted⟩ := mem_shownMachines.mp hshown
    have hlatest := @machineLatestRows_publicTelemetry control slug now home Stored read telemetry
      hhome [listed.1.2.telemetryPk] fun pk hpk ↦
        ⟨listed, hlisted, (List.mem_singleton.mp hpk).symm⟩
    have hcontainers := @publicContainerRows_publicControl control slug now home hhome
      [listed.1.2.id] fun id hid ↦ ⟨listed, hlisted, (List.mem_singleton.mp hid).symm⟩
    have hmachine : projectMachine id now
        (machineLatestRows (publicTelemetry control slug now read telemetry) home.1.telemetryPk
          [listed.1.2.telemetryPk]).head?.toList
        (selectOrdered containerKey 100
          (publicContainerRows (publicControl control slug now) home.1.id [listed.1.2.id]))
        (blankListedMachine control slug listed) =
      projectMachine read now
        (machineLatestRows telemetry home.1.telemetryPk [listed.1.2.telemetryPk]).head?.toList
        (selectOrdered containerKey 100
          (publicContainerRows control home.1.id [listed.1.2.id])) listed := by
      rw [hlatest, hcontainers, selectOrdered_blankPair, List.head?_map,
        Option.toList_map]
      refine projectMachine_public hshown (fun row hrow ↦ ?_) fun pair hpair _ ↦
        mem_of_mem_selectOrdered hpair
      have hmem := List.mem_of_head? (Option.mem_toList.mp hrow)
      have hcondition := (List.mem_filter.mp hmem).2
      simp only [Bool.and_eq_true, decide_eq_true_eq] at hcondition
      exact hcondition.1
    exact congrArg (fun machine : PublicStatusMachine ↦ Except.ok
      ({ head := pageHead parseSiteAppearance home, machine, updatedAt := machine.observedAt } :
        PublicMachineStatusPage Appearance)) hmachine

/-! ## Services -/

theorem projectPublicStatusService_public {listed : Listed Service}
    (hshown : (home, listed) ∈ shownServices control slug) (latest : Option PublicServiceLatestRow)
    (lastCheckedAt : Option ℤ) (buckets : List PublicStatusBucketRow) :
    projectPublicStatusService (serviceRow (blankListedService control slug listed)) latest
        lastCheckedAt buckets now =
      projectPublicStatusService (serviceRow listed) latest lastCheckedAt buckets now := by
  have hdescription : (if listed.2.projectionProfile = .detailed then
        (blankService control slug listed.1.2).description else "") =
      if listed.2.projectionProfile = .detailed then listed.1.2.description else "" := by
    refine ite_congr rfl (fun hprofile ↦ if_pos ?_) fun _ ↦ rfl
    exact any_of_mem hshown (by simp [hprofile])
  exact PublicStatusService.mk.injEq .. ▸ ⟨rfl, rfl, hdescription, rfl, rfl, rfl, rfl, rfl⟩

theorem publicServiceContexts_publicControl (serviceSlug : String) :
    publicServiceContexts (publicControl control slug now) slug serviceSlug =
      (publicServiceContexts control slug serviceSlug).map fun context ↦
        (context.1, blankListedService control slug context.2) := by
  rw [publicServiceContexts, publicHomes_publicControl, publicServiceContexts, List.map_flatMap]
  refine List.flatMap_congr fun home hhome ↦ ?_
  rw [publicServiceRows_publicControl hhome, List.filter_map, List.map_map, List.map_map]
  rfl

theorem mem_publicServiceContexts {serviceSlug : String} {context : Home × Listed Service}
    (h : context ∈ publicServiceContexts control slug serviceSlug) :
    context ∈ shownServices control slug := by
  obtain ⟨home, hhome, hmem⟩ := List.mem_flatMap.mp h
  obtain ⟨listed, hlisted, rfl⟩ := List.mem_map.mp hmem
  exact mem_shownServices.mpr ⟨hhome, List.mem_of_mem_filter hlisted⟩

theorem mem_shownChecks_of_enabled (hhome : home ∈ publicHomes control slug)
    (hservices : ∀ id ∈ serviceIds,
      ∃ listed ∈ publicServiceRows control home.1.id home.2.id, listed.1.2.id = id)
    {check : CheckConfig} (h : check ∈ enabledChecks control home.1.id serviceIds) :
    (home, check) ∈ shownChecks control slug := by
  obtain ⟨hmem, hcondition⟩ := List.mem_filter.mp h
  simp only [Bool.and_eq_true, List.contains_iff_mem, decide_eq_true_eq] at hcondition
  obtain ⟨listed, hlisted, hid⟩ := hservices _ hcondition.2
  refine mem_shownChecks.mpr ⟨(home, listed), mem_shownServices.mpr ⟨hhome, hlisted⟩, rfl, ?_⟩
  refine List.mem_filter.mpr ⟨hmem, ?_⟩
  simp [hcondition.1, hid]

theorem loadPublicServiceStatusPage_public (serviceSlug : String) :
    loadPublicServiceStatusPage parseSiteAppearance (publicControl control slug now)
        (publicTelemetry control slug now read telemetry) slug serviceSlug now =
      loadPublicServiceStatusPage parseSiteAppearance control telemetry slug serviceSlug now := by
  rw [loadPublicServiceStatusPage, publicServiceContexts_publicControl, List.head?_map,
    loadPublicServiceStatusPage]
  cases hcontext : (publicServiceContexts control slug serviceSlug).head? with
  | none => rfl
  | some context =>
    obtain ⟨home, listed⟩ := context
    have hshown := mem_publicServiceContexts (List.mem_of_head? hcontext)
    obtain ⟨hhome, hlisted⟩ := mem_shownServices.mp hshown
    have hids : ∀ id ∈ [listed.1.2.id],
        ∃ other ∈ publicServiceRows control home.1.id home.2.id, other.1.2.id = id :=
      fun id hid ↦ ⟨listed, hlisted, (List.mem_singleton.mp hid).symm⟩
    have hpks : ∀ pk ∈ [listed.1.2.telemetryPk],
        ∃ other ∈ publicServiceRows control home.1.id home.2.id, other.1.2.telemetryPk = pk :=
      fun pk hpk ↦ ⟨listed, hlisted, (List.mem_singleton.mp hpk).symm⟩
    have hchecks := @enabledChecks_publicControl control slug now home hhome _ hids
    have hlatest := @serviceLatestRows_publicTelemetry control slug now home Stored read telemetry
      hhome _ hpks
    have hbuckets := @statusBucketRows_publicTelemetry control slug now home Stored read telemetry
      hhome _ hpks
    have hlatestChecks : queryInBatches ((selectOrdered CheckConfig.telemetryPk 1001
          (enabledChecks control home.1.id [listed.1.2.id])).map (·.telemetryPk))
          (fun batch ↦ checkLatestRows (publicTelemetry control slug now read telemetry)
            home.1.telemetryPk batch) =
        queryInBatches ((selectOrdered CheckConfig.telemetryPk 1001
          (enabledChecks control home.1.id [listed.1.2.id])).map (·.telemetryPk))
          (fun batch ↦ checkLatestRows telemetry home.1.telemetryPk batch) := by
      refine queryInBatches_congr fun batch hbatch ↦ checkLatestRows_publicTelemetry ?_
      intro pk hpk
      obtain ⟨check, hcheck, rfl⟩ := List.mem_map.mp (hbatch hpk)
      exact ⟨check, mem_shownChecks_of_enabled hhome hids (mem_of_mem_selectOrdered hcheck), rfl⟩
    have hid : (blankListedService control slug listed).1.2.id = listed.1.2.id := rfl
    have hpk : (blankListedService control slug listed).1.2.telemetryPk =
        listed.1.2.telemetryPk := rfl
    simp only [Option.map_some, hid, hpk, hchecks, hlatest, hbuckets, hlatestChecks,
      projectPublicStatusService_public hshown]

theorem listedServices_publicControl (hhome : home ∈ publicHomes control slug) :
    listedServices (publicControl control slug now) home =
      (listedServices control home).map (blankListedService control slug) := by
  rw [listedServices, publicServiceRows_publicControl hhome]
  exact selectOrdered_map fun _ _ ↦ rfl

theorem buildPublicStatusServicePage_map {Row Seen : Type} (change : Row → Seen)
    (services : List Row) (requestedPage requestedPageSize : ℤ) :
    buildPublicStatusServicePage (services.map change) requestedPage requestedPageSize =
      ((buildPublicStatusServicePage services requestedPage requestedPageSize).1.map change,
        (buildPublicStatusServicePage services requestedPage requestedPageSize).2) := by
  simp only [buildPublicStatusServicePage, List.length_map, List.map_drop, List.map_take]

theorem mem_of_mem_servicePage {Row : Type} {services : List Row}
    {requestedPage requestedPageSize : ℤ} {row : Row}
    (h : row ∈ (buildPublicStatusServicePage services requestedPage requestedPageSize).1) :
    row ∈ services :=
  List.mem_of_mem_take (List.mem_of_mem_drop h)

/-! ## Incidents -/

theorem mem_shownIncidents_of_listed (hhome : home ∈ publicHomes control slug)
    (hservices : ∀ id ∈ serviceIds,
      ∃ listed ∈ publicServiceRows control home.1.id home.2.id, listed.1.2.id = id)
    {incident : Incident} (h : incident ∈ incidentRows control home.1.id now serviceIds) :
    incident ∈ shownIncidents control slug now := by
  obtain ⟨id, -, hfound⟩ := List.mem_filterMap.mp (mem_of_mem_selectOrdered h)
  obtain ⟨batch, hbatch, hmem⟩ := mem_queryInBatches (lookupLast_eq_some hfound).1
  have hcandidate := mem_of_mem_selectOrdered hmem
  exact List.mem_filter.mpr ⟨(List.mem_filter.mp hcandidate).1,
    incidentPublic_of_candidate hhome (fun id hid ↦ hservices id (hbatch hid)) hcandidate⟩

theorem incidentRows_publicControl (hhome : home ∈ publicHomes control slug)
    (hservices : ∀ id ∈ serviceIds,
      ∃ listed ∈ publicServiceRows control home.1.id home.2.id, listed.1.2.id = id) :
    incidentRows (publicControl control slug now) home.1.id now serviceIds =
      incidentRows control home.1.id now serviceIds := by
  rw [incidentRows, incidentRows]
  congr 2
  refine queryInBatches_congr fun batch hbatch ↦ ?_
  rw [incidentCandidates_publicControl hhome fun id hid ↦ hservices id (hbatch hid)]

theorem nodup_incidentRows {workspaceId : String} :
    ((incidentRows control workspaceId now serviceIds).map (·.id)).Nodup := by
  suffices hunique : UniqueKey (fun incident : Incident ↦ incident.id)
      (distinctIncidents (queryInBatches serviceIds fun batch ↦
        selectOrdered incidentKey 20 (incidentCandidates control workspaceId now batch))) from
    uniqueKey_selectOrdered hunique
  rw [UniqueKey, distinctIncidents, List.map_filterMap]
  refine List.Nodup.filterMap (fun first second id hfirst hsecond ↦ ?_)
    (List.nodup_reverse.mpr (List.nodup_dedup _))
  have hid : ∀ {value : String}, id ∈ (lookupLast Incident.id value
      (queryInBatches serviceIds fun batch ↦ selectOrdered incidentKey 20
        (incidentCandidates control workspaceId now batch))).map (·.id) → value = id := by
    intro value hvalue
    obtain ⟨incident, hfound, rfl⟩ := Option.mem_map.mp hvalue
    exact (lookupLast_eq_some hfound).2.symm
  exact (hid hfirst).trans (hid hsecond).symm

/-- The links that a page counts are more than the limit for an incident that has more. -/
theorem tooManyLinks_incidentResourceRows {incidentIds : List String} (h : incidentIds.Nodup) :
    tooManyLinks (incidentResourceRows control incidentIds) = true ↔
      ∃ id ∈ incidentIds, incidentServicesLimit < (incidentLinks control id).length := by
  have hof : ∀ {id : String} {link : IncidentResource}, link ∈ selectOrdered
      IncidentResource.resourceId (incidentServicesLimit + 1) (incidentLinks control id) →
      link.incidentId = id := by
    intro id link hlink
    have hcondition := (List.mem_filter.mp (mem_of_mem_selectOrdered hlink)).2
    simp only [Bool.and_eq_true, decide_eq_true_eq] at hcondition
    exact hcondition.2
  have hcount : ∀ id ∈ incidentIds, (incidentResourceRows control incidentIds).countP
      (fun other ↦ other.incidentId = id) =
      min (incidentServicesLimit + 1) (incidentLinks control id).length := by
    intro id hid
    have hlength : (selectOrdered IncidentResource.resourceId (incidentServicesLimit + 1)
        (incidentLinks control id)).length =
        min (incidentServicesLimit + 1) (incidentLinks control id).length := by
      rw [selectOrdered, List.length_take, List.length_insertionSort]
    rw [← hlength, incidentResourceRows]
    clear hlength
    induction incidentIds with
    | nil => exact absurd hid List.not_mem_nil
    | cons head rest ih =>
      obtain ⟨hhead, hrest⟩ := List.nodup_cons.mp h
      rw [List.flatMap_cons, List.countP_append]
      rcases List.mem_cons.mp hid with rfl | hmem
      · rw [List.countP_eq_length.mpr fun link hlink ↦ decide_eq_true (hof hlink),
          List.countP_eq_zero.mpr, Nat.add_zero]
        intro link hlink hsame
        obtain ⟨other, hother, hmem⟩ := List.mem_flatMap.mp hlink
        exact hhead ((of_decide_eq_true hsame).symm.trans (hof hmem) ▸ hother)
      · rw [ih hrest hmem, List.countP_eq_zero.mpr, Nat.zero_add]
        intro link hlink hsame
        exact hhead ((hof hlink).symm.trans (of_decide_eq_true hsame) ▸ hmem)
  rw [tooManyLinks, List.any_eq_true]
  constructor
  · rintro ⟨link, hlink, hmany⟩
    obtain ⟨id, hid, hmem⟩ := List.mem_flatMap.mp hlink
    rw [hof hmem, decide_eq_true_eq, hcount id hid] at hmany
    exact ⟨id, hid, lt_of_lt_of_le hmany (Nat.min_le_right _ _)⟩
  · rintro ⟨id, hid, hmany⟩
    have hcounted : incidentServicesLimit < (incidentResourceRows control incidentIds).countP
        fun other ↦ other.incidentId = id := by
      rw [hcount id hid]
      exact lt_min (Nat.lt_succ_self _) hmany
    obtain ⟨link, hlink, hsame⟩ := List.countP_pos_iff.mp (Nat.zero_lt_of_lt hcounted)
    refine ⟨link, hlink, decide_eq_true ?_⟩
    rw [of_decide_eq_true hsame]
    exact hcounted

theorem incidentResourceRows_publicControl {incidentIds : List String}
    (h : ∀ id ∈ incidentIds, (incidentLinks control id).length ≤ incidentServicesLimit) :
    incidentResourceRows (publicControl control slug now) incidentIds =
      (incidentResourceRows control incidentIds).filter (linkPublic control slug now) := by
  rw [incidentResourceRows, incidentResourceRows, List.filter_flatMap]
  refine List.flatMap_congr fun id hid ↦ ?_
  have hlimit := (h id hid).trans (Nat.le_succ _)
  rw [incidentLinks_publicControl,
    selectOrdered_of_length_le ((List.length_filter_le _ _).trans hlimit),
    selectOrdered_of_length_le hlimit, filter_insertionSort]

theorem publicIncident_public {services : List (Listed Service)}
    (hservices : ∀ listed ∈ services, (home, listed) ∈ shownServices control slug)
    {incidents : List Incident}
    (hincidents : ∀ incident ∈ incidents, incident ∈ shownIncidents control slug now)
    {incident : Incident} (hincident : incident ∈ incidents) (updates : List IncidentUpdate) :
    publicIncident (services.map (blankListedService control slug))
        ((incidentResourceRows control (incidents.map (·.id))).filter
          (linkPublic control slug now)) updates incident =
      publicIncident services (incidentResourceRows control (incidents.map (·.id))) updates
        incident := by
  have hlookup : ∀ link : IncidentResource,
      (lookupLast (fun listed : Listed Service ↦ listed.1.2.id) link.resourceId
        (services.map (blankListedService control slug))).map
          (fun listed ↦ (⟨listed.1.2.name, link.impact⟩ : AffectedService)) =
      (lookupLast (fun listed : Listed Service ↦ listed.1.2.id) link.resourceId services).map
          fun listed ↦ ⟨listed.1.2.name, link.impact⟩ := by
    intro link
    rw [lookupLast_map fun _ _ ↦ rfl, Option.map_map]
    rfl
  rw [publicIncident, publicIncident]
  congr 1
  simp only [hlookup]
  rw [List.filter_filter, List.filterMap_filter, List.filterMap_filter]
  refine List.filterMap_congr fun link hlink ↦ ?_
  cases hof : decide (link.incidentId = incident.id) with
  | false => simp
  | true =>
    cases hpublic : linkPublic control slug now link with
    | true => simp
    | false =>
      have hmissing : lookupLast (fun listed : Listed Service ↦ listed.1.2.id) link.resourceId
          services = none := by
        cases hfound : lookupLast (fun listed : Listed Service ↦ listed.1.2.id) link.resourceId
            services with
        | none => rfl
        | some listed =>
          obtain ⟨hmem, hid⟩ := lookupLast_eq_some hfound
          obtain ⟨id, -, hlinks⟩ := List.mem_flatMap.mp hlink
          have htype := (List.mem_filter.mp (mem_of_mem_selectOrdered hlinks)).2
          simp only [Bool.and_eq_true] at htype
          rw [linkPublic, htype.1, any_of_mem (hservices listed hmem) (decide_eq_true hid),
            any_of_mem (hincidents incident hincident)
              (decide_eq_true (of_decide_eq_true hof).symm)] at hpublic
          exact absurd hpublic (by decide)
      simp [hmissing]

end

/-! ## The public view -/

/-- The public part of the databases, with the public incidents that are linked to more services
than a page takes. -/
structure PublicView where
  control : ControlDb
  telemetry : TelemetryDb (Option MachineContainerInventory)
  overlinked : List String

section

variable {Stored : Type} (read : Stored → Option MachineContainerInventory) {Appearance : Type}
  (parseSiteAppearance : String → Appearance)

def publicView (control : ControlDb) (telemetry : TelemetryDb Stored) (slug : String) (now : ℤ) :
    PublicView where
  control := publicControl control slug now
  telemetry := publicTelemetry control slug now read telemetry
  overlinked := ((shownIncidents control slug now).filter fun incident ↦
    incidentServicesLimit < (incidentLinks control incident.id).length).map (·.id)

def listedIncidentIds (control : ControlDb) (slug : String) (now : ℤ) : List String :=
  match loadPublicWorkspace control slug with
  | .error _ => []
  | .ok home => (incidentRows control home.1.id now
      ((listedServices control home).map fun listed ↦ listed.1.2.id)).map (·.id)

def statusPageOf (view : PublicView) (slug : String) (now : ℤ)
    (options : PublicStatusPageOptions) : Except PublicStatusError (PublicStatusPage Appearance) :=
  if (listedIncidentIds view.control slug now).any fun id ↦ view.overlinked.contains id then
    .error .data
  else loadPublicStatusPage id parseSiteAppearance view.control view.telemetry slug now options

variable {control : ControlDb} {slug : String} {now : ℤ} {home : Home}
  {telemetry : TelemetryDb Stored}

theorem serviceIds_public (listed : List (Listed Service)) :
    (listed.map (blankListedService control slug)).map (fun listed ↦ listed.1.2.id) =
      listed.map fun listed ↦ listed.1.2.id :=
  List.map_map

theorem servicePks_public (listed : List (Listed Service)) :
    (listed.map (blankListedService control slug)).map (fun listed ↦ listed.1.2.telemetryPk) =
      listed.map fun listed ↦ listed.1.2.telemetryPk :=
  List.map_map

theorem serviceId_of_listed {id : String}
    (h : id ∈ (listedServices control home).map fun listed ↦ listed.1.2.id) :
    ∃ listed ∈ publicServiceRows control home.1.id home.2.id, listed.1.2.id = id := by
  obtain ⟨listed, hlisted, heq⟩ := List.mem_map.mp h
  exact ⟨listed, mem_of_mem_selectOrdered hlisted, heq⟩

theorem listedIncidentIds_of_load (hload : loadPublicWorkspace control slug = .ok home) :
    listedIncidentIds control slug now = (incidentRows control home.1.id now
      ((listedServices control home).map fun listed ↦ listed.1.2.id)).map (·.id) := by
  rw [listedIncidentIds, hload]

theorem listedIncidentIds_publicControl :
    listedIncidentIds (publicControl control slug now) slug now =
      listedIncidentIds control slug now := by
  cases hload : loadPublicWorkspace control slug with
  | error failure =>
    rw [listedIncidentIds, listedIncidentIds, loadPublicWorkspace_publicControl, hload]
  | ok home =>
    have hhome := mem_publicHomes_of_load hload
    rw [listedIncidentIds_of_load hload,
      listedIncidentIds_of_load (loadPublicWorkspace_publicControl.trans hload),
      listedServices_publicControl hhome, serviceIds_public,
      incidentRows_publicControl hhome fun id hid ↦ serviceId_of_listed hid]

theorem mem_shownIncidents_of_id (hload : loadPublicWorkspace control slug = .ok home) {id : String}
    (h : id ∈ listedIncidentIds control slug now) :
    ∃ incident ∈ shownIncidents control slug now, incident.id = id := by
  rw [listedIncidentIds_of_load hload] at h
  obtain ⟨incident, hincident, heq⟩ := List.mem_map.mp h
  exact ⟨incident, mem_shownIncidents_of_listed (mem_publicHomes_of_load hload)
    (fun id hid ↦ serviceId_of_listed hid) hincident, heq⟩

theorem overlinked_iff (hload : loadPublicWorkspace control slug = .ok home) :
    ((listedIncidentIds control slug now).any fun id ↦
      (publicView read control telemetry slug now).overlinked.contains id) = true ↔
      tooManyLinks (incidentResourceRows control (listedIncidentIds control slug now)) = true := by
  have hnodup : (listedIncidentIds control slug now).Nodup :=
    listedIncidentIds_of_load hload ▸ nodup_incidentRows
  rw [tooManyLinks_incidentResourceRows hnodup, List.any_eq_true]
  refine exists_congr fun id ↦ and_congr_right fun hid ↦ ?_
  simp only [publicView, List.contains_iff_mem, List.mem_map, List.mem_filter, decide_eq_true_eq]
  constructor
  · rintro ⟨incident, ⟨-, hmany⟩, rfl⟩
    exact hmany
  · intro hmany
    obtain ⟨incident, hincident, rfl⟩ := mem_shownIncidents_of_id hload hid
    exact ⟨incident, ⟨hincident, hmany⟩, rfl⟩

theorem loadPublicStatusPage_of_load (hload : loadPublicWorkspace control slug = .ok home)
    (options : PublicStatusPageOptions) :
    loadPublicStatusPage read parseSiteAppearance control telemetry slug now options =
      if tooManyLinks (incidentResourceRows control (listedIncidentIds control slug now)) then
        .error .data
      else .ok (statusPage read parseSiteAppearance control telemetry home now options) := by
  rw [loadPublicStatusPage, hload, listedIncidentIds_of_load hload]
  simp only [bind, Except.bind]
  split <;> rfl

theorem servicePks_listed {services : List (Listed Service)}
    (h : services ⊆ listedServices control home) {pks : List ℤ}
    (hpks : pks ⊆ services.map fun listed ↦ listed.1.2.telemetryPk) :
    ∀ pk ∈ pks, ∃ listed ∈ publicServiceRows control home.1.id home.2.id,
      listed.1.2.telemetryPk = pk := by
  intro pk hpk
  obtain ⟨listed, hlisted, heq⟩ := List.mem_map.mp (hpks hpk)
  exact ⟨listed, mem_of_mem_selectOrdered (h hlisted), heq⟩

theorem statusPage_public (hhome : home ∈ publicHomes control slug)
    (hlinks : ∀ incident ∈ incidentRows control home.1.id now
        ((listedServices control home).map fun listed ↦ listed.1.2.id),
      (incidentLinks control incident.id).length ≤ incidentServicesLimit)
    (options : PublicStatusPageOptions) :
    statusPage id parseSiteAppearance (publicControl control slug now)
        (publicTelemetry control slug now read telemetry) home now options =
      statusPage read parseSiteAppearance control telemetry home now options := by
  let ids := (listedServices control home).map fun listed ↦ listed.1.2.id
  let paged := (buildPublicStatusServicePage (listedServices control home)
    (options.servicePage.getD 1) (options.servicePageSize.getD 200)).1
  let incidents := incidentRows control home.1.id now ids
  have hids : ∀ id ∈ ids, ∃ listed ∈ publicServiceRows control home.1.id home.2.id,
      listed.1.2.id = id := fun id hid ↦ serviceId_of_listed hid
  have hshown : ∀ listed ∈ listedServices control home,
      (home, listed) ∈ shownServices control slug :=
    fun listed hlisted ↦ mem_shownServices.mpr ⟨hhome, mem_of_mem_selectOrdered hlisted⟩
  have hpaged : paged ⊆ listedServices control home := fun _ ↦ mem_of_mem_servicePage
  have hincidents : ∀ incident ∈ incidents, incident ∈ shownIncidents control slug now :=
    fun incident hincident ↦ mem_shownIncidents_of_listed hhome hids hincident
  have hchecks : queryInBatches ids
        (enabledChecks (publicControl control slug now) home.1.id) =
      queryInBatches ids (enabledChecks control home.1.id) :=
    queryInBatches_congr fun batch hbatch ↦
      enabledChecks_publicControl hhome fun id hid ↦ hids id (hbatch hid)
  have hlatestServices : queryInBatches
        ((listedServices control home).map fun listed ↦ listed.1.2.telemetryPk)
        (serviceLatestRows (publicTelemetry control slug now read telemetry) home.1.telemetryPk) =
      queryInBatches ((listedServices control home).map fun listed ↦ listed.1.2.telemetryPk)
        (serviceLatestRows telemetry home.1.telemetryPk) :=
    queryInBatches_congr fun batch hbatch ↦ serviceLatestRows_publicTelemetry hhome
      (servicePks_listed (List.Subset.refl _) hbatch)
  have hlatestChecks : queryInBatches
        ((queryInBatches ids (enabledChecks control home.1.id)).map (·.telemetryPk))
        (checkLatestRows (publicTelemetry control slug now read telemetry) home.1.telemetryPk) =
      queryInBatches ((queryInBatches ids (enabledChecks control home.1.id)).map (·.telemetryPk))
        (checkLatestRows telemetry home.1.telemetryPk) := by
    refine queryInBatches_congr fun batch hbatch ↦ checkLatestRows_publicTelemetry ?_
    intro pk hpk
    obtain ⟨check, hcheck, rfl⟩ := List.mem_map.mp (hbatch hpk)
    obtain ⟨serviceIds, hserviceIds, hmem⟩ := mem_queryInBatches hcheck
    exact ⟨check, mem_shownChecks_of_enabled hhome
      (fun id hid ↦ hids id (hserviceIds hid)) hmem, rfl⟩
  have hbuckets : (queryInBatches (paged.map fun listed ↦ listed.1.2.telemetryPk) fun batch ↦
        (statusBucketRows (publicTelemetry control slug now read telemetry) home.1.telemetryPk
          batch (now - dayMs)).insertionSort
            fun first second ↦ first.bucketStart ≤ second.bucketStart) =
      queryInBatches (paged.map fun listed ↦ listed.1.2.telemetryPk) fun batch ↦
        (statusBucketRows telemetry home.1.telemetryPk batch (now - dayMs)).insertionSort
          fun first second ↦ first.bucketStart ≤ second.bucketStart :=
    queryInBatches_congr fun batch hbatch ↦ congrArg _
      (statusBucketRows_publicTelemetry hhome (servicePks_listed hpaged hbatch))
  have hlinked : incidentResourceRows (publicControl control slug now) (incidents.map (·.id)) =
      (incidentResourceRows control (incidents.map (·.id))).filter
        (linkPublic control slug now) := by
    refine incidentResourceRows_publicControl fun id hid ↦ ?_
    obtain ⟨incident, hincident, rfl⟩ := List.mem_map.mp hid
    exact hlinks incident hincident
  have hincidentIds : ∀ id ∈ incidents.map (·.id),
      ∃ incident ∈ shownIncidents control slug now, incident.id = id := by
    intro id hid
    obtain ⟨incident, hincident, heq⟩ := List.mem_map.mp hid
    exact ⟨incident, hincidents incident hincident, heq⟩
  have hupdates := loadLatestIncidentUpdates_publicControl hincidentIds 20 200
  have hpage := buildPublicStatusServicePage_map (blankListedService control slug)
    (listedServices control home) (options.servicePage.getD 1) (options.servicePageSize.getD 200)
  rw [statusPage, statusPage]
  simp only [loadPublicMachineProjection_public hhome, listedServices_publicControl hhome, hpage,
    serviceIds_public, servicePks_public]
  rw [hchecks, hlatestServices, hlatestChecks, hbuckets, incidentRows_publicControl hhome hids,
    hlinked, hupdates, announcementRows_publicControl hhome]
  refine PublicStatusPage.mk.injEq .. ▸ ⟨rfl, rfl, ?_, ?_, rfl, ?_, ?_, rfl⟩
  · rw [List.map_map]
    refine List.map_congr_left fun listed hlisted ↦ ?_
    exact projectPublicStatusService_public (hshown listed (hpaged hlisted)) _ _ _
  · exact List.map_congr_left fun incident hincident ↦
      publicIncident_public hshown hincidents hincident _
  · exact congrArg _ (observedAt_blankLatest _)
  · have hstates : ∀ rows : List PublicServiceLatestRow,
        ((listedServices control home).map (blankListedService control slug)).map (fun listed ↦
          ((lookupLast PublicServiceLatestRow.servicePk listed.1.2.telemetryPk rows).map
            (·.state)).getD "unknown") =
        (listedServices control home).map fun listed ↦
          ((lookupLast PublicServiceLatestRow.servicePk listed.1.2.telemetryPk rows).map
            (·.state)).getD "unknown" := fun rows ↦ List.map_map
    rw [hstates]

theorem loadPublicStatusPage_public (options : PublicStatusPageOptions) :
    loadPublicStatusPage read parseSiteAppearance control telemetry slug now options =
      statusPageOf parseSiteAppearance (publicView read control telemetry slug now) slug now
        options := by
  have hids : listedIncidentIds (publicView read control telemetry slug now).control slug now =
      listedIncidentIds control slug now := listedIncidentIds_publicControl
  rw [statusPageOf, hids]
  cases hload : loadPublicWorkspace control slug with
  | error failure =>
    have hempty : listedIncidentIds control slug now = [] := by rw [listedIncidentIds, hload]
    have hpublic := (@loadPublicWorkspace_publicControl control slug now).trans hload
    rw [hempty, loadPublicStatusPage, hload, publicView, loadPublicStatusPage, hpublic]
    simp only [bind, Except.bind, List.any_nil, Bool.false_eq_true, if_false]
  | ok home =>
    have hhome := mem_publicHomes_of_load hload
    have hpublic := (@loadPublicWorkspace_publicControl control slug now).trans hload
    have hnodup : (listedIncidentIds control slug now).Nodup :=
      listedIncidentIds_of_load hload ▸ nodup_incidentRows
    rw [loadPublicStatusPage_of_load read parseSiteAppearance hload]
    cases hmany : tooManyLinks (incidentResourceRows control (listedIncidentIds control slug now))
      with
    | true => rw [if_pos rfl, if_pos ((overlinked_iff read hload).mpr hmany)]
    | false =>
      have hlimit : ∀ id ∈ listedIncidentIds control slug now,
          (incidentLinks control id).length ≤ incidentServicesLimit := by
        intro id hid
        by_contra hover
        have htrue := (tooManyLinks_incidentResourceRows hnodup).mpr
          ⟨id, hid, Nat.lt_of_not_le hover⟩
        exact Bool.false_ne_true (hmany.symm.trans htrue)
      have hfew : ¬ tooManyLinks (incidentResourceRows (publicControl control slug now)
          (listedIncidentIds control slug now)) = true := by
        rw [tooManyLinks_incidentResourceRows hnodup]
        rintro ⟨id, hid, hover⟩
        rw [incidentLinks_publicControl] at hover
        exact absurd (hlimit id hid) (not_le.mpr (lt_of_lt_of_le hover (List.length_filter_le _ _)))
      have hpage := @statusPage_public Stored read Appearance parseSiteAppearance control slug now
        home telemetry hhome (fun incident hincident ↦ hlimit _
          (listedIncidentIds_of_load hload ▸ List.mem_map_of_mem hincident)) options
      have hnot : ¬ ((listedIncidentIds control slug now).any fun id ↦
          (publicView read control telemetry slug now).overlinked.contains id) = true :=
        fun hover ↦ Bool.false_ne_true (hmany.symm.trans ((overlinked_iff read hload).mp hover))
      rw [if_neg Bool.false_ne_true, if_neg hnot, publicView,
        loadPublicStatusPage_of_load id parseSiteAppearance hpublic,
        listedIncidentIds_publicControl, if_neg hfew, hpage]

theorem pages_eq_of_publicView {control control' : ControlDb}
    {telemetry telemetry' : TelemetryDb Stored}
    (h : publicView read control telemetry slug now = publicView read control' telemetry' slug now)
    :
    (∀ options, loadPublicStatusPage read parseSiteAppearance control telemetry slug now options =
      loadPublicStatusPage read parseSiteAppearance control' telemetry' slug now options) ∧
    loadPublicMachinesStatusPage read parseSiteAppearance control telemetry slug now =
      loadPublicMachinesStatusPage read parseSiteAppearance control' telemetry' slug now ∧
    (∀ machineSlug,
      loadPublicMachineStatusPage read parseSiteAppearance control telemetry slug machineSlug now =
        loadPublicMachineStatusPage read parseSiteAppearance control' telemetry' slug machineSlug
          now) ∧
    ∀ serviceSlug,
      loadPublicServiceStatusPage parseSiteAppearance control telemetry slug serviceSlug now =
        loadPublicServiceStatusPage parseSiteAppearance control' telemetry' slug serviceSlug
          now := by
  have hcontrol : publicControl control slug now = publicControl control' slug now :=
    congrArg PublicView.control h
  have htelemetry : publicTelemetry control slug now read telemetry =
      publicTelemetry control' slug now read telemetry' := congrArg PublicView.telemetry h
  refine ⟨fun options ↦ ?_, ?_, fun machineSlug ↦ ?_, fun serviceSlug ↦ ?_⟩
  · rw [loadPublicStatusPage_public, h, loadPublicStatusPage_public]
  · rw [← loadPublicMachinesStatusPage_public, hcontrol, htelemetry,
      loadPublicMachinesStatusPage_public]
  · rw [← loadPublicMachineStatusPage_public, hcontrol, htelemetry,
      loadPublicMachineStatusPage_public]
  · rw [← @loadPublicServiceStatusPage_public control slug now Stored read, hcontrol, htelemetry,
      loadPublicServiceStatusPage_public]

end

/-! ## The stored databases -/

/-- Two pairs of databases that agree on what the public pages of a workspace may show, on whether
each public machine's stored inventory can be read and on which public incidents are linked to
more than twenty services, have the same public pages. -/
theorem public_pages_noninterfering {Appearance : Type}
    (parseSiteAppearance : String → Appearance) {control control' : ControlDb}
    {telemetry telemetry' : TelemetryDb (Option Json)} {slug : String} {now : ℤ}
    (h : publicView parseContainerInventory control telemetry slug now =
      publicView parseContainerInventory control' telemetry' slug now) :
    (∀ options, loadPublicStatusPage parseContainerInventory parseSiteAppearance control telemetry
        slug now options =
      loadPublicStatusPage parseContainerInventory parseSiteAppearance control' telemetry' slug now
        options) ∧
    loadPublicMachinesStatusPage parseContainerInventory parseSiteAppearance control telemetry
        slug now =
      loadPublicMachinesStatusPage parseContainerInventory parseSiteAppearance control' telemetry'
        slug now ∧
    (∀ machineSlug, loadPublicMachineStatusPage parseContainerInventory parseSiteAppearance control
        telemetry slug machineSlug now =
      loadPublicMachineStatusPage parseContainerInventory parseSiteAppearance control' telemetry'
        slug machineSlug now) ∧
    ∀ serviceSlug, loadPublicServiceStatusPage parseSiteAppearance control telemetry slug
        serviceSlug now =
      loadPublicServiceStatusPage parseSiteAppearance control' telemetry' slug serviceSlug now :=
  pages_eq_of_publicView parseContainerInventory parseSiteAppearance h

/-! ### A machine with a public container and a private one -/

open Protocol (Bytes)
open Ingest.Containers (StoredContainer StoredInventory)
open Ingest.Enrollment (hexEncode)

def webKey : Bytes := List.replicate 16 161

def hiddenKey : Bytes := List.replicate 16 162

def hostContainer (key : Bytes) (name : String) (startedAtMs : ℤ) : StoredContainer where
  id := key
  runtime := "docker"
  runtimeInstance := "default"
  name := name
  image := "nginx:latest"
  metric := { webMetric startedAtMs with containerKey := key }

/-- The inventory of the machine; only the start of the private container is left open. -/
def hostInventory (startedAtMs : ℤ) : StoredInventory where
  observedAt := 1752574830000
  catalogDigest := List.replicate 32 7
  runtimes := []
  containers := [hostContainer webKey "web" 1752574000000,
    hostContainer hiddenKey "hidden" startedAtMs]

def hostLatest (startedAtMs : ℤ) : PublicMachineLatestRow (Option Json) where
  workspacePk := 2
  machinePk := 5
  observedAt := 1752574830000
  receivedAt := 1752574840000
  state := "healthy"
  cpuPermille := 100
  memoryUsedBytes := 1
  memoryTotalBytes := 2
  storageUsedBytes := 3
  storageTotalBytes := 4
  networkRxBps := 5
  networkTxBps := 6
  containerInventory := some (inventoryDocument (hostInventory startedAtMs))

def hostTelemetry (startedAtMs : ℤ) : TelemetryDb (Option Json) where
  machineLatest := [hostLatest startedAtMs]
  serviceLatest := []
  checkLatest := []
  statusBuckets := []

def hostMachine : Machine where
  id := "m"
  telemetryPk := 5
  workspaceId := "w"
  name := "Host"
  description := "A host"
  deletedAt := none
  publicSlug := "host"
  offlineAfterSeconds := 150
  expectedHost := some "host.internal"
  labelsJson := "\x7b\x7d"

/-- The policies allow the machine and its first container. -/
def hostControl : ControlDb where
  workspaces := [⟨"w", 2, "acme", "Acme", some "d", none⟩]
  dashboards := [⟨"d", "Overview", "\x7b\x7d", .public_, none⟩]
  dashboardResources := [⟨"d", .machine, "m", 0, .inherit⟩]
  policies := [⟨"w", .machine, "m", .allow, .summary⟩,
    ⟨"w", .container, hexEncode webKey, .allow, .summary⟩]
  machines := [hostMachine]
  services := []
  containers := [⟨hexEncode webKey, "w", "m", "web", "nginx:latest", none⟩,
    ⟨hexEncode hiddenKey, "w", "m", "hidden", "nginx:latest", none⟩]
  checks := []
  incidents := []
  incidentResources := []
  incidentUpdates := []
  announcements := []

/-- A private machine beside the public one. -/
def backupMachine : Machine where
  id := "n"
  telemetryPk := 6
  workspaceId := "w"
  name := "Backup"
  description := "Private"
  deletedAt := none
  publicSlug := "backup"
  offlineAfterSeconds := 150
  expectedHost := none
  labelsJson := "\x7b\x7d"

theorem backup_machine_not_seen :
    publicView parseContainerInventory hostControl (hostTelemetry 0) "acme" 1752574860000 =
      publicView parseContainerInventory
        { hostControl with machines := [backupMachine, hostMachine] } (hostTelemetry 0) "acme"
        1752574860000 ∧
    ∀ options, loadPublicStatusPage parseContainerInventory id hostControl (hostTelemetry 0)
        "acme" 1752574860000 options =
      loadPublicStatusPage parseContainerInventory id
        { hostControl with machines := [backupMachine, hostMachine] } (hostTelemetry 0) "acme"
        1752574860000 options :=
  have h : publicView parseContainerInventory hostControl (hostTelemetry 0) "acme"
      1752574860000 = publicView parseContainerInventory
        { hostControl with machines := [backupMachine, hostMachine] } (hostTelemetry 0) "acme"
        1752574860000 := rfl
  ⟨h, (public_pages_noninterfering id h).1⟩

def hostPageNames (startedAtMs : ℤ) : Option (List String) :=
  (loadPublicMachineStatusPage parseContainerInventory id hostControl (hostTelemetry startedAtMs)
    "acme" "host" 1752574860000).toOption.map fun page ↦ page.machine.containers.map (·.name)

theorem hiddenKey_ne_webKey : hexEncode hiddenKey ≠ hexEncode webKey := by
  intro heq
  exact absurd (hexEncode_injective heq) (by decide)

theorem publicContainerRows_host : publicContainerRows hostControl "w" ["m"] =
    [(⟨hexEncode webKey, "w", "m", "web", "nginx:latest", none⟩,
      ⟨"w", .container, hexEncode webKey, .allow, .summary⟩)] := by
  simp [publicContainerRows, joinOn, hostControl, hiddenKey_ne_webKey.symm]

theorem publicMachineContexts_host : publicMachineContexts hostControl "acme" "host" =
    [((⟨"w", 2, "acme", "Acme", some "d", none⟩,
        ⟨"d", "Overview", "\x7b\x7d", .public_, none⟩),
      ((⟨"d", .machine, "m", 0, .inherit⟩, hostMachine),
        ⟨"w", .machine, "m", .allow, .summary⟩))] := by
  simp [publicMachineContexts, publicHomes, publicMachineRows, publicResources, joinOn,
    hostControl, hostMachine]

theorem lookupLast_host (startedAtMs : ℤ) : lookupLast PublicMachineLatestRow.machinePk 5
    (machineLatestRows (hostTelemetry startedAtMs) 2 [5]).head?.toList =
      some (hostLatest startedAtMs) := by
  simp [machineLatestRows, hostTelemetry, hostLatest, lookupLast]

theorem hostPageNames_eq (startedAtMs : ℤ) : hostPageNames startedAtMs =
    some (((parseContainerInventory (some (inventoryDocument (hostInventory startedAtMs)))).bind
      fun inventory ↦ (lookupLast MachineContainer.id (hexEncode webKey)
        inventory.containers).map (·.name)).toList) := by
  have hid : hostMachine.id = "m" := rfl
  have hpk : hostMachine.telemetryPk = 5 := rfl
  have hdocument : (hostLatest startedAtMs).containerInventory =
      some (inventoryDocument (hostInventory startedAtMs)) := rfl
  rw [hostPageNames, loadPublicMachineStatusPage, publicMachineContexts_host]
  simp only [List.head?_cons, hid, hpk, publicContainerRows_host, projectMachine, lookupLast_host,
    Option.bind_some, hdocument]
  refine congrArg some ?_
  have hrows : ((selectOrdered containerKey 100
      [((⟨hexEncode webKey, "w", "m", "web", "nginx:latest", none⟩ : Container),
        (⟨"w", .container, hexEncode webKey, .allow, .summary⟩ : Policy))]).filter fun pair ↦
          pair.1.machineId = "m").map containerRow = [⟨hexEncode webKey, "m", .summary⟩] := by
    simp [selectOrdered, containerRow]
  rw [hrows]
  cases parseContainerInventory (some (inventoryDocument (hostInventory startedAtMs))) with
  | none => rfl
  | some inventory =>
    simp only [projectPublicStatusMachine, Option.map_some, Option.getD_some, Option.bind_some,
      List.filterMap_cons, List.filterMap_nil]
    cases lookupLast MachineContainer.id (hexEncode webKey) inventory.containers <;> rfl

theorem hostInventory_readable :
    parseContainerInventory (some (inventoryDocument (hostInventory 0))) =
      some (shownInventory (hostInventory 0)) := by
  have hsize : ∀ container ∈ (hostInventory 0).containers,
      size codeUnits (containerDocument container).render ≤ 1000 := by
    intro container hcontainer
    rcases List.mem_pair.mp hcontainer with rfl | rfl
    · rw [size_containerDocument _ rfl]
      decide +kernel
    · rw [size_containerDocument _ rfl]
      decide +kernel
  have hlength :
      utf16Length (String.ofList (inventoryDocument (hostInventory 0)).render) ≤ 256 * 1024 := by
    have hrest : numberLength (hostInventory 0).observedAt +
        textLength (hexEncode (hostInventory 0).catalogDigest) ≤ 100 := by decide +kernel
    have hfirst := hsize (hostContainer webKey "web" 1752574000000) List.mem_cons_self
    have hsecond := hsize (hostContainer hiddenKey "hidden" 0)
      (List.mem_cons_of_mem _ List.mem_cons_self)
    rw [utf16Length_ofList, size_inventoryDocument]
    simp only [hostInventory, List.map_cons, List.map_nil, List.sum_cons, List.sum_nil,
      List.length_cons, List.length_nil] at hrest ⊢
    omega
  have hcontainers : ∀ container ∈ (hostInventory 0).containers, ContainerReadable container := by
    decide +kernel
  exact (parseContainerInventory_eq_some_iff _ _).mpr ⟨⟨hlength, by decide, by decide, by decide,
    by decide, hcontainers⟩, rfl⟩

theorem hostInventory_unreadable :
    parseContainerInventory (some (inventoryDocument (hostInventory (-1)))) = none := by
  cases hread : parseContainerInventory (some (inventoryDocument (hostInventory (-1)))) with
  | none => rfl
  | some read =>
    have hreadable := ((parseContainerInventory_eq_some_iff _ _).mp hread).1
    have hmetric := (hreadable.containers (hostContainer hiddenKey "hidden" (-1))
      (List.mem_cons_of_mem _ List.mem_cons_self)).2.2.2.2.2.2
    exact absurd hmetric.1.1 (by decide)

/-- The two telemetry databases differ in the start of the private container and in nothing else.
The control database is one and the same, and it shows the other container only. -/
theorem private_container_hides_public_container :
    (shownContainers hostControl "acme").map (fun shown ↦ shown.2.1.id) = [hexEncode webKey] ∧
    (hostInventory 0).containers.filter (fun container ↦ container.id = webKey) =
      (hostInventory (-1)).containers.filter (fun container ↦ container.id = webKey) ∧
    loadPublicMachineStatusPage parseContainerInventory id hostControl (hostTelemetry 0) "acme"
      "host" 1752574860000 ≠
    loadPublicMachineStatusPage parseContainerInventory id hostControl (hostTelemetry (-1)) "acme"
      "host" 1752574860000 := by
  refine ⟨?_, rfl, fun heq ↦ ?_⟩
  · have hmachines : shownMachines hostControl "acme" =
        publicMachineContexts hostControl "acme" "host" := by
      rw [publicMachineContexts_host]
      simp [shownMachines, publicHomes, publicMachineRows, publicResources, joinOn, hostControl,
        hostMachine]
    have hid : hostMachine.id = "m" := rfl
    rw [shownContainers, hmachines, publicMachineContexts_host]
    simp [hid, publicContainerRows_host]
  · have hnames : hostPageNames 0 = hostPageNames (-1) := by
      rw [hostPageNames, heq, hostPageNames]
    rw [hostPageNames_eq, hostPageNames_eq, hostInventory_readable, hostInventory_unreadable]
      at hnames
    have hfound : lookupLast MachineContainer.id (hexEncode webKey)
        (shownInventory (hostInventory 0)).containers =
        some (shownContainer (hostContainer webKey "web" 1752574000000)) := by
      have hid : (shownContainer (hostContainer hiddenKey "hidden" 0)).id ≠ hexEncode webKey :=
        hiddenKey_ne_webKey
      have hself : (shownContainer (hostContainer webKey "web" 1752574000000)).id =
          hexEncode webKey := rfl
      simp [lookupLast, shownInventory, hostInventory, hid, hself]
    simp [hfound] at hnames

end AlphaPing.PublicStatus.Noninterference
