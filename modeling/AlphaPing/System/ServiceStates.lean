import AlphaPing.Pages.Services

/-!
# The state of a service on every page

A member sees the state of a service on the dashboard, in the collection of the services and on
the page of the service, and everyone sees the state of a public service. All of them show the
stored state; they part where there is none and where a maintenance window is open.
-/

namespace AlphaPing.System.ServiceStates

open Library.Restrictions Library.Tables Library.QueryBatches Pages.Services
open PublicStatus.Projection (Profile MonitorState PublicStatusBucketRow
  projectPublicStatusService)

/-! ## A service and its pages -/

/-- A service among those of a public page. -/
structure PublicEntry (service : ServiceRow) where
  profile : Profile
  servicePks : List ℤ
  mem : service.telemetryPk ∈ servicePks
  lastCheckedAt : Option ℤ
  buckets : List PublicStatusBucketRow

/-- The tables at a time, and a service of a workspace that a member may view. -/
structure Scene where
  tables : Tables
  uniqueIds : UniqueKey ServiceRow.id tables.services
  uniqueLatest : UniqueKey ServiceLatestRow.servicePk tables.serviceLatest
  access : Access
  arrange : List CheckRow → List CheckRow
  service : ServiceRow
  mem : service ∈ tables.services
  workspace : service.workspaceId = access.workspaceId
  present : service.deletedAt = none
  visible : access.canView service.id = true
  published : Option (PublicEntry service)
  now : ℤ

/-- The row of the service in `service_latest`. -/
def Scene.stored (scene : Scene) : Option ServiceLatestRow :=
  (lookup ServiceLatestRow.servicePk scene.service.telemetryPk scene.tables.serviceLatest).filter
    fun row ↦ row.workspacePk = scene.access.workspacePk

/-- The results that each page selects for the service. -/
def Scene.onDashboard (scene : Scene) : List (Bool × CheckState) :=
  dashboardResults scene.tables (dashboardChecks scene.arrange scene.tables scene.access)
    scene.service

def Scene.inCollection (scene : Scene) : List (Bool × CheckState) :=
  summaryResults
    ((collectionChecks scene.tables scene.access).filter fun check ↦
      check.serviceId = scene.service.id)
    (collectionTelemetry scene.tables scene.access scene.now)

def Scene.inDetail (scene : Scene) : List (Bool × CheckState) :=
  summaryResults
    ((loadCheckRows scene.tables scene.access (some scene.service.id)).filter CheckRow.enabled)
    (detailTelemetry scene.tables scene.access scene.service scene.now)

/-! ## What the pages show -/

def dashboardStates (scene : Scene) : List MonitorState :=
  ((dashboardServices scene.arrange scene.tables scene.access scene.now).filter fun shown ↦
    shown.id = scene.service.id).map DashboardService.state

def collectionStates (scene : Scene) : List MonitorState :=
  ((loadServiceCollection scene.tables scene.access scene.now).filter fun shown ↦
    shown.id = scene.service.id).map ServiceSummary.state

def detailStates (scene : Scene) : List MonitorState :=
  (loadServiceDetail scene.tables scene.access scene.service.id scene.now).toList.map (·.state)

def publicStates (scene : Scene) : List MonitorState :=
  scene.published.toList.map fun entry ↦
    (publicService scene.tables scene.access.workspacePk entry.servicePks scene.service
      entry.profile entry.lastCheckedAt entry.buckets scene.now).state

/-- The states of the service on all pages. -/
def shownStates (scene : Scene) : List MonitorState :=
  dashboardStates scene ++ collectionStates scene ++ detailStates scene ++ publicStates scene

/-- The stored state, or what some results show. -/
def Scene.stateOr (scene : Scene) (results : List (Bool × CheckState)) : MonitorState :=
  (scene.stored.map ServiceLatestRow.state).getD (fallbackState results)

section Shown

variable {scene : Scene}

theorem eq_of_listed {limit : ℕ} {other : ServiceRow}
    (hother : other ∈ loadServiceRows scene.tables scene.access limit)
    (hid : other.id = scene.service.id) : other = scene.service := by
  have hmem : other ∈ scene.tables.services :=
    List.mem_of_mem_filter (mem_of_mem_selectOrdered hother)
  exact scene.uniqueIds.eq_of_mem hmem scene.mem hid

variable (state : MonitorState)

theorem mem_dashboardStates :
    state ∈ dashboardStates scene ↔
      scene.service ∈ loadServiceRows scene.tables scene.access 500 ∧
        state = if inMaintenance scene.service scene.now then .maintenance
          else scene.stateOr scene.onDashboard := by
  have hstate : scene.service ∈ loadServiceRows scene.tables scene.access 500 →
      lookupLast ServiceLatestRow.servicePk scene.service.telemetryPk
        (selectIn 90 ServiceLatestRow.servicePk
          (fun row ↦ row.workspacePk = scene.access.workspacePk)
          ((loadServiceRows scene.tables scene.access 500).map ServiceRow.telemetryPk)
          scene.tables.serviceLatest) = scene.stored := by
    intro hlisted
    exact lookupLast_selectIn (by decide) scene.uniqueLatest _ (List.mem_map_of_mem hlisted)
  simp only [dashboardStates, dashboardServices, List.mem_map, List.mem_filter,
    decide_eq_true_eq]
  constructor
  · rintro ⟨_, ⟨⟨other, hother, rfl⟩, hid⟩, rfl⟩
    obtain rfl := eq_of_listed hother hid
    refine ⟨hother, ?_⟩
    rw [hstate hother]
    rfl
  · rintro ⟨hlisted, rfl⟩
    refine ⟨_, ⟨⟨scene.service, hlisted, rfl⟩, rfl⟩, ?_⟩
    rw [hstate hlisted]
    rfl

/-- The state of a summary, when the telemetry was loaded for the service among others. -/
theorem state_summarizeService {servicePks checkPks : List ℤ}
    (hmem : scene.service.telemetryPk ∈ servicePks) (checks : List CheckRow) (canManage : Bool) :
    (summarizeService scene.service checks
        (loadTelemetry scene.tables scene.access.workspacePk servicePks checkPks scene.now)
        canManage scene.now).state =
      scene.stateOr (summaryResults checks
        (loadTelemetry scene.tables scene.access.workspacePk servicePks checkPks scene.now)) := by
  have hservices : (loadTelemetry scene.tables scene.access.workspacePk servicePks checkPks
      scene.now).services.find? (fun row ↦ row.servicePk = scene.service.telemetryPk) =
        scene.stored := by
    rw [loadTelemetry, if_neg (by simpa using List.ne_nil_of_mem hmem)]
    exact find?_selectIn (by decide) scene.uniqueLatest _ hmem
  simp only [summarizeService, hservices, normalizeState_text]
  rfl

theorem mem_collectionStates :
    state ∈ collectionStates scene ↔
      scene.service ∈ loadServiceRows scene.tables scene.access 200 ∧
        state = scene.stateOr scene.inCollection := by
  simp only [collectionStates, loadServiceCollection, List.mem_map, List.mem_filter,
    decide_eq_true_eq]
  constructor
  · rintro ⟨_, ⟨⟨other, hother, rfl⟩, hid⟩, rfl⟩
    obtain rfl := eq_of_listed hother hid
    exact ⟨hother, state_summarizeService (List.mem_map_of_mem hother) _ _⟩
  · rintro ⟨hlisted, rfl⟩
    exact ⟨_, ⟨⟨scene.service, hlisted, rfl⟩, rfl⟩,
      state_summarizeService (List.mem_map_of_mem hlisted) _ _⟩

theorem mem_detailStates : state ∈ detailStates scene ↔ state = scene.stateOr scene.inDetail := by
  have hfind : scene.tables.services.find? (fun service ↦
      service.workspaceId = scene.access.workspaceId && service.id = scene.service.id &&
        service.deletedAt.isNone && scene.access.canView service.id) = some scene.service := by
    cases hfound : scene.tables.services.find? fun service ↦
        service.workspaceId = scene.access.workspaceId && service.id = scene.service.id &&
          service.deletedAt.isNone && scene.access.canView service.id with
    | none =>
      refine absurd ?_ (List.find?_eq_none.mp hfound scene.service scene.mem)
      simp [scene.workspace, scene.present, scene.visible]
    | some other =>
      have hid := List.find?_some hfound
      simp only [Bool.and_eq_true, decide_eq_true_eq] at hid
      exact congrArg some (scene.uniqueIds.eq_of_mem (List.mem_of_find?_eq_some hfound) scene.mem
        hid.1.1.2)
  rw [detailStates, loadServiceDetail, hfind, Option.map_some, Option.toList_some,
    List.map_singleton, List.mem_singleton]
  refine Eq.congr_right ?_
  exact state_summarizeService (List.mem_singleton_self _) _ _

theorem mem_publicStates :
    state ∈ publicStates scene ↔ scene.published.isSome ∧
      state = (scene.stored.map ServiceLatestRow.state).getD .unknown := by
  have hstate : ∀ entry : PublicEntry scene.service,
      (publicService scene.tables scene.access.workspacePk entry.servicePks scene.service
        entry.profile entry.lastCheckedAt entry.buckets scene.now).state =
          (scene.stored.map ServiceLatestRow.state).getD .unknown := by
    intro entry
    have hlatest : lookupLast ServiceLatestRow.servicePk scene.service.telemetryPk
        (selectIn 90 ServiceLatestRow.servicePk
          (fun row ↦ row.workspacePk = scene.access.workspacePk) entry.servicePks
          scene.tables.serviceLatest) = scene.stored :=
      lookupLast_selectIn (by decide) scene.uniqueLatest _ entry.mem
    simp only [publicService, projectPublicStatusService, hlatest, Option.map_map]
    congr 2
    funext row
    exact normalizeState_text row.state
  rw [publicStates]
  cases hpublished : scene.published with
  | none => simp
  | some entry =>
    rw [Option.toList_some, List.map_singleton, List.mem_singleton, hstate entry]
    exact (and_iff_right rfl).symm

end Shown

/-! ## Agreement -/

/-- What the dashboard needs: no window is open over another stored state, and without a stored
state none is open and the results show the same as those of the page of the service. -/
def DashboardAgrees (scene : Scene) : Prop :=
  match scene.stored with
  | some row => inMaintenance scene.service scene.now = true → row.state = .maintenance
  | none => inMaintenance scene.service scene.now = false ∧
      SameVerdict scene.onDashboard scene.inDetail

/-- Every page that lists the service agrees with the page of the service. -/
structure Agreeing (scene : Scene) : Prop where
  dashboard : scene.service ∈ loadServiceRows scene.tables scene.access 500 →
    DashboardAgrees scene
  collection : scene.service ∈ loadServiceRows scene.tables scene.access 200 →
    scene.stored = none → SameVerdict scene.inCollection scene.inDetail
  published : scene.published.isSome → scene.stored = none →
    ∀ result ∈ scene.inDetail, result.2 = .unknown

section Agreement

variable {scene : Scene}

theorem dashboardAgrees_iff :
    DashboardAgrees scene ↔
      (if inMaintenance scene.service scene.now then .maintenance
        else scene.stateOr scene.onDashboard) = scene.stateOr scene.inDetail := by
  unfold DashboardAgrees Scene.stateOr
  cases hstored : scene.stored with
  | some row =>
    cases hwindow : inMaintenance scene.service scene.now with
    | true => simp [eq_comm]
    | false => simp
  | none =>
    cases hwindow : inMaintenance scene.service scene.now with
    | true => simpa using (fallbackState_ne_maintenance scene.inDetail).symm
    | false => simpa using (fallbackState_eq_iff scene.onDashboard scene.inDetail).symm

theorem stateOr_eq_iff (first second : List (Bool × CheckState)) :
    scene.stateOr first = scene.stateOr second ↔
      (scene.stored = none → SameVerdict first second) := by
  unfold Scene.stateOr
  cases hstored : scene.stored with
  | some row => simp
  | none => simpa using fallbackState_eq_iff first second

theorem public_eq_iff :
    (scene.stored.map ServiceLatestRow.state).getD .unknown = scene.stateOr scene.inDetail ↔
      (scene.stored = none → ∀ result ∈ scene.inDetail, result.2 = .unknown) := by
  unfold Scene.stateOr
  cases hstored : scene.stored with
  | some row => simp
  | none =>
    rw [← fallbackState_eq_unknown_iff]
    simp [eq_comm]

/-- All pages show one state of a service exactly when no window is open over another stored
state, and the results that they select show the same where no state is stored. -/
theorem service_states_agree_iff (scene : Scene) :
    (∀ first ∈ shownStates scene, ∀ second ∈ shownStates scene, first = second) ↔
      Agreeing scene := by
  have hmem : ∀ state, state ∈ shownStates scene ↔ state ∈ dashboardStates scene ∨
      state ∈ collectionStates scene ∨ state ∈ detailStates scene ∨
        state ∈ publicStates scene := by
    intro state
    simp only [shownStates, List.mem_append, or_assoc]
  have hdetail : scene.stateOr scene.inDetail ∈ shownStates scene :=
    (hmem _).mpr (.inr (.inr (.inl ((mem_detailStates _).mpr rfl))))
  constructor
  · intro h
    constructor
    · intro hlisted
      apply dashboardAgrees_iff.mpr
      exact h _ ((hmem _).mpr (.inl ((mem_dashboardStates _).mpr ⟨hlisted, rfl⟩))) _ hdetail
    · intro hlisted
      apply (stateOr_eq_iff _ _).mp
      exact h _ ((hmem _).mpr (.inr (.inl ((mem_collectionStates _).mpr ⟨hlisted, rfl⟩)))) _
        hdetail
    · intro hpublished
      apply public_eq_iff.mp
      exact h _ ((hmem _).mpr (.inr (.inr (.inr ((mem_publicStates _).mpr ⟨hpublished, rfl⟩)))))
        _ hdetail
  · intro h
    have hall : ∀ state ∈ shownStates scene, state = scene.stateOr scene.inDetail := by
      intro state hstate
      rcases (hmem state).mp hstate with hshown | hshown | hshown | hshown
      · obtain ⟨hlisted, rfl⟩ := (mem_dashboardStates state).mp hshown
        exact dashboardAgrees_iff.mp (h.dashboard hlisted)
      · obtain ⟨hlisted, rfl⟩ := (mem_collectionStates state).mp hshown
        exact (stateOr_eq_iff _ _).mpr (h.collection hlisted)
      · exact (mem_detailStates state).mp hshown
      · obtain ⟨hpublished, rfl⟩ := (mem_publicStates state).mp hshown
        exact public_eq_iff.mpr (h.published hpublished)
    intro first hfirst second hsecond
    exact (hall first hfirst).trans (hall second hsecond).symm

end Agreement

/-! ## A service in a maintenance window -/

/-- A service whose window is open until ten minutes after the epoch. -/
def windowedService : ServiceRow where
  id := "service"
  telemetryPk := 1
  workspaceId := "workspace"
  name := "service"
  slug := none
  description := ""
  maintenanceUntil := some 600000
  createdAt := 0
  deletedAt := none

/-- Its stored state is healthy. -/
def windowedScene : Scene where
  tables := ⟨[windowedService], [], [⟨1, 1, .healthy, 0⟩], [], []⟩
  uniqueIds := List.nodup_singleton _
  uniqueLatest := List.nodup_singleton _
  access := ⟨"workspace", 1, fun _ ↦ true, fun _ ↦ false⟩
  arrange := id
  service := windowedService
  mem := List.mem_singleton_self _
  workspace := rfl
  present := rfl
  visible := rfl
  published := none
  now := 300000

/-- The dashboard shows the maintenance, and the page of the service the stored state. -/
theorem window_shown_on_dashboard_only :
    ¬ ∀ scene : Scene,
      ∀ first ∈ shownStates scene, ∀ second ∈ shownStates scene, first = second := by
  intro h
  have hsame := h windowedScene .maintenance (by decide +kernel) .healthy (by decide +kernel)
  cases hsame

end AlphaPing.System.ServiceStates
