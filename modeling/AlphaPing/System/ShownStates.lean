import AlphaPing.Pages.Machines
import AlphaPing.System.OfflineDetection

/-!
# The states that pages show and the states that a pass leaves

The pages evaluate the offline rule when they are read, the checks worker when it writes. The
worker takes a machine offline as soon as its threshold is reached and leaves the machines that
are in maintenance alone; the pages wait until the threshold is passed and show every silent
machine offline. Here both see the same rows at the same time.
-/

namespace AlphaPing.System.ShownStates

open Protocol Library.Tables Library.Runs Ingest.Telemetry Checks.Liveness MachineStates
  OfflineDetection
open Pages.Machines (MachineRow dashboardMachine toDashboardMachine stateText
  latestColumns text_normalizeState)
open PublicStatus
open PublicStatus.Projection (Profile PublicMachineRow PublicMachineLatestRow
  PublicContainerRow projectPublicStatusMachine)
open StoredInventories (MachineContainerInventory)

/-! ## A machine and its rows -/

/-- What the worker and the pages read of a machine. -/
structure Machine where
  id : String
  telemetryPk : ℕ
  name : String
  description : String
  labelsJson : String
  offlineAfterSeconds : ℕ
  maintenanceUntil : Option ℤ
  containerMonitoringEnabled : ℤ
  agentVersion : Option String
  platform : Option String
  arch : Option String
  publicSlug : String
  projectionProfile : Profile

def Machine.control (machine : Machine) : MachineControlRow where
  telemetryPk := machine.telemetryPk
  offlineAfterSeconds := machine.offlineAfterSeconds
  maintenanceUntil := machine.maintenanceUntil

def Machine.row (machine : Machine) : MachineRow where
  id := machine.id
  telemetryPk := machine.telemetryPk
  name := machine.name
  labelsJson := machine.labelsJson
  offlineAfterSeconds := machine.offlineAfterSeconds
  containerMonitoringEnabled := machine.containerMonitoringEnabled
  agentVersion := machine.agentVersion
  platform := machine.platform
  arch := machine.arch

def Machine.publicRow (machine : Machine) : PublicMachineRow where
  id := machine.id
  publicSlug := machine.publicSlug
  telemetryPk := machine.telemetryPk
  name := machine.name
  description := machine.description
  offlineAfterSeconds := machine.offlineAfterSeconds
  projectionProfile := machine.projectionProfile

def publicColumns (row : MachineLatest) :
    PublicMachineLatestRow (Option Ingest.Containers.StoredInventory) where
  workspacePk := row.workspacePk
  machinePk := row.machinePk
  observedAt := row.sample.observedAtMs
  receivedAt := row.receivedAt
  state := stateText row.state
  cpuPermille := row.sample.cpuPermille
  memoryUsedBytes := row.sample.memoryUsedBytes
  memoryTotalBytes := row.sample.memoryTotalBytes
  storageUsedBytes := row.sample.storageUsedBytes
  storageTotalBytes := row.sample.storageTotalBytes
  networkRxBps := row.sample.networkRxBytesPerSecond
  networkTxBps := row.sample.networkTxBytesPerSecond
  containerInventory := row.containerInventory

def passColumns (row : MachineLatest) : MachineLatestRow :=
  ⟨row.machinePk, row.receivedAt, row.state⟩

/-- The tables at a time, the machines that a pass is given then, and one of them. -/
structure Scene where
  tables : MachineTables
  unique : UniqueKey MachineLatest.machinePk tables.latest
  machines : List Machine
  distinct : UniqueKey Machine.telemetryPk machines
  machine : Machine
  mem : machine ∈ machines
  now : ℤ

def Scene.latest (scene : Scene) : Option MachineLatest :=
  machineRow scene.tables scene.machine.telemetryPk

def Scene.controls (scene : Scene) : List MachineControlRow :=
  scene.machines.map Machine.control

/-! ## A pass without others -/

section Pass

variable (sha256 : Bytes → Bytes)

def access (state : MachineTables × Pass) (_ : Unit) : MachineTables × Pass :=
  advance sha256 state.1 state.2

def reconciled (scene : Scene) : MachineTables × Pass :=
  run (access sha256) (scene.tables, reconcileMachineLiveness scene.now scene.controls)
    (List.replicate (2 * scene.machines.length + 2) ())

/-- The state that the pass leaves stored; a machine without a row is unknown. -/
def storedText (scene : Scene) : String :=
  ((machineState (reconciled sha256 scene).1 scene.machine.telemetryPk).map stateText).getD
    "unknown"

theorem remaining_access (state : MachineTables × Pass) (accesses : List Unit) :
    remaining (run (access sha256) state accesses).2 ≤ remaining state.2 - accesses.length := by
  induction accesses generalizing state with
  | nil => exact le_rfl
  | cons next accesses ih =>
    have hnext := remaining_advance sha256 state.1 state.2
    have hrest := ih (access sha256 state next)
    rw [run_cons, List.length_cons]
    rw [access] at hrest ⊢
    omega

/-- The transitions that are due by the rows of the tables. -/
def dueTransitions (scene : Scene) : List OfflineTransition :=
  scene.controls.filterMap (transitionOf sha256 (scene.tables.latest.map passColumns) scene.now)

def Progress (scene : Scene) (tables : MachineTables) : PassStage → Prop
  | .loading rest found =>
    tables = scene.tables ∧ ∃ before, scene.controls = before ++ rest ∧ ∀ row, row ∈ found ↔
      row ∈ scene.tables.latest.map passColumns ∧
        row.machinePk ∈ before.map MachineControlRow.telemetryPk
  | .persisting rest _ =>
    ∃ done, dueTransitions sha256 scene = done ++ rest ∧ tables = persistAll scene.tables done
  | .returned _ => tables = persistAll scene.tables (dueTransitions sha256 scene)

structure Underway (scene : Scene) (state : MachineTables × Pass) : Prop where
  now : state.2.now = scene.now
  machines : state.2.machines = scene.controls
  progress : Progress sha256 scene state.1 state.2.stage

theorem find?_of_same {found all : List MachineLatestRow} {machinePk : ℕ}
    (hunique : UniqueKey MachineLatestRow.machinePk all)
    (hsame : ∀ row, row.machinePk = machinePk → (row ∈ found ↔ row ∈ all)) :
    found.find? (fun row ↦ row.machinePk == machinePk) =
      all.find? fun row ↦ row.machinePk == machinePk := by
  cases hfound : found.find? fun row ↦ row.machinePk == machinePk with
  | none =>
    symm
    rw [List.find?_eq_none] at hfound ⊢
    intro row hrow hkey
    exact hfound row ((hsame row (beq_iff_eq.mp hkey)).mpr hrow) hkey
  | some row =>
    have hkey : row.machinePk = machinePk := by simpa using List.find?_some hfound
    have hrow : row ∈ all := (hsame row hkey).mp (List.mem_of_find?_eq_some hfound)
    cases hall : all.find? fun row ↦ row.machinePk == machinePk with
    | none => exact absurd (beq_iff_eq.mpr hkey) (List.find?_eq_none.mp hall row hrow)
    | some other =>
      have hother : other.machinePk = machinePk := by simpa using List.find?_some hall
      exact congrArg some (hunique.eq_of_mem hrow (List.mem_of_find?_eq_some hall)
        (hkey.trans hother.symm))

theorem uniqueKey_passColumns (scene : Scene) :
    UniqueKey MachineLatestRow.machinePk (scene.tables.latest.map passColumns) := by
  rw [UniqueKey, List.map_map]
  exact scene.unique

/-- Once every machine has been read, the transitions are those that are due. -/
theorem transitions_of_read {scene : Scene} {found : List MachineLatestRow}
    (hfound : ∀ row, row ∈ found ↔ row ∈ scene.tables.latest.map passColumns ∧
      row.machinePk ∈ scene.controls.map MachineControlRow.telemetryPk) :
    scene.controls.filterMap (transitionOf sha256 found scene.now) =
      dueTransitions sha256 scene := by
  apply List.filterMap_congr
  intro machine hmachine
  have hfind : found.find? (fun row ↦ row.machinePk == machine.telemetryPk) =
      (scene.tables.latest.map passColumns).find? fun row ↦
        row.machinePk == machine.telemetryPk := by
    apply find?_of_same (uniqueKey_passColumns scene)
    intro row hrow
    have hread : row.machinePk ∈ scene.controls.map MachineControlRow.telemetryPk := by
      rw [hrow]
      exact List.mem_map_of_mem hmachine
    rw [hfound row]
    exact and_iff_left hread
  rw [transitionOf, transitionOf, hfind]

theorem mem_loadLatestRows {latest : List MachineLatest} {batch : List MachineControlRow}
    {row : MachineLatestRow} :
    row ∈ loadLatestRows latest batch ↔
      row ∈ latest.map passColumns ∧ row.machinePk ∈ batch.map MachineControlRow.telemetryPk := by
  simp only [loadLatestRows, List.mem_map, List.mem_filter, List.contains_iff_mem]
  constructor
  · rintro ⟨stored, ⟨hstored, hbatch⟩, rfl⟩
    exact ⟨⟨stored, hstored, rfl⟩, hbatch⟩
  · rintro ⟨⟨stored, hstored, rfl⟩, hbatch⟩
    exact ⟨stored, ⟨hstored, hbatch⟩, rfl⟩

theorem progress_access {scene : Scene} {state : MachineTables × Pass}
    (h : Underway sha256 scene state) :
    Progress sha256 scene (access sha256 state ()).1 (access sha256 state ()).2.stage := by
  obtain ⟨tables, now, machines, stage⟩ := state
  obtain ⟨hnow, hmachines, hprogress⟩ := h
  dsimp only at hnow hmachines hprogress
  subst hnow hmachines
  cases stage with
  | loading rest found =>
    obtain ⟨htables, before, hbefore, hfound⟩ := hprogress
    cases rest with
    | nil =>
      rw [List.append_nil] at hbefore
      refine ⟨[], ?_, htables⟩
      rw [List.nil_append]
      exact (transitions_of_read sha256 (hbefore ▸ hfound)).symm
    | cons machine rest =>
      refine ⟨htables, before ++ (machine :: rest).take latestQueryBatch, ?_, ?_⟩
      · rw [List.append_assoc, List.take_append_drop]
        exact hbefore
      · intro row
        rw [List.mem_append, List.mem_reverse, hfound, htables, mem_loadLatestRows,
          List.map_append, List.mem_append]
        tauto
  | persisting rest transitioned =>
    obtain ⟨done, hdone, htables⟩ := hprogress
    have hstep := tables_advance sha256 tables
      ⟨scene.now, scene.controls, .persisting rest transitioned⟩
    cases rest with
    | nil =>
      rw [List.append_nil] at hdone
      change tables = persistAll scene.tables (dueTransitions sha256 scene)
      rw [hdone]
      exact htables
    | cons transition rest =>
      refine ⟨done ++ (transition :: rest).take transitionBatch, ?_, ?_⟩
      · rw [List.append_assoc, List.take_append_drop]
        exact hdone
      · refine hstep.trans ?_
        simp only [htables, persistAll, List.foldl_append]
  | returned result => exact hprogress

theorem underway_access {scene : Scene} (state : MachineTables × Pass) (next : Unit)
    (h : Underway sha256 scene state) : Underway sha256 scene (access sha256 state next) := by
  obtain ⟨hnow, hmachines⟩ := pass_advance sha256 state.1 state.2
  exact ⟨hnow.trans h.now, hmachines.trans h.machines, progress_access sha256 h⟩

theorem tables_reconciled (scene : Scene) :
    (reconciled sha256 scene).1 = persistAll scene.tables (dueTransitions sha256 scene) := by
  have hstart : Underway sha256 scene
      (scene.tables, reconcileMachineLiveness scene.now scene.controls) := by
    refine ⟨rfl, rfl, rfl, [], rfl, ?_⟩
    intro row
    simp only [List.map_nil, List.not_mem_nil, and_false]
  have hlast : Underway sha256 scene (reconciled sha256 scene) :=
    run_invariant (underway_access sha256) hstart _
  have hremaining : remaining (reconciled sha256 scene).2 = 0 := by
    have hrun := remaining_access sha256
      (scene.tables, reconcileMachineLiveness scene.now scene.controls)
      (List.replicate (2 * scene.machines.length + 2) ())
    have hall : remaining (reconcileMachineLiveness scene.now scene.controls) =
        2 * scene.machines.length + 2 := by
      simp only [remaining, reconcileMachineLiveness, Scene.controls, List.length_map]
      omega
    rw [List.length_replicate, hall, Nat.sub_self, Nat.le_zero] at hrun
    exact hrun
  have hprogress := hlast.progress
  rw [remaining] at hremaining
  cases hstage : (reconciled sha256 scene).2.stage with
  | loading rest found =>
    rw [hstage] at hremaining
    exact absurd hremaining (Nat.succ_ne_zero _)
  | persisting rest transitioned =>
    rw [hstage] at hremaining
    exact absurd hremaining (Nat.succ_ne_zero _)
  | returned result =>
    rw [hstage] at hprogress
    exact hprogress

end Pass

/-! ## One row -/

section Row

variable (sha256 : Bytes → Bytes) {scene : Scene} {row : MachineLatest}

/-- The state that a pass leaves in a row. -/
def leftState (machine : Machine) (row : MachineLatest) (now : ℤ) : StoredState :=
  if (offlineTransitionAt machine.control (passColumns row) now).isSome then .offline
  else row.state

theorem finds_of_latest (hrow : scene.latest = some row) :
    (dueTransitions sha256 scene).any (OfflineTransition.finds · row) =
      (offlineTransitionAt scene.machine.control (passColumns row) scene.now).isSome := by
  obtain ⟨hmem, hkey⟩ := lookup_some hrow
  have hfind : (scene.tables.latest.map passColumns).find?
      (fun latest ↦ latest.machinePk == scene.machine.telemetryPk) = some (passColumns row) := by
    cases hfound : (scene.tables.latest.map passColumns).find?
        fun latest ↦ latest.machinePk == scene.machine.telemetryPk with
    | none =>
      exact absurd (beq_iff_eq.mpr hkey)
        (List.find?_eq_none.mp hfound _ (List.mem_map_of_mem hmem))
    | some other =>
      have hother : other.machinePk = scene.machine.telemetryPk := by
        simpa using List.find?_some hfound
      exact congrArg some ((uniqueKey_passColumns scene).eq_of_mem
        (List.mem_of_find?_eq_some hfound) (List.mem_map_of_mem hmem) (hother.trans hkey.symm))
  rw [Bool.eq_iff_iff, List.any_eq_true]
  constructor
  · rintro ⟨transition, htransition, hfinds⟩
    obtain ⟨control, hcontrol, hof⟩ := List.mem_filterMap.mp htransition
    obtain ⟨machine, hmachine, rfl⟩ := List.mem_map.mp hcontrol
    obtain ⟨latest, hlatest, hof⟩ := Option.bind_eq_some_iff.mp hof
    obtain ⟨occurredAt, hat, hof⟩ := Option.bind_eq_some_iff.mp hof
    obtain rfl := Option.some.inj hof
    simp only [OfflineTransition.finds, Bool.and_eq_true, beq_iff_eq] at hfinds
    -- no other machine has the key of the row
    have hsame : machine = scene.machine :=
      scene.distinct.eq_of_mem hmachine scene.mem (hfinds.1.1.symm.trans hkey)
    subst hsame
    obtain rfl : passColumns row = latest := Option.some.inj (hfind.symm.trans hlatest)
    exact Option.isSome_iff_exists.mpr ⟨occurredAt, hat⟩
  · intro hsome
    obtain ⟨occurredAt, hat⟩ := Option.isSome_iff_exists.mp hsome
    refine ⟨_, List.mem_filterMap.mpr ⟨scene.machine.control, List.mem_map_of_mem scene.mem,
      Option.bind_eq_some_iff.mpr ⟨_, hfind, Option.bind_eq_some_iff.mpr ⟨_, hat, rfl⟩⟩⟩, ?_⟩
    simp only [OfflineTransition.finds, Machine.control, passColumns, hkey, beq_self_eq_true,
      Bool.and_self]

theorem storedText_of_latest (hrow : scene.latest = some row) :
    storedText sha256 scene = stateText (leftState scene.machine row scene.now) := by
  have hstored : machineRow scene.tables scene.machine.telemetryPk = some row := hrow
  rw [storedText, tables_reconciled, machineState, machineRow_persistAll, hstored,
    Option.map_some, Option.map_some, Option.map_some, Option.getD_some,
    finds_of_latest sha256 hrow, leftState]
  split <;> rfl

theorem storedText_of_none (hnone : scene.latest = none) : storedText sha256 scene = "unknown" := by
  have hstored : machineRow scene.tables scene.machine.telemetryPk = none := hnone
  rw [storedText, tables_reconciled, machineState, machineRow_persistAll, hstored]
  rfl

end Row

/-! ## What the pages show -/

section Pages

variable (parseLabels : String → List (String × String))
  (inventory : Option MachineContainerInventory) (publicContainers : List PublicContainerRow)
  (scene : Scene)

def dashboardText : String :=
  (dashboardMachine parseLabels scene.machine.row (scene.latest.map latestColumns)
    scene.now).state.text

def machinesText : String :=
  (toDashboardMachine parseLabels scene.machine.row (scene.latest.map latestColumns)
    scene.now).state.text

def publicText : String :=
  (projectPublicStatusMachine scene.machine.publicRow (scene.latest.map publicColumns) inventory
    publicContainers scene.now).state.text

/-- The state that every page shows. -/
def shownText (machine : Machine) (latest : Option MachineLatest) (now : ℤ) : String :=
  match latest with
  | none => "unknown"
  | some row =>
    if now - row.receivedAt > machine.offlineAfterSeconds * 1000 then "offline"
    else stateText row.state

theorem machinesText_eq :
    machinesText parseLabels scene = shownText scene.machine scene.latest scene.now := by
  unfold machinesText shownText
  cases scene.latest with
  | none => rfl
  | some row =>
    simp only [toDashboardMachine, Pages.Machines.machineCard, Option.map_some, Option.any_some,
      decide_eq_true_eq]
    rw [apply_ite Projection.MachineState.text]
    exact if_congr Iff.rfl rfl (text_normalizeState row.state)

theorem dashboardText_eq :
    dashboardText parseLabels scene = shownText scene.machine scene.latest scene.now :=
  machinesText_eq parseLabels scene

theorem publicText_eq :
    publicText inventory publicContainers scene =
      shownText scene.machine scene.latest scene.now := by
  unfold publicText shownText
  cases scene.latest with
  | none => rfl
  | some row =>
    simp only [projectPublicStatusMachine, Option.map_some]
    rw [apply_ite Projection.MachineState.text]
    exact if_congr Iff.rfl rfl (text_normalizeState row.state)

end Pages

/-! ## Agreement -/

/-- The worker passes the machine over: the last report was of a maintenance, or a window is
open. -/
def passedOver (machine : Machine) (row : MachineLatest) (now : ℤ) : Bool :=
  row.state == .reported .maintenance ||
    machine.maintenanceUntil.any fun until_ ↦ decide (now < until_)

/-- A machine that is offline already, one that is passed over and not yet silent for longer than
its threshold, or another one whose threshold is not reached in this very millisecond. -/
def Agreeing (machine : Machine) (row : MachineLatest) (now : ℤ) : Prop :=
  row.state = .offline ∨
    if passedOver machine row now then
      now ≤ row.receivedAt + machine.offlineAfterSeconds * 1000
    else now ≠ row.receivedAt + machine.offlineAfterSeconds * 1000

theorem stateText_eq_offline {state : StoredState} :
    stateText state = "offline" ↔ state = .offline := by
  cases state with
  | reported state => cases state <;> decide
  | offline => decide
  | unknown => decide

theorem passedOver_iff {machine : Machine} {row : MachineLatest} {now : ℤ} :
    passedOver machine row now = true ↔ row.state = .reported .maintenance ∨
      (machine.maintenanceUntil.any fun until_ ↦ decide (now < until_)) = true := by
  rw [passedOver, Bool.or_eq_true, beq_iff_eq]

theorem leftState_eq (machine : Machine) (row : MachineLatest) (now : ℤ) :
    leftState machine row now =
      if passedOver machine row now then row.state
      else if row.receivedAt + machine.offlineAfterSeconds * 1000 ≤ now then .offline
      else row.state := by
  unfold leftState offlineTransitionAt
  by_cases hover : passedOver machine row now = true
  · have hlive : (passColumns row).state = .offline ∨
        (passColumns row).state = .reported .maintenance ∨
        machine.control.maintenanceUntil.any (fun until_ ↦ decide (now < until_)) = true :=
      .inr (passedOver_iff.mp hover)
    rw [if_pos hlive, if_pos hover]
    rfl
  · rw [if_neg hover]
    by_cases hoffline : row.state = .offline
    · have hdead : (passColumns row).state = .offline := hoffline
      rw [if_pos (Or.inl hdead), hoffline, ite_self]
      exact (ite_self _).symm
    · have hlive : ¬ ((passColumns row).state = .offline ∨
          (passColumns row).state = .reported .maintenance ∨
          machine.control.maintenanceUntil.any (fun until_ ↦ decide (now < until_)) = true) := by
        rintro (hstate | hrest)
        · exact hoffline hstate
        · exact hover (passedOver_iff.mpr hrest)
      rw [if_neg hlive]
      by_cases hdue : row.receivedAt + (machine.offlineAfterSeconds : ℤ) * 1000 ≤ now
      · have hdueAt : (passColumns row).receivedAt +
            (machine.control.offlineAfterSeconds : ℤ) * 1000 ≤ now := hdue
        rw [if_pos hdue, if_pos hdueAt]
        rfl
      · have hearly : ¬ (passColumns row).receivedAt +
            (machine.control.offlineAfterSeconds : ℤ) * 1000 ≤ now := hdue
        rw [if_neg hdue, if_neg hearly]
        rfl

theorem shown_eq_left_iff (machine : Machine) (row : MachineLatest) (now : ℤ) :
    shownText machine (some row) now = stateText (leftState machine row now) ↔
      Agreeing machine row now := by
  rw [leftState_eq, Agreeing]
  dsimp only [shownText]
  by_cases hoffline : row.state = .offline
  · have htext : stateText StoredState.offline = "offline" := rfl
    simp only [hoffline, ite_self, htext, true_or]
  · have htext : "offline" ≠ stateText row.state :=
      fun h ↦ hoffline (stateText_eq_offline.mp h.symm)
    have hword : "offline" = stateText StoredState.offline := rfl
    rw [or_iff_right hoffline]
    by_cases hover : passedOver machine row now = true
    · rw [if_pos hover, if_pos hover]
      split
      · next hstale => exact iff_of_false htext (by omega)
      · next hfresh => exact iff_of_true rfl (by omega)
    · rw [if_neg hover, if_neg hover]
      by_cases hdue : row.receivedAt + (machine.offlineAfterSeconds : ℤ) * 1000 ≤ now
      · rw [if_pos hdue]
        split
        · next hstale => exact iff_of_true hword (by omega)
        · next hfresh => exact iff_of_false (hword ▸ htext.symm) (by omega)
      · rw [if_neg hdue, if_neg (by omega)]
        exact iff_of_true rfl (by omega)

/-- The dashboard, the pages of the machines and the public page show the state that a pass at
the same time leaves stored exactly when the machine has no row or its row agrees. -/
theorem shown_states_agree_iff (sha256 : Bytes → Bytes)
    (parseLabels : String → List (String × String)) (inventory : Option MachineContainerInventory)
    (publicContainers : List PublicContainerRow) (scene : Scene) :
    (dashboardText parseLabels scene = storedText sha256 scene ∧
        machinesText parseLabels scene = storedText sha256 scene ∧
        publicText inventory publicContainers scene = storedText sha256 scene) ↔
      ∀ row ∈ scene.latest, Agreeing scene.machine row scene.now := by
  rw [dashboardText_eq, machinesText_eq, publicText_eq, and_self, and_self]
  cases hlatest : scene.latest with
  | none =>
    rw [storedText_of_none sha256 hlatest]
    exact iff_of_true rfl fun _ h ↦ nomatch h
  | some row =>
    rw [storedText_of_latest sha256 hlatest, shown_eq_left_iff]
    exact ⟨fun h other hother ↦ Option.some.inj hother ▸ h, fun h ↦ h row rfl⟩

/-! ## Machines whose pages contradict the worker -/

def threeMinutes (maintenanceUntil : Option ℤ) : Machine where
  id := "machine"
  telemetryPk := 1
  name := "machine"
  description := ""
  labelsJson := "\x7b\x7d"
  offlineAfterSeconds := 180
  maintenanceUntil := maintenanceUntil
  containerMonitoringEnabled := 0
  agentVersion := none
  platform := none
  arch := none
  publicSlug := "machine"
  projectionProfile := .summary

/-- Its last report came a minute after the epoch. -/
def reportedAtMinute : MachineLatest where
  machinePk := 1
  workspacePk := 1
  agentId := "agent"
  receivedAt := 60000
  state := .reported .healthy
  sample := { observedAtMs := 60000 }
  reportId := []
  containerInventory := none

def onlyMachine (maintenanceUntil : Option ℤ) (now : ℤ) : Scene where
  tables := ⟨[], [reportedAtMinute], [], [], []⟩
  unique := List.nodup_singleton _
  machines := [threeMinutes maintenanceUntil]
  distinct := List.nodup_singleton _
  machine := threeMinutes maintenanceUntil
  mem := List.mem_singleton_self _
  now := now

/-- In a maintenance window the pages show a silent machine offline, and the worker leaves it
healthy. -/
theorem window_shown_offline :
    ¬ ∀ (sha256 : Bytes → Bytes) (parseLabels : String → List (String × String))
      (inventory : Option MachineContainerInventory) (publicContainers : List PublicContainerRow)
      (scene : Scene), dashboardText parseLabels scene = storedText sha256 scene ∧
        machinesText parseLabels scene = storedText sha256 scene ∧
        publicText inventory publicContainers scene = storedText sha256 scene := by
  intro h
  have hshown := (h id (fun _ ↦ []) none [] (onlyMachine (some 600000) 300000)).1
  exact absurd hshown (by decide +kernel)

end AlphaPing.System.ShownStates
