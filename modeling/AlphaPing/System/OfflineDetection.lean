import AlphaPing.System.MachineStates

/-!
# Machines that go offline

One pass of the checks worker is watched, from its call to its return, while reports of other
machines and other passes take any number of steps between its accesses. A machine whose silence
has lasted for its threshold is `offline` when the pass returns, unless its last report was of a
maintenance: such a row is passed over in every pass, also when the window has long been over.
-/

namespace AlphaPing.System.OfflineDetection

open Protocol Library.Tables Library.Runs Ingest.Telemetry Checks.Liveness MachineStates

/-! ## A pass among others -/

structure Watched where
  machines : Machines
  pass : Pass

section Watching

variable (codec : Codec) (sha256 : Bytes → Bytes)

/-- The pass makes its next access, or someone else takes a step. -/
def watch (watched : Watched) : Option Action → Watched
  | none =>
    { machines :=
        { watched.machines with
          worker :=
            { watched.machines.worker with
              tables := (advance sha256 watched.machines.tables watched.pass).1 } }
      pass := (advance sha256 watched.machines.tables watched.pass).2 }
  | some action => { watched with machines := step codec sha256 watched.machines action }

/-- No batch of a report of the machine is performed. -/
def Silent (machinePk : ℕ) (watched : Watched) (action : Option Action) : Prop :=
  ∀ other ∈ action, ∀ prepared ∈ watched.machines.batch other,
    prepared.report.machinePk ≠ machinePk

instance (machinePk : ℕ) (watched : Watched) (action : Option Action) :
    Decidable (Silent machinePk watched action) :=
  inferInstanceAs (Decidable (∀ other ∈ action, ∀ prepared ∈ watched.machines.batch other, _))

end Watching

/-! ## The row of a silent machine -/

def taken (row : MachineLatest) : MachineLatest := { row with state := .offline }

section Rows

variable {tables : MachineTables} {machinePk : ℕ} {first : MachineLatest}

theorem machineRow_persistAll (batch : List OfflineTransition) (machinePk : ℕ) :
    machineRow (persistAll tables batch) machinePk =
      (machineRow tables machinePk).map fun row ↦
        if batch.any (OfflineTransition.finds · row) then taken row else row := by
  induction batch generalizing tables with
  | nil =>
    cases hrow : machineRow tables machinePk <;> simpa [persistAll] using hrow
  | cons transition batch ih =>
    have hnext := @ih (persistTransition tables transition)
    rw [machineRow_persistTransition] at hnext
    refine Eq.trans hnext ?_
    cases machineRow tables machinePk with
    | none => rfl
    | some row =>
      simp only [Option.map_some, List.any_cons]
      by_cases hfinds : transition.finds row = true
      · -- the row is offline from here on, whatever else finds it
        simp only [hfinds, if_true, Bool.true_or, taken, ite_self]
      · simp only [hfinds, Bool.false_eq_true, if_false, Bool.false_or]

/-- The row is as it was, or has been taken offline. -/
def Kept (first : MachineLatest) (tables : MachineTables) : Prop :=
  machineRow tables first.machinePk = some first ∨
    machineRow tables first.machinePk = some (taken first)

theorem kept_persistAll (h : Kept first tables) (batch : List OfflineTransition) :
    Kept first (persistAll tables batch) := by
  rcases h with hrow | hrow
  · rw [Kept, machineRow_persistAll, hrow, Option.map_some]
    by_cases hfinds : batch.any (OfflineTransition.finds · first) = true
    · rw [if_pos hfinds]
      exact .inr rfl
    · rw [if_neg hfinds]
      exact .inl rfl
  · right
    rw [machineRow_persistAll, hrow, Option.map_some]
    exact congrArg some (ite_self _)

theorem offline_persistAll (batch : List OfflineTransition)
    (h : machineState tables machinePk = some .offline) :
    machineState (persistAll tables batch) machinePk = some .offline := by
  obtain ⟨row, hrow, hoffline⟩ := Option.map_eq_some_iff.mp h
  rw [machineState, machineRow_persistAll, hrow, Option.map_some, Option.map_some]
  by_cases hfinds : batch.any (OfflineTransition.finds · row) = true
  · rw [if_pos hfinds]
    rfl
  · rw [if_neg hfinds, hoffline]

theorem offline_persistAll_of_finds (h : Kept first tables) {batch : List OfflineTransition}
    {transition : OfflineTransition} (hmem : transition ∈ batch)
    (hfinds : transition.finds first = true) :
    machineState (persistAll tables batch) first.machinePk = some .offline := by
  rcases h with hrow | hrow
  · have hany : batch.any (OfflineTransition.finds · first) = true :=
      List.any_eq_true.mpr ⟨transition, hmem, hfinds⟩
    rw [machineState, machineRow_persistAll, hrow, Option.map_some, if_pos hany]
    rfl
  · apply offline_persistAll
    rw [machineState, hrow]
    rfl

theorem machineRow_persistAll_of_maintenance {batch : List OfflineTransition}
    (hstate : first.state = .reported .maintenance)
    (hbatch : ∀ transition ∈ batch, transition.previousState ≠ .reported .maintenance)
    (hrow : machineRow tables machinePk = some first) :
    machineRow (persistAll tables batch) machinePk = some first := by
  have hnone : batch.any (OfflineTransition.finds · first) = false := by
    apply List.any_eq_false.mpr
    intro transition htransition hfinds
    simp only [OfflineTransition.finds, Bool.and_eq_true, beq_iff_eq] at hfinds
    exact hbatch transition htransition (hfinds.2.symm.trans hstate)
  rw [machineRow_persistAll, hrow, Option.map_some, hnone, if_neg Bool.false_ne_true]

end Rows

/-! ## The invariant of a run -/

/-- The transitions that a pass has still to persist are from other states than maintenance. -/
def PassesOver (pass : Pass) : Prop :=
  match pass.stage with
  | .persisting transitions _ =>
    ∀ transition ∈ transitions, transition.previousState ≠ .reported .maintenance
  | _ => True

theorem unpaused_of_transitionOf {sha256 : Bytes → Bytes} (found : List MachineLatestRow) (now : ℤ)
    (machine : MachineControlRow) (transition : OfflineTransition)
    (h : transitionOf sha256 found now machine = some transition) :
    transition.previousState ≠ .reported .maintenance :=
  (live_of_transitionOf h).2

/-- What holds of the workers and of the pass, whatever is reported. -/
structure Sane (watched : Watched) : Prop where
  sound : Sound watched.machines
  others : ∀ pass ∈ watched.machines.passes, PassesOver pass
  pass : PassesOver watched.pass

section Steps

variable (codec : Codec) (sha256 : Bytes → Bytes) {watched : Watched}

theorem uniqueKey_advance {tables : MachineTables} {pass : Pass}
    (h : UniqueKey MachineLatest.machinePk tables.latest) :
    UniqueKey MachineLatest.machinePk (advance sha256 tables pass).1.latest := by
  rw [tables_advance]
  split
  · exact uniqueKey_persistAll h
  · exact h

theorem sane_watch (h : Sane watched) (action : Option Action) :
    Sane (watch codec sha256 watched action) := by
  cases action with
  | none =>
    constructor
    · exact ⟨uniqueKey_advance sha256 h.sound.unique, h.sound.handlers, h.sound.passes⟩
    · exact h.others
    · exact carries_advance unpaused_of_transitionOf h.pass
  | some action =>
    constructor
    · exact sound_step watched.machines action h.sound
    · exact carries_step unpaused_of_transitionOf h.others action
    · exact h.pass

theorem machineRow_watch (h : Sane watched) {machinePk : ℕ} {action : Option Action}
    (hsilent : Silent machinePk watched action) :
    ∃ batch : List OfflineTransition,
      (∀ transition ∈ batch, transition.previousState ≠ .reported .maintenance) ∧
      machineRow (watch codec sha256 watched action).machines.tables machinePk =
        machineRow (persistAll watched.machines.tables batch) machinePk := by
  cases action with
  | none =>
    have htables : (watch codec sha256 watched none).machines.tables =
        (advance sha256 watched.machines.tables watched.pass).1 := rfl
    have hover := h.pass
    rw [PassesOver] at hover
    rw [htables, tables_advance]
    split
    · next transitions transitioned hstage =>
      rw [hstage] at hover
      refine ⟨transitions.take transitionBatch, ?_, rfl⟩
      exact fun transition htransition ↦ hover transition (List.mem_of_mem_take htransition)
    · exact ⟨[], fun _ h ↦ absurd h List.not_mem_nil, rfl⟩
  | some action =>
    have htables : (watch codec sha256 watched (some action)).machines.tables =
        (step codec sha256 watched.machines action).tables := rfl
    rw [htables]
    rcases tables_step codec sha256 watched.machines action with hsame |
      ⟨prepared, hprepared, hbatch⟩ | ⟨-, hbatch⟩
    · refine ⟨[], fun _ h ↦ absurd h List.not_mem_nil, ?_⟩
      rw [hsame]
      rfl
    · refine ⟨[], fun _ h ↦ absurd h List.not_mem_nil, ?_⟩
      rw [hbatch]
      exact machineRow_durableBatch_other (hsilent action rfl prepared hprepared).symm
    · refine ⟨watched.machines.transitions action, carries_transitions h.others action, ?_⟩
      rw [hbatch]

end Steps

/-! ## A machine in maintenance -/

section Resting

variable (codec : Codec) (sha256 : Bytes → Bytes) {watched : Watched} {first : MachineLatest}

/-- The row is as it was. -/
structure Resting (first : MachineLatest) (watched : Watched) : Prop extends Sane watched where
  row : machineRow watched.machines.tables first.machinePk = some first

theorem resting_watch (hstate : first.state = .reported .maintenance) (h : Resting first watched)
    {action : Option Action} (hsilent : Silent first.machinePk watched action) :
    Resting first (watch codec sha256 watched action) := by
  obtain ⟨batch, hbatch, hrow⟩ := machineRow_watch codec sha256 h.toSane hsilent
  refine ⟨sane_watch codec sha256 h.toSane action, ?_⟩
  rw [hrow]
  exact machineRow_persistAll_of_maintenance hstate hbatch h.row

end Resting

/-! ## A machine that was reporting -/

/-- The machine of a call that the pass covers, and the row that it had at the call. -/
structure Covered where
  now : ℤ
  machines : List MachineControlRow
  control : MachineControlRow
  first : MachineLatest

/-- The pass covers a machine that has been silent for its threshold, outside a window. -/
structure Covered.Due (covered : Covered) : Prop where
  mem : covered.control ∈ covered.machines
  key : covered.first.machinePk = covered.control.telemetryPk
  window : ∀ until_ ∈ covered.control.maintenanceUntil, until_ ≤ covered.now
  silent : covered.first.receivedAt + covered.control.offlineAfterSeconds * 1000 ≤ covered.now

instance (covered : Covered) : Decidable covered.Due :=
  decidable_of_iff
    (covered.control ∈ covered.machines ∧
      covered.first.machinePk = covered.control.telemetryPk ∧
      (∀ until_ ∈ covered.control.maintenanceUntil, until_ ≤ covered.now) ∧
      covered.first.receivedAt + covered.control.offlineAfterSeconds * 1000 ≤ covered.now)
    ⟨fun h ↦ ⟨h.1, h.2.1, h.2.2.1, h.2.2.2⟩, fun h ↦ ⟨h.mem, h.key, h.window, h.silent⟩⟩

def Offline (covered : Covered) (tables : MachineTables) : Prop :=
  machineState tables covered.first.machinePk = some .offline

/-- A row that the pass has read is the first one, or one that was offline. -/
def Read (covered : Covered) (tables : MachineTables) (latest : MachineLatestRow) : Prop :=
  latest.receivedAt = covered.first.receivedAt ∧
    (latest.state = covered.first.state ∨ Offline covered tables)

/-- The pass reads the row before it writes, and finds it then. -/
def Underway (covered : Covered) (tables : MachineTables) : PassStage → Prop
  | .loading machines found =>
    (covered.control ∈ machines ∨
        ∃ latest ∈ found, latest.machinePk = covered.control.telemetryPk) ∧
      ∀ latest ∈ found, latest.machinePk = covered.control.telemetryPk →
        Read covered tables latest
  | .persisting transitions _ =>
    Offline covered tables ∨
      ∃ transition ∈ transitions, transition.finds covered.first = true
  | .returned _ => Offline covered tables

section Covering

variable (codec : Codec) (sha256 : Bytes → Bytes) {covered : Covered} {tables : MachineTables}

theorem Underway.of_offline {after : MachineTables} {stage : PassStage}
    (h : Underway covered tables stage) (hoffline : Offline covered tables → Offline covered after) :
    Underway covered after stage := by
  cases stage with
  | loading machines found =>
    refine ⟨h.1, fun latest hlatest hkey ↦ ?_⟩
    obtain ⟨hreceived, hstate⟩ := h.2 latest hlatest hkey
    exact ⟨hreceived, hstate.imp_right hoffline⟩
  | persisting transitions transitioned => exact Or.imp_left hoffline h
  | returned result => exact hoffline h

theorem read_of_loaded (hdue : covered.Due) (hkept : Kept covered.first tables)
    (hunique : UniqueKey MachineLatest.machinePk tables.latest) {batch : List MachineControlRow}
    {latest : MachineLatestRow} (hlatest : latest ∈ loadLatestRows tables.latest batch)
    (hkey : latest.machinePk = covered.control.telemetryPk) : Read covered tables latest := by
  obtain ⟨row, hrow, rfl⟩ := List.mem_map.mp hlatest
  have hlookup : machineRow tables covered.first.machinePk = some row :=
    hunique.lookup_eq_some_iff.mpr ⟨(List.mem_filter.mp hrow).1, hkey.trans hdue.key.symm⟩
  rcases hkept with hfirst | htaken
  · obtain rfl := Option.some.inj (hlookup.symm.trans hfirst)
    exact ⟨rfl, .inl rfl⟩
  · obtain rfl := Option.some.inj (hlookup.symm.trans htaken)
    refine ⟨rfl, .inr ?_⟩
    rw [Offline, machineState, htaken]
    rfl

theorem mem_loadLatestRows (hdue : covered.Due) (hkept : Kept covered.first tables)
    {batch : List MachineControlRow} (hmem : covered.control ∈ batch) :
    ∃ latest ∈ loadLatestRows tables.latest batch,
      latest.machinePk = covered.control.telemetryPk := by
  obtain ⟨row, hrow⟩ : ∃ row, machineRow tables covered.first.machinePk = some row :=
    hkept.elim (fun h ↦ ⟨_, h⟩) fun h ↦ ⟨_, h⟩
  obtain ⟨hlatest, hpk⟩ := lookup_some hrow
  refine ⟨_, List.mem_map_of_mem (List.mem_filter.mpr ⟨hlatest, ?_⟩), hpk.trans hdue.key⟩
  rw [List.contains_iff_mem, hpk, hdue.key]
  exact List.mem_map_of_mem hmem

/-- The transition of the machine is among the ones to persist, unless it is offline already. -/
theorem transition_of_read (hdue : covered.Due)
    (hlive : covered.first.state ≠ .reported .maintenance) (hkept : Kept covered.first tables)
    {found : List MachineLatestRow}
    (hfound : ∃ latest ∈ found, latest.machinePk = covered.control.telemetryPk)
    (hread : ∀ latest ∈ found, latest.machinePk = covered.control.telemetryPk →
      Read covered tables latest) :
    Offline covered tables ∨
      ∃ transition ∈ covered.machines.filterMap (transitionOf sha256 found covered.now),
        transition.finds covered.first = true := by
  rw [or_iff_not_imp_left]
  intro honline
  obtain ⟨known, hknown, hknownKey⟩ := hfound
  -- the row that the map of the pass has for the machine
  obtain ⟨latest, hlatest⟩ : ∃ latest,
      found.find? (fun row ↦ row.machinePk == covered.control.telemetryPk) = some latest := by
    apply Option.isSome_iff_exists.mp
    exact List.find?_isSome.mpr ⟨known, hknown, beq_iff_eq.mpr hknownKey⟩
  have hkey : latest.machinePk = covered.control.telemetryPk := by
    simpa using List.find?_some hlatest
  obtain ⟨hreceived, hstate⟩ := hread latest (List.mem_of_find?_eq_some hlatest) hkey
  replace hstate : latest.state = covered.first.state := hstate.resolve_right honline
  have hfirst : covered.first.state ≠ .offline := by
    intro hoffline
    apply honline
    rcases hkept with hrow | hrow <;> rw [Offline, machineState, hrow]
    · exact congrArg some hoffline
    · rfl
  have hwindow : (covered.control.maintenanceUntil.any fun until_ ↦
      decide (covered.now < until_)) = false := by
    cases hmaintenance : covered.control.maintenanceUntil with
    | none => rfl
    | some until_ =>
      rw [Option.any_some, decide_eq_false_iff_not, not_lt]
      exact hdue.window until_ hmaintenance
  have hat : offlineTransitionAt covered.control latest covered.now =
      some (latest.receivedAt + covered.control.offlineAfterSeconds * 1000) := by
    have hdueAt : latest.receivedAt + (covered.control.offlineAfterSeconds : ℤ) * 1000 ≤
        covered.now := hreceived ▸ hdue.silent
    rw [offlineTransitionAt, hwindow, hstate, if_neg (by simp [hfirst, hlive]), if_pos hdueAt]
  obtain ⟨transition, hsome, hfields⟩ : ∃ transition,
      transitionOf sha256 found covered.now covered.control = some transition ∧
        transition.machinePk = covered.control.telemetryPk ∧
        transition.receivedAt = latest.receivedAt ∧ transition.previousState = latest.state := by
    rw [transitionOf, hlatest, Option.bind_eq_bind, Option.bind_some, hat]
    exact ⟨_, rfl, rfl, rfl, rfl⟩
  refine ⟨transition, List.mem_filterMap.mpr ⟨covered.control, hdue.mem, hsome⟩, ?_⟩
  simp [OfflineTransition.finds, hfields, hdue.key, hreceived, hstate]

/-- The watched pass, and the row of its machine. -/
structure Tracking (covered : Covered) (watched : Watched) : Prop extends Sane watched where
  now : watched.pass.now = covered.now
  machines : watched.pass.machines = covered.machines
  kept : Kept covered.first watched.machines.tables
  underway : Underway covered watched.machines.tables watched.pass.stage

theorem underway_advance (hdue : covered.Due)
    (hlive : covered.first.state ≠ .reported .maintenance) {watched : Watched}
    (h : Tracking covered watched) :
    Underway covered (advance sha256 watched.machines.tables watched.pass).1
      (advance sha256 watched.machines.tables watched.pass).2.stage := by
  obtain ⟨hsane, hnow, hmachines, hkept, hunderway⟩ := h
  obtain ⟨workers, ⟨now, machines, stage⟩⟩ := watched
  dsimp only at hnow hmachines hkept hunderway ⊢
  subst hnow hmachines
  cases stage with
  | loading rest found =>
    obtain ⟨hmem, hread⟩ := hunderway
    cases rest with
    | nil => exact transition_of_read sha256 hdue hlive hkept (hmem.resolve_left List.not_mem_nil) hread
    | cons machine rest =>
      constructor
      · rcases hmem with hmem | ⟨latest, hlatest, hkey⟩
        · rw [← List.take_append_drop latestQueryBatch (machine :: rest)] at hmem
          rcases List.mem_append.mp hmem with htake | hdrop
          · right
            obtain ⟨latest, hlatest, hkey⟩ := mem_loadLatestRows hdue hkept htake
            exact ⟨latest, List.mem_append_left _ (List.mem_reverse.mpr hlatest), hkey⟩
          · exact .inl hdrop
        · exact .inr ⟨latest, List.mem_append_right _ hlatest, hkey⟩
      · intro latest hlatest hkey
        rcases List.mem_append.mp hlatest with hnew | hold
        · exact read_of_loaded hdue hkept hsane.sound.unique (List.mem_reverse.mp hnew) hkey
        · exact hread latest hold hkey
  | persisting transitions transitioned =>
    rw [tables_advance]
    cases transitions with
    | nil => exact hunderway.elim id fun ⟨_, hmem, _⟩ ↦ absurd hmem List.not_mem_nil
    | cons transition transitions =>
      rcases hunderway with hoffline | ⟨due, hmem, hfinds⟩
      · exact .inl (offline_persistAll _ hoffline)
      · rw [← List.take_append_drop transitionBatch (transition :: transitions)] at hmem
        rcases List.mem_append.mp hmem with htake | hdrop
        · exact .inl (offline_persistAll_of_finds hkept htake hfinds)
        · exact .inr ⟨due, hdrop, hfinds⟩
  | returned result => exact hunderway

theorem pass_advance (tables : MachineTables) (pass : Pass) :
    (advance sha256 tables pass).2.now = pass.now ∧
      (advance sha256 tables pass).2.machines = pass.machines := by
  unfold advance
  split <;> exact ⟨rfl, rfl⟩

theorem tracking_watch (hdue : covered.Due) (hlive : covered.first.state ≠ .reported .maintenance)
    {watched : Watched} (h : Tracking covered watched) {action : Option Action}
    (hsilent : Silent covered.first.machinePk watched action) :
    Tracking covered (watch codec sha256 watched action) := by
  obtain ⟨batch, -, hrow⟩ := machineRow_watch codec sha256 h.toSane hsilent
  have hkept : Kept covered.first (watch codec sha256 watched action).machines.tables := by
    rw [Kept, hrow]
    exact kept_persistAll h.kept batch
  have hoffline : Offline covered watched.machines.tables →
      Offline covered (watch codec sha256 watched action).machines.tables := by
    intro hoffline
    rw [Offline, machineState, hrow]
    exact offline_persistAll batch hoffline
  have hsane := sane_watch codec sha256 h.toSane action
  cases action with
  | none =>
    obtain ⟨hnow, hmachines⟩ := pass_advance sha256 watched.machines.tables watched.pass
    exact ⟨hsane, hnow.trans h.now, hmachines.trans h.machines, hkept,
      underway_advance sha256 hdue hlive h⟩
  | some action => exact ⟨hsane, h.now, h.machines, hkept, h.underway.of_offline hoffline⟩

end Covering

/-! ## The accesses of a pass -/

/-- The accesses that a pass makes at most until it returns. -/
def remaining (pass : Pass) : ℕ :=
  match pass.stage with
  | .loading machines _ => machines.length + pass.machines.length + 2
  | .persisting transitions _ => transitions.length + 1
  | .returned _ => 0

section Returning

variable (codec : Codec) (sha256 : Bytes → Bytes)

theorem remaining_advance (tables : MachineTables) (pass : Pass) :
    remaining (advance sha256 tables pass).2 ≤ remaining pass - 1 := by
  obtain ⟨now, machines, stage⟩ := pass
  cases stage with
  | loading rest found =>
    cases rest with
    | nil =>
      have hlength : (machines.filterMap fun machine ↦ transitionOf sha256 found now machine).length ≤
          machines.length := List.length_filterMap_le _ machines
      simp only [advance, remaining, List.length_nil]
      omega
    | cons machine rest =>
      simp only [advance, remaining, List.length_drop, List.length_cons, latestQueryBatch]
      omega
  | persisting transitions transitioned =>
    cases transitions with
    | nil => exact le_rfl
    | cons transition transitions =>
      simp only [advance, remaining, List.length_drop, List.length_cons, transitionBatch]
      omega
  | returned result => exact le_rfl

theorem remaining_run (watched : Watched) (actions : List (Option Action)) :
    remaining (run (watch codec sha256) watched actions).pass ≤
      remaining watched.pass - actions.countP Option.isNone := by
  induction actions generalizing watched with
  | nil => exact le_rfl
  | cons action actions ih =>
    have hrest := ih (watch codec sha256 watched action)
    rw [run_cons]
    cases action with
    | some action => exact hrest
    | none =>
      have hadvance : remaining (watch codec sha256 watched none).pass ≤
          remaining watched.pass - 1 :=
        remaining_advance sha256 watched.machines.tables watched.pass
      rw [List.countP_cons_of_pos rfl]
      omega

theorem returned_run {watched : Watched} {actions : List (Option Action)}
    (h : remaining watched.pass ≤ actions.countP Option.isNone) :
    ∃ result, (run (watch codec sha256) watched actions).pass.stage = .returned result := by
  have hremaining := remaining_run codec sha256 watched actions
  rw [Nat.sub_eq_zero_of_le h, Nat.le_zero, remaining] at hremaining
  cases hstage : (run (watch codec sha256) watched actions).pass.stage with
  | loading rest found =>
    rw [hstage] at hremaining
    exact absurd hremaining (Nat.succ_ne_zero _)
  | persisting transitions transitioned =>
    rw [hstage] at hremaining
    exact absurd hremaining (Nat.succ_ne_zero _)
  | returned result => exact ⟨result, rfl⟩

end Returning

/-! ## Whole passes -/

/-- The workers after a run, and a pass that is called then. -/
def call (machines : Machines) (covered : Covered) : Watched where
  machines := machines
  pass := reconcileMachineLiveness covered.now covered.machines

section Passes

variable (codec : Codec) (sha256 : Bytes → Bytes) (replay : Ingest.Replay.ReplayTable)
  (catalog : Ingest.Containers.Catalog) {tables : MachineTables}

theorem passesOver_run (tables : MachineTables) (actions : List Action) :
    ∀ pass ∈ (run (step codec sha256) (idle replay catalog tables) actions).passes,
      PassesOver pass := by
  have hstep : ∀ machines action, (∀ pass ∈ machines.passes, PassesOver pass) →
      ∀ pass ∈ (step codec sha256 machines action).passes, PassesOver pass :=
    fun _ action h ↦ carries_step unpaused_of_transitionOf h action
  refine run_invariant hstep ?_ actions
  exact fun _ h ↦ absurd h List.not_mem_nil

theorem sane_call (hunique : UniqueKey MachineLatest.machinePk tables.latest)
    (before : List Action) (covered : Covered) :
    Sane (call (run (step codec sha256) (idle replay catalog tables) before) covered) := by
  constructor
  · exact run_invariant sound_step (sound_idle replay catalog hunique) before
  · exact passesOver_run codec sha256 replay catalog tables before
  · trivial

theorem machineRow_of_maintenance (hunique : UniqueKey MachineLatest.machinePk tables.latest)
    (before : List Action) (covered : Covered)
    (hrow : machineRow (run (step codec sha256) (idle replay catalog tables) before).tables
      covered.first.machinePk = some covered.first)
    (hstate : covered.first.state = .reported .maintenance) (during : List (Option Action))
    (hsilent : Along (watch codec sha256) (Silent covered.first.machinePk)
      (call (run (step codec sha256) (idle replay catalog tables) before) covered) during) :
    machineRow (run (watch codec sha256)
      (call (run (step codec sha256) (idle replay catalog tables) before) covered)
      during).machines.tables covered.first.machinePk = some covered.first := by
  have hstart : Resting covered.first
      (call (run (step codec sha256) (idle replay catalog tables) before) covered) :=
    ⟨sane_call codec sha256 replay catalog hunique before covered, hrow⟩
  have hstep : ∀ watched action, Resting covered.first watched →
      Silent covered.first.machinePk watched action →
        Resting covered.first (watch codec sha256 watched action) :=
    fun _ _ h hsilent ↦ resting_watch codec sha256 hstate h hsilent
  exact (visits_run (visits_of_along hstep hstart hsilent)).row

theorem tracking_call (hunique : UniqueKey MachineLatest.machinePk tables.latest)
    (before : List Action) {covered : Covered} (hdue : covered.Due)
    (hrow : machineRow (run (step codec sha256) (idle replay catalog tables) before).tables
      covered.first.machinePk = some covered.first) :
    Tracking covered
      (call (run (step codec sha256) (idle replay catalog tables) before) covered) where
  toSane := sane_call codec sha256 replay catalog hunique before covered
  now := rfl
  machines := rfl
  kept := .inl hrow
  underway := ⟨.inl hdue.mem, fun _ h ↦ absurd h List.not_mem_nil⟩

end Passes

/-- After any run of both workers, a pass that covers a machine returns with its accesses, among
any steps of others. If the machine has been silent for its threshold when the pass is called, is
in no window and stays silent, it is offline then exactly when its row was not in maintenance. -/
theorem offline_iff_not_maintenance (codec : Codec) (sha256 : Bytes → Bytes)
    (replay : Ingest.Replay.ReplayTable) (catalog : Ingest.Containers.Catalog)
    (tables : MachineTables) (hunique : UniqueKey MachineLatest.machinePk tables.latest)
    (before : List Action) (covered : Covered) (hdue : covered.Due)
    (hrow : machineRow (run (step codec sha256) (idle replay catalog tables) before).tables
      covered.first.machinePk = some covered.first)
    (during : List (Option Action))
    (hsilent : Along (watch codec sha256) (Silent covered.first.machinePk)
      (call (run (step codec sha256) (idle replay catalog tables) before) covered) during)
    (hcalls : 2 * covered.machines.length + 2 ≤ during.countP Option.isNone) :
    let last := run (watch codec sha256)
      (call (run (step codec sha256) (idle replay catalog tables) before) covered) during
    (∃ result, last.pass.stage = .returned result) ∧
      (machineState last.machines.tables covered.first.machinePk = some .offline ↔
        covered.first.state ≠ .reported .maintenance) := by
  intro last
  obtain ⟨result, hreturned⟩ : ∃ result, last.pass.stage = .returned result := by
    apply returned_run
    rw [two_mul] at hcalls
    exact hcalls
  refine ⟨⟨result, hreturned⟩, ?_⟩
  constructor
  · intro hoffline hstate
    have hkept := machineRow_of_maintenance codec sha256 replay catalog hunique before covered hrow
      hstate during hsilent
    rw [machineState, hkept, Option.map_some, hstate] at hoffline
    cases hoffline
  · intro hlive
    have hstart := tracking_call codec sha256 replay catalog hunique before hdue hrow
    have hstep : ∀ watched action, Tracking covered watched →
        Silent covered.first.machinePk watched action →
          Tracking covered (watch codec sha256 watched action) :=
      fun _ _ h hsilent ↦ tracking_watch codec sha256 hdue hlive h hsilent
    have hunderway := (visits_run (visits_of_along hstep hstart hsilent)).underway
    rw [hreturned] at hunderway
    exact hunderway

/-- The report of one minute. -/
def firstReport : List Action :=
  .ingest (.arrive (Ingest.Concurrent.minuteRequest 1 1) Ingest.Concurrent.onlyAgent 60000) ::
    List.replicate 9 (.ingest (.advance 0 60000))

/-- Its control row, a quarter of an hour after a window. -/
def onlyControl : MachineControlRow := ⟨1, 180, some 600000⟩

/-- The only machine, silent since the last of some actions. -/
def silentSince (actions : List Action) : Option Covered :=
  (machineRow (run (step prefixCodec id) freshMachines actions).tables 1).map fun row ↦
    ⟨1500000, [onlyControl], onlyControl, row⟩

def reportedMachine : Covered := (silentSince firstReport).get (by decide +kernel)

theorem offline_iff_not_maintenance_reported :
    let last := run (watch prefixCodec id)
      (call (run (step prefixCodec id) freshMachines firstReport) reportedMachine)
      (List.replicate 4 none)
    (∃ result, last.pass.stage = .returned result) ∧
      (machineState last.machines.tables reportedMachine.first.machinePk = some .offline ↔
        reportedMachine.first.state ≠ .reported .maintenance) :=
  offline_iff_not_maintenance prefixCodec id (fun _ _ ↦ none) ⟨none, []⟩ ⟨[], [], [], [], []⟩
    List.nodup_nil firstReport reportedMachine (by decide +kernel) (by decide +kernel)
    (List.replicate 4 none) (by decide +kernel) (by decide)

/-- The last report came in a window that has been over for a quarter of an hour. -/
def maintainedMachine : Covered := (silentSince maintenanceActions).get (by decide +kernel)

/-- A pass leaves a machine whose maintenance is over as it is, however long it is silent. -/
theorem maintained_machine_not_offline :
    ¬ ∀ (codec : Codec) (sha256 : Bytes → Bytes) (replay : Ingest.Replay.ReplayTable)
      (catalog : Ingest.Containers.Catalog) (tables : MachineTables) (before : List Action)
      (covered : Covered) (during : List (Option Action)),
      UniqueKey MachineLatest.machinePk tables.latest → covered.Due →
        machineRow (run (step codec sha256) (idle replay catalog tables) before).tables
          covered.first.machinePk = some covered.first →
        Along (watch codec sha256) (Silent covered.first.machinePk)
          (call (run (step codec sha256) (idle replay catalog tables) before) covered) during →
        2 * covered.machines.length + 2 ≤ during.countP Option.isNone →
        machineState (run (watch codec sha256)
          (call (run (step codec sha256) (idle replay catalog tables) before) covered)
          during).machines.tables covered.first.machinePk = some .offline := by
  intro h
  have hoffline := h prefixCodec id (fun _ _ ↦ none) ⟨none, []⟩ ⟨[], [], [], [], []⟩
    maintenanceActions maintainedMachine (List.replicate 4 none) List.nodup_nil
    (by decide +kernel) (by decide +kernel) (by decide +kernel) (by decide)
  have hstate : machineState (run (watch prefixCodec id)
      (call (run (step prefixCodec id) freshMachines maintenanceActions) maintainedMachine)
      (List.replicate 4 none)).machines.tables maintainedMachine.first.machinePk =
        some (.reported .maintenance) := by decide +kernel
  cases hstate.symm.trans hoffline

end AlphaPing.System.OfflineDetection
