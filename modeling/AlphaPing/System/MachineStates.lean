import AlphaPing.Checks.Liveness
import AlphaPing.Ingest.Concurrent
import AlphaPing.Library.ChangeLog

/-!
# The state of a machine and its events

The ingest worker writes the state of a machine with every report that is not older than the
latest one; the checks worker sets it to `offline` when reports stop. Each writes the event of a
change in the batch that makes the change, under the same conditions, and neither asks whether
the event was inserted: an event with the key of a recorded one is ignored, while the state
changes.

Reports are handled as in `Ingest.Concurrent`, cut at every await, and passes of the checks
worker run between any two of their steps.
-/

namespace AlphaPing.System.MachineStates

open Protocol Library.Tables Library.Runs Library.ChangeLog Ingest.Telemetry Ingest.Requests
  Checks.Liveness
open Ingest.Concurrent (Handler Worker onlyAgent minuteRequest proceed)

/-! ## One machine in the tables -/

section Tables

variable {tables : MachineTables} {machinePk : ℕ}

def machineRow (tables : MachineTables) (machinePk : ℕ) : Option MachineLatest :=
  lookup MachineLatest.machinePk machinePk tables.latest

/-- What `machine_latest` shows of a machine. -/
def machineState (tables : MachineTables) (machinePk : ℕ) : Option StoredState :=
  (machineRow tables machinePk).map MachineLatest.state

/-- The events of a machine, in the order in which they were appended. -/
def machineEvents (tables : MachineTables) (machinePk : ℕ) : List StateEvent :=
  tables.stateEvents.filter fun event ↦ event.resourceType == 1 && event.resourcePk == machinePk

/-- A step of one machine: a change with its event, or neither. -/
abbrev Steps (machinePk : ℕ) (before after : MachineTables) : Prop :=
  Logged StateEvent.previousState StateEvent.currentState (machineState before machinePk)
    (machineEvents before machinePk) (machineState after machinePk)
    (machineEvents after machinePk)

/-- The machine is left alone. -/
structure Untouched (machinePk : ℕ) (before after : MachineTables) : Prop where
  row : machineRow after machinePk = machineRow before machinePk
  events : machineEvents after machinePk = machineEvents before machinePk

theorem Untouched.steps {before after : MachineTables} (h : Untouched machinePk before after) :
    Steps machinePk before after := by
  rw [Steps, machineState, machineState, h.row, h.events]
  exact .same

/-- An event with the key of another one is stored. -/
def recorded (tables : MachineTables) (event : StateEvent) : Bool :=
  (machineEvents tables event.resourcePk).any fun old ↦
    old.occurredAt == event.occurredAt && old.eventId == event.eventId

theorem insertEvent_of_not_recorded {event : StateEvent} (htype : event.resourceType = 1)
    (h : recorded tables event = false) :
    insertEvent tables.stateEvents event = tables.stateEvents ++ [event] := by
  rw [insertEvent, if_neg]
  intro hclash
  obtain ⟨old, hold, hsame⟩ := List.any_eq_true.mp hclash
  simp only [Bool.and_eq_true, beq_iff_eq] at hsame
  obtain ⟨⟨⟨holdType, holdPk⟩, holdAt⟩, holdId⟩ := hsame
  refine absurd (List.any_eq_true.mpr ⟨old, ?_, ?_⟩) (Bool.eq_false_iff.mp h)
  · rw [machineEvents, List.mem_filter]
    exact ⟨hold, by simp [holdType, holdPk, htype]⟩
  · simp [holdAt, holdId]

theorem filter_insertEvent_other {events : List StateEvent} {event : StateEvent}
    (h : event.resourcePk ≠ machinePk) :
    (insertEvent events event).filter
        (fun event ↦ event.resourceType == 1 && event.resourcePk == machinePk) =
      events.filter fun event ↦ event.resourceType == 1 && event.resourcePk == machinePk := by
  unfold insertEvent
  split
  · rfl
  · rw [List.filter_append, List.filter_cons_of_neg (by simp [h]), List.filter_nil,
      List.append_nil]

/-- The rows that a pair of statements finds, and the event of a row. -/
structure Selection where
  machinePk : ℕ
  finds : MachineLatest → Bool
  event : MachineLatest → StateEvent
  ofMachine : ∀ row, finds row = true → row.machinePk = machinePk
  resourceType : ∀ row, (event row).resourceType = 1
  resourcePk : ∀ row, (event row).resourcePk = row.machinePk
  previousState : ∀ row, (event row).previousState = row.state

/-- `INSERT OR IGNORE INTO state_events … SELECT … FROM machine_latest`. -/
def Selection.insert (selection : Selection) (tables : MachineTables) : List StateEvent :=
  ((tables.latest.filter selection.finds).map selection.event).foldl insertEvent tables.stateEvents

/-- No event with the key of the one of the machine's row is recorded. -/
def Selection.free (selection : Selection) (tables : MachineTables) : Bool :=
  (machineRow tables selection.machinePk).all fun row ↦
    !selection.finds row || !recorded tables (selection.event row)

variable (selection : Selection) {after : MachineTables}

theorem insert_of_row (hunique : UniqueKey MachineLatest.machinePk tables.latest) :
    selection.insert tables =
      (((machineRow tables selection.machinePk).filter selection.finds).toList.map
        selection.event).foldl insertEvent tables.stateEvents := by
  rw [Selection.insert, hunique.filter_eq selection.ofMachine]
  rfl

theorem insert_of_not_found (hunique : UniqueKey MachineLatest.machinePk tables.latest)
    (h : ∀ row, machineRow tables selection.machinePk = some row → selection.finds row = false) :
    selection.insert tables = tables.stateEvents := by
  have hnone : (machineRow tables selection.machinePk).filter selection.finds = none := by
    cases hrow : machineRow tables selection.machinePk with
    | none => rfl
    | some row => rw [Option.filter, h row hrow, if_neg Bool.false_ne_true]
  rw [insert_of_row selection hunique, hnone]
  rfl

variable {row : MachineLatest}

theorem insert_of_found (hunique : UniqueKey MachineLatest.machinePk tables.latest)
    (hfree : selection.free tables = true) (hrow : machineRow tables selection.machinePk = some row)
    (hfinds : selection.finds row = true) :
    selection.insert tables = tables.stateEvents ++ [selection.event row] := by
  have hnew : recorded tables (selection.event row) = false := by
    simpa [Selection.free, hrow, hfinds] using hfree
  rw [insert_of_row selection hunique, hrow, Option.filter, hfinds, if_pos rfl, Option.toList_some,
    List.map_singleton, List.foldl_cons, List.foldl_nil]
  exact insertEvent_of_not_recorded (selection.resourceType row) hnew

theorem machineEvents_insert_other (hunique : UniqueKey MachineLatest.machinePk tables.latest)
    (hevents : after.stateEvents = selection.insert tables)
    (hother : machinePk ≠ selection.machinePk) :
    machineEvents after machinePk = machineEvents tables machinePk := by
  rw [machineEvents, hevents, insert_of_row selection hunique]
  cases hrow : (machineRow tables selection.machinePk).filter selection.finds with
  | none => rfl
  | some row =>
    rw [Option.toList_some, List.map_singleton, List.foldl_cons, List.foldl_nil]
    refine filter_insertEvent_other fun hsame ↦ hother ?_
    rw [← hsame, selection.resourcePk, selection.ofMachine row (Option.mem_filter_iff.mp hrow).2]

theorem machineEvents_insert_none (hunique : UniqueKey MachineLatest.machinePk tables.latest)
    (hevents : after.stateEvents = selection.insert tables)
    (h : ∀ row, machineRow tables selection.machinePk = some row → selection.finds row = false) :
    machineEvents after machinePk = machineEvents tables machinePk := by
  rw [machineEvents, hevents, insert_of_not_found selection hunique h]
  rfl

theorem machineEvents_insert_row (hunique : UniqueKey MachineLatest.machinePk tables.latest)
    (hevents : after.stateEvents = selection.insert tables) (hfree : selection.free tables = true)
    (hrow : machineRow tables selection.machinePk = some row) (hfinds : selection.finds row = true)
    : machineEvents after selection.machinePk =
      machineEvents tables selection.machinePk ++ [selection.event row] := by
  have hselected : ((selection.event row).resourceType == 1 &&
      (selection.event row).resourcePk == selection.machinePk) = true := by
    rw [selection.resourceType, selection.resourcePk, selection.ofMachine row hfinds]
    simp
  rw [machineEvents, hevents, insert_of_found selection hunique hfree hrow hfinds, List.filter_append]
  refine congrArg (machineEvents tables selection.machinePk ++ ·) ?_
  exact List.filter_cons_of_pos hselected

theorem untouched_of_not_found (hunique : UniqueKey MachineLatest.machinePk tables.latest)
    (hevents : after.stateEvents = selection.insert tables)
    (h : ∀ row, machineRow tables machinePk = some row → selection.finds row = false)
    (hrow : machineRow after machinePk = machineRow tables machinePk) :
    Untouched machinePk tables after := by
  refine ⟨hrow, ?_⟩
  by_cases hsame : machinePk = selection.machinePk
  · subst hsame
    exact machineEvents_insert_none selection hunique hevents h
  · exact machineEvents_insert_other selection hunique hevents hsame

theorem steps_of_found (hunique : UniqueKey MachineLatest.machinePk tables.latest)
    (hevents : after.stateEvents = selection.insert tables) (hfree : selection.free tables = true)
    (hrow : machineRow tables selection.machinePk = some row) (hfinds : selection.finds row = true)
    (hstate : machineState after selection.machinePk = some (selection.event row).currentState)
    (hchange : row.state ≠ (selection.event row).currentState) :
    Steps selection.machinePk tables after := by
  rw [Steps, machineEvents_insert_row selection hunique hevents hfree hrow hfinds, hstate]
  refine .changed (selection.event row) ?_ ?_
  · rw [machineState, hrow, selection.previousState]
    rfl
  · rw [selection.previousState]
    exact hchange

end Tables

/-! ## The batch of a report -/

section Report

variable {tables : MachineTables} {prepared : PreparedReport} {machinePk : ℕ}

def overwrites (prepared : PreparedReport) (row : MachineLatest) : Bool :=
  row.workspacePk == prepared.report.workspacePk && row.machinePk == prepared.report.machinePk &&
    decide (row.sample.observedAtMs ≤ prepared.sample.observedAtMs)

/-- The rows and the events of the transition of a report. -/
def reportSelection (prepared : PreparedReport) : Selection where
  machinePk := prepared.report.machinePk
  finds row := row.workspacePk == prepared.report.workspacePk &&
    row.machinePk == prepared.report.machinePk && row.state != .reported prepared.state &&
      decide (row.sample.observedAtMs ≤ prepared.sample.observedAtMs)
  event row :=
    { workspacePk := row.workspacePk
      resourceType := 1
      resourcePk := row.machinePk
      occurredAt := prepared.now
      eventId := prepared.report.reportId
      previousState := row.state
      currentState := .reported prepared.state
      reasonCode := if row.state = .offline then "agent_report_received"
        else transitionReason prepared.state }
  ofMachine row h := by
    simp only [Bool.and_eq_true, beq_iff_eq] at h
    exact h.1.1.2
  resourceType _ := rfl
  resourcePk _ := rfl
  previousState _ := rfl

theorem reportSelection_finds (row : MachineLatest) :
    (reportSelection prepared).finds row =
      (overwrites prepared row && row.state != .reported prepared.state) := by
  simp only [reportSelection, overwrites]
  rw [Bool.and_assoc, Bool.and_assoc, Bool.and_assoc, Bool.and_assoc]
  congr 2
  exact Bool.and_comm _ _

/-- The row that a batch puts for a machine without one. -/
def firstRow (prepared : PreparedReport) : MachineLatest :=
  latestRow prepared.agentId prepared.report prepared.sample prepared.state prepared.now
    prepared.previous

/-- The row that a batch puts in the place of another one. -/
def nextRow (prepared : PreparedReport) (old : MachineLatest) : MachineLatest :=
  { firstRow prepared with
    machinePk := old.machinePk
    containerInventory :=
      (firstRow prepared).containerInventory.orElse fun _ ↦ old.containerInventory }

theorem latest_durableBatch :
    (durableBatch tables prepared).latest =
      upsert MachineLatest.machinePk
        (fun old ↦ old.workspacePk == prepared.report.workspacePk &&
          decide (old.sample.observedAtMs ≤ prepared.sample.observedAtMs))
        (nextRow prepared) (firstRow prepared) tables.latest := rfl

theorem machinePk_nextRow (old : MachineLatest) :
    (nextRow prepared old).machinePk = old.machinePk := rfl

theorem machinePk_firstRow : (firstRow prepared).machinePk = prepared.report.machinePk := rfl

theorem machineState_durableBatch (machinePk : ℕ) :
    machineState (durableBatch tables prepared) machinePk =
      if machinePk = prepared.report.machinePk ∧
          (machineRow tables machinePk).all (overwrites prepared) = true then
        some (.reported prepared.state)
      else machineState tables machinePk := by
  rw [machineState, machineRow, latest_durableBatch]
  by_cases hsame : machinePk = prepared.report.machinePk
  · subst hsame
    rw [← machinePk_firstRow, lookup_upsert_self machinePk_nextRow, machinePk_firstRow,
      machineState, machineRow]
    cases hrow : lookup MachineLatest.machinePk prepared.report.machinePk tables.latest with
    | none =>
      rw [if_pos ⟨rfl, rfl⟩]
      rfl
    | some old =>
      have hoverwrites : overwrites prepared old =
          (old.workspacePk == prepared.report.workspacePk &&
            decide (old.sample.observedAtMs ≤ prepared.sample.observedAtMs)) := by
        rw [overwrites, (lookup_some hrow).2, beq_self_eq_true, Bool.and_true]
      dsimp only
      rw [Option.all_some, ← hoverwrites]
      cases hold : overwrites prepared old with
      | false => rw [if_neg Bool.false_ne_true, if_neg fun h ↦ Bool.false_ne_true h.2]
      | true =>
        rw [if_pos rfl, if_pos ⟨rfl, rfl⟩]
        rfl
  · rw [if_neg fun h ↦ hsame h.1, machineState,
      lookup_upsert_other machinePk_nextRow (machinePk_firstRow ▸ hsame)]
    rfl

theorem machineRow_durableBatch_other (hother : machinePk ≠ prepared.report.machinePk) :
    machineRow (durableBatch tables prepared) machinePk = machineRow tables machinePk := by
  rw [machineRow, latest_durableBatch,
    lookup_upsert_other machinePk_nextRow (machinePk_firstRow ▸ hother)]
  rfl

theorem uniqueKey_durableBatch (hunique : UniqueKey MachineLatest.machinePk tables.latest) :
    UniqueKey MachineLatest.machinePk (durableBatch tables prepared).latest :=
  hunique.upsert fun _ _ ↦ rfl

/-- The batch of a report is one step of every machine, unless the key of its event is taken. -/
theorem steps_durableBatch (hunique : UniqueKey MachineLatest.machinePk tables.latest)
    (hfree : (reportSelection prepared).free tables = true) (machinePk : ℕ) :
    Steps machinePk tables (durableBatch tables prepared) := by
  by_cases hsame : machinePk = prepared.report.machinePk
  · subst hsame
    have hstate : machineState (durableBatch tables prepared) prepared.report.machinePk = _ :=
      machineState_durableBatch prepared.report.machinePk
    have hnone : (∀ row, machineRow tables prepared.report.machinePk = some row →
        (reportSelection prepared).finds row = false) →
        machineEvents (durableBatch tables prepared) prepared.report.machinePk =
          machineEvents tables prepared.report.machinePk := fun h ↦
      machineEvents_insert_none (reportSelection prepared) hunique rfl h
    cases hrow : machineRow tables prepared.report.machinePk with
    | none =>
      have hmissing : machineState tables prepared.report.machinePk = none := by
        rw [machineState, hrow]
        rfl
      rw [hrow, if_pos ⟨rfl, rfl⟩] at hstate
      rw [Steps, hstate, hnone (fun row h ↦ nomatch hrow.symm.trans h)]
      exact .created _ hmissing
    | some row =>
      have hbefore : machineState tables prepared.report.machinePk = some row.state := by
        rw [machineState, hrow]
        rfl
      cases hfinds : (reportSelection prepared).finds row with
      | true =>
        have hboth := hfinds
        rw [reportSelection_finds, Bool.and_eq_true] at hboth
        rw [hrow, if_pos ⟨rfl, hboth.1⟩] at hstate
        exact steps_of_found (reportSelection prepared) hunique rfl hfree hrow hfinds
          hstate (bne_iff_ne.mp hboth.2)
      | false =>
        have hevents := hnone fun other h ↦ by
          rw [← Option.some.inj (hrow.symm.trans h)]
          exact hfinds
        have hkept : machineState (durableBatch tables prepared) prepared.report.machinePk =
            machineState tables prepared.report.machinePk := by
          rw [hstate]
          split
          · next hover =>
            rw [hrow, Option.all_some] at hover
            rw [reportSelection_finds, hover.2, Bool.true_and] at hfinds
            have hsame : row.state = .reported prepared.state := by simpa using hfinds
            rw [hbefore, hsame]
          · rfl
        rw [Steps, hevents, hkept]
        exact .same
  · refine Untouched.steps ⟨machineRow_durableBatch_other hsame, ?_⟩
    exact machineEvents_insert_other (reportSelection prepared) hunique rfl hsame

def reportMinute (row : MachineLatest) : ℤ := row.sample.observedAtMs / 60000 * 60000

/-- The last sample lies in the minute of its report. -/
def Timely (prepared : PreparedReport) : Prop :=
  prepared.report.nominalMinuteMs % 60000 = 0 ∧
    prepared.sample.observedAtMs < prepared.report.nominalMinuteMs + 60000

theorem latest_durableBatch_of_older (htimely : Timely prepared) {row : MachineLatest}
    (hunique : UniqueKey MachineLatest.machinePk tables.latest)
    (hrow : machineRow tables prepared.report.machinePk = some row)
    (holder : prepared.report.nominalMinuteMs < reportMinute row) :
    (durableBatch tables prepared).latest = tables.latest := by
  have hlater : prepared.sample.observedAtMs < row.sample.observedAtMs := by
    obtain ⟨haligned, hbefore⟩ := htimely
    unfold reportMinute at holder
    omega
  obtain ⟨hmem, hpk⟩ := lookup_some hrow
  have hany : (tables.latest.any fun old ↦
      decide (old.machinePk = prepared.report.machinePk)) = true :=
    List.any_eq_true.mpr ⟨row, hmem, decide_eq_true hpk⟩
  rw [latest_durableBatch, upsert, machinePk_firstRow, if_pos hany]
  refine updateWhere_eq_self fun old hold ↦ ?_
  by_cases hkey : old.machinePk = prepared.report.machinePk
  · have hold : old = row := hunique.eq_of_mem hold hmem (hkey.trans hpk.symm)
    have hnot : decide (old.sample.observedAtMs ≤ prepared.sample.observedAtMs) = false := by
      rw [hold]
      exact decide_eq_false (not_le.mpr hlater)
    rw [hnot, Bool.and_false, Bool.and_false]
  · rw [decide_eq_false hkey, Bool.false_and]

end Report

/-! ## The batch of a pass -/

section Transition

variable {tables : MachineTables} {transition : OfflineTransition} {machinePk : ℕ}

/-- The row and the event of a transition. -/
def offlineSelection (transition : OfflineTransition) : Selection where
  machinePk := transition.machinePk
  finds := transition.finds
  event := transition.event
  ofMachine row h := by
    simp only [OfflineTransition.finds, Bool.and_eq_true, beq_iff_eq] at h
    exact h.1.1
  resourceType _ := rfl
  resourcePk _ := rfl
  previousState _ := rfl

theorem machineRow_persistTransition (machinePk : ℕ) :
    machineRow (persistTransition tables transition) machinePk =
      (machineRow tables machinePk).map fun row ↦
        if transition.finds row then { row with state := .offline } else row := by
  have hkey : ∀ row : MachineLatest,
      ({ row with state := .offline } : MachineLatest).machinePk = row.machinePk := fun _ ↦ rfl
  exact lookup_updateWhere hkey machinePk

theorem uniqueKey_persistTransition (hunique : UniqueKey MachineLatest.machinePk tables.latest) :
    UniqueKey MachineLatest.machinePk (persistTransition tables transition).latest :=
  hunique.updateWhere fun _ ↦ rfl

theorem untouched_persistTransition (hunique : UniqueKey MachineLatest.machinePk tables.latest)
    (h : ∀ row, machineRow tables machinePk = some row → transition.finds row = false) :
    Untouched machinePk tables (persistTransition tables transition) := by
  refine untouched_of_not_found (offlineSelection transition) hunique rfl h ?_
  rw [machineRow_persistTransition]
  cases hrow : machineRow tables machinePk with
  | none => rfl
  | some row => rw [Option.map_some, h row hrow, if_neg Bool.false_ne_true]

theorem untouched_of_offline (hunique : UniqueKey MachineLatest.machinePk tables.latest)
    (hprevious : transition.previousState ≠ .offline)
    (h : machineState tables machinePk = some .offline) :
    Untouched machinePk tables (persistTransition tables transition) := by
  refine untouched_persistTransition hunique fun row hrow ↦ ?_
  have hstate : row.state = .offline := by
    rw [machineState, hrow] at h
    exact Option.some.inj h
  rw [OfflineTransition.finds, hstate, beq_eq_false_iff_ne.mpr hprevious.symm, Bool.and_false]

theorem Untouched.refl (machinePk : ℕ) (tables : MachineTables) :
    Untouched machinePk tables tables := ⟨rfl, rfl⟩

theorem Untouched.trans {first second third : MachineTables}
    (h : Untouched machinePk first second) (h' : Untouched machinePk second third) :
    Untouched machinePk first third :=
  ⟨h'.row.trans h.row, h'.events.trans h.events⟩

theorem Untouched.state {before after : MachineTables} (h : Untouched machinePk before after) :
    machineState after machinePk = machineState before machinePk :=
  congrArg (Option.map MachineLatest.state) h.row

theorem Untouched.free {before after : MachineTables} {selection : Selection}
    (h : Untouched selection.machinePk before after) :
    selection.free after = selection.free before := by
  rw [Selection.free, Selection.free, h.row]
  cases hrow : machineRow before selection.machinePk with
  | none => rfl
  | some row =>
    rw [Option.all_some, Option.all_some]
    by_cases hfinds : selection.finds row = true
    · have hpk : (selection.event row).resourcePk = selection.machinePk :=
        (selection.resourcePk row).trans (selection.ofMachine row hfinds)
      rw [recorded, recorded, hpk, h.events]
    · rw [Bool.eq_false_iff.mpr hfinds]
      rfl

theorem free_persistTransition {other : OfflineTransition}
    (hunique : UniqueKey MachineLatest.machinePk tables.latest)
    (hprevious : other.previousState ≠ .offline) (h : (offlineSelection other).free tables = true) :
    (offlineSelection other).free (persistTransition tables transition) = true := by
  by_cases hfound : ∃ row, machineRow tables other.machinePk = some row ∧
      transition.finds row = true
  · obtain ⟨row, hrow, hfinds⟩ := hfound
    have hnot : other.finds { row with state := .offline } = false := by
      rw [OfflineTransition.finds, beq_eq_false_iff_ne.mpr hprevious.symm, Bool.and_false]
    have hnext : machineRow (persistTransition tables transition) other.machinePk =
        some { row with state := .offline } := by
      rw [machineRow_persistTransition, hrow, Option.map_some, if_pos hfinds]
    have hpk : (offlineSelection other).machinePk = other.machinePk := rfl
    have hfinds : (offlineSelection other).finds = other.finds := rfl
    rw [Selection.free, hpk, hnext, Option.all_some, hfinds, hnot]
    rfl
  · have huntouched : Untouched other.machinePk tables (persistTransition tables transition) :=
      untouched_persistTransition hunique fun row hrow ↦
        Bool.eq_false_iff.mpr fun hfinds ↦ hfound ⟨row, hrow, hfinds⟩
    have hsame : (offlineSelection other).free (persistTransition tables transition) =
        (offlineSelection other).free tables := Untouched.free huntouched
    exact hsame.trans h

/-- The batch of transitions, one after the other. -/
def persistAll (tables : MachineTables) (batch : List OfflineTransition) : MachineTables :=
  batch.foldl persistTransition tables

theorem persistOfflineTransitions_fst (tables : MachineTables) (batch : List OfflineTransition) :
    (persistOfflineTransitions tables batch).1 = persistAll tables batch := by
  have hfold : ∀ (tables : MachineTables) (changes : ℕ),
      (batch.foldl (fun result transition ↦ (persistTransition result.1 transition,
        result.2 + result.1.latest.countP transition.finds)) (tables, changes)).1 =
          persistAll tables batch := by
    induction batch with
    | nil => exact fun _ _ ↦ rfl
    | cons transition batch ih => exact fun _ _ ↦ ih _ _
  exact hfold tables 0

variable {batch : List OfflineTransition}

theorem uniqueKey_persistAll (hunique : UniqueKey MachineLatest.machinePk tables.latest) :
    UniqueKey MachineLatest.machinePk (persistAll tables batch).latest := by
  induction batch generalizing tables with
  | nil => exact hunique
  | cons transition batch ih => exact ih (uniqueKey_persistTransition hunique)

theorem untouched_persistAll_of_offline (hunique : UniqueKey MachineLatest.machinePk tables.latest)
    (hprevious : ∀ transition ∈ batch, transition.previousState ≠ .offline)
    (h : machineState tables machinePk = some .offline) :
    Untouched machinePk tables (persistAll tables batch) := by
  induction batch generalizing tables with
  | nil => exact .refl machinePk tables
  | cons transition batch ih =>
    obtain ⟨hfirst, hrest⟩ := List.forall_mem_cons.mp hprevious
    have hstep := untouched_of_offline hunique hfirst h
    exact hstep.trans
      (ih (uniqueKey_persistTransition hunique) hrest (hstep.state.trans h))

/-- The batch of a pass is one step of every machine, unless the key of an event is taken: the
first transition that finds a machine takes it offline, and no later one finds it again. -/
theorem steps_persistAll (hunique : UniqueKey MachineLatest.machinePk tables.latest)
    (hprevious : ∀ transition ∈ batch, transition.previousState ≠ .offline)
    (hfree : ∀ transition ∈ batch, (offlineSelection transition).free tables = true) (machinePk : ℕ)
    : Steps machinePk tables (persistAll tables batch) := by
  induction batch generalizing tables with
  | nil => exact (Untouched.refl machinePk tables).steps
  | cons transition batch ih =>
    obtain ⟨hfirst, hrest⟩ := List.forall_mem_cons.mp hprevious
    obtain ⟨hfreeFirst, hfreeRest⟩ := List.forall_mem_cons.mp hfree
    have hnext : UniqueKey MachineLatest.machinePk (persistTransition tables transition).latest :=
      uniqueKey_persistTransition hunique
    by_cases hfound : ∃ row, machineRow tables machinePk = some row ∧ transition.finds row = true
    · obtain ⟨row, hrow, hfinds⟩ := hfound
      obtain rfl : machinePk = transition.machinePk :=
        (lookup_some hrow).2.symm.trans ((offlineSelection transition).ofMachine row hfinds)
      have hoffline : machineState (persistTransition tables transition) transition.machinePk =
          some .offline := by
        rw [machineState, machineRow_persistTransition, hrow, Option.map_some, if_pos hfinds]
        rfl
      have hchange : row.state ≠ .offline := by
        simp only [OfflineTransition.finds, Bool.and_eq_true, beq_iff_eq] at hfinds
        rw [hfinds.2]
        exact hfirst
      have hstep := steps_of_found (offlineSelection transition) hunique rfl hfreeFirst hrow hfinds
        hoffline hchange
      have hkept := untouched_persistAll_of_offline hnext hrest hoffline
      exact hstep.trans_same hkept.state hkept.events
    · have hnot : ∀ row, machineRow tables machinePk = some row → transition.finds row = false :=
        fun row hrow ↦ Bool.eq_false_iff.mpr fun hfinds ↦ hfound ⟨row, hrow, hfinds⟩
      have hkept := untouched_persistTransition hunique hnot
      have hsteps := ih hnext hrest fun other hother ↦
        free_persistTransition hunique (hrest other hother) (hfreeRest other hother)
      rw [Steps, hkept.state, hkept.events] at hsteps
      exact hsteps

end Transition

/-! ## Both workers -/

structure Machines where
  worker : Worker
  passes : List Pass

inductive Action where
  | ingest (action : Ingest.Concurrent.Action)
  /-- The checks worker has loaded its candidates. -/
  | reconcile (now : ℤ) (machines : List MachineControlRow)
  /-- A pass makes its next access. -/
  | advance (index : ℕ)
  /-- A pass ends with an error of the access it waits for. -/
  | abort (index : ℕ)

def Machines.tables (machines : Machines) : MachineTables := machines.worker.tables

variable (codec : Codec) (sha256 : Bytes → Bytes)

/-- One access of a pass. -/
def Machines.advancePass (machines : Machines) (index : ℕ) (pass : Pass) : Machines where
  worker := { machines.worker with tables := (advance sha256 machines.tables pass).1 }
  passes := machines.passes.set index (advance sha256 machines.tables pass).2

def step (machines : Machines) : Action → Machines
  | .ingest action =>
    { machines with worker := Ingest.Concurrent.step codec machines.worker action }
  | .reconcile now rows =>
    { machines with passes := machines.passes ++ [reconcileMachineLiveness now rows] }
  | .advance index =>
    match machines.passes[index]? with
    | none => machines
    | some pass => machines.advancePass sha256 index pass
  | .abort index => { machines with passes := machines.passes.eraseIdx index }

/-- Both workers, before their first request and pass, over tables of any content. -/
def idle (replay : Ingest.Replay.ReplayTable) (catalog : Ingest.Containers.Catalog)
    (tables : MachineTables) : Machines where
  worker := Ingest.Concurrent.idle replay catalog tables
  passes := []

def Machines.batch (machines : Machines) : Action → Option PreparedReport
  | .ingest action => (machines.worker.stepping action).bind Handler.batch
  | _ => none

def Machines.transitions (machines : Machines) : Action → List OfflineTransition
  | .advance index =>
    match machines.passes[index]?.map Pass.stage with
    | some (.persisting transitions _) => transitions.take transitionBatch
    | _ => []
  | _ => []

/-- The key of no event that an action inserts is taken. -/
def Unclashed (machines : Machines) (action : Action) : Prop :=
  (∀ prepared ∈ machines.batch action, (reportSelection prepared).free machines.tables = true) ∧
    ∀ transition ∈ machines.transitions action,
      (offlineSelection transition).free machines.tables = true

instance (machines : Machines) (action : Action) : Decidable (Unclashed machines action) :=
  inferInstanceAs (Decidable ((∀ prepared ∈ machines.batch action, _) ∧ _))

/-! ## The invariant -/

/-- What a handler has prepared so far. -/
def pending : Ingest.Concurrent.Phase → Option PreparedReport
  | .inventoried prepared | .summed prepared | .prepared prepared => some prepared
  | _ => none

/-- What a handler has prepared comes from a report whose samples lie in its minute. -/
structure HandlerTimely (handler : Handler) : Prop where
  aligned : handler.request.report.nominalMinuteMs % 60000 = 0
  samples : ∀ sample ∈ handler.request.report.samples,
    sample.observedAtMs < handler.request.report.nominalMinuteMs + 60000
  prepared : ∀ prepared, pending handler.phase = some prepared → Timely prepared

/-- The transitions that a pass has still to persist are from other states than `offline`. -/
def PassSound (pass : Pass) : Prop :=
  match pass.stage with
  | .persisting transitions _ => ∀ transition ∈ transitions, transition.previousState ≠ .offline
  | _ => True

structure Sound (machines : Machines) : Prop where
  unique : UniqueKey MachineLatest.machinePk machines.tables.latest
  handlers : ∀ handler ∈ machines.worker.handlers, HandlerTimely handler
  passes : ∀ pass ∈ machines.passes, PassSound pass

variable {codec sha256}

theorem live_of_transitionOf {found : List MachineLatestRow} {now : ℤ} {machine : MachineControlRow}
    {transition : OfflineTransition} (h : transitionOf sha256 found now machine = some transition) :
    transition.previousState ≠ .offline ∧
      transition.previousState ≠ .reported .maintenance := by
  unfold transitionOf at h
  obtain ⟨latest, -, h⟩ := Option.bind_eq_some_iff.mp h
  obtain ⟨occurredAt, hat, h⟩ := Option.bind_eq_some_iff.mp h
  obtain rfl := Option.some.inj h
  unfold offlineTransitionAt at hat
  split at hat
  · cases hat
  · next hlive =>
    exact ⟨fun hoffline ↦ hlive (.inl hoffline), fun hpaused ↦ hlive (.inr (.inl hpaused))⟩

/-- What holds of all transitions that a pass has still to persist. -/
def Carries (P : OfflineTransition → Prop) (pass : Pass) : Prop :=
  match pass.stage with
  | .persisting transitions _ => ∀ transition ∈ transitions, P transition
  | _ => True

section Carries

variable {P : OfflineTransition → Prop} (hfound : ∀ found now machine transition,
  transitionOf sha256 found now machine = some transition → P transition)

include hfound in
theorem carries_advance {tables : MachineTables} {pass : Pass} (h : Carries P pass) :
    Carries P (advance sha256 tables pass).2 := by
  obtain ⟨now, machines, stage⟩ := pass
  unfold advance
  dsimp only
  split
  · intro transition htransition
    obtain ⟨machine, -, hmachine⟩ := List.mem_filterMap.mp htransition
    exact hfound _ _ _ _ hmachine
  · trivial
  · trivial
  · exact fun transition htransition ↦ h transition (List.mem_of_mem_drop htransition)
  · exact h

include hfound in
theorem carries_step {codec : Codec} {machines : Machines}
    (h : ∀ pass ∈ machines.passes, Carries P pass) (action : Action) :
    ∀ pass ∈ (step codec sha256 machines action).passes, Carries P pass := by
  cases action with
  | ingest action => exact h
  | abort index => exact fun pass hpass ↦ h pass (List.mem_of_mem_eraseIdx hpass)
  | reconcile now rows =>
    intro pass hpass
    rcases List.mem_append.mp hpass with hold | hnew
    · exact h pass hold
    · rw [List.mem_singleton.mp hnew]
      trivial
  | advance index =>
    unfold step
    dsimp only
    split
    · exact h
    · next pass hpass =>
      intro other hother
      rcases List.mem_or_eq_of_mem_set hother with hold | rfl
      · exact h other hold
      · exact carries_advance hfound (h pass (List.mem_of_getElem? hpass))

theorem carries_transitions {machines : Machines} (h : ∀ pass ∈ machines.passes, Carries P pass)
    (action : Action) : ∀ transition ∈ machines.transitions action, P transition := by
  cases action with
  | advance index =>
    intro transition htransition
    unfold Machines.transitions at htransition
    dsimp only at htransition
    split at htransition
    · next transitions transitioned hstage =>
      obtain ⟨pass, hpass, hpersisting⟩ := Option.map_eq_some_iff.mp hstage
      have hcarries := h pass (List.mem_of_getElem? hpass)
      rw [Carries, hpersisting] at hcarries
      exact hcarries transition (List.mem_of_mem_take htransition)
    · cases htransition
  | ingest action => exact fun _ h ↦ nomatch h
  | reconcile now rows => exact fun _ h ↦ nomatch h
  | abort index => exact fun _ h ↦ nomatch h

end Carries

variable {tables : MachineTables} {prepared : PreparedReport} {worker : Worker}
  {machines : Machines}

variable (sha256) in
theorem tables_advance (tables : MachineTables) (pass : Pass) :
    (advance sha256 tables pass).1 = match pass.stage with
      | .persisting transitions _ => persistAll tables (transitions.take transitionBatch)
      | _ => tables := by
  obtain ⟨now, machines, stage⟩ := pass
  cases stage with
  | loading machines found => cases machines <;> rfl
  | persisting transitions transitioned =>
    cases transitions with
    | nil => rfl
    | cons transition transitions =>
      have hbatch := persistOfflineTransitions_fst tables
        ((transition :: transitions).take transitionBatch)
      simpa only [advance] using hbatch
  | returned result => rfl

theorem timely_closeBlock (h : Timely prepared) : Timely (closeBlock tables prepared) := by
  unfold closeBlock
  split <;> exact h

theorem timely_closeHour (h : Timely prepared) : Timely (closeHour tables prepared) := by
  unfold closeHour
  split
  · split <;> exact h
  · exact h

theorem handlerTimely_arrive {request : Request} {agentKey : Ingest.Containers.AgentKeyRow}
    {now : ℤ} (h : admissible request agentKey now = true) :
    HandlerTimely ⟨request, agentKey, .admitted⟩ := by
  simp only [admissible, Bool.and_eq_true] at h
  have hvalid := Ingest.Validation.isOk_validateReport_iff.mp h.1.2
  refine ⟨?_, fun sample hsample ↦ ?_, fun _ h ↦ nomatch h⟩
  · exact not_not.mp (not_or.mp hvalid.minute).1
  · have hsample := List.all_eq_true.mp hvalid.samples sample hsample
    simp only [Ingest.Validation.sampleValid, Bool.and_eq_true, decide_eq_true_eq] at hsample
    exact hsample.1.1.1.1.2

theorem pending_proceed {handler : Handler} {now : ℤ}
    (h : pending (proceed codec worker handler now).2 = some prepared) :
    prepare codec worker.tables handler.agentKey handler.request now = some prepared ∨
      ∃ before, pending handler.phase = some before ∧
        (prepared = closeBlock worker.tables before ∨
          prepared = closeHour worker.tables before) := by
  obtain ⟨request, agentKey, phase⟩ := handler
  cases phase with
  | persisted duplicate =>
    cases duplicate with
    | true => cases h
    | false =>
      unfold proceed at h
      dsimp only at h
      cases hprepared : prepare codec worker.tables agentKey request now with
      | none =>
        rw [hprepared] at h
        cases h
      | some first =>
        rw [hprepared] at h
        exact .inl h
  | inventoried before => exact .inr ⟨before, rfl, .inl (Option.some.inj h).symm⟩
  | summed before => exact .inr ⟨before, rfl, .inr (Option.some.inj h).symm⟩
  | admitted =>
    unfold proceed at h
    dsimp only at h
    split at h <;> cases h
  | claimed =>
    unfold proceed at h
    dsimp only at h
    split at h
    · cases h
    · split at h <;> cases h
  | catalogued =>
    unfold proceed at h
    dsimp only at h
    split at h <;> cases h
  | classified duplicate => cases h
  | prepared prepared => cases h
  | stored duplicate => cases h
  | ended => cases h

theorem handlerTimely_proceed {handler : Handler} {now : ℤ} (h : HandlerTimely handler) :
    HandlerTimely { handler with
      phase := (proceed codec worker handler now).2 } := by
  refine ⟨h.aligned, h.samples, fun prepared hprepared ↦ ?_⟩
  rcases pending_proceed hprepared with hfirst | ⟨before, hbefore, rfl | rfl⟩
  · obtain ⟨sample, hsample, rfl⟩ := Option.map_eq_some_iff.mp hfirst
    exact ⟨h.aligned, h.samples sample (List.mem_of_getLast? hsample)⟩
  · exact timely_closeBlock (h.prepared before hbefore)
  · exact timely_closeHour (h.prepared before hbefore)

theorem handlersTimely_step (h : ∀ handler ∈ worker.handlers, HandlerTimely handler)
    (action : Ingest.Concurrent.Action) :
    ∀ handler ∈ (Ingest.Concurrent.step codec worker action).handlers, HandlerTimely handler := by
  cases action with
  | arrive request agentKey now =>
    unfold Ingest.Concurrent.step
    dsimp only
    split
    · next hadmissible =>
      intro handler hhandler
      rcases List.mem_append.mp hhandler with hold | hnew
      · exact h handler hold
      · rw [List.mem_singleton.mp hnew]
        exact handlerTimely_arrive hadmissible
    · exact h
  | advance index now =>
    unfold Ingest.Concurrent.step
    dsimp only
    split
    · exact h
    · next handler hhandler =>
      intro other hother
      rw [Worker.setPhase, Ingest.Concurrent.handlers_proceed] at hother
      rcases List.mem_or_eq_of_mem_set hother with hold | rfl
      · exact h other hold
      · exact handlerTimely_proceed (h handler (List.mem_of_getElem? hhandler))
  | abort index =>
    unfold Ingest.Concurrent.step
    dsimp only
    split
    · exact h
    · next handler hhandler =>
      intro other hother
      rcases List.mem_or_eq_of_mem_set hother with hold | rfl
      · exact h other hold
      · have hstep := h handler (List.mem_of_getElem? hhandler)
        exact ⟨hstep.aligned, hstep.samples, fun prepared h ↦
          absurd h (Option.some_ne_none prepared).symm⟩

variable (codec) in
theorem tables_ingest (worker : Worker) (action : Ingest.Concurrent.Action) :
    (Ingest.Concurrent.step codec worker action).tables = worker.tables ∨
      ∃ prepared, (worker.stepping action).bind Handler.batch = some prepared ∧
        (Ingest.Concurrent.step codec worker action).tables =
          durableBatch worker.tables prepared := by
  cases action with
  | arrive request agentKey now =>
    unfold Ingest.Concurrent.step
    dsimp only
    split <;> exact .inl rfl
  | abort index =>
    unfold Ingest.Concurrent.step
    dsimp only
    split <;> exact .inl rfl
  | advance index now =>
    unfold Ingest.Concurrent.step
    simp only [Worker.stepping]
    cases hhandler : worker.handlers[index]? with
    | none => exact .inl rfl
    | some handler =>
      rcases Ingest.Concurrent.tables_proceed worker handler now with hsame |
        ⟨prepared, hphase, hbatch⟩
      · exact .inl hsame
      · refine .inr ⟨prepared, ?_, hbatch⟩
        rw [Option.bind_some, Handler.batch, hphase]

theorem timely_of_batch (h : Sound machines) {action : Action}
    (hbatch : machines.batch action = some prepared) :
    Timely prepared := by
  cases action with
  | ingest action =>
    obtain ⟨handler, hstepping, hhandler⟩ := Option.bind_eq_some_iff.mp hbatch
    have hmem : handler ∈ machines.worker.handlers := by
      cases action with
      | advance index now => exact List.mem_of_getElem? hstepping
      | arrive request agentKey now => cases hstepping
      | abort index => cases hstepping
    refine (h.handlers handler hmem).prepared prepared ?_
    unfold Handler.batch at hhandler
    split at hhandler
    · next hphase =>
      rw [hphase]
      exact hhandler
    · cases hhandler
  | reconcile now rows => cases hbatch
  | advance index => cases hbatch
  | abort index => cases hbatch

variable (codec sha256) in
/-- What an action does to the tables: the batch of a report, the batch of a pass, or nothing. -/
theorem tables_step (machines : Machines) (action : Action) :
    (step codec sha256 machines action).tables = machines.tables ∨
      (∃ prepared, machines.batch action = some prepared ∧
        (step codec sha256 machines action).tables = durableBatch machines.tables prepared) ∨
      (machines.batch action = none ∧ (step codec sha256 machines action).tables =
        persistAll machines.tables (machines.transitions action)) := by
  cases action with
  | ingest action =>
    rcases tables_ingest codec machines.worker action with hsame | hbatch
    · exact .inl hsame
    · exact .inr (.inl hbatch)
  | reconcile now rows => exact .inl rfl
  | abort index => exact .inl rfl
  | advance index =>
    unfold step
    dsimp only
    split
    · exact .inl rfl
    · next pass hpass =>
      have htables : (machines.advancePass sha256 index pass).tables =
          (advance sha256 machines.tables pass).1 := rfl
      have hadvance := tables_advance sha256 machines.tables pass
      rw [htables, hadvance]
      cases hstage : pass.stage with
      | loading rows found => exact .inl rfl
      | returned result => exact .inl rfl
      | persisting transitions transitioned =>
        refine .inr (.inr ⟨rfl, ?_⟩)
        rw [Machines.transitions, hpass, Option.map_some, hstage]

theorem unique_step (h : Sound machines) (action : Action) :
    UniqueKey MachineLatest.machinePk (step codec sha256 machines action).tables.latest := by
  rcases tables_step codec sha256 machines action with hsame |
    ⟨prepared, -, hbatch⟩ | ⟨-, hbatch⟩
  · rw [hsame]
    exact h.unique
  · rw [hbatch]
    exact uniqueKey_durableBatch h.unique
  · rw [hbatch]
    exact uniqueKey_persistAll h.unique

theorem sound_step (machines : Machines) (action : Action) (h : Sound machines) :
    Sound (step codec sha256 machines action) := by
  refine ⟨unique_step h action, ?_, ?_⟩
  · cases action with
    | ingest action => exact handlersTimely_step h.handlers action
    | reconcile now rows => exact h.handlers
    | abort index => exact h.handlers
    | advance index =>
      unfold step
      dsimp only
      split <;> exact h.handlers
  · exact carries_step (fun _ _ _ _ hfound ↦ (live_of_transitionOf hfound).1) h.passes action

variable (codec sha256) in
/-- What an action owes every machine: a change of its state comes with exactly its event, and a
report of an earlier minute changes no latest row. -/
structure Honest (machines : Machines) (action : Action) : Prop where
  logged : ∀ machinePk,
    Steps machinePk machines.tables (step codec sha256 machines action).tables
  older : ∀ prepared, machines.batch action = some prepared →
    ∀ row, machineRow machines.tables prepared.report.machinePk = some row →
      prepared.report.nominalMinuteMs < reportMinute row →
        (step codec sha256 machines action).tables.latest = machines.tables.latest

theorem honest_of_unclashed (machines : Machines) (action : Action) (h : Sound machines)
    (hfree : Unclashed machines action) : Honest codec sha256 machines action := by
  rcases tables_step codec sha256 machines action with hsame |
    ⟨prepared, hprepared, hbatch⟩ | ⟨hnone, hbatch⟩
  · refine ⟨fun machinePk ↦ ?_, fun _ _ _ _ _ ↦ ?_⟩
    · rw [hsame]
      exact (Untouched.refl machinePk machines.tables).steps
    · rw [hsame]
  · refine ⟨fun machinePk ↦ ?_, fun other hother row hrow holder ↦ ?_⟩
    · rw [hbatch]
      exact steps_durableBatch h.unique (hfree.1 prepared hprepared) machinePk
    · obtain rfl := Option.some.inj (hprepared.symm.trans hother)
      rw [hbatch]
      exact latest_durableBatch_of_older (timely_of_batch h hprepared) h.unique hrow holder
  · refine ⟨fun machinePk ↦ ?_, fun prepared hprepared ↦ ?_⟩
    · rw [hbatch]
      exact steps_persistAll h.unique (carries_transitions h.passes action) hfree.2 machinePk
    · rw [hnone] at hprepared
      cases hprepared

/-! ## Whole runs -/

/-- The events of a machine since the first tables lead from its first state to its state now. -/
def EventsChain (first : MachineTables) (machines : Machines) : Prop :=
  ∀ machinePk, ∃ later,
    machineEvents machines.tables machinePk = machineEvents first machinePk ++ later ∧
      Chained StateEvent.previousState StateEvent.currentState (machineState first machinePk) later
        (machineState machines.tables machinePk)

theorem eventsChain_step {first : MachineTables} {action : Action} (h : EventsChain first machines)
    (hhonest : Honest codec sha256 machines action) :
    EventsChain first (step codec sha256 machines action) := by
  intro machinePk
  obtain ⟨later, hevents, hchained⟩ := h machinePk
  have hlogged := hhonest.logged machinePk
  rw [Steps, hevents] at hlogged
  obtain ⟨next, hnext, hstep⟩ := hlogged.suffix
  exact ⟨next, hnext, hchained.logged hstep⟩

theorem sound_idle (replay : Ingest.Replay.ReplayTable) (catalog : Ingest.Containers.Catalog)
    (hunique : UniqueKey MachineLatest.machinePk tables.latest) :
    Sound (idle replay catalog tables) where
  unique := hunique
  handlers _ h := absurd h List.not_mem_nil
  passes _ h := absurd h List.not_mem_nil

/-- In every run of both workers in which no event has the key of a recorded one, every change of
a machine's state appends exactly its event and nothing else appends one, the events of every
machine chain, and reports of earlier minutes change no latest row. -/
theorem events_chain (codec : Codec) (sha256 : Bytes → Bytes) (replay : Ingest.Replay.ReplayTable)
    (catalog : Ingest.Containers.Catalog) (tables : MachineTables)
    (hunique : UniqueKey MachineLatest.machinePk tables.latest) (actions : List Action)
    (hfree : Along (step codec sha256) Unclashed (idle replay catalog tables) actions) :
    Along (step codec sha256) (Honest codec sha256) (idle replay catalog tables) actions ∧
      Visits (step codec sha256) (EventsChain tables) (idle replay catalog tables) actions := by
  have hsound := sound_idle replay catalog hunique
  have hhonest : Along (step codec sha256) (Honest codec sha256) (idle replay catalog tables)
      actions :=
    along_of_along (fun machines action h _ ↦ sound_step machines action h)
      honest_of_unclashed hsound hfree
  refine ⟨hhonest, ?_⟩
  have hstart : EventsChain tables (idle replay catalog tables) := fun machinePk ↦
    ⟨[], (List.append_nil _).symm, chained_nil _ _ _⟩
  exact visits_of_along (fun _ _ h hhonest ↦ eventsChain_step h hhonest) hstart hhonest

def secondMinute (sequence : ℕ) : Request :=
  { minuteRequest sequence 2 with
    report :=
      { (minuteRequest sequence 2).report with
        nominalMinuteMs := 60000
        samples := [{ observedAtMs := 60000 }] } }

/-- A report, and one of the next minute that takes the machine into a maintenance. -/
def maintenanceActions : List Action :=
  (.ingest (.arrive (minuteRequest 1 1) onlyAgent 60000) ::
    List.replicate 9 (.ingest (.advance 0 60000))) ++
  (.ingest (.arrive (secondMinute 2)
      { onlyAgent with maintenanceUntil := some 600000 } 120000) ::
    List.replicate 9 (.ingest (.advance 1 120000)))

/-- Empty tables and no request yet. -/
def freshMachines : Machines := idle (fun _ _ ↦ none) ⟨none, []⟩ ⟨[], [], [], [], []⟩

theorem events_chain_maintenance :
    Along (step prefixCodec id) (Honest prefixCodec id) freshMachines maintenanceActions ∧
      Visits (step prefixCodec id) (EventsChain ⟨[], [], [], [], []⟩) freshMachines
        maintenanceActions :=
  events_chain prefixCodec id (fun _ _ ↦ none) ⟨none, []⟩ ⟨[], [], [], [], []⟩ List.nodup_nil
    maintenanceActions (by decide +kernel)

/-- Two handlers have the same report of the second minute at the same time, one in a maintenance
and one after its end. -/
def clashingActions : List Action :=
  (.ingest (.arrive (minuteRequest 1 1) onlyAgent 60000) ::
    List.replicate 9 (.ingest (.advance 0 60000))) ++
  [.ingest (.arrive (secondMinute 2)
      { onlyAgent with maintenanceUntil := some 600000 } 120000),
    .ingest (.arrive (secondMinute 3) onlyAgent 120000)] ++
  List.replicate 7 (.ingest (.advance 1 120000)) ++
  List.replicate 7 (.ingest (.advance 2 120000)) ++
  [.ingest (.advance 1 120000), .ingest (.advance 2 120000)]

/-- The second batch ends the maintenance, and its event is ignored. -/
theorem clashing_reports_break_chain :
    ¬ ∀ (codec : Codec) (sha256 : Bytes → Bytes) (replay : Ingest.Replay.ReplayTable)
      (catalog : Ingest.Containers.Catalog) (tables : MachineTables) (actions : List Action),
      UniqueKey MachineLatest.machinePk tables.latest →
        Along (step codec sha256) (Honest codec sha256) (idle replay catalog tables) actions ∧
          Visits (step codec sha256) (EventsChain tables) (idle replay catalog tables) actions := by
  intro h
  have hrun := visits_run (h prefixCodec id (fun _ _ ↦ none) ⟨none, []⟩ ⟨[], [], [], [], []⟩
    clashingActions List.nodup_nil).2
  obtain ⟨later, hlater, hchained⟩ := hrun 1
  let last := (run (step prefixCodec id) freshMachines clashingActions).tables
  have hevents : machineEvents last 1 = later := hlater
  have hcurrent : (machineEvents last 1).getLast?.map StateEvent.currentState =
      some (.reported .maintenance) := by decide +kernel
  have hstate : machineState last 1 = some (.reported .healthy) := by decide +kernel
  rw [hevents] at hcurrent
  obtain ⟨event, hevent, hmaintenance⟩ := Option.map_eq_some_iff.mp hcurrent
  have hends : machineState last 1 = some event.currentState := hchained.ends event hevent
  rw [hstate, hmaintenance] at hends
  cases hends

end AlphaPing.System.MachineStates
