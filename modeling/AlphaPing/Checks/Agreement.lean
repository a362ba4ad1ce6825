import AlphaPing.Checks.Persistence
import Mathlib.Data.List.Fold
import Mathlib.Order.Lattice.Nat
import Mathlib.Tactic.IntervalCases

/-!
# One state for a service

The worst check of a service decides what the service shows. The rule is written as a maximum of
ranks in the statements of both workers that persist results, and as a sequence of tests in
`serviceState`, which the checks worker and the state synchronisation have each for themselves.
All of them compute one function of the multiset of the rows.

The statements on the service are evaluated after the batch has written its own row. A result
that is not in `check_latest` then is stale and decides nothing; neither does one whose service
is shown for another workspace, or whose event is recorded already.
-/

namespace AlphaPing.Checks.Agreement

open Library.Tables Library.Runs Library.Transactions Ingest.CheckResults StateSync Persistence

/-! ## The worst check -/

/-- The state of a check, and whether it is critical. -/
abbrev CheckState := ResultState × Bool

/-- How much a check weighs. -/
def severity (check : CheckState) : ℕ :=
  if check.2 ∧ check.1 = .down then 3
  else if check.1 = .down ∨ check.1 = .degraded then 2
  else if check.1 = .healthy then 1
  else 0

/-- What a service shows whose worst check has a rank. -/
def shownAt : ℕ → ServiceState
  | 3 => .down
  | 2 => .degraded
  | 1 => .healthy
  | _ => .unknown

/-- What a service shows, as a function of the multiset of its checks. -/
def aggregate (checks : Multiset CheckState) (maintenance : Bool) : ServiceState :=
  if maintenance then .maintenance else shownAt (checks.map severity).sup

/-- A maintenance that lasts beyond a time. -/
def inMaintenance (maintenanceUntil : Option ℤ) (now : ℤ) : Bool :=
  maintenanceUntil.any fun until_ ↦ decide (now < until_)

theorem severity_le (check : CheckState) : severity check ≤ 3 := by
  obtain ⟨state, critical⟩ := check
  cases state <;> cases critical <;> decide

theorem rank_le (checks : Multiset CheckState) : (checks.map severity).sup ≤ 3 := by
  refine Multiset.sup_le.mpr fun rank hrank ↦ ?_
  obtain ⟨check, -, rfl⟩ := Multiset.mem_map.mp hrank
  exact severity_le check

theorem le_rank_iff {checks : Multiset CheckState} {rank : ℕ} (hrank : 0 < rank) :
    rank ≤ (checks.map severity).sup ↔ ∃ check ∈ checks, rank ≤ severity check := by
  induction checks using Multiset.induction_on with
  | empty => simp [hrank.ne']
  | cons check checks ih =>
    rw [Multiset.map_cons, Multiset.sup_cons, le_sup_iff, ih]
    simp only [Multiset.mem_cons, exists_eq_or_imp]

theorem three_le_severity {check : CheckState} :
    3 ≤ severity check ↔ (check.2 && check.1 == .down) = true := by
  obtain ⟨state, critical⟩ := check
  cases state <;> cases critical <;> decide

theorem two_le_severity {check : CheckState} :
    2 ≤ severity check ↔ (check.1 == .down || check.1 == .degraded) = true := by
  obtain ⟨state, critical⟩ := check
  cases state <;> cases critical <;> decide

theorem one_le_severity {check : CheckState} :
    1 ≤ severity check ↔
      (check.1 == .down || check.1 == .degraded) = true ∨ (check.1 == .healthy) = true := by
  obtain ⟨state, critical⟩ := check
  cases state <;> cases critical <;> decide

/-! ## The functions and the statements -/

/-- `serviceState` of the checks worker, and the one of the state synchronisation: the first of
its tests that succeeds names the rank of the worst check. -/
theorem serviceState_eq_aggregate (checks : List CheckState) (maintenanceUntil : Option ℤ)
    (now : ℤ) :
    serviceState checks maintenanceUntil now =
      aggregate checks (inMaintenance maintenanceUntil now) := by
  have hle := rank_le checks
  have hany : ∀ (rank : ℕ), 0 < rank → (rank ≤ (Multiset.map severity checks).sup ↔
      ∃ check ∈ checks, rank ≤ severity check) := by
    intro rank hrank
    exact le_rank_iff hrank
  have hthree := hany 3 (by decide)
  have htwo := hany 2 (by decide)
  have hone := hany 1 (by decide)
  simp only [three_le_severity, ← List.any_eq_true] at hthree
  simp only [two_le_severity, ← List.any_eq_true] at htwo
  simp only [one_le_severity] at hone
  unfold serviceState aggregate inMaintenance
  generalize (Multiset.map severity checks).sup = rank at hle hthree htwo hone
  split
  · rfl
  · split
    · next hdown =>
      obtain rfl : rank = 3 := le_antisymm hle (hthree.mpr hdown)
      rfl
    · next hdown =>
      have hlt : rank < 3 := lt_of_not_ge fun h ↦ hdown (hthree.mp h)
      split
      · next hdegraded =>
        obtain rfl : rank = 2 := by
          have := htwo.mpr hdegraded
          omega
        rfl
      · next hdegraded =>
        have hlt : rank < 2 := lt_of_not_ge fun h ↦ hdegraded (htwo.mp h)
        split
        · next hhealthy =>
          obtain ⟨check, hcheck, hstate⟩ := List.any_eq_true.mp hhealthy
          obtain rfl : rank = 1 := by
            have := hone.mpr ⟨check, hcheck, .inr hstate⟩
            omega
          rfl
        · next hhealthy =>
          obtain rfl : rank = 0 := by
            by_contra hne
            obtain ⟨check, hcheck, hstate | hstate⟩ := hone.mp (by omega)
            · exact hdegraded (List.any_eq_true.mpr ⟨check, hcheck, hstate⟩)
            · exact hhealthy (List.any_eq_true.mpr ⟨check, hcheck, hstate⟩)
          rfl

/-- The columns of a row that decide the state of its service. -/
def checkState (row : CheckRow) : CheckState := (row.latest.confirmed.state, row.latest.critical)

def serviceRows (rows : List CheckRow) (workspacePk servicePk : ℕ) : List CheckRow :=
  rows.filter fun row ↦ row.latest.workspacePk == workspacePk && row.latest.servicePk == servicePk

def serviceChecks (rows : List CheckRow) (workspacePk servicePk : ℕ) : List CheckState :=
  (serviceRows rows workspacePk servicePk).map checkState

theorem foldl_max_eq_sup (ranks : List ℕ) : ranks.foldl max 0 = (ranks : Multiset ℕ).sup := by
  rw [Multiset.sup_coe, List.foldl_eq_foldr]
  rfl

theorem nextService_eq_aggregate (rows : List CheckRow) (result : ResultRow) :
    nextService rows result =
      aggregate (serviceChecks rows result.workspacePk result.servicePk)
        (inMaintenance result.maintenanceUntil result.observedAt) := by
  have hranks : ((serviceRows rows result.workspacePk result.servicePk).map CheckRow.rank).foldl
      max 0 = (Multiset.map severity
        (serviceChecks rows result.workspacePk result.servicePk)).sup := by
    rw [foldl_max_eq_sup, Multiset.map_coe, serviceChecks, List.map_map]
    rfl
  have hle := rank_le (serviceChecks rows result.workspacePk result.servicePk)
  unfold nextService aggregate inMaintenance
  rw [← serviceRows, hranks]
  generalize (Multiset.map severity _).sup = rank at hle
  split
  · rfl
  · interval_cases rank <;> rfl

/-- The columns of a row that the state synchronisation reads. -/
def stateRow (row : CheckRow) : CheckStateRow where
  checkPk := row.latest.checkPk
  workspacePk := row.latest.workspacePk
  servicePk := row.latest.servicePk
  state := row.latest.confirmed.state
  critical := row.latest.critical
  configRevision := row.configRevision

theorem stateRows_serviceChecks (rows : List CheckRow) (job : Job) :
    (((rows.map stateRow).filter fun row ↦
        row.workspacePk == job.workspacePk && row.servicePk == job.servicePk).map fun row ↦
          (row.state, row.critical)) = serviceChecks rows job.workspacePk job.servicePk := by
  rw [serviceChecks, serviceRows, List.filter_map, List.map_map]
  rfl

theorem advance_reading (sync : Sync) (rows : List CheckRow) (index : ℕ) (worker : Worker)
    (job : Job) (maintenanceUntil : Option ℤ) :
    StateSync.advance { sync with checkLatest := rows.map stateRow } index
        { worker with stage := .reading maintenanceUntil } job =
      { sync with checkLatest := rows.map stateRow }.setWorker index
        { worker with
          stage := .comparing maintenanceUntil
            (aggregate (serviceChecks rows job.workspacePk job.servicePk)
              (inMaintenance maintenanceUntil worker.now)) } := by
  rw [← serviceState_eq_aggregate, ← stateRows_serviceChecks]
  rfl

/-! ## What a service shows -/

def shownState (store : Store) (result : ResultRow) : Option ServiceState :=
  (store.serviceLatest.find? fun row ↦
    row.workspacePk == result.workspacePk && row.servicePk == result.servicePk).map
      ServiceLatest.state

/-- A service without a row is unknown. -/
def knownState (store : Store) (result : ResultRow) : ServiceState :=
  (shownState store result).getD .unknown

def serviceEvent (result : ResultRow) (previous next : ServiceState) : ServiceEvent where
  workspacePk := result.workspacePk
  servicePk := result.servicePk
  occurredAt := result.observedAt
  eventId := result.resultId
  previousState := previous
  currentState := next
  reasonCode := serviceReason next

/-- The event of a result has not been recorded. -/
def unrecorded (store : Store) (result : ResultRow) : Bool :=
  store.events.all fun event ↦
    event.key != (result.servicePk, result.observedAt, result.resultId)

/-- The service of a result is not shown for another workspace. -/
def owned (store : Store) (result : ResultRow) : Bool :=
  store.serviceLatest.all fun row ↦
    row.servicePk != result.servicePk || row.workspacePk == result.workspacePk

/-- A result, once it is among the latest ones, decides what its service shows. -/
def decides (latest : List CheckRow) (store : Store) (result : ResultRow) : Bool :=
  isCurrent latest result && owned store result && unrecorded store result

/-- The service shows the state, and a change has its event. -/
structure Settled (result : ResultRow) (next : ServiceState) (before after : Store) : Prop where
  shown : shownState after result = some next
  events : after.events = before.events ++
    if knownState before result = next then []
    else [serviceEvent result (knownState before result) next]

/-- The service shows what it has shown, and nothing is recorded. -/
structure Kept (result : ResultRow) (before after : Store) : Prop where
  shown : knownState after result = knownState before result
  events : after.events = before.events

theorem Kept.refl (result : ResultRow) (store : Store) : Kept result store store := ⟨rfl, rfl⟩

variable {result : ResultRow} {store : Store}

theorem owned_iff :
    owned store result = true ↔
      (store.serviceLatest.any fun row ↦ row.servicePk == result.servicePk &&
        row.workspacePk != result.workspacePk) = false := by
  rw [owned, List.all_eq_true, List.any_eq_false]
  refine forall₂_congr fun row _ ↦ ?_
  cases hservice : row.servicePk == result.servicePk <;>
    cases hworkspace : row.workspacePk == result.workspacePk <;> simp [bne, hservice, hworkspace]

theorem shownState_eq_lookup (h : owned store result = true) :
    shownState store result =
      (lookup ServiceLatest.servicePk result.servicePk store.serviceLatest).map
        ServiceLatest.state := by
  have hfind : ∀ rows : List ServiceLatest, (rows.all fun row ↦
      row.servicePk != result.servicePk || row.workspacePk == result.workspacePk) = true →
      (rows.find? fun row ↦ row.workspacePk == result.workspacePk &&
        row.servicePk == result.servicePk) =
        lookup ServiceLatest.servicePk result.servicePk rows := by
    intro rows hrows
    induction rows with
    | nil => rfl
    | cons row rows ih =>
      obtain ⟨hrow, hrest⟩ := (Bool.and_eq_true _ _).mp hrows
      have hsame : (row.workspacePk == result.workspacePk && row.servicePk == result.servicePk) =
          decide (row.servicePk = result.servicePk) := by
        by_cases hservice : row.servicePk = result.servicePk
        · have hworkspace : row.workspacePk = result.workspacePk := by simpa [hservice] using hrow
          simp [hservice, hworkspace]
        · simp [hservice]
      rw [lookup, List.find?_cons, List.find?_cons, hsame, ih hrest]
      rfl
  rw [shownState, hfind _ h]

theorem shownState_upsert (h : owned store result = true) (next : ServiceState)
    (reasonCode : String) (events : List ServiceEvent) :
    shownState { store with
      events
      serviceLatest := upsertState store.serviceLatest (serviceRow result next reasonCode) }
        result = some next := by
  have howned : owned { store with
      events
      serviceLatest := upsertState store.serviceLatest (serviceRow result next reasonCode) }
        result = true := by
    refine List.all_eq_true.mpr fun shown hshown ↦ ?_
    rcases mem_upsert hshown with hold | rfl | ⟨old, -, -, rfl⟩
    · exact List.all_eq_true.mp h shown hold
    · simp [serviceRow]
    · simp [serviceRow]
  have hfound : lookup ServiceLatest.servicePk result.servicePk
      (upsertState store.serviceLatest (serviceRow result next reasonCode)) =
        some (serviceRow result next reasonCode) := by
    have hservice : (serviceRow result next reasonCode).servicePk = result.servicePk := rfl
    rw [upsertState, lookup_replace, hservice, if_pos rfl]
    cases hold : lookup ServiceLatest.servicePk result.servicePk store.serviceLatest with
    | none => rfl
    | some old =>
      obtain ⟨hmem, hkey⟩ := lookup_some hold
      have hworkspace : (old.workspacePk == result.workspacePk) = true := by
        simpa [hkey] using List.all_eq_true.mp h old hmem
      exact congrArg some (if_pos hworkspace)
  rw [shownState_eq_lookup howned, hfound]
  rfl

/-! ## The statements on a service -/

theorem transitionEvent_eq (store : Store) (result : ResultRow) :
    transitionEvent store result =
      if isCurrent store.latest result = true ∧ owned store result = true ∧
          knownState store result ≠ nextService store.latest result then
        some (serviceEvent result (knownState store result) (nextService store.latest result))
      else none := by
  simp only [owned_iff]
  rfl

theorem unrecorded_iff (previous next : ServiceState) :
    unrecorded store result = true ↔
      (store.events.any fun old ↦ old.key == (serviceEvent result previous next).key) = false := by
  rw [unrecorded, List.all_eq_true, List.any_eq_false]
  refine forall₂_congr fun event _ ↦ ?_
  rw [bne, Bool.not_eq_true']
  exact Bool.eq_false_iff

theorem recordTransition_of_decides (h : decides store.latest store result = true) :
    recordTransition store result =
      if knownState store result = nextService store.latest result then store
      else { store with
        events := store.events ++ [serviceEvent result (knownState store result)
          (nextService store.latest result)]
        serviceLatest := upsertState store.serviceLatest
          (serviceRow result (nextService store.latest result)
            (serviceReason (nextService store.latest result))) } := by
  obtain ⟨hdecides, hunrecorded⟩ := (Bool.and_eq_true _ _).mp h
  obtain ⟨hcurrent, howned⟩ := (Bool.and_eq_true _ _).mp hdecides
  rw [recordTransition, transitionEvent_eq]
  by_cases hsame : knownState store result = nextService store.latest result
  · rw [if_neg fun hall ↦ hall.2.2 hsame, if_pos hsame]
  · rw [if_pos ⟨hcurrent, howned, hsame⟩, if_neg hsame]
    dsimp only
    rw [(unrecorded_iff _ _).mp hunrecorded]
    rfl

theorem recordTransition_of_not_decides (h : decides store.latest store result = false) :
    recordTransition store result = store := by
  rw [recordTransition, transitionEvent_eq]
  split
  · rfl
  · next event hevent =>
    obtain ⟨⟨hcurrent, howned, -⟩, hsame⟩ := Option.ite_none_right_eq_some.mp hevent
    obtain rfl := Option.some.inj hsame
    have hrecorded : unrecorded store result = false := by
      simpa [decides, hcurrent, howned] using h
    split
    · rfl
    · next hnew =>
      have hunrecorded := (unrecorded_iff (knownState store result)
        (nextService store.latest result)).mpr (Bool.eq_false_iff.mpr hnew)
      exact absurd (hunrecorded.symm.trans hrecorded) Bool.noConfusion

theorem shownState_of_no_row
    (h : (store.serviceLatest.any fun row ↦ row.servicePk == result.servicePk) = false) :
    shownState store result = none := by
  rw [shownState, Option.map_eq_none_iff, List.find?_eq_none]
  intro row hrow hfound
  obtain ⟨-, hservice⟩ := (Bool.and_eq_true _ _).mp hfound
  exact List.any_eq_false.mp h row hrow hservice

theorem recordInitial_cases (store : Store) (result : ResultRow) :
    recordInitial store result = store ∨
      shownState store result = none ∧
        shownState (recordInitial store result) result = some .unknown ∧
          (recordInitial store result).events = store.events := by
  unfold recordInitial
  split
  · next hinitial =>
    have hnone := shownState_of_no_row hinitial.2.2
    refine .inr ⟨hnone, ?_, rfl⟩
    rw [shownState, Option.map_eq_none_iff] at hnone
    simp [shownState, List.find?_append, hnone, serviceRow]
  · exact .inl rfl

theorem shownState_recordInitial (h : decides store.latest store result = true)
    (hnone : shownState store result = none) :
    shownState (recordInitial store result) result = some .unknown := by
  obtain ⟨hdecides, hunrecorded⟩ := (Bool.and_eq_true _ _).mp h
  obtain ⟨hcurrent, howned⟩ := (Bool.and_eq_true _ _).mp hdecides
  have hfree : (store.serviceLatest.any fun row ↦ row.servicePk == result.servicePk) = false := by
    rw [shownState_eq_lookup howned, Option.map_eq_none_iff, lookup, List.find?_eq_none] at hnone
    refine List.any_eq_false.mpr fun row hrow hservice ↦ hnone row hrow ?_
    exact decide_eq_true (beq_iff_eq.mp hservice)
  have hevent : (store.events.any fun event ↦
      event.workspacePk == result.workspacePk && event.servicePk == result.servicePk &&
        event.occurredAt == result.observedAt && event.eventId == result.resultId) = false := by
    refine List.any_eq_false.mpr fun event hevent hsame ↦ ?_
    have hkey := List.all_eq_true.mp hunrecorded event hevent
    simp only [Bool.and_eq_true, beq_iff_eq] at hsame
    simp [ServiceEvent.key, hsame] at hkey
  rcases recordInitial_cases store result with hsame | ⟨-, hshown, -⟩
  · unfold recordInitial at hsame
    rw [if_pos ⟨hcurrent, hevent, hfree⟩] at hsame
    exact absurd (congrArg (List.length ∘ Store.serviceLatest) hsame) (by simp)
  · exact hshown

/-- A result that decides has its service show the aggregate of the stored rows, with an event
exactly when that is a change. -/
theorem settled_serviceStatements (h : decides store.latest store result = true) :
    Settled result (nextService store.latest result) store (serviceStatements store result) := by
  rw [serviceStatements, recordTransition_of_decides h]
  by_cases hsame : knownState store result = nextService store.latest result
  · rw [if_pos hsame]
    have hevents : store.events = store.events ++
        if knownState store result = nextService store.latest result then []
        else [serviceEvent result (knownState store result)
          (nextService store.latest result)] := by
      rw [if_pos hsame, List.append_nil]
    cases hshown : shownState store result with
    | none =>
      have hunknown : nextService store.latest result = .unknown := by
        rw [← hsame, knownState, hshown]
        rfl
      refine ⟨hunknown ▸ shownState_recordInitial h hshown, ?_⟩
      rcases recordInitial_cases store result with hkept | ⟨-, -, hkept⟩
      · rw [hkept]
        exact hevents
      · rw [hkept]
        exact hevents
    | some state =>
      have hstate : state = nextService store.latest result := by
        rw [← hsame, knownState, hshown]
        rfl
      rcases recordInitial_cases store result with hkept | ⟨hnone, -⟩
      · rw [hkept]
        exact ⟨hshown.trans (congrArg some hstate), hevents⟩
      · rw [hnone] at hshown
        cases hshown
  · rw [if_neg hsame]
    obtain ⟨hdecides, -⟩ := (Bool.and_eq_true _ _).mp h
    have hshown := shownState_upsert ((Bool.and_eq_true _ _).mp hdecides).2
      (nextService store.latest result) (serviceReason (nextService store.latest result))
      (store.events ++ [serviceEvent result (knownState store result)
        (nextService store.latest result)])
    rcases recordInitial_cases _ result with hkept | ⟨hnone, -⟩
    · rw [hkept]
      exact ⟨hshown, by rw [if_neg hsame]⟩
    · rw [hshown] at hnone
      cases hnone

theorem kept_serviceStatements (h : decides store.latest store result = false) :
    Kept result store (serviceStatements store result) := by
  rw [serviceStatements, recordTransition_of_not_decides h]
  rcases recordInitial_cases store result with hkept | ⟨hnone, hshown, hevents⟩
  · rw [hkept]
    exact .refl result store
  · refine ⟨?_, hevents⟩
    rw [knownState, knownState, hshown, hnone]
    rfl

/-! ## Persisting -/

namespace Call

def resultRow (codec : CheckCodec) : PersistCall → ResultRow
  | .agent batch => batchResult batch
  | .central call => call.resultRow codec

def write (codec : CheckCodec) (previous : Option CheckRow) : PersistCall → Store → Store
  | .agent batch => writeBatch codec batch previous
  | .central call => call.write codec previous

/-- A batch of an earlier time than the row that was read writes only its slot. -/
def historical (previous : Option CheckRow) : PersistCall → Bool
  | .agent batch => previous.any fun row ↦ decide (batch.observedAt < row.latest.observedAt)
  | .central _ => false

/-- What a service is to show after a result. -/
def aggregate (codec : CheckCodec) (call : PersistCall) (latest : List CheckRow) : ServiceState :=
  let result := resultRow codec call
  Agreement.aggregate (serviceChecks latest result.workspacePk result.servicePk)
    (inMaintenance result.maintenanceUntil result.observedAt)

end Call

/-- The service of a result shows the aggregate of the rows as they are after the batch, and
exactly a change has its event. -/
def Agrees (codec : CheckCodec) (call : PersistCall) (before after : Store) : Prop :=
  Settled (Call.resultRow codec call) (Call.aggregate codec call after.latest) before after

/-- The batch of a call that has read `previous`. -/
structure Evaluates (codec : CheckCodec) (call : PersistCall) (previous : Option CheckRow)
    (before after : Store) : Prop where
  written : after = Call.write codec previous call before
  agrees : Call.historical previous call = false →
    decides after.latest before (Call.resultRow codec call) = true →
      Agrees codec call before after
  kept : Call.historical previous call = true ∨
    decides after.latest before (Call.resultRow codec call) = false →
      Kept (Call.resultRow codec call) before after

theorem evaluates_serviceStatements {codec : CheckCodec} {call : PersistCall}
    {previous : Option CheckRow} {before : Store} (blocks : List (Ingest.Blocks.Block StoredResult))
    (latest : List CheckRow)
    (hwrite : Call.write codec previous call before =
      serviceStatements { before with blocks, latest } (Call.resultRow codec call))
    (hcurrent : Call.historical previous call = false) :
    Evaluates codec call previous before (Call.write codec previous call before) := by
  have hlatest : (Call.write codec previous call before).latest = latest := by
    rw [hwrite, (serviceStatements_frame _ _).2]
  refine ⟨rfl, fun _ hdecides ↦ ?_, fun hkept ↦ ?_⟩
  · rw [hlatest] at hdecides
    let written : Store := { before with blocks, latest }
    have hsettled : Settled _ _ written (serviceStatements written _) :=
      settled_serviceStatements hdecides
    rw [nextService_eq_aggregate] at hsettled
    rw [Agrees, hlatest, hwrite]
    exact ⟨hsettled.shown, hsettled.events⟩
  · rw [hlatest, hcurrent] at hkept
    have hnot := hkept.resolve_left Bool.false_ne_true
    let written : Store := { before with blocks, latest }
    have hkept : Kept _ written (serviceStatements written _) := kept_serviceStatements hnot
    rw [hwrite]
    exact ⟨hkept.shown, hkept.events⟩

theorem evaluates_write (codec : CheckCodec) (call : PersistCall) (previous : Option CheckRow)
    (before : Store) :
    Evaluates codec call previous before (Call.write codec previous call before) := by
  cases call with
  | central call => exact evaluates_serviceStatements _ _ rfl rfl
  | agent batch =>
    cases hhistorical : Call.historical previous (.agent batch) with
    | false =>
      exact evaluates_serviceStatements
        ((batchSlot codec batch).perform (max · 2) before.blocks)
        (batchLatest before.latest batch previous)
        (if_neg (ne_true_of_eq_false hhistorical)) hhistorical
    | true =>
      have hwrite : Call.write codec previous (.agent batch) before =
          { before with blocks := (batchSlot codec batch).perform (max · 2) before.blocks } :=
        if_pos hhistorical
      refine ⟨rfl, fun hcurrent ↦ ?_, fun _ ↦ ?_⟩
      · rw [hhistorical] at hcurrent
        cases hcurrent
      · rw [hwrite]
        exact ⟨rfl, rfl⟩

/-! ## Interleaved writers -/

/-- A call of either worker, or a change that anything else makes. -/
inductive Writer where
  | persist (call : PersistCall)
  | other (change : Store → Store)

def writes (codec : CheckCodec) : Writer → Transaction Store
  | .persist call => persist codec call
  | .other change => .commit change

/-- What a call leaves behind holds of its batch, whatever it has read. -/
def AfterPersist (Transition : PersistCall → Store → Store → Prop) :
    Writer → Store → Store → Prop
  | .persist call => Transition call
  | .other _ => fun _ _ ↦ True

theorem makes_rollupReads {Change : (Store → Store) → Prop} (nominalMinute : ℤ)
    {next : Transaction Store} (h : next.Makes Change) :
    (rollupReads nominalMinute next).Makes Change := by
  unfold rollupReads
  split
  · refine .read _ _ fun _ ↦ ?_
    split
    · exact .read _ _ fun _ ↦ h
    · exact h
  · exact h

theorem makes_persist {codec : CheckCodec} {call : PersistCall} {Change : (Store → Store) → Prop}
    (h : ∀ previous, Change (Call.write codec previous call)) :
    (persist codec call).Makes Change := by
  cases call with
  | agent batch =>
    refine .read _ _ fun slot ↦ ?_
    cases slot with
    | some held => exact .done
    | none => exact .read _ _ fun previous ↦ makes_rollupReads _ (.commit _ (h previous))
  | central call =>
    refine .read _ _ fun previous ↦ ?_
    split
    · exact .done
    · exact makes_rollupReads _ (.commit _ (h previous))

/-- Each of the rules computes one function of the multiset of the rows of a service; in every run
of persisting workers and other writers, each batch that is persisted has its service show that
function of the rows as they are then, with an event exactly for a change, unless its result is
historical or decides nothing: then nothing that is shown changes. -/
theorem services_agree (codec : CheckCodec) :
    (∀ (rows : List CheckRow) (result : ResultRow),
      nextService rows result =
          aggregate (serviceChecks rows result.workspacePk result.servicePk)
            (inMaintenance result.maintenanceUntil result.observedAt) ∧
        serviceState (serviceChecks rows result.workspacePk result.servicePk)
            result.maintenanceUntil result.observedAt =
          aggregate (serviceChecks rows result.workspacePk result.servicePk)
            (inMaintenance result.maintenanceUntil result.observedAt)) ∧
    (∀ (sync : Sync) (rows : List CheckRow) (index : ℕ) (worker : Worker) (job : Job)
      (maintenanceUntil : Option ℤ),
      StateSync.advance { sync with checkLatest := rows.map stateRow } index
          { worker with stage := .reading maintenanceUntil } job =
        { sync with checkLatest := rows.map stateRow }.setWorker index
          { worker with
            stage := .comparing maintenanceUntil
              (aggregate (serviceChecks rows job.workspacePk job.servicePk)
                (inMaintenance maintenanceUntil worker.now)) }) ∧
    ∀ (store : Store) (actions : List (Action Writer)),
      Along (step (writes codec))
        (Commits (writes codec) (AfterPersist fun call before after ↦
          ∃ previous, Evaluates codec call previous before after)) (start store) actions := by
  refine ⟨fun rows result ↦ ?_, advance_reading,
    fun store actions ↦ along_commits (fun writer ↦ ?_) store actions⟩
  · exact ⟨nextService_eq_aggregate rows result, serviceState_eq_aggregate _ _ _⟩
  · cases writer with
    | persist call =>
      exact makes_persist fun previous store ↦ ⟨previous, evaluates_write codec call previous store⟩
    | other change => exact .commit change fun _ ↦ trivial

/-- A batch of the second minute, in a maintenance. -/
def maintenanceBatch : ResultBatch :=
  { failedBatch 60000 60100 [2] with
    config := { sampleCheck with failureConfirmations := 1, maintenanceUntil := some 120000 } }

/-- The maintenance is ended, and the batch of the first minute comes after the second. -/
def lateBatch : List (Action Writer) :=
  [.call (.persist (.agent maintenanceBatch)), .call (.persist firstMinute)] ++
    [.advance 0, .advance 0, .advance 0, .advance 1, .advance 1, .advance 1]

/-- The late batch leaves its service in maintenance, though it is persisted with none. -/
theorem late_batch_disagrees :
    ¬ ∀ (codec : CheckCodec) (store : Store) (actions : List (Action Writer)),
      Along (step (writes codec)) (Commits (writes codec) (AfterPersist (Agrees codec)))
        (start store) actions := by
  intro h
  have hlast := (h sampleCodec emptyStore lateBatch).2.2.2.2.2.2.2.1
  rcases hlast with ⟨-, hcommitted⟩ | ⟨request, hcommitted, hagrees⟩
  · exact absurd (congrArg List.length hcommitted) (by decide)
  · have hrequest : [Writer.persist firstMinute] = [request] := List.append_cancel_left hcommitted
    obtain rfl := List.singleton_inj.mp hrequest
    have hshown := hagrees.shown
    exact absurd hshown (by decide)

end AlphaPing.Checks.Agreement
