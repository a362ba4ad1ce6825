import AlphaPing.Checks.Persistence
import AlphaPing.Ingest.Rollups

/-!
# Rollups of checks

Both workers write the rollups of a check, and a check may change its executor within a block, so
each reads payloads that the other one has stored. They close blocks and hours like the ingest
worker does for machines, round the mean latency differently, and the checks worker adds the
rounded mean of the block it closes to the hour.

The status buckets that are written next to the rollups are in the module after this one.
-/

namespace AlphaPing.Checks.Rollups

open Protocol Library.Tables Library.Runs Library.Closing Library.Transactions Ingest.Blocks
  Ingest.Summaries Ingest.CheckResults StateSync Persistence
open Ingest.Telemetry (saturatingAdd saturatingMul maxU64)
open Ingest.Rollups (Arrival receive emptyReception firstArrival closingArrival)

/-! ## Payloads -/

inductive Executor where
  | agent
  | central
  deriving DecidableEq

/-- The worker that has stored a payload. -/
def executorOf : StoredResult → Executor
  | .batch _ => .agent
  | .check _ => .central

def stateOf : StoredResult → ResultState
  | .batch batch => batch.state
  | .check payload => payload.state.toResultState

def latencyOf : StoredResult → Option ℕ
  | .batch batch => batch.latencyMs
  | .check payload => payload.latencyMs

/-- What a worker reads of a payload: the ingest worker needs a latency that is a `u32`, the
checks worker a state that it knows. -/
def readStored (executor : Executor) (payload : StoredResult) : Option (ResultState × Option ℕ) :=
  match executor with
  | .agent =>
    if (latencyOf payload).all fun latency ↦ decide (latency ≤ 4294967295) then
      some (stateOf payload, latencyOf payload)
    else none
  | .central =>
    if stateOf payload = .unknown then none else some (stateOf payload, latencyOf payload)

/-- A payload that both workers read. -/
def Legible (payload : StoredResult) : Prop :=
  stateOf payload ≠ .unknown ∧ ∀ latency ∈ latencyOf payload, latency ≤ 4294967295

theorem readStored_of_legible {payload : StoredResult} (h : Legible payload)
    (executor : Executor) : readStored executor payload = some (stateOf payload, latencyOf payload) := by
  obtain ⟨hstate, hlatency⟩ := h
  cases executor with
  | agent => exact if_pos (by simpa [Option.all_eq_true] using hlatency)
  | central => exact if_neg hstate

/-! ## Rollups -/

/-- `Rollup` of the ingest worker and `CheckRollup` of the checks worker. -/
structure CheckRollup where
  total : ℕ := 0
  healthy : ℕ := 0
  degraded : ℕ := 0
  down : ℕ := 0
  latencyTotal : ℕ := 0
  latencyCount : ℕ := 0
  latencyMax : Option ℕ := none

/-- A row of `check_rollups_5m` or `check_rollups_1h`. -/
structure CheckRollupRow where
  checkPk : ℕ
  workspacePk : ℕ
  bucketStart : ℤ
  totalCount : ℕ
  healthyCount : ℕ
  degradedCount : ℕ
  downCount : ℕ
  latencyAvgMs : Option ℕ
  latencyMaxMs : Option ℕ

/-- A sum of `u64` saturates; a sum of numbers does not. -/
def plus : Executor → ℕ → ℕ → ℕ
  | .agent => saturatingAdd
  | .central => (· + ·)

def times : Executor → ℕ → ℕ → ℕ
  | .agent => saturatingMul
  | .central => (· * ·)

namespace CheckRollup

/-- `add` and `addResult`. -/
def add (executor : Executor) (rollup : CheckRollup) (state : ResultState)
    (latency : Option ℕ) : CheckRollup where
  total := rollup.total + 1
  healthy := if state = .healthy then rollup.healthy + 1 else rollup.healthy
  degraded := if state = .degraded then rollup.degraded + 1 else rollup.degraded
  down := if state = .down then rollup.down + 1 else rollup.down
  latencyTotal := (latency.map (plus executor rollup.latencyTotal)).getD rollup.latencyTotal
  latencyCount := if latency.isSome then rollup.latencyCount + 1 else rollup.latencyCount
  latencyMax := (latency.map fun value ↦ max (rollup.latencyMax.getD 0) value).or rollup.latencyMax

/-- `add_stored` and `addStoredRollup`. -/
def addStored (executor : Executor) (rollup : CheckRollup) (stored : CheckRollupRow) :
    CheckRollup where
  total := plus executor rollup.total stored.totalCount
  healthy := plus executor rollup.healthy stored.healthyCount
  degraded := plus executor rollup.degraded stored.degradedCount
  down := plus executor rollup.down stored.downCount
  latencyTotal := (stored.latencyAvgMs.map fun average ↦ plus executor rollup.latencyTotal
    (times executor average stored.totalCount)).getD rollup.latencyTotal
  latencyCount := if stored.latencyAvgMs.isSome then
      plus executor rollup.latencyCount stored.totalCount
    else rollup.latencyCount
  latencyMax := (stored.latencyMaxMs.map fun value ↦ max (rollup.latencyMax.getD 0) value).or
    rollup.latencyMax

/-- `average`, and the rounding of `prepareRollupStatement`. -/
def average (executor : Executor) (rollup : CheckRollup) : Option ℕ :=
  if rollup.latencyCount = 0 then none
  else match executor with
    | .agent => some (min (rollup.latencyTotal / rollup.latencyCount) 4294967295)
    | .central => some ((2 * rollup.latencyTotal + rollup.latencyCount) / (2 * rollup.latencyCount))

/-- The row that `rollup_statement` binds. -/
def row (executor : Executor) (rollup : CheckRollup) (checkPk workspacePk : ℕ) (start : ℤ) :
    CheckRollupRow where
  checkPk := checkPk
  workspacePk := workspacePk
  bucketStart := start
  totalCount := rollup.total
  healthyCount := rollup.healthy
  degradedCount := rollup.degraded
  downCount := rollup.down
  latencyAvgMs := rollup.average executor
  latencyMaxMs := rollup.latencyMax

/-- The block that is being closed is added to the hour: by the ingest worker as it is, by the
checks worker as the row that it has just prepared. -/
def addBucket (executor : Executor) (hour five : CheckRollup) (prepared : CheckRollupRow) :
    CheckRollup :=
  match executor with
  | .agent =>
    { total := saturatingAdd hour.total five.total
      healthy := saturatingAdd hour.healthy five.healthy
      degraded := saturatingAdd hour.degraded five.degraded
      down := saturatingAdd hour.down five.down
      latencyTotal := saturatingAdd hour.latencyTotal five.latencyTotal
      latencyCount := saturatingAdd hour.latencyCount five.latencyCount
      latencyMax := match hour.latencyMax, five.latencyMax with
        | some left, some right => some (max left right)
        | left, right => left.or right }
  | .central => hour.addStored .central prepared

end CheckRollup

/-- The payloads of a block that a worker reads, added up. -/
def foldStored (executor : Executor) (payloads : List StoredResult) : CheckRollup :=
  (payloads.filterMap (readStored executor)).foldl
    (fun rollup read ↦ rollup.add executor read.1 read.2) {}

/-! ## Rows -/

def checkKeys : RowKeys CheckRollupRow where
  resourcePk := CheckRollupRow.checkPk
  workspacePk := CheckRollupRow.workspacePk
  bucketStart := CheckRollupRow.bucketStart

/-- `rollup_statement` and `prepareRollupStatement`. -/
def rollupStatement (row : CheckRollupRow) : RowWrite checkKeys where
  new := row
  condition old := old.workspacePk == row.workspacePk
  change old := { row with
    checkPk := old.checkPk
    workspacePk := old.workspacePk
    bucketStart := old.bucketStart }
  condition_of old h := beq_iff_eq.mpr h
  key_change _ := rfl
  change_eq old hkey hworkspace := by
    obtain ⟨hcheck, hstart⟩ := Prod.mk.inj hkey
    simp only [checkKeys] at hcheck hstart hworkspace
    simp only [hcheck, hstart, hworkspace]

/-- The worker that closes a block: the one that has stored its last slot. -/
def closer (payloads : List StoredResult) : Executor :=
  (payloads.getLast?.map executorOf).getD .agent

/-- The row of a block. -/
def fiveRow (payloads : List StoredResult) (checkPk workspacePk : ℕ) (start : ℤ) :
    CheckRollupRow :=
  (foldStored (closer payloads) payloads).row (closer payloads) checkPk workspacePk start

/-- The row of an hour, from the rows of its blocks and the payloads of its last block. -/
def hourRow (rows : List CheckRollupRow) (payloads : List StoredResult) (checkPk workspacePk : ℕ)
    (hour : ℤ) : CheckRollupRow :=
  let executor := closer payloads
  ((rows.foldl (CheckRollup.addStored executor) {}).addBucket executor
    (foldStored executor payloads)
      (fiveRow payloads checkPk workspacePk (bucketStart hour 11))).row executor checkPk
        workspacePk (hour * 3600000)

/-- The rows as functions of what they are made of. -/
def checkRules (owner : ℕ → ℕ) : Rules HourOf StoredResult CheckRollupRow 11 where
  closeBucket group bucket payloads :=
    fiveRow payloads group.1 (owner group.1) (bucketStart group.2 bucket)
  closeGroup group rows payloads :=
    hourRow rows payloads group.1 (owner group.1) group.2

/-! ## Counts -/

inductive CountColumn where
  | total
  | healthy
  | degraded
  | down
  deriving DecidableEq

def CountColumn.weight (column : CountColumn) (state : ResultState) : ℕ :=
  match column with
  | total => 1
  | healthy => if state = .healthy then 1 else 0
  | degraded => if state = .degraded then 1 else 0
  | down => if state = .down then 1 else 0

variable (column : CountColumn) {call : PersistCall}

theorem CountColumn.weight_le_one (state : ResultState) : column.weight state ≤ 1 := by
  cases column with
  | total => exact le_rfl
  | healthy | degraded | down =>
    unfold weight
    dsimp only
    split <;> omega

def CountColumn.ofRollup (column : CountColumn) (rollup : CheckRollup) : ℕ :=
  match column with
  | total => rollup.total
  | healthy => rollup.healthy
  | degraded => rollup.degraded
  | down => rollup.down

def CountColumn.ofRow (column : CountColumn) (row : CheckRollupRow) : ℕ :=
  match column with
  | total => row.totalCount
  | healthy => row.healthyCount
  | degraded => row.degradedCount
  | down => row.downCount

variable (executor : Executor)

theorem CountColumn.ofRow_row (rollup : CheckRollup) (checkPk workspacePk : ℕ) (start : ℤ) :
    column.ofRow (rollup.row executor checkPk workspacePk start) = column.ofRollup rollup := by
  cases column <;> rfl

theorem CountColumn.ofRollup_add (rollup : CheckRollup) (state : ResultState) (latency : Option ℕ) :
    column.ofRollup (rollup.add executor state latency) =
      column.ofRollup rollup + column.weight state := by
  cases column <;> simp only [ofRollup, weight, CheckRollup.add] <;> split <;> rfl

theorem CountColumn.ofRollup_addStored (rollup : CheckRollup) (stored : CheckRollupRow) :
    column.ofRollup (rollup.addStored executor stored) =
      plus executor (column.ofRollup rollup) (column.ofRow stored) := by
  cases column <;> rfl

theorem plus_eq {first second : ℕ} (h : first + second ≤ maxU64) :
    plus executor first second = first + second := by
  cases executor with
  | agent => exact Nat.min_eq_left h
  | central => rfl

theorem CountColumn.ofRollup_addBucket (hour five : CheckRollup) (checkPk workspacePk : ℕ)
    (start : ℤ) :
    column.ofRollup (hour.addBucket executor five (five.row executor checkPk workspacePk start)) =
      plus executor (column.ofRollup hour) (column.ofRollup five) := by
  cases executor <;> cases column <;> rfl

theorem CountColumn.ofRollup_foldStored {payloads : List StoredResult}
    (h : ∀ payload ∈ payloads, Legible payload) :
    column.ofRollup (foldStored executor payloads) =
      (payloads.map fun payload ↦ column.weight (stateOf payload)).sum := by
  have hread : payloads.filterMap (readStored executor) =
      payloads.map fun payload ↦ (stateOf payload, latencyOf payload) := by
    rw [← List.filterMap_eq_map]
    exact List.filterMap_congr fun payload hpayload ↦
      readStored_of_legible (h payload hpayload) executor
  have hfold : ∀ (reads : List (ResultState × Option ℕ)) (rollup : CheckRollup),
      column.ofRollup (reads.foldl (fun rollup read ↦ rollup.add executor read.1 read.2) rollup) =
        column.ofRollup rollup + (reads.map fun read ↦ column.weight read.1).sum := by
    intro reads
    induction reads with
    | nil => exact fun _ ↦ rfl
    | cons read rest ih =>
      intro rollup
      rw [List.foldl_cons, ih, column.ofRollup_add, List.map_cons, List.sum_cons, Nat.add_assoc]
  rw [foldStored, hread, hfold, List.map_map]
  cases column <;> simp [ofRollup, Function.comp_def]

theorem CountColumn.ofRollup_foldl_addStored (rows : List CheckRollupRow) (rollup : CheckRollup)
    (h : column.ofRollup rollup + (rows.map column.ofRow).sum ≤ maxU64) :
    column.ofRollup (rows.foldl (CheckRollup.addStored executor) rollup) =
      column.ofRollup rollup + (rows.map column.ofRow).sum := by
  induction rows generalizing rollup with
  | nil => rfl
  | cons row rest ih =>
    rw [List.map_cons, List.sum_cons] at h ⊢
    have hcount := column.ofRollup_addStored executor rollup row
    rw [plus_eq executor (by omega)] at hcount
    rw [List.foldl_cons, ih _ (by omega), hcount, Nat.add_assoc]

def checkTally (owner : ℕ → ℕ) : Tally (checkRules owner) 4 CountColumn where
  valid := Legible
  weight column payload := column.weight (stateOf payload)
  count column row := column.ofRow row
  limit := 1
  presence := .total
  weight_pos _ _ := Nat.one_pos
  weight_le column payload _ := column.weight_le_one (stateOf payload)
  count_closeBucket column group bucket payloads h := by
    change column.ofRow (fiveRow payloads _ _ _) = _
    rw [fiveRow, column.ofRow_row, column.ofRollup_foldStored _ h]
  count_closeGroup column group rows payloads hlength hrows hpayloads hsum := by
    have hstored := List.sum_le_card_nsmul (rows.map column.ofRow) ((4 + 1) * 1)
      (by simpa using hrows)
    rw [List.length_map, smul_eq_mul] at hstored
    have hbound := hstored.trans (Nat.mul_le_mul_right _ hlength)
    have hfold := column.ofRollup_foldStored (closer payloads) hpayloads
    have hhour := column.ofRollup_foldl_addStored (closer payloads) rows {} (by
      cases column <;> simp only [CountColumn.ofRollup, maxU64] <;> omega)
    have hnone : column.ofRollup {} = 0 := by cases column <;> rfl
    change column.ofRow (hourRow rows payloads _ _ _) = _
    rw [hourRow, column.ofRow_row, fiveRow, column.ofRollup_addBucket, hfold, hhour, hnone,
      Nat.zero_add, plus_eq]
    simp only [maxU64]
    omega

/-! ## Accepting results -/

def callKey : PersistCall → ℕ × ℤ
  | .agent batch => (batch.config.checkPk, batch.nominalMinute)
  | .central call => (call.config.telemetryPk, call.nominalMinute)

def callWorkspace : PersistCall → ℕ
  | .agent batch => batch.config.workspacePk
  | .central call => call.config.workspacePk

def callSlot (codec : CheckCodec) : PersistCall → SlotWrite StoredResult
  | .agent batch => batchSlot codec batch
  | .central call => call.slot codec

/-- The schema version that a call stores. -/
def callVersion : PersistCall → ℕ → ℕ
  | .agent _ => (max · 2)
  | .central _ => fun _ ↦ 1

/-- Whether a call goes on to its batch of statements. -/
def writes (codec : CheckCodec) (store : Store) : PersistCall → Bool
  | .agent batch =>
    (readSlot store.blocks batch.config.checkPk batch.config.workspacePk
      batch.nominalMinute).isNone
  | .central call =>
    let previous := previousRow store.latest call.config.workspacePk call.config.telemetryPk
    !((previous.any fun row ↦ decide (call.config.configRevision < row.configRevision)) ||
      previous.any fun row ↦ row.latest.resultId == call.resultId codec)

def callResult : PersistCall → ResultState × Option ℕ
  | .agent batch => (batch.state, batch.latencyMs)
  | .central call => (call.result.state.toResultState, call.result.latencyMs)

def callExecutor : PersistCall → Executor
  | .agent _ => .agent
  | .central _ => .central

def closedFive (blocks : List (Block StoredResult)) (call : PersistCall) : CheckRollup :=
  let key := callKey call
  (foldStored (callExecutor call)
    (earlierPayloads blocks key.1 (callWorkspace call) (blockStart key.2))).add
      (callExecutor call) (callResult call).1 (callResult call).2

def closedHour (rows : List CheckRollupRow) (blocks : List (Block StoredResult))
    (call : PersistCall) : CheckRollup :=
  let key := callKey call
  let executor := callExecutor call
  let five := closedFive blocks call
  let hourStart := key.2 / 3600000 * 3600000
  ((selectHour checkKeys rows key.1 (callWorkspace call) hourStart (blockStart key.2)).foldl
    (CheckRollup.addStored executor) {}).addBucket executor five
      (five.row executor key.1 (callWorkspace call) (blockStart key.2))

/-- The statement on `check_rollups_5m` that a call brings. -/
def dueFive (blocks : List (Block StoredResult)) (call : PersistCall) :
    Option (RowWrite checkKeys) :=
  let key := callKey call
  if slotOf key.2 = 4 then
    some (rollupStatement ((closedFive blocks call).row (callExecutor call) key.1
      (callWorkspace call) (blockStart key.2)))
  else none

/-- The statement on `check_rollups_1h` that a call brings. -/
def dueHour (rows : List CheckRollupRow) (blocks : List (Block StoredResult))
    (call : PersistCall) : Option (RowWrite checkKeys) :=
  let key := callKey call
  if slotOf key.2 = 4 ∧ key.2 % 3600000 / 60000 = 59 then
    some (rollupStatement ((closedHour rows blocks call).row (callExecutor call) key.1
      (callWorkspace call) (key.2 / 3600000 * 3600000)))
  else none

/-- The tables of results and rollups, and the calls whose results were written; the newest one
comes first. -/
structure Recording where
  store : Store
  rollups5m : List CheckRollupRow
  rollups1h : List CheckRollupRow
  accepted : List PersistCall

/-- A call by itself, with its rollups. -/
def record (codec : CheckCodec) (recording : Recording) (call : PersistCall) : Recording :=
  let store := (persist codec call).alone recording.store
  if writes codec recording.store call then
    { store
      rollups5m := performDue (dueFive recording.store.blocks call) recording.rollups5m
      rollups1h := performDue (dueHour recording.rollups5m recording.store.blocks call)
        recording.rollups1h
      accepted := call :: recording.accepted }
  else { recording with store }

def emptyRecording : Recording := ⟨⟨[], [], [], []⟩, [], [], []⟩

theorem alone_rollupReads (minute : ℤ) (next : Transaction Store) (store : Store) :
    (rollupReads minute next).alone store = next.alone store := by
  unfold rollupReads
  split
  · rw [Transaction.alone]
    split
    · rw [Transaction.alone]
    · rfl
  · rfl

variable {codec : CheckCodec} {results : List ProbeResult}

theorem blocks_alone {store : Store} (h : writes codec store call = true) :
    ((persist codec call).alone store).blocks =
      (callSlot codec call).perform (callVersion call) store.blocks := by
  cases call with
  | agent batch =>
    have hnone := Option.isNone_iff_eq_none.mp h
    rw [persist, Persistence.persistBatch, Transaction.alone, hnone, Option.map_none]
    dsimp only
    rw [Transaction.alone, alone_rollupReads, Transaction.alone, writeBatch]
    split
    · rfl
    · rw [(serviceStatements_frame _ _).1]
      rfl
  | central call =>
    simp only [writes, Bool.not_eq_true'] at h
    rw [persist, persistCheckResult, Transaction.alone, h]
    rw [if_neg Bool.false_ne_true, alone_rollupReads, Transaction.alone, CentralResult.write,
      (serviceStatements_frame _ _).1]
    rfl

theorem alone_of_not_writes {store : Store} (h : writes codec store call = false) :
    (persist codec call).alone store = store := by
  cases call with
  | agent batch =>
    obtain ⟨held, hheld⟩ := Option.ne_none_iff_exists'.mp
      (fun hnone ↦ Bool.noConfusion (h.symm.trans (Option.isNone_iff_eq_none.mpr hnone)))
    rw [persist, Persistence.persistBatch, Transaction.alone, hheld]
    rfl
  | central call =>
    simp only [writes, Bool.not_eq_false'] at h
    rw [persist, persistCheckResult, Transaction.alone, if_pos h]
    rfl

/-! ## Results as they are executed -/

/-- A batch of an agent is compiled from results; the latency of an execution is a `u32`. -/
def Honest (codec : CheckCodec) : PersistCall → Prop
  | .agent batch => ∃ agentId results, compileBatch codec.toResultCodec batch.config
      batch.nominalMinute agentId results = some batch
  | .central call => ∀ latency ∈ call.result.latencyMs, latency ≤ 4294967295

def callPayload (codec : CheckCodec) (call : PersistCall) : StoredResult :=
  (callSlot codec call).columns.payload

theorem fromProbe_ne_unknown {number : ℕ} {state : ResultState}
    (h : ResultState.fromProbe number = some state) : state ≠ .unknown := by
  rintro rfl
  unfold ResultState.fromProbe at h
  split at h <;> cases h

theorem worstState_ne_unknown {state : ResultState} (h : worstState results = some state) :
    state ≠ .unknown := by
  have hfold : ∀ (states : List ResultState) (first : ResultState), first ≠ .unknown →
      (∀ other ∈ states, other ≠ .unknown) → states.foldl worse first ≠ .unknown := by
    intro states
    induction states with
    | nil => exact fun _ hfirst _ ↦ hfirst
    | cons other rest ih =>
      intro first hfirst hrest
      obtain ⟨hother, hrest⟩ := List.forall_mem_cons.mp hrest
      refine ih _ ?_ hrest
      unfold worse
      split
      · exact hother
      · exact hfirst
  unfold worstState at h
  split at h
  · cases h
  · next first rest hstates =>
    obtain rfl := Option.some.inj h
    have hall : ∀ other ∈ first :: rest, other ≠ .unknown := by
      rw [← hstates]
      intro other hother
      obtain ⟨result, -, hresult⟩ := List.mem_filterMap.mp hother
      exact fromProbe_ne_unknown hresult
    obtain ⟨hfirst, hrest⟩ := List.forall_mem_cons.mp hall
    exact hfold rest first hfirst hrest

theorem meanLatency_le {latency : ℕ} (h : meanLatency results = some latency) :
    latency ≤ 4294967295 := by
  unfold meanLatency at h
  split at h
  · cases h
  · obtain rfl := Option.some.inj h
    exact Nat.min_le_right _ _

theorem payload_of_compileBatch {codec : ResultCodec} {config : AssignedCheck} {minute : ℤ}
    {agentId : String} {batch : ResultBatch}
    (h : compileBatch codec config minute agentId results = some batch) :
    batch.payload.state = batch.state ∧ batch.payload.latencyMs = batch.latencyMs ∧
      batch.state ≠ .unknown ∧ ∀ latency ∈ batch.latencyMs, latency ≤ 4294967295 := by
  simp only [compileBatch] at h
  split at h
  · next observedAt state _ hstate =>
    obtain rfl := Option.some.inj h
    exact ⟨rfl, rfl, worstState_ne_unknown hstate, fun _ ↦ meanLatency_le⟩
  · cases h

theorem legible_of_honest (h : Honest codec call) :
    Legible (callPayload codec call) ∧
      callResult call = (stateOf (callPayload codec call), latencyOf (callPayload codec call)) := by
  cases call with
  | agent batch =>
    obtain ⟨agentId, results, hcompiled⟩ := h
    obtain ⟨hstate, hlatency, hknown, hle⟩ := payload_of_compileBatch hcompiled
    refine ⟨⟨?_, ?_⟩, Prod.ext hstate.symm hlatency.symm⟩
    · exact fun hunknown ↦ hknown (hstate.symm.trans hunknown)
    · exact fun latency hmem ↦ hle latency (hlatency.symm.trans hmem)
  | central call =>
    refine ⟨⟨?_, h⟩, rfl⟩
    change call.result.state.toResultState ≠ .unknown
    cases call.result.state <;> nofun

/-! ## The tables as a ledger -/

def entryOf (codec : CheckCodec) (call : PersistCall) : Entry HourOf StoredResult 4 11 where
  place := placeOf (callKey call).1 (callKey call).2
  payload := callPayload codec call

/-- The tables show the ledger of the accepted calls. -/
structure Recorded (codec : CheckCodec) (owner : ℕ → ℕ) (recording : Recording) : Prop where
  shows : Shows checkKeys owner
    ⟨recording.store.blocks, recording.rollups5m, recording.rollups1h⟩
    (ledgerOf (checkRules owner) (recording.accepted.map (entryOf codec)))
  valid : (checkTally owner).Valid (recording.accepted.map (entryOf codec))

theorem recorded_empty (codec : CheckCodec) (owner : ℕ → ℕ) :
    Recorded codec owner emptyRecording where
  shows := shows_empty
  valid := ⟨fun _ h ↦ absurd h List.not_mem_nil, List.nodup_nil⟩

/-- A result is written only into an empty slot. -/
structure Accepts (codec : CheckCodec) (owner : ℕ → ℕ) (recording : Recording)
    (call : PersistCall) : Prop where
  honest : Honest codec call
  workspace : callWorkspace call = owner (callKey call).1
  empty : writes codec recording.store call = true → readSlot recording.store.blocks
    (callKey call).1 (callWorkspace call) (callKey call).2 = none

section Due

variable {codec : CheckCodec} {owner : ℕ → ℕ} {call : PersistCall}
  {tables : SummaryTables StoredResult CheckRollupRow}
  {ledger : Ledger HourOf StoredResult CheckRollupRow 4 11}

theorem closer_concat (payloads : List StoredResult) (call : PersistCall) :
    closer (payloads ++ [callPayload codec call]) = callExecutor call := by
  rw [closer, List.getLast?_concat]
  cases call <;> rfl

theorem closedFive_eq (h : Honest codec call) (blocks : List (Block StoredResult)) :
    closedFive blocks call = foldStored (callExecutor call)
      (earlierPayloads blocks (callKey call).1 (callWorkspace call)
        (blockStart (callKey call).2) ++ [callPayload codec call]) := by
  obtain ⟨hlegible, hresult⟩ := legible_of_honest h
  have hread : [callPayload codec call].filterMap (readStored (callExecutor call)) =
      [callResult call] := by
    rw [List.filterMap_cons, readStored_of_legible hlegible, hresult]
    rfl
  rw [closedFive, foldStored, foldStored, List.filterMap_append, List.foldl_append, hread]
  rfl

theorem dueFive_writesAt (howner : callWorkspace call = owner (callKey call).1)
    (blocks : List (Block StoredResult)) :
    WritesAt owner (callKey call).1 (blockStart (callKey call).2) (dueFive blocks call) := by
  intro due hdue
  unfold dueFive at hdue
  dsimp only at hdue
  split at hdue
  · obtain rfl := Option.some.inj hdue
    exact ⟨rfl, howner⟩
  · cases hdue

theorem dueHour_writesAt (howner : callWorkspace call = owner (callKey call).1)
    (rows : List CheckRollupRow) (blocks : List (Block StoredResult)) :
    WritesAt owner (callKey call).1 (hourOf (callKey call).2 * 3600000)
      (dueHour rows blocks call) := by
  intro due hdue
  unfold dueHour at hdue
  dsimp only at hdue
  split at hdue
  · obtain rfl := Option.some.inj hdue
    exact ⟨rfl, howner⟩
  · cases hdue

theorem dueFive_new (h : Shows checkKeys owner tables ledger) (hhonest : Honest codec call)
    (howner : callWorkspace call = owner (callKey call).1) :
    (dueFive tables.blocks call).map RowWrite.new =
      if slotOf (callKey call).2 = 4 then
        (accept (checkRules owner) ledger (entryOf codec call)).bucketRows
          ((callKey call).1, hourOf (callKey call).2) (bucketOf (callKey call).2)
      else none := by
  unfold dueFive
  dsimp only
  split
  · next hslot =>
    rw [entryOf, h.bucketRows_accept hslot, Option.map_some, closedFive_eq hhonest]
    simp only [checkRules, rollupStatement, bucketStart_of, fiveRow, closer_concat, ← howner]
  · rfl

theorem dueHour_new (h : Shows checkKeys owner tables ledger) (hhonest : Honest codec call)
    (howner : callWorkspace call = owner (callKey call).1) :
    (dueHour tables.fiveMinutes tables.blocks call).map RowWrite.new =
      if slotOf (callKey call).2 = 4 ∧ bucketOf (callKey call).2 = 11 then
        (accept (checkRules owner) ledger (entryOf codec call)).groupRows
          ((callKey call).1, hourOf (callKey call).2)
      else none := by
  have hcloses : slotOf (callKey call).2 = 4 ∧ (callKey call).2 % 3600000 / 60000 = 59 ↔
      slotOf (callKey call).2 = 4 ∧ bucketOf (callKey call).2 = 11 := by
    refine and_congr_right fun hslot ↦ ?_
    simp only [slotOf, bucketOf, blockStart, Fin.ext_iff] at hslot ⊢
    omega
  unfold dueHour
  dsimp only
  simp only [hcloses]
  split
  · next hlast =>
    have hstart := bucketStart_of (callKey call).2
    rw [hlast.2] at hstart
    rw [entryOf, h.groupRows_accept hlast.1 hlast.2, Option.map_some]
    simp only [checkRules, rollupStatement, hourRow, fiveRow, closer_concat, ← howner, closedHour,
      closedFive_eq hhonest, hstart]
    rfl
  · rfl

end Due

theorem recorded_record {owner : ℕ → ℕ} (recording : Recording) (call : PersistCall)
    (h : Recorded codec owner recording) (haccepts : Accepts codec owner recording call) :
    Recorded codec owner (record codec recording call) := by
  obtain ⟨hhonest, howner, hempty⟩ := haccepts
  unfold record
  dsimp only
  split
  · next hwrites =>
    have hnone := hempty hwrites
    refine ⟨?_, ⟨?_, ?_⟩⟩
    · rw [blocks_alone hwrites]
      have hfive := dueFive_writesAt howner recording.store.blocks
      have hhour := dueHour_writesAt howner recording.rollups5m recording.store.blocks
      have hfive_new := dueFive_new h.shows hhonest howner
      have hhour_new := dueHour_new h.shows hhonest howner
      cases call with
      | agent batch =>
        exact shows_accept h.shows (batchSlot codec batch) _ howner hnone (checkRules owner) rfl
          hfive hhour hfive_new hhour_new
      | central call =>
        exact shows_accept h.shows (call.slot codec) _ howner hnone (checkRules owner) rfl
          hfive hhour hfive_new hhour_new
    · exact List.forall_mem_cons.mpr ⟨(legible_of_honest hhonest).1, h.valid.payloads⟩
    · exact List.nodup_cons.mpr ⟨h.shows.placeOf_not_mem howner hnone, h.valid.distinct⟩
  · next hwrites =>
    rw [alone_of_not_writes (Bool.eq_false_of_not_eq_true hwrites)]
    exact h

/-! ## What the rollups cover -/

/-- The five-minute row of a minute's block is the fold over what the block stores. -/
def FiveSettled (recording : Recording) (checkPk workspacePk : ℕ) (minute : ℤ) : Prop :=
  let payloads := storedPayloads recording.store.blocks checkPk workspacePk (blockStart minute)
  payloads ≠ [] → lookup checkKeys.key (checkPk, blockStart minute) recording.rollups5m =
    some (fiveRow payloads checkPk workspacePk (blockStart minute))

/-- The hourly row of a minute's hour counts the results that its blocks store. -/
def HourSettled (recording : Recording) (checkPk workspacePk : ℕ) (minute : ℤ) : Prop :=
  let payloads := storedHour recording.store.blocks checkPk workspacePk (hourOf minute)
  payloads ≠ [] → ∃ row, lookup checkKeys.key (checkPk, hourOf minute * 3600000)
    recording.rollups1h = some row ∧ ∀ column : CountColumn,
      column.ofRow row = (payloads.map fun payload ↦ column.weight (stateOf payload)).sum

section Recorded

variable {codec : CheckCodec} {owner : ℕ → ℕ} {recording : Recording}

theorem place_entryOf (call : PersistCall) :
    (entryOf codec call).place = placeOf (callKey call).1 (callKey call).2 :=
  rfl

theorem Recorded.stored (h : Recorded codec owner recording) {call : PersistCall}
    (hcall : call ∈ recording.accepted) :
    (readSlot recording.store.blocks (callKey call).1 (owner (callKey call).1)
      (callKey call).2).map SlotColumns.payload = some (callPayload codec call) :=
  h.shows.readSlot_of_mem h.valid.distinct (List.mem_map_of_mem hcall) rfl

theorem Recorded.fiveSettled_iff (h : Recorded codec owner recording) (checkPk : ℕ) (minute : ℤ) :
    FiveSettled recording checkPk (owner checkPk) minute ↔
      ClosedBlock callKey checkPk minute recording.accepted := by
  rw [← bucketClosedLast_iff place_entryOf, ← h.valid.bucketSettled_iff,
    h.shows.bucketSettled_iff]
  simp only [FiveSettled, checkRules, bucketStart_of]

theorem Recorded.hourSettled_iff (h : Recorded codec owner recording) (checkPk : ℕ) (minute : ℤ) :
    HourSettled recording checkPk (owner checkPk) minute ↔
      ClosedHour callKey checkPk minute recording.accepted := by
  rw [← groupClosedLast_iff place_entryOf, ← h.valid.groupSettled_iff,
    h.shows.groupSettled_iff (checkTally owner)]
  rfl

end Recorded

/-- Every accepted result is stored; the rollups of a block and of an hour cover what is stored
exactly when the block and the hour were closed last. -/
structure RollupsFollow (codec : CheckCodec) (owner : ℕ → ℕ) (recording : Recording) : Prop where
  stored : ∀ call ∈ recording.accepted, (readSlot recording.store.blocks (callKey call).1
    (owner (callKey call).1) (callKey call).2).map SlotColumns.payload =
      some (callPayload codec call)
  five : ∀ checkPk minute, FiveSettled recording checkPk (owner checkPk) minute ↔
    ClosedBlock callKey checkPk minute recording.accepted
  hour : ∀ checkPk minute, HourSettled recording checkPk (owner checkPk) minute ↔
    ClosedHour callKey checkPk minute recording.accepted

theorem rollupsFollow_of_recorded {owner : ℕ → ℕ} {recording : Recording}
    (h : Recorded codec owner recording) : RollupsFollow codec owner recording where
  stored _ := h.stored
  five := h.fiveSettled_iff
  hour := h.hourSettled_iff

/-- Whatever the order in which reports and results are accepted: the five-minute row covers its
block exactly when the last slot of the block was accepted last, and the hourly row counts its
hour exactly when in addition the last minute of the hour was accepted last. -/
theorem rollups_follow_iff_closedLast (codec : CheckCodec) (machineOwner checkOwner : ℕ → ℕ)
    (arrivals : List Arrival) (calls : List PersistCall)
    (hfrom : ∀ arrival ∈ arrivals, arrival.From machineOwner)
    (haccepts : Along (record codec) (Accepts codec checkOwner) emptyRecording calls) :
    Visits (receive codec.toCodec) (Ingest.Rollups.RollupsFollow machineOwner)
        emptyReception arrivals ∧
      Visits (record codec) (RollupsFollow codec checkOwner) emptyRecording calls :=
  ⟨Ingest.Rollups.visits_rollupsFollow codec.toCodec hfrom,
    visits_mono (fun _ ↦ rollupsFollow_of_recorded)
      (visits_of_along recorded_record (recorded_empty codec checkOwner) haccepts)⟩

/-- A result of the checks worker. -/
def centralCall (minute : ℤ) : PersistCall :=
  .central
    { config :=
        { id := "check"
          telemetryPk := 1
          workspacePk := 1
          servicePk := 1
          maintenanceUntil := none
          configRevision := 1
          critical := true
          thresholds := ⟨3, 2, by decide, by decide⟩ }
      nominalMinute := minute
      observedAt := minute
      result := ⟨.healthy, some 20, none, none⟩ }

theorem accepts_centralCalls :
    Along (record sampleCodec) (Accepts sampleCodec fun _ ↦ 1) emptyRecording
      [centralCall 240000, centralCall 0] := by
  have hhonest : ∀ minute, Honest sampleCodec (centralCall minute) := by
    intro minute
    simp [Honest, centralCall]
  have hblocks : (record sampleCodec emptyRecording (centralCall 240000)).store.blocks =
      (callSlot sampleCodec (centralCall 240000)).perform (fun _ ↦ 1) [] :=
    blocks_alone rfl
  refine ⟨⟨hhonest _, rfl, fun _ ↦ rfl⟩, ⟨hhonest _, rfl, fun _ ↦ ?_⟩, trivial⟩
  rw [hblocks]
  rfl

/-- The last minute of a block and then its first one, of a machine and of a check. -/
theorem rollups_follow_iff_closedLast_late :
    Visits (receive sampleCodec.toCodec) (Ingest.Rollups.RollupsFollow fun _ ↦ 1)
        emptyReception
        [closingArrival, firstArrival] ∧
      Visits (record sampleCodec) (RollupsFollow sampleCodec fun _ ↦ 1) emptyRecording
        [centralCall 240000, centralCall 0] :=
  rollups_follow_iff_closedLast sampleCodec _ _ _ _ (by simp [Arrival.From,
      closingArrival, firstArrival, Ingest.Rollups.soleAgent])
    accepts_centralCalls

/-- A report that comes after the last one of its block is in no rollup. -/
theorem late_report_not_in_rollup :
    ¬ Ingest.Rollups.FiveSettled
      (run (receive prefixCodec) emptyReception
        [closingArrival, firstArrival]).tables 1 1 0 := by
  intro h
  have hrow := h (by decide)
  exact absurd hrow (by decide)

end AlphaPing.Checks.Rollups
