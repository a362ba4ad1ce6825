import AlphaPing.Checks.Persistence
import AlphaPing.Library.Leases

/-!
# The scheduler of the checks worker

A run takes the lease of the scheduler, loads the checks that are due and works through them in
batches of five. Each check is claimed for its slot, executed, compared with its claim once more and
persisted; when a call of a database fails after the claim, the claim is taken back, also when the
result was stored and only the answer was lost.

Between any two calls other runs may take their steps, and a run that makes no more steps has
crashed. The liveness of machines and the jobs of service states, which a run reconciles as well,
are left out; so is what decides the result of an execution.
-/

namespace AlphaPing.Checks.Scheduler

open Library.Tables Library.Runs Library.Transactions Library.Leases Persistence

/-! ## Checks -/

/-- A row of `check_configs`, with what its joins read. -/
structure CheckConfigRow where
  config : CentralCheck
  enabled : Bool
  /-- `executor_kind = 'cloudflare'`. -/
  central : Bool
  /-- `kind IN ('http', 'tcp')`. -/
  supported : Bool
  parentDeleted : Bool
  intervalSeconds : ℕ
  phaseSeconds : ℕ
  timeoutMs : ℕ
  retryCount : ℕ
  lastClaimedSlot : ℤ

def CheckConfigRow.telemetryPk (row : CheckConfigRow) : ℕ := row.config.telemetryPk

/-- `check_configs`: a check keeps its identifier and its workspace, whatever else changes. -/
structure ConfigTable (identity : ℕ → String × ℕ) where
  rows : List CheckConfigRow
  unique : UniqueKey CheckConfigRow.telemetryPk rows
  identified : ∀ row ∈ rows,
    (row.config.id, row.config.workspacePk) = identity row.telemetryPk

def dueSlot (nowMs : ℤ) (intervalSeconds phaseSeconds : ℕ) : ℤ :=
  (nowMs / 1000 - phaseSeconds) / intervalSeconds * intervalSeconds + phaseSeconds

/-- The condition of `loadDueChecks`; the quotient of the statement is truncated. -/
def isDue (scheduledAt : ℤ) (row : CheckConfigRow) : Bool :=
  !row.parentDeleted && row.enabled && row.central && row.supported &&
    decide (row.lastClaimedSlot < Int.tdiv (scheduledAt / 1000 - row.phaseSeconds)
      row.intervalSeconds * row.intervalSeconds + row.phaseSeconds)

def maxCandidates : ℕ := 500

def maxConcurrency : ℕ := 5

def runWorkBudgetMs : ℕ := 12 * 60000

def retryDelayMs : ℕ := 100

def schedulerLeaseMs : ℕ := 15 * 60000

section Table

variable {identity : ℕ → String × ℕ}

def loadDueChecks (configs : ConfigTable identity) (scheduledAt : ℤ) (cursor : ℕ) :
    List CheckConfigRow :=
  selectOrdered (fun row ↦ toLex (if cursor < row.telemetryPk then 0 else 1, row.telemetryPk))
    maxCandidates (configs.rows.filter (isDue scheduledAt))

/-- A statement that sets `last_claimed_slot`. -/
def ConfigTable.setClaim (configs : ConfigTable identity) (condition : CheckConfigRow → Bool)
    (slot : ℤ) : ConfigTable identity where
  rows := updateWhere condition (fun row ↦ { row with lastClaimedSlot := slot }) configs.rows
  unique := configs.unique.updateWhere fun _ ↦ rfl
  identified row hrow := by
    obtain ⟨old, hold, ⟨-, rfl⟩ | ⟨-, rfl⟩⟩ := mem_updateWhere.mp hrow
    · exact configs.identified old hold
    · exact configs.identified _ hold

end Table

/-- The row that was loaded is still the one of the table. -/
def sameRevision (row old : CheckConfigRow) : Bool :=
  old.config.id == row.config.id && old.telemetryPk == row.telemetryPk &&
    old.config.configRevision == row.config.configRevision

/-- The condition of the claim. -/
def claimable (row : CheckConfigRow) (slot : ℤ) (old : CheckConfigRow) : Bool :=
  sameRevision row old && old.enabled && old.central && decide (old.lastClaimedSlot < slot)

/-- The condition of the second look at the claim. -/
def currentClaim (row : CheckConfigRow) (slot : ℤ) (old : CheckConfigRow) : Bool :=
  sameRevision row old && old.enabled && old.central && old.lastClaimedSlot == slot

/-- The condition under which a claim is taken back. -/
def ownClaim (row : CheckConfigRow) (slot : ℤ) (old : CheckConfigRow) : Bool :=
  sameRevision row old && old.lastClaimedSlot == slot

/-! ## Runs -/

/-- How far `processCheck` has come. -/
inductive Phase where
  | pending
  | claimed
  | executed (result : ExecutedCheck)
  | current (result : ExecutedCheck)
  | persisting (call : CentralResult) (rest : Transaction Store)
  | failed

structure Processing where
  row : CheckConfigRow
  phase : Phase

def Processing.checkPk (processing : Processing) : ℕ := processing.row.telemetryPk

structure SchedulerLease where
  checkCursor : ℕ
  machineCursor : ℕ
  leaseUntil : ℕ

/-- A run of `runScheduled`. -/
structure SchedulerRun where
  scheduledAt : ℤ
  lease : SchedulerLease
  deadline : ℕ
  loaded : Bool
  waiting : List CheckConfigRow
  active : List Processing
  lastCursor : Option ℕ
  released : Bool

def SchedulerRun.slot (run : SchedulerRun) (row : CheckConfigRow) : ℤ :=
  dueSlot run.scheduledAt row.intervalSeconds row.phaseSeconds

/-- `canStart`: the longest check of the batch ends before the deadline. -/
def SchedulerRun.canStart (run : SchedulerRun) (clock : ℕ) : Bool :=
  decide (clock + ((run.waiting.take maxConcurrency).map fun row ↦
    row.timeoutMs * (row.retryCount + 1) + row.retryCount * retryDelayMs).foldl max 0 ≤
      run.deadline)

/-- A result that has changed the row of its check. -/
structure Written where
  checkPk : ℕ
  configRevision : ℕ
  slot : ℤ
  deriving DecidableEq

/-- The databases, the runs in the order in which they took the lease, and the results that have
changed `check_latest`; the newest one comes first. -/
structure Scheduling (identity : ℕ → String × ℕ) where
  clock : ℕ
  schedulerState : Option SchedulerLease
  configs : ConfigTable identity
  store : Store
  runs : List SchedulerRun
  written : List Written

/-- What happens to one check of a run: its next call is made, or the call fails. -/
inductive Event where
  | proceed (result : ExecutedCheck)
  | fail

inductive SchedulerAction (identity : ℕ → String × ℕ) where
  | tick (elapsed : ℕ)
  | configure (configs : ConfigTable identity)
  | acquire (scheduledAt : ℤ)
  | load (index : ℕ)
  | startBatch (index : ℕ)
  | process (index checkPk : ℕ) (event : Event)
  | release (index machineCursor : ℕ)

/-- The upsert of `check_latest` changes a row or inserts one. -/
def changesLatest (call : CentralResult) (latest : List CheckRow) : Bool :=
  (lookup CheckRow.checkPk call.config.telemetryPk latest).all fun old ↦
    old.latest.workspacePk == call.config.workspacePk &&
      (decide (old.configRevision < call.config.configRevision) ||
        (call.config.configRevision == old.configRevision &&
          decide (old.latest.observedAt ≤ call.observedAt)))

section Step

variable {identity : ℕ → String × ℕ}

/-- The scheduler before its first run. -/
def Scheduling.start (configs : ConfigTable identity) : Scheduling identity where
  clock := 0
  schedulerState := none
  configs := configs
  store := emptyStore
  runs := []
  written := []

def Scheduling.setRun (scheduling : Scheduling identity) (index : ℕ) (run : SchedulerRun) :
    Scheduling identity :=
  { scheduling with runs := scheduling.runs.set index run }

/-- A check of a run comes to another phase, or it is finished. -/
def SchedulerRun.setPhase (run : SchedulerRun) (checkPk : ℕ) : Option Phase → SchedulerRun
  | some phase =>
    { run with
      active := updateWhere (fun processing ↦ processing.checkPk == checkPk)
        (fun processing ↦ { processing with phase }) run.active }
  | none => { run with active := run.active.filter fun processing ↦ processing.checkPk != checkPk }

/-- `acquireSchedulerLease`. -/
def acquireRun (scheduling : Scheduling identity) (scheduledAt : ℤ) : Scheduling identity :=
  let held := (scheduling.schedulerState.map SchedulerLease.leaseUntil).getD 0
  if held ≤ scheduling.clock then
    let lease : SchedulerLease :=
      { checkCursor := (scheduling.schedulerState.map SchedulerLease.checkCursor).getD 0
        machineCursor := (scheduling.schedulerState.map SchedulerLease.machineCursor).getD 0
        leaseUntil := scheduling.clock + schedulerLeaseMs }
    { scheduling with
      schedulerState := some lease
      runs := scheduling.runs ++
        [{ scheduledAt, lease
           deadline := scheduling.clock + runWorkBudgetMs
           loaded := false, waiting := [], active := [], lastCursor := none, released := false }] }
  else scheduling

/-- `releaseSchedulerLease`, once every check of the run is settled. -/
def releaseRun (scheduling : Scheduling identity) (index machineCursor : ℕ) : Scheduling identity :=
  match scheduling.runs[index]? with
  | none => scheduling
  | some run =>
    if run.released || !run.active.isEmpty then scheduling
    else
      let state := scheduling.schedulerState.map fun state ↦
        if state.leaseUntil = run.lease.leaseUntil then
          ⟨run.lastCursor.getD run.lease.checkCursor, machineCursor, 0⟩
        else state
      { scheduling with
        schedulerState := state
        runs := scheduling.runs.set index { run with released := true } }

/-- The checks that a run works on. -/
def loadRun (scheduling : Scheduling identity) (index : ℕ) : Scheduling identity :=
  match scheduling.runs[index]? with
  | none => scheduling
  | some run =>
    if run.released || run.loaded then scheduling
    else scheduling.setRun index { run with
      loaded := true
      waiting := loadDueChecks scheduling.configs run.scheduledAt run.lease.checkCursor }

/-- The next batch of `processCheckBatches`. -/
def startBatch (scheduling : Scheduling identity) (index : ℕ) : Scheduling identity :=
  match scheduling.runs[index]? with
  | none => scheduling
  | some run =>
    if run.released || !run.active.isEmpty || !run.canStart scheduling.clock then scheduling
    else
      let batch := run.waiting.take maxConcurrency
      scheduling.setRun index { run with
        waiting := run.waiting.drop maxConcurrency
        active := batch.map fun row ↦ ⟨row, .pending⟩
        lastCursor := (batch.getLast?.map CheckConfigRow.telemetryPk).or run.lastCursor }

variable (codec : CheckCodec)

/-- The next call of `processCheck`. -/
def proceed (scheduling : Scheduling identity) (index : ℕ) (run : SchedulerRun)
    (processing : Processing) (result : ExecutedCheck) : Scheduling identity :=
  let row := processing.row
  let slot := run.slot row
  let become (phase : Option Phase) := run.setPhase processing.checkPk phase
  match processing.phase with
  | .pending =>
    if scheduling.configs.rows.any (claimable row slot) then
      { scheduling with configs := scheduling.configs.setClaim (claimable row slot) slot }.setRun index
        (become (some .claimed))
    else scheduling.setRun index (become none)
  | .claimed => scheduling.setRun index (become (some (.executed result)))
  | .executed result =>
    scheduling.setRun index (become (if scheduling.configs.rows.any (currentClaim row slot) then
      some (.current result) else none))
  | .current result =>
    let call : CentralResult :=
      { config := row.config
        nominalMinute := slot * 1000
        observedAt := scheduling.clock
        result }
    scheduling.setRun index (become (some (.persisting call (persistCheckResult codec call))))
  | .persisting call (@Transaction.read _ _ _ query next) =>
    scheduling.setRun index (become (some (.persisting call (next (query scheduling.store)))))
  | .persisting call (.commit change) =>
    { scheduling with
      store := change scheduling.store
      written := if changesLatest call scheduling.store.latest then
          ⟨processing.checkPk, row.config.configRevision, slot⟩ :: scheduling.written
        else scheduling.written }.setRun index (become (some (.persisting call .done)))
  | .persisting _ .done => scheduling.setRun index (become none)
  | .failed =>
    { scheduling with
      configs := scheduling.configs.setClaim (ownClaim row slot) row.lastClaimedSlot }.setRun index
        (become none)

/-- A call of `processCheck` throws: the claim is taken back after the execution. Before it, and
while it is taken back, the check is given up. -/
def giveUp (scheduling : Scheduling identity) (index : ℕ) (run : SchedulerRun)
    (processing : Processing) : Scheduling identity :=
  scheduling.setRun index (run.setPhase processing.checkPk (match processing.phase with
    | .pending | .claimed | .failed => none
    | .executed _ | .current _ | .persisting _ _ => some .failed))

def step (scheduling : Scheduling identity) : SchedulerAction identity → Scheduling identity
  | .tick elapsed => { scheduling with clock := scheduling.clock + elapsed }
  | .configure configs => { scheduling with configs }
  | .acquire scheduledAt => acquireRun scheduling scheduledAt
  | .load index => loadRun scheduling index
  | .startBatch index => startBatch scheduling index
  | .process index checkPk event =>
    match scheduling.runs[index]? with
    | none => scheduling
    | some run =>
      match run.active.find? fun processing ↦ processing.checkPk == checkPk with
      | none => scheduling
      | some processing =>
        match event with
        | .proceed result => proceed codec scheduling index run processing result
        | .fail => giveUp scheduling index run processing
  | .release index machineCursor => releaseRun scheduling index machineCursor

end Step

/-! ## What has to hold -/

section Statement

variable {identity : ℕ → String × ℕ}

/-- A result that is newer than another one of its check. -/
def Written.Newer (newer older : Written) : Prop :=
  older.configRevision ≤ newer.configRevision ∧ older.slot ≤ newer.slot ∧ older ≠ newer

/-- The run holds a lease that has not expired. -/
def Scheduling.Holds (scheduling : Scheduling identity) (index : ℕ) : Prop :=
  ∃ run, scheduling.runs[index]? = some run ∧ run.released = false ∧
    scheduling.clock < run.lease.leaseUntil

/-- The results that have changed the row of a check. -/
def Scheduling.history (scheduling : Scheduling identity) (checkPk : ℕ) : List Written :=
  scheduling.written.filter fun written ↦ written.checkPk == checkPk

structure SingleEffect (scheduling : Scheduling identity) : Prop where
  /-- The lease admits one run at a time. -/
  lease : ∀ first second, scheduling.Holds first → scheduling.Holds second → first = second
  /-- The release of a run that another one has followed changes no cursor. -/
  release : ∀ index machineCursor, index + 1 < scheduling.runs.length →
    (releaseRun scheduling index machineCursor).schedulerState = scheduling.schedulerState
  /-- A result of a check, a revision and a slot changes the row of the check at most once. -/
  once : scheduling.written.Nodup
  /-- Neither an older revision nor an older slot overwrites a newer one. -/
  ordered : ∀ checkPk, (scheduling.history checkPk).Pairwise Written.Newer
  /-- The row of a check is of its newest result. -/
  shown : ∀ checkPk,
    (lookup CheckRow.checkPk checkPk scheduling.store.latest).map CheckRow.configRevision =
      (scheduling.history checkPk).head?.map Written.configRevision

/-- The stored lease is still the one of the run. -/
def ownsLease (scheduling : Scheduling identity) (run : SchedulerRun) : Bool :=
  !run.released && scheduling.schedulerState.any fun state ↦
    state.leaseUntil == run.lease.leaseUntil

/-- The next call of a check is in order: a claim is not for a slot older than one whose result was
written, and a result is written while the lease is still the one of its run. -/
def InOrder (scheduling : Scheduling identity) (run : SchedulerRun) (processing : Processing) :
    Bool :=
  match processing.phase with
  | .pending =>
    !(scheduling.configs.rows.any (claimable processing.row (run.slot processing.row))) ||
      (scheduling.history processing.checkPk).all fun written ↦
        decide (written.slot ≤ run.slot processing.row)
  | .persisting _ rest => !rest.commits || ownsLease scheduling run
  | _ => true

def Orderly (scheduling : Scheduling identity) : SchedulerAction identity → Prop
  | .process index checkPk (.proceed _) => ∀ run ∈ scheduling.runs[index]?,
    ∀ processing ∈ run.active.find? fun processing ↦ processing.checkPk == checkPk,
      InOrder scheduling run processing = true
  | _ => True

instance (scheduling : Scheduling identity) :
    (action : SchedulerAction identity) → Decidable (Orderly scheduling action)
  | .process index checkPk (.proceed _) => inferInstanceAs (Decidable
      (∀ run ∈ scheduling.runs[index]?,
        ∀ processing ∈ run.active.find? fun processing ↦ processing.checkPk == checkPk,
          InOrder scheduling run processing = true))
  | .process _ _ .fail | .tick _ | .configure _ | .acquire _ | .load _ | .startBatch _
  | .release _ _ => isTrue trivial

end Statement

/-! ## The lease -/

section Lease

variable {identity : ℕ → String × ℕ} {scheduling : Scheduling identity}

/-- The runs as holders of a lease. -/
def leaseOf (scheduling : Scheduling identity) : Lease where
  clock := scheduling.clock
  stored := (scheduling.schedulerState.map SchedulerLease.leaseUntil).getD 0
  holders := scheduling.runs.map fun run ↦ ⟨run.lease.leaseUntil, run.released⟩

theorem leaseOf_acquireRun (scheduledAt : ℤ) :
    leaseOf (acquireRun scheduling scheduledAt) = acquire schedulerLeaseMs (leaseOf scheduling) := by
  unfold acquireRun acquire leaseOf
  dsimp only
  split
  · rw [List.map_append]
    rfl
  · rfl

theorem leaseOf_releaseRun (scheduling : Scheduling identity) (index machineCursor : ℕ) :
    leaseOf (releaseRun scheduling index machineCursor) = leaseOf scheduling ∨
      leaseOf (releaseRun scheduling index machineCursor) = release index (leaseOf scheduling) := by
  unfold releaseRun
  cases hrun : scheduling.runs[index]? with
  | none => exact .inl rfl
  | some run =>
    dsimp only
    split
    · exact .inl rfl
    next hnot =>
    simp only [Bool.or_eq_true, not_or, Bool.not_eq_true] at hnot
    refine .inr ?_
    have hholder : (leaseOf scheduling).holders[index]? =
        some ⟨run.lease.leaseUntil, run.released⟩ := by
      rw [leaseOf, List.getElem?_map, hrun]
      rfl
    rw [release, hholder]
    simp only [hnot.1, Bool.false_eq_true, if_false]
    unfold leaseOf
    dsimp only
    rw [List.map_set]
    cases scheduling.schedulerState with
    | none => simp
    | some state =>
      simp only [Option.map_some, Option.getD_some]
      split <;> rfl

theorem holder_of_run {index : ℕ} {run : SchedulerRun} (h : scheduling.runs[index]? = some run) :
    (leaseOf scheduling).holders[index]? = some ⟨run.lease.leaseUntil, run.released⟩ := by
  rw [leaseOf, List.getElem?_map, h]
  rfl

theorem length_holders : (leaseOf scheduling).holders.length = scheduling.runs.length :=
  List.length_map _

theorem owns_of_ownsLease {index : ℕ} {run : SchedulerRun}
    (hrun : scheduling.runs[index]? = some run) (h : ownsLease scheduling run = true) :
    Owns (leaseOf scheduling) index := by
  unfold ownsLease at h
  simp only [Bool.and_eq_true, Bool.not_eq_true', Option.any_eq_true, beq_iff_eq] at h
  obtain ⟨hreleased, state, hstate, huntil⟩ := h
  refine ⟨_, ⟨holder_of_run hrun, hreleased⟩, ?_⟩
  rw [leaseOf, hstate, Option.map_some, Option.getD_some, huntil]

theorem holds_unique (h : Sound (leaseOf scheduling)) {first second : ℕ}
    (hfirst : scheduling.Holds first) (hsecond : scheduling.Holds second) : first = second := by
  obtain ⟨run, hrun, hreleased, hclock⟩ := hfirst
  obtain ⟨run', hrun', hreleased', hclock'⟩ := hsecond
  exact h.unique ⟨holder_of_run hrun, hreleased⟩ ⟨holder_of_run hrun', hreleased'⟩ hclock hclock'

theorem schedulerState_releaseRun (h : Sound (leaseOf scheduling)) {index : ℕ}
    (machineCursor : ℕ) (hlater : index + 1 < scheduling.runs.length) :
    (releaseRun scheduling index machineCursor).schedulerState = scheduling.schedulerState := by
  unfold releaseRun
  cases hrun : scheduling.runs[index]? with
  | none => rfl
  | some run =>
    dsimp only
    split
    · rfl
    next hnot =>
    simp only [Bool.or_eq_true, not_or, Bool.not_eq_true] at hnot
    have hstored := h.stored_ne_of_later ⟨holder_of_run hrun, hnot.1⟩
      (by rwa [length_holders])
    cases hstate : scheduling.schedulerState with
    | none => rfl
    | some state =>
      rw [leaseOf, hstate] at hstored
      exact congrArg some (if_neg hstored)

end Lease

/-! ## What holds in every state -/

section Invariant

variable {identity : ℕ → String × ℕ} {codec : CheckCodec}

def SchedulerRun.rows (run : SchedulerRun) : List CheckConfigRow :=
  run.active.map Processing.row ++ run.waiting

/-- A run works on each check once, and on none after its release. -/
structure RunSound (identity : ℕ → String × ℕ) (run : SchedulerRun) : Prop where
  idle : run.released = true → run.active = []
  fresh : run.loaded = false → run.rows = []
  unique : UniqueKey CheckConfigRow.telemetryPk run.rows
  identified : ∀ row ∈ run.rows, (row.config.id, row.config.workspacePk) = identity row.telemetryPk

/-- No result of a newer slot of the check was written. -/
def Latest (written : List Written) (checkPk : ℕ) (slot : ℤ) : Prop :=
  ∀ old ∈ written, old.checkPk = checkPk → old.slot ≤ slot

/-- What is left of `persistCheckResult`: all of it, the change, or nothing. A result that goes on
to the change was not written before. -/
inductive Pursues (codec : CheckCodec) (written : List Written) (row : CheckConfigRow) (slot : ℤ)
    (call : CentralResult) : Transaction Store → Prop
  | start (hlatest : Latest written row.telemetryPk slot) :
    Pursues codec written row slot call (persistCheckResult codec call)
  | change (rest : Transaction Store) (previous : Option CheckRow)
    (hlatest : Latest written row.telemetryPk slot)
    (hnew : ⟨row.telemetryPk, row.config.configRevision, slot⟩ ∉ written)
    (hleads : Transaction.Leads (call.write codec previous) rest) :
    Pursues codec written row slot call rest
  | done : Pursues codec written row slot call .done

/-- What is known of a check whose run owns the lease. -/
def Bounded (codec : CheckCodec) (written : List Written) (slot : ℤ) (processing : Processing) :
    Prop :=
  match processing.phase with
  | .pending | .failed => True
  | .claimed | .executed _ | .current _ => Latest written processing.checkPk slot
  | .persisting call rest =>
    call.config = processing.row.config ∧ call.nominalMinute = slot * 1000 ∧
      Pursues codec written processing.row slot call rest

structure Shown (codec : CheckCodec) (identity : ℕ → String × ℕ) (latest : List CheckRow)
    (newest : Written) (row : CheckRow) : Prop where
  found : lookup CheckRow.checkPk newest.checkPk latest = some row
  revision : row.configRevision = newest.configRevision
  workspace : row.latest.workspacePk = (identity newest.checkPk).2
  result : ∀ config : CentralCheck, config.id = (identity newest.checkPk).1 →
    config.configRevision = newest.configRevision →
      row.latest.resultId = executionId codec config (newest.slot * 1000)

structure Invariant (codec : CheckCodec) (scheduling : Scheduling identity) : Prop where
  lease : Sound (leaseOf scheduling)
  runs : ∀ run ∈ scheduling.runs, RunSound identity run
  bounded : ∀ index run, scheduling.runs[index]? = some run → Owns (leaseOf scheduling) index →
    ∀ processing ∈ run.active,
      Bounded codec scheduling.written (run.slot processing.row) processing
  empty : ∀ checkPk, scheduling.history checkPk = [] →
    lookup CheckRow.checkPk checkPk scheduling.store.latest = none
  shown : ∀ checkPk newest older, scheduling.history checkPk = newest :: older →
    ∃ row, Shown codec identity scheduling.store.latest newest row
  ordered : ∀ checkPk, (scheduling.history checkPk).Pairwise Written.Newer

theorem Invariant.singleEffect {scheduling : Scheduling identity}
    (h : Invariant codec scheduling) : SingleEffect scheduling where
  lease first second hfirst hsecond := holds_unique h.lease hfirst hsecond
  release index machineCursor hlater := schedulerState_releaseRun h.lease machineCursor hlater
  once := by
    refine List.nodup_iff_count_le_one.mpr fun written ↦ ?_
    have hhistory : (scheduling.history written.checkPk).Nodup :=
      (h.ordered written.checkPk).imp fun hnewer ↦ hnewer.2.2.symm
    have hcount := List.nodup_iff_count_le_one.mp hhistory written
    rwa [Scheduling.history, List.count_filter (a := written)
      (p := fun old ↦ old.checkPk == written.checkPk) (beq_self_eq_true _)] at hcount
  ordered := h.ordered
  shown checkPk := by
    cases hhistory : scheduling.history checkPk with
    | nil =>
      rw [h.empty checkPk hhistory]
      rfl
    | cons newest older =>
      obtain ⟨row, hrow⟩ := h.shown checkPk newest older hhistory
      have hkey : newest.checkPk = checkPk := by
        have hmem : newest ∈ scheduling.history checkPk := hhistory ▸ List.mem_cons_self
        exact beq_iff_eq.mp (List.mem_filter.mp hmem).2
      rw [← hkey, hrow.found]
      exact congrArg some hrow.revision

theorem invariant_start (configs : ConfigTable identity) :
    Invariant codec (Scheduling.start configs) where
  lease := sound_start
  runs _ h := absurd h List.not_mem_nil
  bounded index run h := by simp [Scheduling.start] at h
  empty _ _ := rfl
  shown _ _ _ h := by simp [Scheduling.history, Scheduling.start] at h
  ordered _ := List.Pairwise.nil

section Run

variable {scheduling : Scheduling identity} {index : ℕ} {run : SchedulerRun}

theorem leaseOf_setRun (configs : ConfigTable identity) (next : SchedulerRun)
    (hrun : scheduling.runs[index]? = some run) (hlease : next.lease = run.lease)
    (hreleased : next.released = run.released) :
    leaseOf ({ scheduling with configs }.setRun index next) = leaseOf scheduling := by
  have hsame : (scheduling.runs.set index next).map
      (fun run ↦ (⟨run.lease.leaseUntil, run.released⟩ : Holder)) =
        scheduling.runs.map fun run ↦ ⟨run.lease.leaseUntil, run.released⟩ := by
    obtain ⟨hindex, hget⟩ := List.getElem?_eq_some_iff.mp hrun
    rw [List.map_set, hlease, hreleased, ← hget, ← List.getElem_map (fun run : SchedulerRun ↦
      (⟨run.lease.leaseUntil, run.released⟩ : Holder)), List.set_getElem_self]
    rwa [List.length_map]
  unfold leaseOf Scheduling.setRun
  dsimp only
  rw [hsame]

theorem Invariant.setRun (h : Invariant codec scheduling)
    (hrun : scheduling.runs[index]? = some run) (configs : ConfigTable identity)
    {next : SchedulerRun} (hlease : next.lease = run.lease)
    (hreleased : next.released = run.released) (hsound : RunSound identity next)
    (hbounded : Owns (leaseOf scheduling) index → ∀ processing ∈ next.active,
      Bounded codec scheduling.written (next.slot processing.row) processing) :
    Invariant codec ({ scheduling with configs }.setRun index next) where
  lease := by
    rw [leaseOf_setRun configs next hrun hlease hreleased]
    exact h.lease
  runs other hother := by
    rcases List.mem_or_eq_of_mem_set hother with hold | rfl
    · exact h.runs other hold
    · exact hsound
  bounded other found hfound howns := by
    rw [leaseOf_setRun configs next hrun hlease hreleased] at howns
    rw [Scheduling.setRun] at hfound
    by_cases hsame : index = other
    · subst hsame
      rw [List.getElem?_set_self (List.getElem?_eq_some_iff.mp hrun).1] at hfound
      obtain rfl := Option.some.inj hfound
      exact hbounded howns
    · rw [List.getElem?_set_ne hsame] at hfound
      exact h.bounded other found hfound howns
  empty := h.empty
  shown := h.shown
  ordered := h.ordered

theorem rows_setPhase (checkPk : ℕ) (phase : Option Phase) :
    (run.setPhase checkPk phase).rows.Sublist run.rows := by
  cases phase with
  | none => exact List.Sublist.append (List.filter_sublist.map _) (List.Sublist.refl _)
  | some phase =>
    have hrows : (run.setPhase checkPk (some phase)).active.map Processing.row =
        run.active.map Processing.row := map_updateWhere fun _ ↦ rfl
    rw [SchedulerRun.rows, hrows]
    exact List.Sublist.refl _

theorem RunSound.of_sublist {next : SchedulerRun} (h : RunSound identity run)
    (hidle : next.released = true → next.active = []) (hloaded : next.loaded = run.loaded)
    (hrows : next.rows.Sublist run.rows) : RunSound identity next where
  idle := hidle
  fresh hfresh := List.sublist_nil.mp (h.fresh (hloaded ▸ hfresh) ▸ hrows)
  unique := h.unique.sublist (hrows.map _)
  identified row hrow := h.identified row (hrows.subset hrow)

theorem RunSound.setPhase (h : RunSound identity run) (checkPk : ℕ) (phase : Option Phase) :
    RunSound identity (run.setPhase checkPk phase) := by
  refine h.of_sublist (fun hreleased ↦ ?_) (by cases phase <;> rfl) (rows_setPhase checkPk phase)
  cases phase with
  | none =>
    rw [SchedulerRun.setPhase, h.idle hreleased]
    rfl
  | some phase =>
    rw [SchedulerRun.setPhase, h.idle hreleased]
    rfl

theorem RunSound.mem_setPhase (h : RunSound identity run) {processing other : Processing}
    (hprocessing : processing ∈ run.active) {phase : Option Phase}
    (hother : other ∈ (run.setPhase processing.checkPk phase).active) :
    (other ∈ run.active ∧ other.checkPk ≠ processing.checkPk) ∨
      ∃ next ∈ phase, other = { processing with phase := next } := by
  cases phase with
  | none =>
    obtain ⟨hmem, hne⟩ := List.mem_filter.mp hother
    exact .inl ⟨hmem, by simpa using hne⟩
  | some phase =>
    obtain ⟨old, hold, ⟨hsame, rfl⟩ | ⟨hne, rfl⟩⟩ := mem_updateWhere.mp hother
    · have hunique : UniqueKey Processing.checkPk run.active := by
        have hactive := h.unique.sublist ((List.sublist_append_left _ _).map _)
        rwa [List.map_map] at hactive
      obtain rfl := hunique.eq_of_mem hold hprocessing (beq_iff_eq.mp hsame)
      exact .inr ⟨phase, rfl, rfl⟩
    · exact .inl ⟨hold, by simpa using hne⟩

theorem Invariant.setPhase (h : Invariant codec scheduling)
    (hrun : scheduling.runs[index]? = some run) (configs : ConfigTable identity)
    {processing : Processing} (hprocessing : processing ∈ run.active) {phase : Option Phase}
    (hbounded : Owns (leaseOf scheduling) index → ∀ next ∈ phase,
      Bounded codec scheduling.written (run.slot processing.row)
        { processing with phase := next }) :
    Invariant codec
      ({ scheduling with configs }.setRun index (run.setPhase processing.checkPk phase)) := by
  have hsound := h.runs run (List.mem_of_getElem? hrun)
  have hslot : ∀ row, (run.setPhase processing.checkPk phase).slot row = run.slot row := by
    intro row
    cases phase <;> rfl
  refine h.setRun hrun configs (by cases phase <;> rfl) (by cases phase <;> rfl)
    (hsound.setPhase _ _) fun howns other hother ↦ ?_
  rw [hslot]
  rcases hsound.mem_setPhase hprocessing hother with ⟨hold, -⟩ | ⟨next, hnext, rfl⟩
  · exact h.bounded index run hrun howns other hold
  · exact hbounded howns next hnext

end Run

/-! ### One result -/

theorem leads_rollupReads {change : Store → Store} (nominalMinute : ℤ) :
    Transaction.Leads change (rollupReads nominalMinute (.commit change)) := by
  unfold rollupReads
  split
  · refine .read _ _ fun _ ↦ ?_
    split
    · exact .read _ _ fun _ ↦ .commit
    · exact .commit
  · exact .commit

def restAfter : Transaction Store → Store → Transaction Store
  | @Transaction.read _ _ _ query next, store => next (query store)
  | .commit _, _ => .done
  | .done, _ => .done

theorem executionId_congr (codec : CheckCodec) {first second : CentralCheck}
    (hid : first.id = second.id) (hrevision : first.configRevision = second.configRevision)
    (nominalMinute : ℤ) :
    executionId codec first nominalMinute = executionId codec second nominalMinute := by
  rw [executionId, executionId, hid, hrevision]

theorem previousRow_of_lookup {latest : List CheckRow} {checkPk workspacePk : ℕ} {row : CheckRow}
    (h : lookup CheckRow.checkPk checkPk latest = some row)
    (hworkspace : row.latest.workspacePk = workspacePk) :
    previousRow latest workspacePk checkPk = some row := by
  obtain ⟨hrow, before, after, rfl, hbefore⟩ := List.find?_eq_some_iff_append.mp h
  refine List.find?_eq_some_iff_append.mpr ⟨?_, before, after, rfl, fun other hother ↦ ?_⟩
  · have hkey : row.latest.checkPk = checkPk := of_decide_eq_true hrow
    simp [hkey, hworkspace]
  · have hkey : (!decide (other.checkPk = checkPk)) = true := hbefore other hother
    have hother_pk : other.latest.checkPk ≠ checkPk :=
      of_decide_eq_false ((Bool.not_eq_true' _).mp hkey)
    simp [hother_pk]

section Result

variable {scheduling : Scheduling identity} {row : CheckConfigRow} {slot : ℤ} {call : CentralResult}
  {rest : Transaction Store}

theorem mem_history {checkPk : ℕ} {old : Written} :
    old ∈ scheduling.history checkPk ↔ old ∈ scheduling.written ∧ old.checkPk = checkPk := by
  rw [Scheduling.history, List.mem_filter, beq_iff_eq]

theorem Invariant.not_written (h : Invariant codec scheduling)
    (hidentified : (row.config.id, row.config.workspacePk) = identity row.telemetryPk)
    (hconfig : call.config = row.config) (hminute : call.nominalMinute = slot * 1000)
    (hlatest : Latest scheduling.written row.telemetryPk slot)
    (hread : ¬ (((previousRow scheduling.store.latest call.config.workspacePk
      call.config.telemetryPk).any fun old ↦
        decide (call.config.configRevision < old.configRevision)) ||
      (previousRow scheduling.store.latest call.config.workspacePk call.config.telemetryPk).any
        fun old ↦ old.latest.resultId == call.resultId codec) = true) :
    (⟨row.telemetryPk, row.config.configRevision, slot⟩ : Written) ∉ scheduling.written := by
  intro hwritten
  have hmem := mem_history.mpr ⟨hwritten, rfl⟩
  cases hhistory : scheduling.history row.telemetryPk with
  | nil =>
    rw [hhistory] at hmem
    cases hmem
  | cons newest older =>
  obtain ⟨hwritten, hkey⟩ := mem_history.mp
    (hhistory.symm ▸ List.mem_cons_self : newest ∈ scheduling.history row.telemetryPk)
  obtain ⟨found, hfound⟩ := h.shown row.telemetryPk newest older hhistory
  have hprevious : previousRow scheduling.store.latest call.config.workspacePk
      call.config.telemetryPk = some found := by
    refine previousRow_of_lookup ?_ ?_
    · rw [hconfig, ← CheckConfigRow.telemetryPk, ← hkey]
      exact hfound.found
    · rw [hfound.workspace, hkey, ← hidentified, hconfig]
  rw [hprevious] at hread
  simp only [Option.any_some, Bool.or_eq_true, decide_eq_true_eq, beq_iff_eq, not_or] at hread
  obtain ⟨hrevision, hresult⟩ := hread
  rw [hfound.revision, hconfig] at hrevision
  -- the newest result is at least as new as this one, so it is this one
  have hsame : newest = ⟨row.telemetryPk, row.config.configRevision, slot⟩ := by
    rw [hhistory] at hmem
    rcases List.mem_cons.mp hmem with heq | holder
    · exact heq.symm
    · have hordered := h.ordered row.telemetryPk
      rw [hhistory] at hordered
      obtain ⟨holder_revision, holder_slot, -⟩ := (List.pairwise_cons.mp hordered).1 _ holder
      have hslot := hlatest newest hwritten hkey
      have hrevisions : newest.configRevision = row.config.configRevision :=
        Nat.le_antisymm (Nat.le_of_not_lt hrevision) holder_revision
      have hslots : newest.slot = slot := le_antisymm hslot holder_slot
      rw [← hkey, ← hrevisions, ← hslots]
  refine hresult ?_
  rw [hfound.result call.config (by rw [hconfig, hkey, ← hidentified]) (by rw [hconfig, hsame]),
    CentralResult.resultId, hminute, hsame]

theorem Invariant.pursues_restAfter (h : Invariant codec scheduling)
    (hidentified : (row.config.id, row.config.workspacePk) = identity row.telemetryPk)
    (hconfig : call.config = row.config) (hminute : call.nominalMinute = slot * 1000)
    (hpursues : Pursues codec scheduling.written row slot call rest) :
    Pursues codec scheduling.written row slot call (restAfter rest scheduling.store) := by
  cases hpursues with
  | start hlatest =>
    rw [persistCheckResult, restAfter]
    split
    · exact .done
    · next hread =>
      exact .change _ _ hlatest (h.not_written hidentified hconfig hminute hlatest hread)
        (leads_rollupReads call.nominalMinute)
  | change rest previous hlatest hnew hleads =>
    cases hleads with
    | read query next hnext => exact .change _ previous hlatest hnew (hnext _)
    | commit => exact .done
  | done => exact .done

theorem pursues_commit {written : List Written} {change : Store → Store}
    (h : Pursues codec written row slot call (.commit change)) :
    ∃ previous, change = call.write codec previous ∧ Latest written row.telemetryPk slot ∧
      ⟨row.telemetryPk, row.config.configRevision, slot⟩ ∉ written := by
  generalize hrest : Transaction.commit change = rest at h
  cases h with
  | start hlatest =>
    rw [persistCheckResult] at hrest
    cases hrest
  | change rest previous hlatest hnew hleads =>
    subst hrest
    cases hleads
    exact ⟨previous, rfl, hlatest, hnew⟩
  | done => cases hrest

theorem latest_write (previous : Option CheckRow) (store : Store) :
    (call.write codec previous store).latest = call.latest codec store.latest previous := by
  rw [CentralResult.write, (serviceStatements_frame _ _).2]

theorem lookup_latest (previous : Option CheckRow) (latest : List CheckRow) (checkPk : ℕ) :
    lookup CheckRow.checkPk checkPk (call.latest codec latest previous) =
      if checkPk = call.config.telemetryPk ∧ changesLatest call latest = true then
        some (call.row codec previous)
      else lookup CheckRow.checkPk checkPk latest := by
  rw [CentralResult.latest, lookup_replace]
  have hkey : (call.row codec previous).checkPk = call.config.telemetryPk := rfl
  rw [hkey]
  by_cases hsame : checkPk = call.config.telemetryPk
  · subst hsame
    unfold changesLatest
    cases lookup CheckRow.checkPk call.config.telemetryPk latest with
    | none => simp
    | some old =>
      simp only [Option.all_some, true_and, if_true]
      split <;> rfl
  · rw [if_neg hsame, if_neg fun h ↦ hsame h.1]

end Result

/-! ### Steps -/

theorem latest_cons {written : List Written} {new : Written} {checkPk : ℕ} {slot : ℤ}
    (hother : checkPk ≠ new.checkPk) (h : Latest written checkPk slot) :
    Latest (new :: written) checkPk slot :=
  List.forall_mem_cons.mpr ⟨fun hsame ↦ absurd hsame.symm hother, h⟩

theorem bounded_cons {written : List Written} {new : Written} {slot : ℤ} {processing : Processing}
    (hother : processing.checkPk ≠ new.checkPk) (h : Bounded codec written slot processing) :
    Bounded codec (new :: written) slot processing := by
  unfold Bounded at h ⊢
  split at h
  · trivial
  · trivial
  · exact latest_cons hother h
  · exact latest_cons hother h
  · exact latest_cons hother h
  · next call rest _ =>
    obtain ⟨hconfig, hminute, hpursues⟩ := h
    refine ⟨hconfig, hminute, ?_⟩
    cases hpursues with
    | start hlatest => exact .start (latest_cons hother hlatest)
    | change rest previous hlatest hnew hleads =>
      refine .change rest previous (latest_cons hother hlatest) ?_ hleads
      rintro (_ | ⟨_, hold⟩)
      · exact hother rfl
      · exact hnew hold
    | done => exact .done

section Commit

variable {scheduling : Scheduling identity} {index : ℕ} {run : SchedulerRun}
  {processing : Processing} {call : CentralResult} {previous : Option CheckRow}

theorem history_cons (scheduling : Scheduling identity) (new : Written) (store : Store)
    (checkPk : ℕ) :
    ({ scheduling with store, written := new :: scheduling.written } : Scheduling identity).history
        checkPk =
      if new.checkPk = checkPk then new :: scheduling.history checkPk
      else scheduling.history checkPk := by
  unfold Scheduling.history
  dsimp only
  rw [List.filter_cons]
  simp only [beq_iff_eq]

/-- A result that changes the row of its check is of no older revision than any before it. -/
theorem Invariant.revision_le (h : Invariant codec scheduling) {row : CheckConfigRow}
    (hconfig : call.config = row.config)
    (hchanges : changesLatest call scheduling.store.latest = true) {old : Written}
    (hold : old ∈ scheduling.history row.telemetryPk) :
    old.configRevision ≤ row.config.configRevision := by
  cases hhistory : scheduling.history row.telemetryPk with
  | nil =>
    rw [hhistory] at hold
    cases hold
  | cons newest older =>
  obtain ⟨found, hfound⟩ := h.shown row.telemetryPk newest older hhistory
  have hkey : newest.checkPk = row.telemetryPk :=
    (mem_history.mp (hhistory.symm ▸ List.mem_cons_self :
      newest ∈ scheduling.history row.telemetryPk)).2
  have hnewest : newest.configRevision ≤ row.config.configRevision := by
    have hrow := hfound.found
    rw [hkey] at hrow
    unfold changesLatest at hchanges
    rw [hconfig, ← CheckConfigRow.telemetryPk, hrow] at hchanges
    simp only [Option.all_some, Bool.and_eq_true, Bool.or_eq_true, decide_eq_true_eq,
      beq_iff_eq, hfound.revision] at hchanges
    omega
  rw [hhistory] at hold
  rcases List.mem_cons.mp hold with rfl | hold
  · exact hnewest
  · have hordered := h.ordered row.telemetryPk
    rw [hhistory] at hordered
    exact ((List.pairwise_cons.mp hordered).1 old hold).1.trans hnewest

theorem Invariant.write (h : Invariant codec scheduling)
    {row : CheckConfigRow} {slot : ℤ}
    (hidentified : (row.config.id, row.config.workspacePk) = identity row.telemetryPk)
    (hconfig : call.config = row.config) (hminute : call.nominalMinute = slot * 1000)
    (hlatest : Latest scheduling.written row.telemetryPk slot)
    (hnew : (⟨row.telemetryPk, row.config.configRevision, slot⟩ : Written) ∉ scheduling.written)
    (hended : ∀ index run, scheduling.runs[index]? = some run → Owns (leaseOf scheduling) index →
      ∀ processing ∈ run.active, processing.checkPk = row.telemetryPk →
        ∀ written, Bounded codec written (run.slot processing.row) processing) :
    Invariant codec { scheduling with
      store := call.write codec previous scheduling.store
      written := if changesLatest call scheduling.store.latest then
          ⟨row.telemetryPk, row.config.configRevision, slot⟩ :: scheduling.written
        else scheduling.written } := by
  have hpk : call.config.telemetryPk = row.telemetryPk := by
    rw [hconfig]
    rfl
  by_cases hchanges : changesLatest call scheduling.store.latest = true
  · rw [if_pos hchanges]
    have hlookup : ∀ checkPk, lookup CheckRow.checkPk checkPk
        (call.write codec previous scheduling.store).latest =
          if checkPk = row.telemetryPk then some (call.row codec previous)
          else lookup CheckRow.checkPk checkPk scheduling.store.latest := by
      intro checkPk
      rw [latest_write, lookup_latest, hpk]
      simp only [hchanges, and_true]
    constructor
    · exact h.lease
    · exact h.runs
    · intro index run hrun howns processing hprocessing
      by_cases hsame : processing.checkPk = row.telemetryPk
      · exact hended index run hrun howns processing hprocessing hsame _
      · exact bounded_cons hsame (h.bounded index run hrun howns processing hprocessing)
    · intro checkPk hempty
      rw [history_cons] at hempty
      split at hempty
      · cases hempty
      · next hother =>
        rw [hlookup, if_neg fun hsame ↦ hother hsame.symm]
        exact h.empty checkPk hempty
    · intro checkPk newest older hhistory
      rw [history_cons] at hhistory
      split at hhistory
      · next hsame =>
        obtain ⟨rfl, -⟩ := List.cons.inj hhistory
        refine ⟨call.row codec previous, (hlookup _).trans (if_pos rfl), ?_, ?_, ?_⟩
        · exact congrArg CentralCheck.configRevision hconfig
        · rw [← hidentified, ← hconfig]
          rfl
        · intro config hid hrevision
          change call.resultId codec = _
          rw [CentralResult.resultId, hminute]
          refine executionId_congr codec ?_ ?_ _
          · rw [hid, ← hidentified, hconfig]
          · rw [hrevision, hconfig]
      · next hother =>
        obtain ⟨found, hfound⟩ := h.shown checkPk newest older hhistory
        have hkey : newest.checkPk = checkPk :=
          (mem_history.mp (hhistory.symm ▸ List.mem_cons_self :
            newest ∈ scheduling.history checkPk)).2
        refine ⟨found, ?_, hfound.revision, hfound.workspace, hfound.result⟩
        rw [hlookup, if_neg (by rw [hkey]; exact fun hsame ↦ hother hsame.symm)]
        exact hfound.found
    · intro checkPk
      rw [history_cons]
      split
      · next hsame =>
        subst hsame
        refine List.pairwise_cons.mpr ⟨fun old hold ↦ ?_, h.ordered _⟩
        obtain ⟨hwritten, hkey⟩ := mem_history.mp hold
        refine ⟨h.revision_le hconfig hchanges hold, hlatest old hwritten hkey, ?_⟩
        rintro rfl
        exact hnew hwritten
      · exact h.ordered checkPk
  · rw [if_neg hchanges]
    have hlookup : ∀ checkPk, lookup CheckRow.checkPk checkPk
        (call.write codec previous scheduling.store).latest =
          lookup CheckRow.checkPk checkPk scheduling.store.latest := by
      intro checkPk
      rw [latest_write, lookup_latest, if_neg fun h ↦ hchanges h.2]
    constructor
    · exact h.lease
    · exact h.runs
    · exact h.bounded
    · intro checkPk hempty
      rw [hlookup]
      exact h.empty checkPk hempty
    · intro checkPk newest older hhistory
      obtain ⟨found, hfound⟩ := h.shown checkPk newest older hhistory
      exact ⟨found, (hlookup _).trans hfound.found, hfound.revision, hfound.workspace,
        hfound.result⟩
    · exact h.ordered

theorem Invariant.commit (h : Invariant codec scheduling)
    (hrun : scheduling.runs[index]? = some run) (hprocessing : processing ∈ run.active)
    {change : Store → Store} (hphase : processing.phase = .persisting call (.commit change))
    (howns : Owns (leaseOf scheduling) index) :
    Invariant codec ({ scheduling with
      store := change scheduling.store
      written := if changesLatest call scheduling.store.latest then
          ⟨processing.checkPk, processing.row.config.configRevision, run.slot processing.row⟩ ::
            scheduling.written
        else scheduling.written }.setRun index
          (run.setPhase processing.checkPk (some (.persisting call .done)))) := by
  have hbounded := h.bounded index run hrun howns processing hprocessing
  rw [Bounded, hphase] at hbounded
  obtain ⟨hconfig, hminute, hpursues⟩ := hbounded
  obtain ⟨previous, rfl, hlatest, hnew⟩ := pursues_commit hpursues
  have hsound := h.runs run (List.mem_of_getElem? hrun)
  have hidentified := hsound.identified processing.row
    (List.mem_append_left _ (List.mem_map_of_mem hprocessing))
  have hended : Bounded codec scheduling.written (run.slot processing.row)
      { processing with phase := .persisting call .done } := ⟨hconfig, hminute, .done⟩
  have hmoved : Invariant codec
      (scheduling.setRun index
        (run.setPhase processing.checkPk (some (.persisting call .done)))) := by
    refine h.setPhase hrun scheduling.configs hprocessing fun _ next hnext ↦ ?_
    obtain rfl := Option.some.inj hnext
    exact hended
  refine hmoved.write hidentified hconfig hminute hlatest hnew ?_
  intro other found hfound hother_owns active hactive hsame written
  have hlease := leaseOf_setRun scheduling.configs
    (run.setPhase processing.checkPk (some (.persisting call .done))) hrun rfl rfl
  rw [hlease] at hother_owns
  obtain rfl : other = index := by
    have hfirst := hother_owns.last h.lease
    have hsecond := howns.last h.lease
    omega
  rw [Scheduling.setRun, List.getElem?_set_self (List.getElem?_eq_some_iff.mp hrun).1] at hfound
  obtain rfl := Option.some.inj hfound
  rcases hsound.mem_setPhase hprocessing hactive with ⟨-, hother⟩ | ⟨next, hnext, rfl⟩
  · exact absurd hsame hother
  · obtain rfl := Option.some.inj hnext
    exact ⟨hconfig, hminute, .done⟩

end Commit

section Step

variable {scheduling : Scheduling identity} {index : ℕ} {run : SchedulerRun}
  {processing : Processing}

theorem Invariant.tick (h : Invariant codec scheduling) (elapsed : ℕ) :
    Invariant codec { scheduling with clock := scheduling.clock + elapsed } where
  lease := h.lease.tick elapsed
  runs := h.runs
  bounded := h.bounded
  empty := h.empty
  shown := h.shown
  ordered := h.ordered

theorem Invariant.configure (h : Invariant codec scheduling) (configs : ConfigTable identity) :
    Invariant codec { scheduling with configs } where
  lease := h.lease
  runs := h.runs
  bounded := h.bounded
  empty := h.empty
  shown := h.shown
  ordered := h.ordered

theorem Invariant.acquireRun (h : Invariant codec scheduling) (scheduledAt : ℤ) :
    Invariant codec (acquireRun scheduling scheduledAt) := by
  have hlease := h.lease.acquire (show 0 < schedulerLeaseMs by decide)
  rw [← leaseOf_acquireRun scheduledAt] at hlease
  revert hlease
  unfold Scheduler.acquireRun
  dsimp only
  split
  · intro hlease
    refine ⟨hlease, ?_, ?_, h.empty, h.shown, h.ordered⟩
    · intro other hother
      rcases List.mem_append.mp hother with hold | hnew
      · exact h.runs other hold
      · obtain rfl := List.mem_singleton.mp hnew
        exact ⟨fun _ ↦ rfl, fun _ ↦ rfl, List.nodup_nil, fun _ hrow ↦ absurd hrow List.not_mem_nil⟩
    · intro other found hfound howns processing hprocessing
      have hlast := howns.last hlease
      rw [length_holders, List.length_append, List.length_singleton,
        Nat.add_right_cancel_iff] at hlast
      rw [hlast, List.getElem?_concat_length] at hfound
      obtain rfl := Option.some.inj hfound
      cases hprocessing
  · exact fun _ ↦ h

theorem Invariant.releaseRun (h : Invariant codec scheduling) (index machineCursor : ℕ) :
    Invariant codec (releaseRun scheduling index machineCursor) := by
  have hlease : Sound (leaseOf (Scheduler.releaseRun scheduling index machineCursor)) := by
    rcases leaseOf_releaseRun scheduling index machineCursor with hsame | hreleased
    · rw [hsame]
      exact h.lease
    · rw [hreleased]
      exact h.lease.release index
  have howner : ∀ other ≠ index,
      Owns (leaseOf (Scheduler.releaseRun scheduling index machineCursor)) other →
        Owns (leaseOf scheduling) other := by
    intro other hne howns
    rcases leaseOf_releaseRun scheduling index machineCursor with hsame | hreleased
    · rwa [hsame] at howns
    · rw [hreleased] at howns
      exact howns.of_release h.lease hne
  revert hlease howner
  unfold Scheduler.releaseRun
  cases hrun : scheduling.runs[index]? with
  | none => exact fun _ _ ↦ h
  | some run =>
    dsimp only
    split
    · exact fun _ _ ↦ h
    next hnot =>
    simp only [Bool.or_eq_true, not_or, Bool.not_eq_true, Bool.not_eq_false',
      List.isEmpty_iff] at hnot
    intro hlease howner
    refine ⟨hlease, ?_, ?_, h.empty, h.shown, h.ordered⟩
    · intro other hother
      rcases List.mem_or_eq_of_mem_set hother with hold | rfl
      · exact h.runs other hold
      · have hsound := h.runs run (List.mem_of_getElem? hrun)
        exact ⟨fun _ ↦ hnot.2, hsound.fresh, hsound.unique, hsound.identified⟩
    · intro other found hfound howns processing hprocessing
      dsimp only at hfound
      by_cases hsame : index = other
      · subst hsame
        rw [List.getElem?_set_self (List.getElem?_eq_some_iff.mp hrun).1] at hfound
        obtain rfl := Option.some.inj hfound
        exact absurd (hnot.2 ▸ hprocessing) List.not_mem_nil
      · rw [List.getElem?_set_ne hsame] at hfound
        exact h.bounded other found hfound
          (howner other (fun heq ↦ hsame heq.symm) howns) processing hprocessing

theorem Invariant.loadRun (h : Invariant codec scheduling) (index : ℕ) :
    Invariant codec (loadRun scheduling index) := by
  unfold Scheduler.loadRun
  cases hrun : scheduling.runs[index]? with
  | none => exact h
  | some run =>
    dsimp only
    split
    · exact h
    next hnot =>
    simp only [Bool.or_eq_true, not_or, Bool.not_eq_true] at hnot
    have hsound := h.runs run (List.mem_of_getElem? hrun)
    have hactive : run.active = [] := by
      have hrows := hsound.fresh hnot.2
      rw [SchedulerRun.rows, List.append_eq_nil_iff, List.map_eq_nil_iff] at hrows
      exact hrows.1
    refine h.setRun hrun scheduling.configs rfl rfl ?_ ?_
    · constructor
      · exact fun _ ↦ hactive
      · intro hloaded
        cases hloaded
      · rw [SchedulerRun.rows, hactive]
        exact uniqueKey_selectOrdered (scheduling.configs.unique.filter _)
      · intro row hrow
        rw [SchedulerRun.rows, hactive] at hrow
        exact scheduling.configs.identified row
          (List.mem_filter.mp (mem_of_mem_selectOrdered hrow)).1
    · intro _ processing hprocessing
      exact absurd (hactive ▸ hprocessing) List.not_mem_nil

theorem Invariant.startBatch (h : Invariant codec scheduling) (index : ℕ) :
    Invariant codec (startBatch scheduling index) := by
  unfold Scheduler.startBatch
  cases hrun : scheduling.runs[index]? with
  | none => exact h
  | some run =>
    dsimp only
    split
    · exact h
    next hnot =>
    simp only [Bool.or_eq_true, not_or, Bool.not_eq_true, Bool.not_eq_false',
      List.isEmpty_iff] at hnot
    obtain ⟨⟨hreleased, hactive⟩, -⟩ := hnot
    have hsound := h.runs run (List.mem_of_getElem? hrun)
    refine h.setRun hrun scheduling.configs rfl rfl ?_ ?_
    · refine hsound.of_sublist (fun hnow ↦ ?_) rfl ?_
      · rw [hreleased] at hnow
        cases hnow
      · rw [SchedulerRun.rows, SchedulerRun.rows, hactive, List.map_map]
        change ((run.waiting.take maxConcurrency).map id ++ _).Sublist ([] ++ run.waiting)
        rw [List.map_id, List.take_append_drop]
        exact List.Sublist.refl _
    · intro _ processing hprocessing
      obtain ⟨row, -, rfl⟩ := List.mem_map.mp hprocessing
      trivial

theorem Invariant.proceed (h : Invariant codec scheduling)
    (hrun : scheduling.runs[index]? = some run) (hprocessing : processing ∈ run.active)
    (horder : InOrder scheduling run processing = true) (result : ExecutedCheck) :
    Invariant codec (proceed codec scheduling index run processing result) := by
  have hbounded := h.bounded index run hrun
  have hidentified := (h.runs run (List.mem_of_getElem? hrun)).identified processing.row
    (List.mem_append_left _ (List.mem_map_of_mem hprocessing))
  unfold Scheduler.proceed
  dsimp only
  split
  · next hphase =>
    split
    · next hclaim =>
      refine h.setPhase hrun _ hprocessing fun _ next hnext ↦ ?_
      obtain rfl := Option.some.inj hnext
      rw [InOrder, hphase] at horder
      simp only [hclaim, Bool.not_true, Bool.false_or, List.all_eq_true, decide_eq_true_eq]
        at horder
      intro old hold hsame
      exact horder old (mem_history.mpr ⟨hold, hsame⟩)
    · refine h.setPhase hrun _ hprocessing fun _ next hnext ↦ ?_
      cases hnext
  · next hphase =>
    refine h.setPhase hrun _ hprocessing fun howns next hnext ↦ ?_
    obtain rfl := Option.some.inj hnext
    have hold := hbounded howns processing hprocessing
    rw [Bounded, hphase] at hold
    exact hold
  · next executed hphase =>
    refine h.setPhase hrun _ hprocessing fun howns next hnext ↦ ?_
    have hold := hbounded howns processing hprocessing
    rw [Bounded, hphase] at hold
    split at hnext
    · obtain rfl := Option.some.inj hnext
      exact hold
    · cases hnext
  · next executed hphase =>
    refine h.setPhase hrun _ hprocessing fun howns next hnext ↦ ?_
    obtain rfl := Option.some.inj hnext
    have hold := hbounded howns processing hprocessing
    rw [Bounded, hphase] at hold
    exact ⟨rfl, rfl, .start hold⟩
  · next call Value query next hphase =>
    refine h.setPhase hrun _ hprocessing fun howns next hnext ↦ ?_
    obtain rfl := Option.some.inj hnext
    have hold := hbounded howns processing hprocessing
    rw [Bounded, hphase] at hold
    obtain ⟨hconfig, hminute, hpursues⟩ := hold
    exact ⟨hconfig, hminute, h.pursues_restAfter hidentified hconfig hminute hpursues⟩
  · next call change hphase =>
    rw [InOrder, hphase] at horder
    exact h.commit hrun hprocessing hphase (owns_of_ownsLease hrun horder)
  · refine h.setPhase hrun _ hprocessing fun _ next hnext ↦ ?_
    cases hnext
  · refine h.setPhase hrun _ hprocessing fun _ next hnext ↦ ?_
    cases hnext

theorem Invariant.giveUp (h : Invariant codec scheduling)
    (hrun : scheduling.runs[index]? = some run) (hprocessing : processing ∈ run.active) :
    Invariant codec (giveUp scheduling index run processing) := by
  refine h.setPhase hrun _ hprocessing fun _ next hnext ↦ ?_
  cases hphase : processing.phase <;> rw [hphase] at hnext <;> cases hnext <;> trivial

theorem Invariant.step (h : Invariant codec scheduling) (action : SchedulerAction identity)
    (horderly : Orderly scheduling action) : Invariant codec (step codec scheduling action) := by
  cases action with
  | tick elapsed => exact h.tick elapsed
  | configure configs => exact h.configure configs
  | acquire scheduledAt => exact h.acquireRun scheduledAt
  | load index => exact h.loadRun index
  | startBatch index => exact h.startBatch index
  | release index machineCursor => exact h.releaseRun index machineCursor
  | process index checkPk event =>
    unfold Scheduler.step
    dsimp only
    cases hrun : scheduling.runs[index]? with
    | none => exact h
    | some run =>
      dsimp only
      cases hfound : run.active.find? fun processing ↦ processing.checkPk == checkPk with
      | none => exact h
      | some processing =>
        have hprocessing := List.mem_of_find?_eq_some hfound
        cases event with
        | proceed result =>
          exact h.proceed hrun hprocessing (horderly run hrun processing hfound) result
        | fail => exact h.giveUp hrun hprocessing

end Step

end Invariant

/-! ## The effect of a result -/

section Effect

variable {identity : ℕ → String × ℕ} (codec : CheckCodec)

/-- While a result is written only under the lease of its run, and no check is claimed for a slot
older than one whose result was written, each result has at most one effect, in order. -/
theorem singleEffect_of_orderly (configs : ConfigTable identity)
    (actions : List (SchedulerAction identity))
    (horderly : Along (step codec) Orderly (Scheduling.start configs) actions) :
    Visits (step codec) SingleEffect (Scheduling.start configs) actions :=
  visits_mono (fun _ h ↦ h.singleEffect)
    (visits_of_along (fun _ action h ↦ h.step action) (invariant_start configs) horderly)

end Effect

def minuteCheck : CheckConfigRow where
  config :=
    { id := "c", telemetryPk := 1, workspacePk := 1, servicePk := 1, maintenanceUntil := none
      configRevision := 1, critical := false
      thresholds := ⟨1, 1, by decide, by decide⟩ }
  enabled := true
  central := true
  supported := true
  parentDeleted := false
  intervalSeconds := 60
  phaseSeconds := 0
  timeoutMs := 1000
  retryCount := 0
  lastClaimedSlot := -1

def minuteConfigs : ConfigTable fun _ ↦ ("c", 1) where
  rows := [minuteCheck]
  unique := List.nodup_singleton _
  identified := by decide

def refused : ExecutedCheck := ⟨.down, none, some "connection_failed", none⟩

/-- A run takes the lease and starts the check. -/
def startRun (index : ℕ) (scheduledAt : ℤ) : List (SchedulerAction fun _ ↦ ("c", 1)) :=
  [.acquire scheduledAt, .load index, .startBatch index]

def proceedRun (index count : ℕ) : List (SchedulerAction fun _ ↦ ("c", 1)) :=
  List.replicate count (.process index 1 (.proceed refused))

/-- Two runs one after the other; the first one loses the answer to its last call and takes back
its claim, and the second one repeats the check. -/
def repeatedRun : List (SchedulerAction fun _ ↦ ("c", 1)) :=
  startRun 0 60000 ++ proceedRun 0 6 ++ [.process 0 1 .fail] ++ proceedRun 0 1 ++ [.release 0 0] ++
    startRun 1 60000 ++ proceedRun 1 6 ++ [.release 1 0]

theorem singleEffect_of_orderly_repeated :
    Visits (step sampleCodec) SingleEffect (Scheduling.start minuteConfigs) repeatedRun :=
  singleEffect_of_orderly sampleCodec minuteConfigs repeatedRun (by decide +kernel)

/-- A run looks at its claim and stalls. Its lease expires, another run writes the result of a
later slot, and the first run goes on. -/
def stalledRun : List (SchedulerAction fun _ ↦ ("c", 1)) :=
  startRun 0 60000 ++ proceedRun 0 3 ++ [.tick 900000] ++ startRun 1 960000 ++ proceedRun 1 6 ++
    proceedRun 0 3

/-- The result of the older slot overwrites the newer one. -/
theorem stalled_run_overwrites :
    ¬ SingleEffect (run (step sampleCodec) (Scheduling.start minuteConfigs) stalledRun) := by
  intro h
  have hhistory : (run (step sampleCodec) (Scheduling.start minuteConfigs) stalledRun).history 1 =
      [⟨1, 1, 60⟩, ⟨1, 1, 960⟩] := by decide +kernel
  have hordered := h.ordered 1
  rw [hhistory] at hordered
  obtain ⟨-, hslot, -⟩ := (List.pairwise_cons.mp hordered).1 _ List.mem_cons_self
  exact absurd hslot (by decide)

end AlphaPing.Checks.Scheduler
