import AlphaPing.Checks.Confirmation
import AlphaPing.Checks.StateSync
import AlphaPing.Library.Transactions

/-!
# Persisting the result of a check

`persist_batch` of the ingest worker and `persistCheckResult` of the checks worker read the row of
`check_latest`, compute the confirmation from it and write everything in one batch: the slot of
the minute, the row, and the state of the service with its event. The statements on the service
read the tables themselves; the confirmation does not.

What the rollups and status buckets read and write is left out; the reads are kept as the awaits
that they are. The text of a result stands for its bytes.
-/

namespace AlphaPing.Checks.Persistence

open Protocol Library.Tables Library.Runs Library.Transactions Ingest.Blocks Ingest.CheckResults
  StateSync

/-! ## Tables -/

/-- The payload that `persistCheckResult` stores. -/
structure CheckPayload where
  v : ℕ
  id : Bytes
  configRevision : ℕ
  observedAt : ℤ
  state : ExecutedState
  latencyMs : Option ℕ
  failureCode : Option String
  failureSummary : Option String

/-- The payload of a slot of `check_result_blocks_5m`. -/
inductive StoredResult where
  | batch (batch : StoredBatch)
  | check (payload : CheckPayload)

/-- A row of `check_latest`; an insertion by the ingest worker leaves the revision at its default. -/
structure CheckRow where
  latest : CheckLatest
  configRevision : ℕ
  deriving DecidableEq

def CheckRow.checkPk (row : CheckRow) : ℕ := row.latest.checkPk

/-- A row of `state_events` for a service. -/
structure ServiceEvent where
  workspacePk : ℕ
  servicePk : ℕ
  occurredAt : ℤ
  eventId : Bytes
  previousState : ServiceState
  currentState : ServiceState
  reasonCode : String

/-- The primary key of `state_events`, without the type of the resource. -/
def ServiceEvent.key (event : ServiceEvent) : ℕ × ℤ × Bytes :=
  (event.servicePk, event.occurredAt, event.eventId)

structure Store where
  blocks : List (Block StoredResult)
  latest : List CheckRow
  serviceLatest : List ServiceLatest
  events : List ServiceEvent

/-- The codecs of both workers. -/
structure CheckCodec extends ResultCodec where
  encodeCheck : CheckPayload → Bytes
  sha256 : Bytes → Bytes

/-! ## The state of a service -/

/-- The rank of a check in `service_aggregate`. -/
def CheckRow.rank (row : CheckRow) : ℕ :=
  if row.latest.critical ∧ row.latest.confirmed.state = .down then 3
  else if row.latest.confirmed.state = .down ∨ row.latest.confirmed.state = .degraded then 2
  else if row.latest.confirmed.state = .healthy then 1
  else 0

/-- The state and the row that a result is about. -/
structure ResultRow where
  workspacePk : ℕ
  checkPk : ℕ
  servicePk : ℕ
  maintenanceUntil : Option ℤ
  observedAt : ℤ
  resultId : Bytes
  /-- The row of the result must have the revision of the checks worker. -/
  configRevision : Option ℕ

def nextService (latest : List CheckRow) (result : ResultRow) : ServiceState :=
  let rank := ((latest.filter fun row ↦ row.latest.workspacePk == result.workspacePk &&
    row.latest.servicePk == result.servicePk).map CheckRow.rank).foldl max 0
  if result.maintenanceUntil.any fun until_ ↦ decide (result.observedAt < until_) then .maintenance
  else if rank = 3 then .down
  else if rank = 2 then .degraded
  else if rank = 1 then .healthy
  else .unknown

/-- `SERVICE_REASON_SQL`. -/
def serviceReason : ServiceState → String
  | .maintenance => "maintenance_window"
  | .down => "check_down"
  | .degraded => "check_degraded"
  | .healthy => "check_healthy"
  | .unknown => "check_unknown"

/-- `check_latest` has the row of the result. -/
def isCurrent (latest : List CheckRow) (result : ResultRow) : Bool :=
  latest.any fun row ↦ row.latest.workspacePk == result.workspacePk &&
    row.latest.checkPk == result.checkPk && row.latest.resultId == result.resultId &&
      result.configRevision.all fun revision ↦ row.configRevision == revision

/-- The row that the first of the three statements inserts, when its conditions hold. -/
def transitionEvent (store : Store) (result : ResultRow) : Option ServiceEvent :=
  let next := nextService store.latest result
  let previous := ((store.serviceLatest.find? fun row ↦ row.workspacePk == result.workspacePk &&
    row.servicePk == result.servicePk).map ServiceLatest.state).getD .unknown
  if isCurrent store.latest result ∧
      (store.serviceLatest.any fun row ↦ row.servicePk == result.servicePk &&
        row.workspacePk != result.workspacePk) = false ∧ previous ≠ next then
    some
      { workspacePk := result.workspacePk
        servicePk := result.servicePk
        occurredAt := result.observedAt
        eventId := result.resultId
        previousState := previous
        currentState := next
        reasonCode := serviceReason next }
  else none

/-- A row of `service_latest` since a result. -/
def serviceRow (result : ResultRow) (state : ServiceState) (reasonCode : String) :
    ServiceLatest where
  servicePk := result.servicePk
  workspacePk := result.workspacePk
  state := state
  statusSince := result.observedAt
  reasonCode := reasonCode
  lastTransitionAt := result.observedAt
  updatedAt := result.observedAt

/-- The first two statements: the event, and the state when the event was inserted. -/
def recordTransition (store : Store) (result : ResultRow) : Store :=
  match transitionEvent store result with
  | none => store
  | some event =>
    if store.events.any fun old ↦ old.key == event.key then store
    else
      { store with
        events := store.events ++ [event]
        serviceLatest := upsertState store.serviceLatest
          (serviceRow result event.currentState event.reasonCode) }

/-- The third statement: a service without a row gets one. -/
def recordInitial (store : Store) (result : ResultRow) : Store :=
  if isCurrent store.latest result ∧ (store.events.any fun event ↦
      event.workspacePk == result.workspacePk && event.servicePk == result.servicePk &&
        event.occurredAt == result.observedAt && event.eventId == result.resultId) = false ∧
      (store.serviceLatest.any fun row ↦ row.servicePk == result.servicePk) = false then
    { store with
      serviceLatest := store.serviceLatest ++ [serviceRow result .unknown "check_unknown"] }
  else store

def serviceStatements (store : Store) (result : ResultRow) : Store :=
  recordInitial (recordTransition store result) result

theorem serviceStatements_frame (store : Store) (result : ResultRow) :
    (serviceStatements store result).blocks = store.blocks ∧
      (serviceStatements store result).latest = store.latest := by
  have htransition : (recordTransition store result).blocks = store.blocks ∧
      (recordTransition store result).latest = store.latest := by
    unfold recordTransition
    split
    · exact ⟨rfl, rfl⟩
    · split <;> exact ⟨rfl, rfl⟩
  unfold serviceStatements recordInitial
  split <;> exact htransition

def rollupReads {S : Type} (nominalMinute : ℤ) (next : Transaction S) : Transaction S :=
  if slotOf nominalMinute = 4 then
    .read (fun _ ↦ ()) fun _ ↦
      if nominalMinute % 3600000 / 60000 = 59 then .read (fun _ ↦ ()) fun _ ↦ next else next
  else next

/-- The row of a check, as both workers read it. -/
def previousRow (latest : List CheckRow) (workspacePk checkPk : ℕ) : Option CheckRow :=
  latest.find? fun row ↦ row.latest.workspacePk == workspacePk && row.latest.checkPk == checkPk

/-! ## The ingest worker -/

/-- What the block upsert writes. -/
def batchSlot (codec : CheckCodec) (batch : ResultBatch) : SlotWrite StoredResult where
  resourcePk := batch.config.checkPk
  workspacePk := batch.config.workspacePk
  nominalMinuteMs := batch.nominalMinute
  columns :=
    { payload := .batch batch.payload
      id := batch.resultId
      payloadHash := codec.hash (codec.encodeBatch batch.payload) }
  schemaVersion := 2

/-- The row that the upsert of `check_latest` binds. -/
def batchRow (batch : ResultBatch) (previous : Option CheckRow) : CheckLatest where
  checkPk := batch.config.checkPk
  workspacePk := batch.config.workspacePk
  servicePk := batch.config.servicePk
  observedAt := batch.observedAt
  confirmed := confirm batch.config
    (previous.map fun row ↦ readPrevious row.latest.confirmed) batch
  latencyMs := batch.latencyMs
  critical := batch.config.critical
  resultId := batch.resultId

/-- The upsert of `check_latest`. -/
def batchLatest (latest : List CheckRow) (batch : ResultBatch) (previous : Option CheckRow) :
    List CheckRow :=
  upsert CheckRow.checkPk
    (fun old ↦ old.latest.workspacePk == batch.config.workspacePk &&
      decide (old.latest.observedAt ≤ batch.observedAt))
    (fun old ↦ { old with latest := batchRow batch previous }) ⟨batchRow batch previous, 0⟩ latest

def batchResult (batch : ResultBatch) : ResultRow where
  workspacePk := batch.config.workspacePk
  checkPk := batch.config.checkPk
  servicePk := batch.config.servicePk
  maintenanceUntil := batch.config.maintenanceUntil
  observedAt := batch.observedAt
  resultId := batch.resultId
  configRevision := none

/-- The batch of statements of `persist_batch`. -/
def writeBatch (codec : CheckCodec) (batch : ResultBatch) (previous : Option CheckRow)
    (store : Store) : Store :=
  let blocks := (batchSlot codec batch).perform (max · 2) store.blocks
  if previous.any fun row ↦ decide (batch.observedAt < row.latest.observedAt) then
    { store with blocks }
  else
    serviceStatements
      { store with blocks, latest := batchLatest store.latest batch previous } (batchResult batch)

def persistBatch (codec : CheckCodec) (batch : ResultBatch) : Transaction Store :=
  .read (fun store ↦ (readSlot store.blocks batch.config.checkPk batch.config.workspacePk
      batch.nominalMinute).map fun held ↦ (held.id, held.payloadHash)) fun
    -- the slot is filled, by this batch or by another one
    | some _ => .done
    | none =>
      .read (fun store ↦ previousRow store.latest batch.config.workspacePk batch.config.checkPk)
        fun previous ↦ rollupReads batch.nominalMinute (.commit (writeBatch codec batch previous))

/-! ## The checks worker -/

/-- The columns of a check that are read here. -/
structure CentralCheck where
  id : String
  telemetryPk : ℕ
  workspacePk : ℕ
  servicePk : ℕ
  maintenanceUntil : Option ℤ
  configRevision : ℕ
  critical : Bool
  thresholds : Thresholds

def executionId (codec : CheckCodec) (config : CentralCheck) (nominalMinute : ℤ) : Bytes :=
  codec.sha256 (utf8 (if config.configRevision = 1 then
      config.id ++ ":" ++ toString nominalMinute
    else config.id ++ ":" ++ toString config.configRevision ++ ":" ++ toString nominalMinute))

/-- A call of `persistCheckResult`. -/
structure CentralResult where
  config : CentralCheck
  nominalMinute : ℤ
  observedAt : ℤ
  result : ExecutedCheck

def CentralResult.resultId (codec : CheckCodec) (call : CentralResult) : Bytes :=
  executionId codec call.config call.nominalMinute

def CentralResult.payload (codec : CheckCodec) (call : CentralResult) : CheckPayload where
  v := 1
  id := call.resultId codec
  configRevision := call.config.configRevision
  observedAt := call.observedAt
  state := call.result.state
  latencyMs := call.result.latencyMs
  failureCode := call.result.failureCode
  failureSummary := call.result.failureSummary

/-- What `prepareCheckBlockWrite` writes. -/
def CentralResult.slot (codec : CheckCodec) (call : CentralResult) : SlotWrite StoredResult where
  resourcePk := call.config.telemetryPk
  workspacePk := call.config.workspacePk
  nominalMinuteMs := call.nominalMinute
  columns :=
    { payload := .check (call.payload codec)
      id := call.resultId codec
      payloadHash := codec.sha256 (codec.encodeCheck (call.payload codec)) }
  schemaVersion := 1

/-- The row that the upsert of `check_latest` binds. -/
def CentralResult.row (codec : CheckCodec) (call : CentralResult) (previous : Option CheckRow) :
    CheckRow where
  latest :=
    { checkPk := call.config.telemetryPk
      workspacePk := call.config.workspacePk
      servicePk := call.config.servicePk
      observedAt := call.observedAt
      confirmed := (applyConfirmationWindow call.config.thresholds
        (previous.map fun row ↦ row.latest.confirmed) call.result).row
      latencyMs := call.result.latencyMs
      critical := call.config.critical
      resultId := call.resultId codec }
  configRevision := call.config.configRevision

/-- The upsert of `check_latest`. -/
def CentralResult.latest (codec : CheckCodec) (call : CentralResult) (latest : List CheckRow)
    (previous : Option CheckRow) : List CheckRow :=
  upsert CheckRow.checkPk
    (fun old ↦ old.latest.workspacePk == call.config.workspacePk &&
      (decide (old.configRevision < call.config.configRevision) ||
        (call.config.configRevision == old.configRevision &&
          decide (old.latest.observedAt ≤ call.observedAt))))
    (fun _ ↦ call.row codec previous) (call.row codec previous) latest

def CentralResult.resultRow (codec : CheckCodec) (call : CentralResult) : ResultRow where
  workspacePk := call.config.workspacePk
  checkPk := call.config.telemetryPk
  servicePk := call.config.servicePk
  maintenanceUntil := call.config.maintenanceUntil
  observedAt := call.observedAt
  resultId := call.resultId codec
  configRevision := some call.config.configRevision

/-- The batch of statements of `persistCheckResult`. -/
def CentralResult.write (codec : CheckCodec) (call : CentralResult) (previous : Option CheckRow)
    (store : Store) : Store :=
  serviceStatements
    { store with
      blocks := (call.slot codec).perform (fun _ ↦ 1) store.blocks
      latest := call.latest codec store.latest previous } (call.resultRow codec)

def persistCheckResult (codec : CheckCodec) (call : CentralResult) : Transaction Store :=
  .read (fun store ↦ previousRow store.latest call.config.workspacePk call.config.telemetryPk)
    fun previous ↦
      if (previous.any fun row ↦ decide (call.config.configRevision < row.configRevision)) ||
          previous.any fun row ↦ row.latest.resultId == call.resultId codec then .done
      else rollupReads call.nominalMinute (.commit (call.write codec previous))

/-! ## Interleaved calls -/

deriving instance DecidableEq for ResultBatch, Thresholds, CentralCheck, CentralResult

/-- A call of either worker. -/
inductive PersistCall where
  | agent (batch : ResultBatch)
  | central (call : CentralResult)
  deriving DecidableEq

def persist (codec : CheckCodec) : PersistCall → Transaction Store
  | .agent batch => persistBatch codec batch
  | .central call => persistCheckResult codec call

/-- The rows of `check_latest` and what services show. -/
def observe (store : Store) : List CheckRow × List ServiceLatest × List ServiceEvent :=
  (store.latest, store.serviceLatest, store.events)

/-- When every batch of statements is written while what its call has read is still stored, the
rows and the events are those of the calls one after the other. -/
theorem persist_serializable (codec : CheckCodec) (store : Store)
    (actions : List (Action PersistCall))
    (hfresh : Along (step (persist codec)) Fresh (start store) actions) :
    Visits (step (persist codec)) (Serializable (persist codec) observe store) (start store)
      actions :=
  visits_mono (fun _ h ↦ serializable_of_eq h) (visits_serial_of_fresh store hfresh)

/-- Codecs to run the model with. -/
def sampleCodec : CheckCodec where
  toResultCodec := prefixResultCodec
  encodeCheck payload := payload.id
  sha256 bytes := bytes

/-- A batch that confirms a failure at once. -/
def failedBatch (nominalMinute observedAt : ℤ) (resultId : Bytes) : ResultBatch :=
  { failedSighting.batch with
    config := { sampleCheck with failureConfirmations := 1 }
    nominalMinute, observedAt, resultId }

def firstMinute : PersistCall := .agent (failedBatch 0 59900 [1])

def secondMinute : PersistCall := .agent (failedBatch 60000 60100 [2])

def emptyStore : Store := ⟨[], [], [], []⟩

/-- One minute after the other. -/
theorem persist_serializable_twoMinutes :
    Visits (step (persist sampleCodec)) (Serializable (persist sampleCodec) observe emptyStore)
      (start emptyStore)
      ([.call firstMinute, .call secondMinute] ++ List.replicate 3 (.advance 0) ++
        List.replicate 3 (.advance 1)) :=
  persist_serializable sampleCodec emptyStore _ (by decide)

/-- Both minutes read the row of the check before either of them writes it. -/
def overlappingMinutes : List (Action PersistCall) :=
  [.call firstMinute, .call secondMinute, .advance 0, .advance 0, .advance 1, .advance 1,
    .advance 0, .advance 1]

/-- The event is the one of the first minute, and the second minute counts the first failure. -/
theorem overlapping_minutes_not_serializable :
    ¬ Serializable (persist sampleCodec) observe emptyStore
      (run (step (persist sampleCodec)) (start emptyStore) overlappingMinutes) := by
  refine not_serializable_pair firstMinute secondMinute (by decide) ?_ ?_
  · intro h
    have hfailures := congrArg
      (fun rows ↦ rows.1.map fun row ↦ row.latest.confirmed.consecutiveFailures) h
    exact absurd hfailures (by decide)
  · intro h
    have hoccurred := congrArg (fun rows ↦ rows.2.2.map ServiceEvent.occurredAt) h
    exact absurd hoccurred (by decide)

end AlphaPing.Checks.Persistence
