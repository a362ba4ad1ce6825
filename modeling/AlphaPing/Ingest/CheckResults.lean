import AlphaPing.Ingest.Blocks
import AlphaPing.Ingest.Database
import Mathlib.Data.Prod.Lex
import Mathlib.Data.String.Basic

/-!
# Persisting probe results

`persist_probe_results` compares every result of a report with the current assignment of its
check. It then groups the results by check and minute and stores each group as one batch. The
identifier of a batch names the check, the agent, the assignment revision and the minute; its
payload hash depends on the results that are in the group.

The tables of services, status buckets and check rollups are written from what is modelled here
but are read by none of it, and have no counterpart.
-/

namespace AlphaPing.Ingest.CheckResults

open Protocol Library.Tables Database Blocks

structure AssignedCheck where
  id : String
  checkPk : ℕ
  servicePk : ℕ
  workspacePk : ℕ
  assignmentRevision : ℕ
  intervalSeconds : ℕ
  phaseSeconds : ℕ
  failureConfirmations : ℕ
  recoveryConfirmations : ℕ
  critical : Bool
  maintenanceUntil : Option ℤ
  deriving DecidableEq

inductive ResultState where
  | healthy
  | degraded
  | down
  | unknown
  deriving DecidableEq

/-- `ResultState::from_probe`. -/
def ResultState.fromProbe : ℕ → Option ResultState
  | 1 => some .healthy
  | 2 => some .degraded
  | 3 => some .down
  | _ => none

def ResultState.severity : ResultState → ℕ
  | unknown => 0
  | healthy => 1
  | degraded => 2
  | down => 3

structure StoredObservation where
  executionId : Bytes
  nominalSlotMs : ℤ
  observedAtMs : ℤ
  state : ResultState
  latencyMs : Option ℕ
  failureCode : Option String
  failureSummary : Option String
  deriving DecidableEq

structure StoredBatch where
  v : ℕ
  id : Bytes
  observedAt : ℤ
  state : ResultState
  latencyMs : Option ℕ
  failureCode : Option String
  failureSummary : Option String
  executorAgentId : String
  configRevision : ℕ
  samples : List StoredObservation
  deriving DecidableEq

structure ResultBatch where
  config : AssignedCheck
  nominalMinute : ℤ
  resultId : Bytes
  payload : StoredBatch
  observedAt : ℤ
  state : ResultState
  latencyMs : Option ℕ
  failureCode : Option String
  failureSummary : Option String

/-- The codec of the agent's messages, and the JSON form of a batch. -/
structure ResultCodec extends Codec where
  encodeBatch : StoredBatch → Bytes

/-- The codec to run the model with, where the text of a batch names its executions. -/
def prefixResultCodec : ResultCodec where
  toCodec := prefixCodec
  encodeBatch batch := batch.samples.flatMap StoredObservation.executionId

def utf8 (text : String) : Bytes := text.toUTF8.toList

def matchesAssignment (result : ProbeResult) (config : AssignedCheck) (agentId : String) : Bool :=
  result.checkPk == config.checkPk && result.servicePk == config.servicePk &&
    result.workspacePk == config.workspacePk && result.executorAgentId == agentId &&
    result.configRevision == config.assignmentRevision &&
    result.nominalSlotMs / 1000 % config.intervalSeconds == config.phaseSeconds

/-! ## Batches -/

/-- A text of a result, absent when it is empty. -/
def presentText (text : String) : Option String := if text.isEmpty then none else some text

def observationOf (result : ProbeResult) : StoredObservation where
  executionId := result.executionId
  nominalSlotMs := result.nominalSlotMs
  observedAtMs := result.observedAtMs
  state := (ResultState.fromProbe result.state).getD .unknown
  latencyMs := result.latencyMs
  failureCode := presentText result.failureCode
  failureSummary := presentText result.failureSummary

def sortedResults (results : List ProbeResult) : List ProbeResult :=
  results.insertionSort fun first second ↦
    toLex (first.nominalSlotMs, first.observedAtMs) ≤ toLex (second.nominalSlotMs, second.observedAtMs)

/-- The more severe of two states; the second one on a tie. -/
def worse (first second : ResultState) : ResultState :=
  if first.severity ≤ second.severity then second else first

def worstState (results : List ProbeResult) : Option ResultState :=
  match results.filterMap fun result ↦ ResultState.fromProbe result.state with
  | [] => none
  | first :: rest => some (rest.foldl worse first)

/-- The mean latency of the results that have one, as a `u32`. -/
def meanLatency (results : List ProbeResult) : Option ℕ :=
  match results.filterMap ProbeResult.latencyMs with
  | [] => none
  | values => some (min (values.sum / values.length) 4294967295)

/-- The hash that identifies a batch. -/
def batchId (codec : ResultCodec) (config : AssignedCheck) (nominalMinute : ℤ)
    (executorAgentId : String) : Bytes :=
  codec.hash (utf8 "alphaping/check-batch/v1" ++ utf8 config.id ++ utf8 executorAgentId ++
    toBeBytes config.assignmentRevision ++ intToBeBytes nominalMinute)

def compileBatch (codec : ResultCodec) (config : AssignedCheck) (nominalMinute : ℤ)
    (executorAgentId : String) (results : List ProbeResult) : Option ResultBatch :=
  let sorted := sortedResults results
  match (sorted.map ProbeResult.observedAtMs).max?, worstState sorted with
  | some observedAt, some state =>
    let latencyMs := meanLatency sorted
    let failure := sorted.reverse.find? fun result ↦
      ResultState.fromProbe result.state == some state
    let failureCode := failure.bind fun result ↦ presentText result.failureCode
    let failureSummary := failure.bind fun result ↦ presentText result.failureSummary
    let resultId := batchId codec config nominalMinute executorAgentId
    some
      { config, nominalMinute, resultId, observedAt, state, latencyMs, failureCode, failureSummary
        payload :=
          { v := 2
            id := resultId
            observedAt, state, latencyMs, failureCode, failureSummary, executorAgentId
            configRevision := config.assignmentRevision
            samples := sorted.map observationOf } }
  | _, _ => none

/-! ## Confirmation -/

/-- What `check_latest` remembers of the results before. -/
structure PreviousConfirmation where
  state : ResultState
  failureCode : Option String
  failureSummary : Option String
  consecutiveFailures : ℕ
  consecutiveSuccesses : ℕ
  deriving DecidableEq

/-- The row of `check_latest`. -/
structure CheckLatest where
  checkPk : ℕ
  workspacePk : ℕ
  servicePk : ℕ
  observedAt : ℤ
  confirmed : PreviousConfirmation
  latencyMs : Option ℕ
  critical : Bool
  resultId : Bytes
  deriving DecidableEq

/-- `u32::saturating_add(1)`. -/
def successor (count : ℕ) : ℕ := min (count + 1) 4294967295

/-- `confirm`, for a healthy batch. -/
def confirmHealthy (config : AssignedCheck) (previous : Option PreviousConfirmation) :
    PreviousConfirmation :=
  let successes := (previous.map fun previous ↦ successor previous.consecutiveSuccesses).getD 1
  let prior := (previous.map PreviousConfirmation.state).getD .healthy
  let accepted := previous.isNone || prior == .healthy ||
    decide (config.recoveryConfirmations ≤ successes)
  { state := if accepted then .healthy else prior
    failureCode := if accepted then none else previous.bind PreviousConfirmation.failureCode
    failureSummary := if accepted then none else previous.bind PreviousConfirmation.failureSummary
    consecutiveFailures := 0
    consecutiveSuccesses := successes }

/-- `confirm`, for any other batch. -/
def confirmFailing (config : AssignedCheck) (previous : Option PreviousConfirmation)
    (batch : ResultBatch) : PreviousConfirmation :=
  let failures := (previous.map fun previous ↦ successor previous.consecutiveFailures).getD 1
  let prior := (previous.map PreviousConfirmation.state).getD .unknown
  let accepted := prior == .down || prior == .degraded ||
    decide (config.failureConfirmations ≤ failures)
  { state :=
      if prior = .down ∧ batch.state = .degraded then .down
      else if accepted then batch.state else prior
    failureCode := some (if accepted then batch.failureCode.getD "probe_failed"
      else "failure_pending")
    failureSummary := batch.failureSummary
    consecutiveFailures := failures
    consecutiveSuccesses := 0 }

def confirm (config : AssignedCheck) (previous : Option PreviousConfirmation)
    (batch : ResultBatch) : PreviousConfirmation :=
  if batch.state = .healthy then confirmHealthy config previous
  else confirmFailing config previous batch

/-! ## Storing a batch -/

structure CheckTables where
  blocks : List (Block StoredBatch)
  latest : List CheckLatest

/-- What the block upsert writes. -/
def batchWrite (codec : ResultCodec) (batch : ResultBatch) : SlotWrite StoredBatch where
  resourcePk := batch.config.checkPk
  workspacePk := batch.config.workspacePk
  nominalMinuteMs := batch.nominalMinute
  columns :=
    { payload := batch.payload
      id := batch.resultId
      payloadHash := codec.hash (codec.encodeBatch batch.payload) }
  schemaVersion := 2

def classifySlot (codec : ResultCodec) (tables : CheckTables) (batch : ResultBatch) :
    Except IngestError Bool :=
  match readSlot tables.blocks batch.config.checkPk batch.config.workspacePk
      batch.nominalMinute with
  | none => .ok false
  | some held =>
    if held.id = batch.resultId ∧
        held.payloadHash = codec.hash (codec.encodeBatch batch.payload) then .ok true
    else .error .conflict

def previousLatest (tables : CheckTables) (batch : ResultBatch) : Option CheckLatest :=
  tables.latest.find? fun row ↦ row.workspacePk == batch.config.workspacePk &&
    row.checkPk == batch.config.checkPk

/-- The row that the upsert of `check_latest` would insert. -/
def latestRow (batch : ResultBatch) (previous : Option CheckLatest) : CheckLatest where
  checkPk := batch.config.checkPk
  workspacePk := batch.config.workspacePk
  servicePk := batch.config.servicePk
  observedAt := batch.observedAt
  confirmed := confirm batch.config (previous.map CheckLatest.confirmed) batch
  latencyMs := batch.latencyMs
  critical := batch.config.critical
  resultId := batch.resultId

/-- The first of `current_state_statements`, skipped for a batch older than the latest one. -/
def latestStatement (tables : CheckTables) (batch : ResultBatch) : List CheckLatest :=
  let previous := previousLatest tables batch
  if previous.any fun row ↦ decide (batch.observedAt < row.observedAt) then tables.latest
  else
    upsert CheckLatest.checkPk
      (fun old ↦ old.workspacePk == batch.config.workspacePk &&
        decide (old.observedAt ≤ batch.observedAt))
      (fun old ↦ { latestRow batch previous with checkPk := old.checkPk })
      (latestRow batch previous) tables.latest

def persistBatch (codec : ResultCodec) (tables : CheckTables) (batch : ResultBatch) :
    Except IngestError CheckTables :=
  match classifySlot codec tables batch with
  | .error error => .error error
  | .ok true => .ok tables
  | .ok false => .ok
    { blocks := (batchWrite codec batch).perform (max · 2) tables.blocks
      latest := latestStatement tables batch }

/-! ## The results of a report -/

/-- A row of `check_configs`, with what its joins read and the task that its request compiles to.
The executor is absent for a check that no agent executes. -/
structure CheckConfigRow where
  check : AssignedCheck
  executorAgentId : Option String
  enabled : Bool
  serviceDeleted : Bool
  workspaceDeleted : Bool
  timeoutMs : ℕ
  retryCount : ℕ
  request : Option ProbeRequest

/-- The minute that a result is stored under. -/
def minuteOf (result : ProbeResult) : ℤ := result.nominalSlotMs / 60000 * 60000

/-- The checks that the results of a report name. -/
def checkIds (report : MachineReport) : List String :=
  (report.probeResults.map ProbeResult.checkId).dedup

def assignedTo (agentId : String) (row : CheckConfigRow) : Bool :=
  row.executorAgentId == some agentId && row.enabled && !row.serviceDeleted &&
    !row.workspaceDeleted

/-- The query for the current assignments of the named checks. -/
def assignments (checks : List CheckConfigRow) (agentId : String) (ids : List String) :
    List AssignedCheck :=
  (checks.filter fun row ↦ assignedTo agentId row && ids.contains row.check.id).map
    CheckConfigRow.check

/-- The results of one check and minute, in the order of the report. -/
structure ResultGroup where
  config : AssignedCheck
  minute : ℤ
  results : List ProbeResult

/-- The keys of the groups in the order of the map. -/
def groupKeys (report : MachineReport) : List (String × ℤ) :=
  ((report.probeResults.map fun result ↦ (result.checkId, minuteOf result)).dedup).insertionSort
    fun first second ↦ toLex first ≤ toLex second

def resultsOf (report : MachineReport) (key : String × ℤ) : List ProbeResult :=
  report.probeResults.filter fun result ↦ (result.checkId, minuteOf result) == key

def assignmentOf (checks : List CheckConfigRow) (agentId : String) (report : MachineReport)
    (checkId : String) : Option AssignedCheck :=
  (assignments checks agentId (checkIds report)).find? fun config ↦ config.id == checkId

def resultAssigned (checks : List CheckConfigRow) (agentId : String) (report : MachineReport)
    (result : ProbeResult) : Bool :=
  (assignmentOf checks agentId report result.checkId).any fun config ↦
    matchesAssignment result config agentId

/-- The first part of `persist_probe_results`: one result that does not match its assignment
rejects the report. -/
def groupResults (checks : List CheckConfigRow) (agentId : String) (report : MachineReport) :
    Except IngestError (List ResultGroup) :=
  if 32 < (checkIds report).length then .error .badRequest
  else if (assignments checks agentId (checkIds report)).length ≠ (checkIds report).length then
    .error .badRequest
  else if ¬ report.probeResults.all (resultAssigned checks agentId report) then
    .error .badRequest
  else
    .ok ((groupKeys report).filterMap fun key ↦
      (assignmentOf checks agentId report key.1).map fun config ↦
        { config, minute := key.2, results := resultsOf report key })

/-- The results that one check can have in one minute. -/
def maximumResults (config : AssignedCheck) : ℕ :=
  (60 + config.intervalSeconds - 1) / config.intervalSeconds + 1

/-- The second part, for one group. -/
def persistGroup (codec : ResultCodec) (agentId : String) (tables : CheckTables)
    (group : ResultGroup) : Except IngestError CheckTables :=
  if maximumResults group.config < group.results.length then .error .badRequest
  else
    match compileBatch codec group.config group.minute agentId group.results with
    | none => .error .badRequest
    | some batch => persistBatch codec tables batch

/-- The groups are persisted one after the other; what is stored stays when a later one fails. -/
def persistGroups (codec : ResultCodec) (agentId : String) :
    CheckTables → List ResultGroup → Except IngestError Unit × CheckTables
  | tables, [] => (.ok (), tables)
  | tables, group :: rest =>
    match persistGroup codec agentId tables group with
    | .error error => (.error error, tables)
    | .ok next => persistGroups codec agentId next rest

def persistProbeResults (codec : ResultCodec) (checks : List CheckConfigRow)
    (tables : CheckTables) (agentId : String) (report : MachineReport) :
    Except IngestError Unit × CheckTables :=
  if report.probeResults.isEmpty then (.ok (), tables)
  else
    match groupResults checks agentId report with
    | .error error => (.error error, tables)
    | .ok groups => persistGroups codec agentId tables groups

/-! ## Groups that are stored before another one fails -/

variable {codec : ResultCodec} {agentId : String}

variable (codec agentId) in
theorem exists_persisted_prefix (tables : CheckTables) (groups : List ResultGroup) :
    ∃ count, persistGroups codec agentId tables (groups.take count) =
      (.ok (), (persistGroups codec agentId tables groups).2) := by
  induction groups generalizing tables with
  | nil => exact ⟨0, rfl⟩
  | cons group rest ih =>
    cases hgroup : persistGroup codec agentId tables group with
    | error error => exact ⟨0, by simp [persistGroups, hgroup]⟩
    | ok next =>
      obtain ⟨count, hcount⟩ := ih next
      exact ⟨count + 1, by simp [persistGroups, hgroup, hcount]⟩

/-- The tables after some of the groups of a report, in their order. -/
def PartlyStored (codec : ResultCodec) (checks : List CheckConfigRow) (agentId : String)
    (report : MachineReport) (before after : CheckTables) : Prop :=
  after = before ∨ ∃ groups count, groupResults checks agentId report = .ok groups ∧
    persistGroups codec agentId before (groups.take count) = (.ok (), after)

theorem partlyStored_take {checks : List CheckConfigRow} {report : MachineReport}
    {tables : CheckTables} {groups : List ResultGroup}
    (h : groupResults checks agentId report = .ok groups) (count : ℕ) :
    PartlyStored codec checks agentId report tables
      (persistGroups codec agentId tables (groups.take count)).2 := by
  obtain ⟨shorter, hshorter⟩ := exists_persisted_prefix codec agentId tables (groups.take count)
  rw [List.take_take] at hshorter
  exact .inr ⟨groups, min shorter count, h, hshorter⟩

variable (codec agentId) in
theorem partlyStored_persistProbeResults (checks : List CheckConfigRow) (tables : CheckTables)
    (report : MachineReport) :
    PartlyStored codec checks agentId report tables
      (persistProbeResults codec checks tables agentId report).2 := by
  unfold persistProbeResults
  split
  · exact .inl rfl
  · split
    · exact .inl rfl
    · next groups hgroups =>
      have hall : PartlyStored codec checks agentId report tables _ :=
        partlyStored_take hgroups groups.length
      rwa [List.take_length] at hall

end AlphaPing.Ingest.CheckResults
