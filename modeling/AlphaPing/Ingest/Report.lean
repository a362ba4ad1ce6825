import AlphaPing.Ingest.CheckResults
import AlphaPing.Ingest.Requests

/-!
# Handling one report

`handle_report` from the row of the agent to the acknowledgement, for one agent and without
other handlers in between. Every stage keeps the effect of the stages before it when it fails.

A call of the database can fail on its own; the argument `failing` says which one does. The
commands and the key rotation that travel with an acknowledgement are arguments, since nothing
here depends on how they are chosen.
-/

namespace AlphaPing.Ingest.Report

open Protocol Library.Tables Ingest.Database Containers Telemetry Replay Validation Requests
  CheckResults

structure MachineSettings where
  samplingIntervalSeconds : ℕ
  reportIntervalSeconds : ℕ
  containerMonitoringEnabled : Bool

/-- The control and the telemetry database, as far as they concern one agent. -/
structure Database where
  agentId : String
  machineId : String
  workspaceId : String
  machinePk : ℕ
  workspacePk : ℕ
  appliedConfigRevision : ℕ
  desiredConfigRevision : ℕ
  maintenanceUntil : Option ℤ
  settings : MachineSettings
  catalog : Catalog
  checks : List CheckConfigRow
  replay : ReplayTable
  tables : MachineTables
  checkTables : CheckTables

/-- The row of `load_agent_key`. -/
def Database.agentKey (db : Database) : AgentKeyRow where
  machineId := db.machineId
  workspaceId := db.workspaceId
  machinePk := db.machinePk
  workspacePk := db.workspacePk
  appliedConfigRevision := db.appliedConfigRevision
  desiredConfigRevision := db.desiredConfigRevision
  maintenanceUntil := db.maintenanceUntil
  containerCatalogDigest := db.catalog.digest

/-! ## The configuration that an acknowledgement carries -/

def maxTasks : ℕ := 32

def maxConfigBytes : ℕ := maxEnvelopeBytes - 8 * 1024

/-- One row of the loop in `build_config_snapshot`. -/
def compileTask (desiredRevision : ℕ) (row : CheckConfigRow) : Except String ProbeTask :=
  if desiredRevision < row.check.assignmentRevision then .error "future_probe_assignment"
  else
    match row.request with
    | none => .error "invalid_probe"
    | some request => .ok
      { checkId := row.check.id
        checkPk := row.check.checkPk
        servicePk := row.check.servicePk
        workspacePk := row.check.workspacePk
        configRevision := row.check.assignmentRevision
        intervalSeconds := row.check.intervalSeconds
        phaseSeconds := row.check.phaseSeconds
        timeoutMs := row.timeoutMs
        request := some request
        retryCount := some row.retryCount }

def buildConfigSnapshot (codec : Codec) (db : Database) (desiredRevision : ℕ) (now : ℤ) :
    Except String AgentConfigSnapshot :=
  let rows := selectOrdered (fun row ↦ row.check.id) (maxTasks + 1)
    (db.checks.filter (assignedTo db.agentId))
  if maxTasks < rows.length then .error "agent_probe_task_limit"
  else
    match rows.mapM (compileTask desiredRevision) with
    | .error message => .error message
    | .ok probeTasks =>
      let snapshot : AgentConfigSnapshot :=
        { revision := desiredRevision
          probeTasks
          createdAtMs := now
          digest := []
          sampleIntervalSeconds := some db.settings.samplingIntervalSeconds
          reportIntervalSeconds := some db.settings.reportIntervalSeconds
          containerMonitoringEnabled := some db.settings.containerMonitoringEnabled }
      let snapshot := { snapshot with digest := codec.hash (codec.encodeConfig snapshot) }
      if maxConfigBytes < (codec.encodeConfig snapshot).length then
        .error "agent_config_too_large"
      else .ok snapshot

/-- The revision and the configuration that the acknowledgement of a report carries. A snapshot
that cannot be built is left out, with a warning. -/
def offeredConfig (codec : Codec) (db : Database) (report : MachineReport) (now : ℤ) :
    ℕ × Option AgentConfigSnapshot :=
  if report.appliedConfigRevision < db.desiredConfigRevision then
    match buildConfigSnapshot codec db db.desiredConfigRevision now with
    | .ok config => (db.desiredConfigRevision, some config)
    | .error _ => (report.appliedConfigRevision, none)
  else (db.desiredConfigRevision, none)

theorem offeredConfig_le {codec : Codec} {db : Database} {report : MachineReport} (now : ℤ)
    (h : report.appliedConfigRevision ≤ db.desiredConfigRevision) :
    (offeredConfig codec db report now).1 ≤ db.desiredConfigRevision := by
  unfold offeredConfig
  split
  · split
    · exact le_rfl
    · exact h
  · exact le_rfl

/-! ## The stages -/

/-- The calls of the databases that may fail; `probes` says how many groups are stored before. -/
inductive Stage where
  | claim
  | catalog
  | classify
  | probes (stored : ℕ)
  | batch
  | agentRow
  deriving DecidableEq

/-- What an acknowledgement carries besides the configuration. -/
structure Attachments where
  commands : List AgentCommand := []
  keyRotation : Option KeyRotationProposal := none

/-- The result of a handler and the databases it leaves. -/
abbrev Handled := Except IngestError DurableAck × Database

/-- A call of the database, which fails when it is the one that does. -/
def callOf {Value : Type} (failing : Option Stage) (stage : Stage)
    (call : Except IngestError Value) : Except IngestError Value :=
  if failing = some stage then .error .internal else call

def syncInventory (catalog : Catalog) (agentKey : AgentKeyRow) (report : MachineReport)
    (now : ℤ) : Except IngestError Catalog :=
  match report.containerInventory with
  | none => .ok catalog
  | some inventory => syncContainerCatalog catalog agentKey inventory now

/-- The batch of `durable_ack` with the reads before it; a duplicate writes nothing. -/
def storeReport (codec : Codec) (tables : MachineTables) (agentKey : AgentKeyRow)
    (request : Request) (now : ℤ) (duplicate : Bool) : Except IngestError MachineTables :=
  if duplicate then .ok tables
  else
    match prepare codec tables agentKey request now with
    | none => .error .badRequest
    | some prepared =>
      .ok (durableBatch tables (closeHour tables (closeBlock tables prepared)))

/-- `agents.applied_config_revision` after the acknowledged report. -/
def raisedRevision (db : Database) (report : MachineReport) : ℕ :=
  if db.appliedConfigRevision < report.appliedConfigRevision then report.appliedConfigRevision
  else db.appliedConfigRevision

theorem raisedRevision_eq_max (db : Database) (report : MachineReport) :
    raisedRevision db report = max db.appliedConfigRevision report.appliedConfigRevision := by
  unfold raisedRevision
  split
  · next hlt => exact (max_eq_right hlt.le).symm
  · next hle => exact (max_eq_left (not_lt.mp hle)).symm

/-- The acknowledgement of `durable_ack`. -/
def durableAckOf (codec : Codec) (db : Database) (request : Request) (now : ℤ)
    (duplicate : Bool) (attachments : Attachments) : DurableAck where
  reportId := request.report.reportId
  status := if duplicate then .duplicate else .committed
  committedAtMs := now
  configRevision := (offeredConfig codec db request.report now).1
  config := (offeredConfig codec db request.report now).2
  commands := attachments.commands
  keyRotation := attachments.keyRotation
  payloadHash := codec.payloadHash request.report

section

variable (codec : ResultCodec) (db : Database) (request : Request) (now : ℤ)
  (attachments : Attachments) (failing : Option Stage)

def durableAck (duplicate : Bool) : Handled :=
  match callOf failing .batch
      (storeReport codec.toCodec db.tables db.agentKey request now duplicate) with
  | .error error => (.error error, db)
  | .ok tables =>
    if failing = some .agentRow then (.error .internal, { db with tables })
    else
      (.ok (durableAckOf codec.toCodec db request now duplicate attachments),
        { db with
          tables
          appliedConfigRevision := raisedRevision db request.report })

/-- The check tables when the database fails after some groups. -/
def interruptedProbes (stored : ℕ) : CheckTables :=
  match groupResults db.checks db.agentId request.report with
  | .error _ => db.checkTables
  | .ok groups => (persistGroups codec db.agentId db.checkTables (groups.take stored)).2

/-- From the probe results on. -/
def storeProbes (duplicate : Bool) : Handled :=
  match failing with
  | some (.probes stored) =>
    (.error .internal, { db with checkTables := interruptedProbes codec db request stored })
  | _ =>
    match persistProbeResults codec db.checks db.checkTables db.agentId request.report with
    | (.error error, checkTables) => (.error error, { db with checkTables })
    | (.ok (), checkTables) =>
      durableAck codec { db with checkTables } request now attachments failing duplicate

def classify : Handled :=
  match callOf failing .classify
      (classifySlot db.tables request.report (codec.payloadHash request.report)) with
  | .error error => (.error error, db)
  | .ok duplicate => storeProbes codec db request now attachments failing duplicate

/-- From the catalog on. -/
def synchronise : Handled :=
  match callOf failing .catalog (syncInventory db.catalog db.agentKey request.report now) with
  | .error error => (.error error, db)
  | .ok catalog => classify codec { db with catalog } request now attachments failing

/-- The request is one of the agent, and its report passes every check before the claim. -/
def Admitted : Prop :=
  request.agentId = db.agentId ∧ admissible request db.agentKey now = true

/-- `handle_report`, once the envelope is opened. -/
def handleReport : Handled :=
  if headerSequenceValid request.keyEpoch request.sequence = false ∨
      request.agentId ≠ db.agentId then (.error .unauthorized, db)
  else if ¬ (validateReport request.report request.reportId db.machinePk db.workspacePk
      request.agentId now).isOk then (.error .badRequest, db)
  else if revisionAdmitted db.agentKey request.report = false then (.error .badRequest, db)
  else
    match callOf failing .claim
        (claimReplay db.replay request.agentId request.keyEpoch request.sequence now) with
    | .error error => (.error error, db)
    | .ok replay =>
      synchronise codec { db with replay } request now attachments failing

/-! ## What a handler can do -/

/-- The stages that a handler has gone through, and what each of them left. -/
inductive HandleCase : Handled → Prop where
  | refused (error : IngestError) : HandleCase (.error error, db)
  | claimed (error : IngestError) (replay : ReplayTable) (hadmitted : Admitted db request now) :
    HandleCase (.error error, { db with replay })
  | synchronised (error : IngestError) (replay : ReplayTable) (catalog : Catalog)
    (hadmitted : Admitted db request now)
    (hsync : syncInventory db.catalog db.agentKey request.report now = .ok catalog) :
    HandleCase (.error error, { db with replay, catalog })
  | probed (error : IngestError) (replay : ReplayTable) (catalog : Catalog)
    (checkTables : CheckTables) (hadmitted : Admitted db request now)
    (hsync : syncInventory db.catalog db.agentKey request.report now = .ok catalog)
    (hprobes : PartlyStored codec db.checks db.agentId request.report db.checkTables
      checkTables) :
    HandleCase (.error error, { db with replay, catalog, checkTables })
  | stored (error : IngestError) (replay : ReplayTable) (catalog : Catalog)
    (checkTables : CheckTables) (tables : MachineTables) (duplicate : Bool)
    (hadmitted : Admitted db request now)
    (hsync : syncInventory db.catalog db.agentKey request.report now = .ok catalog)
    (hclassified : classifySlot db.tables request.report (codec.payloadHash request.report) =
      .ok duplicate)
    (hprobes : persistProbeResults codec db.checks db.checkTables db.agentId request.report =
      (.ok (), checkTables))
    (hstored : storeReport codec.toCodec db.tables db.agentKey request now duplicate =
      .ok tables) :
    HandleCase (.error error, { db with replay, catalog, checkTables, tables })
  | acknowledged (replay : ReplayTable) (catalog : Catalog) (checkTables : CheckTables)
    (tables : MachineTables) (duplicate : Bool) (hadmitted : Admitted db request now)
    (hsync : syncInventory db.catalog db.agentKey request.report now = .ok catalog)
    (hclassified : classifySlot db.tables request.report (codec.payloadHash request.report) =
      .ok duplicate)
    (hprobes : persistProbeResults codec db.checks db.checkTables db.agentId request.report =
      (.ok (), checkTables))
    (hstored : storeReport codec.toCodec db.tables db.agentKey request now duplicate =
      .ok tables) :
    HandleCase (.ok (durableAckOf codec.toCodec db request now duplicate attachments),
      { db with
        replay, catalog, checkTables, tables
        appliedConfigRevision := raisedRevision db request.report })

variable {codec db request now attachments failing}

theorem Admitted.revision (h : Admitted db request now) :
    db.appliedConfigRevision ≤ request.report.appliedConfigRevision ∧
      request.report.appliedConfigRevision ≤ db.desiredConfigRevision := by
  obtain ⟨-, hadmissible⟩ := h
  unfold admissible at hadmissible
  simp only [Bool.and_eq_true] at hadmissible
  exact (revisionAdmitted_iff _ _).mp hadmissible.2

theorem callOf_ok {Value : Type} {stage : Stage} {call : Except IngestError Value}
    {value : Value} (h : callOf failing stage call = .ok value) : call = .ok value := by
  unfold callOf at h
  split at h
  · cases h
  · exact h

variable (codec db request now attachments failing) in
theorem handleReport_cases :
    HandleCase codec db request now attachments
      (handleReport codec db request now attachments failing) := by
  unfold handleReport
  split
  · exact .refused _
  next hheader =>
  split
  · exact .refused _
  next hvalid =>
  split
  · exact .refused _
  next hrevision =>
  obtain ⟨hsequence, hagent⟩ := not_or.mp hheader
  have hadmitted : Admitted db request now := by
    refine ⟨not_not.mp hagent, ?_⟩
    unfold admissible
    simp only [Bool.and_eq_true]
    exact ⟨⟨by simpa using hsequence, by simpa [Database.agentKey] using hvalid⟩,
      by simpa using hrevision⟩
  split
  · exact .refused _
  next replay hclaim =>
  unfold synchronise
  split
  · exact .claimed _ replay hadmitted
  next catalog hsync =>
  have hsync := callOf_ok hsync
  unfold classify
  split
  · exact .synchronised _ replay catalog hadmitted hsync
  next duplicate hclassified =>
  have hclassified := callOf_ok hclassified
  unfold storeProbes
  split
  · refine .probed _ replay catalog _ hadmitted hsync ?_
    unfold interruptedProbes
    split
    · exact .inl rfl
    · next groups hgroups => exact partlyStored_take hgroups _
  have hpartly := partlyStored_persistProbeResults codec db.agentId db.checks
    db.checkTables request.report
  split
  · next checkTables hprobes =>
    refine .probed _ replay catalog checkTables hadmitted hsync ?_
    have hprobes : persistProbeResults codec db.checks db.checkTables db.agentId request.report =
      _ := hprobes
    rwa [hprobes] at hpartly
  next checkTables hprobes =>
  unfold durableAck
  split
  · refine .probed _ replay catalog checkTables hadmitted hsync ?_
    have hprobes : persistProbeResults codec db.checks db.checkTables db.agentId request.report =
      _ := hprobes
    rwa [hprobes] at hpartly
  next tables hstored =>
  have hstored := callOf_ok hstored
  split
  · exact .stored _ replay catalog checkTables tables duplicate hadmitted hsync hclassified
      hprobes hstored
  · exact .acknowledged replay catalog checkTables tables duplicate hadmitted hsync hclassified
      hprobes hstored

end

end AlphaPing.Ingest.Report
