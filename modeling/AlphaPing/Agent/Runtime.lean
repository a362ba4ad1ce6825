import AlphaPing.Agent.Config
import AlphaPing.Agent.Probes.Config
import AlphaPing.Agent.Spool.Capacity
import AlphaPing.Agent.Spool.Commands
import AlphaPing.Agent.Spool.Probes
import AlphaPing.Library.Programs

/-!
# The runtime loop of the agent

One process owns the spool and the configuration file and works on one event at a time: a tick,
the end of an upload, the end of a command, a probe result. Every branch of the loop is a
program whose operations on the disk may fail or be cut off by a crash; an error that a branch
does not handle ends the process.

The clock, the random delays, the samples and what the network returns are arguments of the
events. Live streaming and automatic updates, which only end the process, are left out.
-/

namespace AlphaPing.Agent

open Protocol Library.Programs

def transportSequenceReservation : ℕ := 1024

def backlogWakeBatch : ℕ := 4

def deliveryCreateBatch : ℕ := 64

/-- An upload in flight, with the key epoch and the sequence that seal it. -/
structure Upload where
  delivery : PendingDelivery
  keyEpoch : ℕ
  sequence : ℕ
  retryDelayMs : ℕ

inductive UploadResult where
  | acknowledged (acknowledgement : DurableAck)
  | permanentStatus (status : ℕ)
  | oversized
  | failed (message : String)

structure CommandExecution where
  command : AgentCommand
  attemptCount : ℕ
  result : AgentCommandResult
  retryable : Bool
  restartRequired : Bool

/-- The files of the agent and its process. The last four fields are history: a database file
that has replaced the current one and is read at the next start, every state that the database
was in, the nonces that sealed an upload, and the errors that the loop met. -/
structure Host where
  file : AgentConfig
  spool : Spool
  running : Bool
  config : AgentConfig
  uploaderKeyEpoch : ℕ
  probeConfig : AgentConfigSnapshot
  containerMonitor : Bool
  upload : Option Upload
  commandInFlight : Bool
  restored : Option Spool
  snapshots : List Spool
  sealed : List (ℕ × ℕ)
  log : List String

namespace Host

/-- `run_enrollment`: the file starts with the checkpoint that the spool starts at. -/
def enrolled (config : AgentConfig) (initialClientSequence : ℕ) : Host :=
  let file := { config with transportSequenceCheckpoint := initialClientSequence - 1 }
  let spool := { Spool.empty with transportSequence := initialClientSequence - 1 }
  { file
    spool
    running := false
    config := file
    uploaderKeyEpoch := file.keyEpoch
    probeConfig := .default
    containerMonitor := false
    upload := none
    commandInFlight := false
    restored := none
    snapshots := [spool]
    sealed := []
    log := [] }

/-! ## Operations on the disk -/

/-- The database goes through the states, in their order. -/
def pass (host : Host) (states : List Spool) : Host :=
  { host with
    spool := states.getLastD host.spool
    snapshots := states ++ host.snapshots }

/-- An operation of the spool; `between` lists the states that its statements leave when it is
not one transaction. -/
def onSpool {Value : Type} (operation : Spool → Outcome Value)
    (between : Spool → List Spool := fun _ ↦ []) : Program Host Value :=
  Program.operation
    (fun host ↦ ((operation host.spool).1,
      host.pass (between host.spool ++ [(operation host.spool).2])))
    fun count host ↦ host.pass ((between host.spool).take count)

/-- A query of the database. -/
def query {Value : Type} (question : Spool → Value) : Program Host Value :=
  Program.operation (fun host ↦ (.ok (question host.spool), host)) fun _ host ↦ host

/-- `AgentConfig::save`: the file is replaced as a whole, or not at all. -/
def save (config : AgentConfig) : Program Host Unit :=
  Program.operation
    (fun host ↦ (config.validate,
      if config.validate = .ok () then { host with file := config } else host))
    fun _ host ↦ host

/-- A call whose only effect is that it may fail. -/
def mayFail : Program Host Unit :=
  Program.operation (fun host ↦ (.ok (), host)) fun _ host ↦ host

def logError (message : String) : Program Host Unit :=
  Program.modify fun host ↦ { host with log := host.log ++ [message] }

/-- The loop logs the error of a call and goes on. -/
def logged (program : Program Host Unit) : Program Host Unit := do
  match ← program.attempt with
  | .ok () => pure ()
  | .error message => logError message

/-! ## Sampling and creating deliveries -/

/-- The branch of `sample_tick`. -/
def sampleTick (sample : MetricSample) (nowMs : ℤ) (readings : StorageReadings) :
    Program Host Unit := do
  logged (onSpool fun spool ↦ (.ok (), (spool.appendSample sample nowMs).2))
  let host ← Program.read
  let maxBytes := host.config.maxSpoolBytes
  logged (onSpool (fun spool ↦ (.ok (), (spool.enforceCapacity maxBytes readings nowMs).2))
    fun spool ↦ spool.statesAfter (Spool.capacityStatements maxBytes readings nowMs))

/-- The loop over `create_next_delivery`, which ends when there is nothing left to pack. -/
def createDeliveries (codec : Codec) (machinePk workspacePk : ℕ) (nowMs : ℤ) :
    List Bytes → Program Host Unit
  | [] => pure ()
  | reportId :: rest => do
    let created ← (onSpool
      (fun spool ↦ spool.createNextDelivery codec machinePk workspacePk reportId nowMs)
      fun spool ↦ (List.range 256).map fun count ↦
        (Spool.nextMinute (floorMinute nowMs) count spool).2).attempt
    match created with
    | .ok (some _) => createDeliveries codec machinePk workspacePk nowMs rest
    | .ok none => pure ()
    | .error message => logError message

/-- The latest container snapshot goes to the spool. -/
def collectInventory (inventory : Option ContainerInventory) (nowMs : ℤ) :
    Program Host Unit := do
  let host ← Program.read
  match inventory with
  | some inventory =>
    if host.containerMonitor then
      logged (onSpool fun spool ↦ (.ok (), spool.appendContainerInventory inventory nowMs))
    else pure ()
  | none => pure ()

/-- The branch of `report_tick`. -/
def reportTick (codec : Codec) (inventory : Option ContainerInventory) (nowMs : ℤ)
    (reportIds : List Bytes) : Program Host Unit := do
  collectInventory inventory nowMs
  let host ← Program.read
  logged (onSpool fun spool ↦ (.ok (), spool.redriveQuarantined nowMs))
  createDeliveries codec host.config.machinePk host.config.workspacePk nowMs
    (reportIds.take deliveryCreateBatch)

/-! ## Uploads -/

/-- The checkpoint that `ensure_sequence_reservation` writes. It is irreducible because
unfolding it would compare the sequence with the limit one successor at a time. -/
@[irreducible] def reservation (current : ℕ) : ℕ :=
  min (current + transportSequenceReservation) maxSequence

/-- The file gets a higher checkpoint before memory does. -/
def reserve (current : ℕ) : Program Host Unit :=
  if reservation current = current then
    Program.raise "transport sequence reached the protocol limit; key rotation is required"
  else do
    let host ← Program.read
    let updated := { host.config with transportSequenceCheckpoint := reservation current }
    save updated
    Program.modify fun host ↦ { host with config := updated }

def ensureSequenceReservation : Program Host Unit := do
  let current ← query Spool.transportSequence
  let host ← Program.read
  if host.config.transportSequenceCheckpoint ≤ current then reserve current else pure ()

def startDueUpload (nowMs : ℤ) (retryDelayMs : ℕ) : Program Host Unit := do
  let host ← Program.read
  if host.upload.isSome then pure ()
  else
    match ← query fun spool ↦ spool.dueDelivery nowMs with
    | none => pure ()
    | some delivery =>
      ensureSequenceReservation
      let sequence ← onSpool fun spool ↦
        spool.beginDeliveryAttempt delivery.reportId (nowMs + retryDelayMs)
      Program.modify fun host ↦
        { host with
          upload := some
            { delivery, keyEpoch := host.uploaderKeyEpoch, sequence, retryDelayMs }
          sealed := host.sealed ++ [(host.uploaderKeyEpoch, sequence)] }

def validateNewConfig (codec : Codec) (config : AgentConfigSnapshot) (expectedRevision : ℕ) :
    Except String Unit :=
  if config.revision ≠ expectedRevision then
    .error "Agent configuration revision does not match ACK"
  else Probes.Config.validateConfig codec config

/-- The collection settings that a new configuration carries. -/
def withSettings (config : AgentConfig) (next : AgentConfigSnapshot) : AgentConfig :=
  { config with
    sampleIntervalSeconds := next.sampleIntervalSeconds.getD config.sampleIntervalSeconds
    reportIntervalSeconds := next.reportIntervalSeconds.getD config.reportIntervalSeconds
    containerMonitoringEnabled :=
      next.containerMonitoringEnabled.getD config.containerMonitoringEnabled }

/-- The first part of `apply_ack`: the configuration that the acknowledgement carries. The
result says whether the collection intervals have changed. -/
def applyConfig (codec : Codec) (acknowledgement : DurableAck) (nowMs : ℤ) :
    Program Host Bool := do
  let currentRevision ← query Spool.appliedConfigRevision
  if currentRevision < acknowledgement.configRevision then
    match acknowledgement.config with
    | none => Program.raise "server omitted the newer Agent configuration"
    | some next =>
      Program.ofExcept (validateNewConfig codec next acknowledgement.configRevision)
      let host ← Program.read
      let updated := withSettings host.config next
      save updated
      Program.modify fun host ↦
        { host with
          probeConfig := next
          containerMonitor :=
            if updated.containerMonitoringEnabled ≠ host.config.containerMonitoringEnabled then
              updated.containerMonitoringEnabled
            else host.containerMonitor }
      let _ ← onSpool fun spool ↦ spool.applyProbeConfig next nowMs
      Program.modify fun host ↦ { host with config := updated }
      pure (updated.sampleIntervalSeconds != host.config.sampleIntervalSeconds ||
        updated.reportIntervalSeconds != host.config.reportIntervalSeconds)
  else pure false

/-- The second part of `apply_ack`: the key rotation that the acknowledgement carries. -/
def applyKeyRotation (acknowledgement : DurableAck) (nowMs : ℤ) : Program Host Unit :=
  match acknowledgement.keyRotation with
  | none => pure ()
  | some proposal => do
    let host ← Program.read
    let updated ← Program.ofExcept (rotatedAgentConfig host.config proposal nowMs)
    save updated
    mayFail
    Program.modify fun host ↦
      { host with config := updated, uploaderKeyEpoch := updated.keyEpoch }

def applyAck (codec : Codec) (reportId : Bytes) (acknowledgement : DurableAck) (nowMs : ℤ) :
    Program Host Bool := do
  let scheduleChanged ← applyConfig codec acknowledgement nowMs
  applyKeyRotation acknowledgement nowMs
  onSpool fun spool ↦ spool.acceptCommands codec acknowledgement.commands nowMs
  let acknowledged ← onSpool fun spool ↦ spool.acknowledge reportId
  if acknowledged then pure scheduleChanged
  else Program.raise "durable ACK did not match a local delivery"

/-- `finish_upload`, for an upload that has just been taken out of the set. -/
def finishUpload (codec : Codec) (upload : Upload) (result : UploadResult) (nowMs : ℤ)
    (recoveryJitterMs : ℕ) : Program Host Unit :=
  let reportId := upload.delivery.reportId
  match result with
  | .acknowledged acknowledgement => do
    match ← (applyAck codec reportId acknowledgement nowMs).attempt with
    | .ok _ => onSpool fun spool ↦ spool.wakeBacklog (nowMs + recoveryJitterMs) backlogWakeBatch
    | .error message =>
      onSpool fun spool ↦ spool.rescheduleDelivery reportId (nowMs + 300000) "local_config"
      logError message
  | .permanentStatus _ =>
    onSpool fun spool ↦ spool.quarantineDelivery reportId "server_rejected_payload" nowMs
  | .oversized => onSpool fun spool ↦ spool.quarantineDelivery reportId "payload_too_large" nowMs
  | .failed _ =>
    onSpool fun spool ↦
      spool.rescheduleDelivery reportId (nowMs + upload.retryDelayMs) "upload_failed"

/-! ## Commands -/

def commandResult (commandId : String) (succeeded : Bool) (completedAtMs : ℤ)
    (resultCode : String) : AgentCommandResult where
  commandId
  status := if succeeded then 1 else 2
  completedAtMs
  resultCode
  installedVersion := cargoPkgVersion

def complete (result : AgentCommandResult) : Program Host Unit :=
  onSpool fun spool ↦ spool.completeCommand result

/-- `start_due_command`; the result says whether an update was started. -/
def startDueCommand (nowMs : ℤ) (refreshed : Bool) (retryDelayMs : ℕ) : Program Host Bool := do
  match ← query fun spool ↦ spool.dueCommand nowMs with
  | none => pure false
  | some pending =>
    let commandId := pending.command.id
    if pending.command.expiresAtMs ≤ nowMs then
      complete (commandResult commandId false nowMs "command_expired")
      pure false
    else if pending.command.attemptLimit ≤ pending.attemptCount then
      complete (commandResult commandId false nowMs "command_attempt_limit_reached")
      pure false
    else
      let _ ← onSpool fun spool ↦
        spool.markCommandAttempt commandId (nowMs + max retryDelayMs 30000)
      match pending.command.type.getD .unspecified with
      | .refreshConfig =>
        complete (commandResult commandId true nowMs "config_refreshed")
        pure false
      | .redetectRuntimes =>
        let host ← Program.read
        let started := host.containerMonitor && refreshed
        complete (commandResult commandId started nowMs
          (if started then "runtime_scan_started" else "container_monitoring_disabled"))
        pure false
      | .checkUpdate => pure true
      | .installVersion => pure true
      | .unspecified =>
        complete (commandResult commandId false nowMs "unsupported_command")
        pure false

/-- The branch of `command_tick`. -/
def commandTick (nowMs : ℤ) (refreshed : Bool) (retryDelayMs : ℕ) : Program Host Unit := do
  let host ← Program.read
  if host.commandInFlight then pure ()
  else
    let started ← startDueCommand nowMs refreshed retryDelayMs
    Program.modify fun host ↦ { host with commandInFlight := started }

/-- The branch of a command that has ended. A restart ends the process. -/
def commandDone (execution : CommandExecution) (nowMs : ℤ) : Program Host Unit := do
  Program.modify fun host ↦ { host with commandInFlight := false }
  if execution.retryable ∧ execution.attemptCount < execution.command.attemptLimit ∧
      nowMs < execution.command.expiresAtMs then pure ()
  else
    complete execution.result
    if execution.restartRequired then
      Program.modify fun host ↦ { host with running := false }
    else pure ()

/-! ## The process -/

/-- The start of `run`, up to the loop. -/
def start (codec : Codec) : Program Host Unit := do
  let host ← Program.read
  Program.ofExcept host.file.validate
  Program.modify fun host ↦
    { host with spool := host.restored.getD host.spool, restored := none }
  let checkpoint := host.file.transportSequenceCheckpoint
  let _ ← onSpool fun spool ↦ spool.reconcileSequenceCheckpoint checkpoint
  let probeConfig ← query Spool.loadProbeConfig
  Program.ofExcept (Probes.Config.validateConfig codec probeConfig)
  mayFail
  Program.modify fun host ↦
    { host with
      running := true
      config := host.file
      uploaderKeyEpoch := host.file.keyEpoch
      probeConfig
      containerMonitor := host.file.containerMonitoringEnabled
      upload := none
      commandInFlight := false }

/-- What happens to the agent next. -/
inductive Event where
  | start
  | stop
  | restore (index : ℕ)
  | sampleTick (sample : MetricSample) (nowMs : ℤ) (readings : StorageReadings)
  | reportTick (inventory : Option ContainerInventory) (nowMs : ℤ) (reportIds : List Bytes)
  | uploadTick (nowMs : ℤ) (retryDelayMs : ℕ)
  | uploadDone (result : UploadResult) (nowMs : ℤ) (recoveryJitterMs : ℕ)
  | commandTick (nowMs : ℤ) (refreshed : Bool) (retryDelayMs : ℕ)
  | commandDone (execution : CommandExecution) (nowMs : ℤ)
  | probeResult (result : ProbeResult) (nowMs : ℤ)

/-- The branch of the loop that an event takes; the others change no program state. -/
def branch (codec : Codec) (host : Host) : Event → Program Host Unit
  | .start => if host.running then pure () else start codec
  | .stop => Program.modify fun host ↦ { host with running := false }
  | .restore index => Program.modify fun host ↦
      { host with restored := host.snapshots[index]?.orElse fun _ ↦ host.restored }
  | .sampleTick sample nowMs readings =>
    if host.running then sampleTick sample nowMs readings else pure ()
  | .reportTick inventory nowMs reportIds =>
    if host.running then reportTick codec inventory nowMs reportIds else pure ()
  | .uploadTick nowMs retryDelayMs =>
    if host.running then startDueUpload nowMs retryDelayMs else pure ()
  | .uploadDone result nowMs recoveryJitterMs =>
    if host.running then
      match host.upload with
      | none => pure ()
      | some upload => do
        Program.modify fun host ↦ { host with upload := none }
        finishUpload codec upload result nowMs recoveryJitterMs
    else pure ()
  | .commandTick nowMs refreshed retryDelayMs =>
    if host.running then commandTick nowMs refreshed retryDelayMs else pure ()
  | .commandDone execution nowMs =>
    if host.running then commandDone execution nowMs else pure ()
  | .probeResult result nowMs =>
    if host.running then
      logged (onSpool fun spool ↦ (.ok (), (spool.appendProbeResult result nowMs).2))
    else pure ()

/-- An unhandled error and a crash both end the process. -/
def settle (ending : Ending Unit) (host : Host) : Host :=
  match ending with
  | .returned () => host
  | .raised message => { host with running := false, log := host.log ++ [message] }
  | .interrupted => { host with running := false }

/-- One event, with what befalls the operations of its branch. -/
def step (codec : Codec) (host : Host) (action : Event × List Fate) : Host :=
  let outcome := branch codec host action.1 host action.2
  settle outcome.1 outcome.2.1

end Host

end AlphaPing.Agent
