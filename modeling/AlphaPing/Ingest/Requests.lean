import AlphaPing.Ingest.Replay
import AlphaPing.Ingest.Telemetry
import AlphaPing.Ingest.Validation

/-!
# Requests

What the handlers of a report share: the request, the checks it has to pass before it claims its
sequence, and the reads that prepare its batch.
-/

namespace AlphaPing.Ingest.Requests

open Protocol Containers Telemetry Replay Validation

/-- An authenticated request: the envelope has been opened. -/
structure Request where
  agentId : String
  keyEpoch : ℕ
  sequence : ℕ
  reportId : Bytes
  report : MachineReport
  deriving DecidableEq

variable (codec : Codec)

/-- The revision of the report lies between the applied and the desired one. -/
def revisionAdmitted (agentKey : AgentKeyRow) (report : MachineReport) : Bool :=
  decide (agentKey.appliedConfigRevision ≤ report.appliedConfigRevision) &&
    decide (report.appliedConfigRevision ≤ agentKey.desiredConfigRevision)

theorem revisionAdmitted_iff (agentKey : AgentKeyRow) (report : MachineReport) :
    revisionAdmitted agentKey report = true ↔
      agentKey.appliedConfigRevision ≤ report.appliedConfigRevision ∧
        report.appliedConfigRevision ≤ agentKey.desiredConfigRevision := by
  simp [revisionAdmitted]

/-- The checks between `load_agent_key` and `claim_replay`. -/
def admissible (request : Request) (agentKey : AgentKeyRow) (now : ℤ) : Bool :=
  headerSequenceValid request.keyEpoch request.sequence &&
    (validateReport request.report request.reportId agentKey.machinePk agentKey.workspacePk
      request.agentId now).isOk &&
    revisionAdmitted agentKey request.report

/-- The beginning of `durable_ack`, up to its first read. -/
def prepare (tables : MachineTables) (agentKey : AgentKeyRow) (request : Request) (now : ℤ) :
    Option PreparedReport :=
  let report := request.report
  report.samples.getLast?.map fun sample ↦
    { report := report
      payloadHash := codec.payloadHash report
      agentId := request.agentId
      sample := sample
      state := machineHealthState sample
        (agentKey.maintenanceUntil.any fun until_ ↦ decide (now < until_))
      now := now
      previous := if report.containerInventory.isSome then previousInventory tables report
        else none
      closed := {} }

/-- The block that the report closes is read. -/
def closeBlock (tables : MachineTables) (prepared : PreparedReport) : PreparedReport :=
  if closesBlock prepared.report then
    { prepared with closed := { five := some (closedFive tables prepared.report) } }
  else prepared

/-- The hour that the report closes is read. -/
def closeHour (tables : MachineTables) (prepared : PreparedReport) : PreparedReport :=
  match prepared.closed.five with
  | some five =>
    if closesHour prepared.report then
      { prepared with
        closed := { five := some five, hour := some (closedHour tables prepared.report five) } }
    else prepared
  | none => prepared

/-- What a handler has prepared is its own report. -/
def PreparedFor (prepared : PreparedReport) (report : MachineReport) : Prop :=
  prepared.report = report ∧ prepared.payloadHash = codec.payloadHash report

variable {codec}

variable {prepared : PreparedReport}

theorem closeBlock_of (tables : MachineTables) {report : MachineReport}
    (h : PreparedFor codec prepared report) :
    PreparedFor codec (closeBlock tables prepared) report := by
  unfold closeBlock
  split <;> exact h

theorem closeHour_of (tables : MachineTables) {report : MachineReport}
    (h : PreparedFor codec prepared report) :
    PreparedFor codec (closeHour tables prepared) report := by
  unfold closeHour
  split
  · split <;> exact h
  · exact h

theorem prepare_of {tables : MachineTables} {agentKey : AgentKeyRow} {request : Request} {now : ℤ}
    (h : prepare codec tables agentKey request now = some prepared) :
    PreparedFor codec prepared request.report := by
  obtain ⟨sample, -, rfl⟩ := Option.map_eq_some_iff.mp h
  exact ⟨rfl, rfl⟩

end AlphaPing.Ingest.Requests
