import AlphaPing.Protocol.Messages
import Mathlib.Data.Bool.Basic
import Mathlib.Tactic.Common

/-!
# Validation of an authenticated report

`validate_report` is the ingest worker's first look at a decrypted report. Every failing check
ends the request with the same permanent status, so one unacceptable probe result costs the
whole machine report.

Timestamps are `i64` in the code and are compared with saturating sums. On that range the
comparison with a saturating sum and the comparison with the plain sum agree, and the model
uses the plain one.
-/

namespace AlphaPing.Ingest.Validation

open Protocol

inductive ValidationError where
  | reportIdentity
  | resourceScope
  | sampleCount
  | reportTime
  deriving DecidableEq

def maxContainerCount : ℕ := 64
def maxContainerPorts : ℕ := 8
def maxRuntimeCount : ℕ := 16
def maxProbeResults : ℕ := 512
def maxCommandResults : ℕ := 16

/-- `char::is_ascii_hexdigit`. -/
def isHexDigit (character : Char) : Bool :=
  character.isDigit || ('a' ≤ character && character ≤ 'f') ||
    ('A' ≤ character && character ≤ 'F')

def looksLikeUuid (value : String) : Bool :=
  value.utf8ByteSize == 36 && value.toList.zipIdx.all fun (character, index) ↦
    if index ∈ [8, 13, 18, 23] then character == '-' else isHexDigit character

/-- The characters that a version text may contain. -/
def versionText (value : String) : Bool :=
  value.toList.all fun character ↦ character.isAlphanum || character ∈ ['.', '-', '+']

def sampleValid (nominalMinuteMs : ℤ) (sample : MetricSample) : Bool :=
  nominalMinuteMs ≤ sample.observedAtMs && sample.observedAtMs < nominalMinuteMs + 60000 &&
    sample.cpuPermille ≤ 1000 &&
    (sample.memoryTotalBytes == 0 || sample.memoryUsedBytes ≤ sample.memoryTotalBytes) &&
    (sample.storageTotalBytes == 0 || sample.storageUsedBytes ≤ sample.storageTotalBytes) &&
    sample.uptimeSeconds.all fun uptime ↦ uptime ≤ maxSequence

def catalogEntryValid (entry : ContainerCatalogEntry) : Bool :=
  entry.containerKey.length == 16 && entry.runtimeInstance.utf8ByteSize ≤ 64 &&
    entry.runtimeContainerId.utf8ByteSize ≤ 128 && entry.name.utf8ByteSize ≤ 128 &&
    entry.image.utf8ByteSize ≤ 512

def inventoryValid (nominalMinuteMs : ℤ) (inventory : ContainerInventory) : Bool :=
  nominalMinuteMs ≤ inventory.observedAtMs &&
    inventory.observedAtMs < nominalMinuteMs + 60000 &&
    inventory.catalogDigest.length == 32 && inventory.runtimes.length ≤ maxRuntimeCount &&
    inventory.catalog.length ≤ maxContainerCount &&
    (inventory.catalogIncluded || inventory.catalog.isEmpty) &&
    inventory.metrics.length ≤ maxContainerCount &&
    inventory.catalog.all catalogEntryValid &&
    inventory.metrics.all fun metric ↦
      metric.containerKey.length == 16 && metric.ports.length ≤ maxContainerPorts

/-- The checks of one probe result against the report and the authenticated agent. -/
def probeResultValid (workspacePk : ℕ) (agentId : String) (appliedConfigRevision : ℕ) (nowMs : ℤ)
    (result : ProbeResult) : Bool :=
  result.executionId.length == 32 && result.checkId.utf8ByteSize == 36 &&
    result.checkPk != 0 && result.servicePk != 0 && result.workspacePk == workspacePk &&
    result.executorAgentId == agentId && result.configRevision != 0 &&
    result.configRevision ≤ appliedConfigRevision && result.nominalSlotMs % 1000 == 0 &&
    result.nominalSlotMs ≤ nowMs + 120000 && result.nominalSlotMs ≤ result.observedAtMs &&
    result.observedAtMs ≤ result.nominalSlotMs + 60000 &&
    (1 ≤ result.state && result.state ≤ 3) && result.failureCode.utf8ByteSize ≤ 64 &&
    result.failureSummary.utf8ByteSize ≤ 160

def commandResultValid (nowMs : ℤ) (result : AgentCommandResult) : Bool :=
  looksLikeUuid result.commandId && (1 ≤ result.status && result.status ≤ 2) &&
    result.completedAtMs ≤ nowMs + 120000 && result.resultCode.utf8ByteSize != 0 &&
    result.resultCode.utf8ByteSize ≤ 64 && result.installedVersion.utf8ByteSize ≤ 64 &&
    versionText result.installedVersion

def validateReport (report : MachineReport) (authenticatedReportId : Bytes)
    (machinePk workspacePk : ℕ) (authenticatedAgentId : String) (nowMs : ℤ) :
    Except ValidationError Unit :=
  if authenticatedReportId.length ≠ 16 ∨ report.reportId ≠ authenticatedReportId then
    .error .reportIdentity
  else if report.machinePk ≠ machinePk ∨ report.workspacePk ≠ workspacePk then
    .error .resourceScope
  else if report.samples.isEmpty ∨ maxReportSamples < report.samples.length then
    .error .sampleCount
  else if report.nominalMinuteMs % 60000 ≠ 0 ∨ nowMs + 120000 < report.nominalMinuteMs then
    .error .reportTime
  else if ¬ report.samples.all (sampleValid report.nominalMinuteMs) then .error .reportTime
  else if ¬ report.containerInventory.all (inventoryValid report.nominalMinuteMs) then
    .error .reportTime
  else if maxProbeResults < report.probeResults.length then .error .sampleCount
  else if ¬ (report.probeResults.all (probeResultValid workspacePk authenticatedAgentId
      report.appliedConfigRevision nowMs) ∧
      (report.probeResults.map ProbeResult.executionId).Nodup) then .error .reportTime
  else if 32 < report.agentVersion.utf8ByteSize ∨ ¬ versionText report.agentVersion ∨
      maxCommandResults < report.commandResults.length then .error .reportTime
  else if ¬ (report.commandResults.all (commandResultValid nowMs) ∧
      (report.commandResults.map AgentCommandResult.commandId).Nodup) then .error .reportTime
  else .ok ()

variable {report : MachineReport} {authenticatedReportId : Bytes} {machinePk workspacePk : ℕ}
  {agentId : String} {nowMs : ℤ}

theorem refuse_eq_ok {condition : Prop} [Decidable condition] {error : ValidationError}
    {next : Except ValidationError Unit} :
    (if condition then .error error else next) = .ok () ↔ ¬condition ∧ next = .ok () := by
  by_cases hcondition : condition
  · rw [if_pos hcondition]
    exact ⟨fun h ↦ Except.noConfusion rfl rfl (heq_of_eq h), fun h ↦ absurd hcondition h.1⟩
  · rw [if_neg hcondition]
    exact ⟨fun h ↦ ⟨hcondition, h⟩, And.right⟩

/-- The checks of `validate_report`, which an accepted report passes. -/
structure ReportValid (report : MachineReport) (authenticatedReportId : Bytes)
    (machinePk workspacePk : ℕ) (agentId : String) (nowMs : ℤ) : Prop where
  reportId : ¬(authenticatedReportId.length ≠ 16 ∨ report.reportId ≠ authenticatedReportId)
  scope : ¬(report.machinePk ≠ machinePk ∨ report.workspacePk ≠ workspacePk)
  sampleCount : ¬(report.samples.isEmpty ∨ maxReportSamples < report.samples.length)
  minute : ¬(report.nominalMinuteMs % 60000 ≠ 0 ∨ nowMs + 120000 < report.nominalMinuteMs)
  samples : report.samples.all (sampleValid report.nominalMinuteMs)
  inventory : report.containerInventory.all (inventoryValid report.nominalMinuteMs)
  probeCount : ¬maxProbeResults < report.probeResults.length
  probeResults : report.probeResults.all (probeResultValid workspacePk agentId
    report.appliedConfigRevision nowMs)
  executionIds : (report.probeResults.map ProbeResult.executionId).Nodup
  version : ¬(32 < report.agentVersion.utf8ByteSize ∨ ¬versionText report.agentVersion ∨
    maxCommandResults < report.commandResults.length)
  commandResults : report.commandResults.all (commandResultValid nowMs)
  commandIds : (report.commandResults.map AgentCommandResult.commandId).Nodup

theorem validateReport_eq_ok_iff :
    validateReport report authenticatedReportId machinePk workspacePk agentId nowMs = .ok () ↔
      ReportValid report authenticatedReportId machinePk workspacePk agentId nowMs := by
  unfold validateReport
  rw [refuse_eq_ok, refuse_eq_ok, refuse_eq_ok, refuse_eq_ok, refuse_eq_ok, refuse_eq_ok,
    refuse_eq_ok, refuse_eq_ok, refuse_eq_ok, refuse_eq_ok]
  constructor
  · rintro ⟨hid, hscope, hcount, hminute, hsamples, hinventory, hmany, hprobes, hversion,
      hcommands, -⟩
    exact ⟨hid, hscope, hcount, hminute, not_not.mp hsamples, not_not.mp hinventory, hmany,
      (not_not.mp hprobes).1, (not_not.mp hprobes).2, hversion, (not_not.mp hcommands).1,
      (not_not.mp hcommands).2⟩
  · intro h
    exact ⟨h.reportId, h.scope, h.sampleCount, h.minute, not_not.mpr h.samples,
      not_not.mpr h.inventory, h.probeCount, not_not.mpr ⟨h.probeResults, h.executionIds⟩,
      h.version, not_not.mpr ⟨h.commandResults, h.commandIds⟩, rfl⟩

theorem isOk_validateReport_iff :
    (validateReport report authenticatedReportId machinePk workspacePk agentId nowMs).isOk =
        true ↔
      ReportValid report authenticatedReportId machinePk workspacePk agentId nowMs := by
  rw [← validateReport_eq_ok_iff]
  cases validateReport report authenticatedReportId machinePk workspacePk agentId nowMs with
  | error error => exact ⟨fun h ↦ (nomatch h), fun h ↦ (nomatch h)⟩
  | ok => exact ⟨fun _ ↦ rfl, fun _ ↦ rfl⟩

theorem probeResults_of_validateReport
    (h : validateReport report authenticatedReportId machinePk workspacePk agentId nowMs = .ok ()) :
    (∀ result ∈ report.probeResults,
      probeResultValid workspacePk agentId report.appliedConfigRevision nowMs result = true) ∧
    (report.probeResults.map ProbeResult.executionId).Nodup := by
  have hvalid := validateReport_eq_ok_iff.mp h
  exact ⟨List.all_eq_true.mp hvalid.probeResults, hvalid.executionIds⟩

theorem probeResultValid_mono {applied applied' : ℕ} {nowMs' : ℤ} {result : ProbeResult}
    (happlied : applied ≤ applied') (hnow : nowMs ≤ nowMs')
    (h : probeResultValid workspacePk agentId applied nowMs result = true) :
    probeResultValid workspacePk agentId applied' nowMs' result = true := by
  simp only [probeResultValid, Bool.and_eq_true, decide_eq_true_eq, beq_iff_eq] at h ⊢
  grind

end AlphaPing.Ingest.Validation
