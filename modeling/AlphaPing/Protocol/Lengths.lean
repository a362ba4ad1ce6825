import AlphaPing.Protocol.Messages
import Mathlib.Algebra.Order.BigOperators.Group.List
import Mathlib.Algebra.Order.Group.Nat

/-!
# Lengths of encoded messages

The protobuf encoder leaves out a number, a text or a byte string that is empty, and writes the
tag of every field in one byte, since no field of these messages has a number above fifteen. The
length of a message is the sum over its fields. Fields that the model leaves out count as empty.
-/

namespace AlphaPing.Protocol

/-- The length of a variable-length integer. -/
def varintLen (value : ℕ) : ℕ := value.log2 / 7 + 1

/-- A number is left out when it is zero; the tags of these messages have one byte. -/
def numberLen (value : ℕ) : ℕ := if value = 0 then 0 else 1 + varintLen value

/-- A signed number is encoded as its two's complement. -/
def signedLen (value : ℤ) : ℕ := numberLen (value % 2 ^ 64).toNat

def optionalLen (value : Option ℕ) : ℕ := (value.map fun number ↦ 1 + varintLen number).getD 0

/-- A message inside of a message is there even when it is empty. -/
def messageLen (length : ℕ) : ℕ := 1 + varintLen length + length

/-- A text or a byte string is left out when it is empty. -/
def bytesLen (length : ℕ) : ℕ := if length = 0 then 0 else messageLen length

def metricSampleLen (sample : MetricSample) : ℕ :=
  signedLen sample.observedAtMs + numberLen sample.cpuPermille +
    numberLen sample.memoryUsedBytes + numberLen sample.memoryTotalBytes +
    numberLen sample.storageUsedBytes + numberLen sample.storageTotalBytes +
    numberLen sample.networkRxBytesPerSecond + numberLen sample.networkTxBytesPerSecond +
    numberLen sample.networkRxBytesTotal + numberLen sample.networkTxBytesTotal +
    optionalLen sample.load1mMilli + optionalLen sample.uptimeSeconds

def runtimeSnapshotLen (runtime : RuntimeSnapshot) : ℕ :=
  numberLen runtime.kind + bytesLen runtime.instance_.utf8ByteSize +
    numberLen runtime.availability + bytesLen runtime.version.utf8ByteSize +
    bytesLen runtime.detailCode.utf8ByteSize

def catalogEntryLen (entry : ContainerCatalogEntry) : ℕ :=
  bytesLen entry.containerKey.length + numberLen entry.runtime +
    bytesLen entry.runtimeInstance.utf8ByteSize + bytesLen entry.runtimeContainerId.utf8ByteSize +
    bytesLen entry.name.utf8ByteSize + bytesLen entry.image.utf8ByteSize

def containerPortLen (port : ContainerPort) : ℕ :=
  numberLen port.privatePort + numberLen port.publicPort + bytesLen port.protocol.utf8ByteSize

def containerMetricLen (metric : ContainerMetric) : ℕ :=
  bytesLen metric.containerKey.length + numberLen metric.state + numberLen metric.health +
    signedLen metric.startedAtMs + numberLen metric.restartCount + numberLen metric.cpuPermille +
    numberLen metric.memoryUsedBytes + numberLen metric.memoryLimitBytes +
    numberLen metric.networkRxBytesPerSecond + numberLen metric.networkTxBytesPerSecond +
    (metric.ports.map fun port ↦ messageLen (containerPortLen port)).sum

def containerInventoryLen (inventory : ContainerInventory) : ℕ :=
  signedLen inventory.observedAtMs + bytesLen inventory.catalogDigest.length +
    (inventory.runtimes.map fun runtime ↦ messageLen (runtimeSnapshotLen runtime)).sum +
    (inventory.catalog.map fun entry ↦ messageLen (catalogEntryLen entry)).sum +
    (inventory.metrics.map fun metric ↦ messageLen (containerMetricLen metric)).sum +
    numberLen inventory.catalogIncluded.toNat

def probeResultLen (result : ProbeResult) : ℕ :=
  bytesLen result.executionId.length + bytesLen result.checkId.utf8ByteSize +
    numberLen result.checkPk + numberLen result.servicePk + numberLen result.workspacePk +
    bytesLen result.executorAgentId.utf8ByteSize + numberLen result.configRevision +
    signedLen result.nominalSlotMs + signedLen result.observedAtMs + numberLen result.state +
    optionalLen result.latencyMs + bytesLen result.failureCode.utf8ByteSize +
    bytesLen result.failureSummary.utf8ByteSize

def commandResultLen (result : AgentCommandResult) : ℕ :=
  bytesLen result.commandId.utf8ByteSize + numberLen result.status +
    signedLen result.completedAtMs + bytesLen result.resultCode.utf8ByteSize +
    bytesLen result.installedVersion.utf8ByteSize

def machineReportLen (report : MachineReport) : ℕ :=
  bytesLen report.reportId.length + numberLen report.machinePk + numberLen report.workspacePk +
    signedLen report.nominalMinuteMs +
    (report.samples.map fun sample ↦ messageLen (metricSampleLen sample)).sum +
    numberLen report.schemaVersion +
    (report.containerInventory.map fun inventory ↦
      messageLen (containerInventoryLen inventory)).getD 0 +
    (report.probeResults.map fun result ↦ messageLen (probeResultLen result)).sum +
    numberLen report.appliedConfigRevision +
    (report.commandResults.map fun result ↦ messageLen (commandResultLen result)).sum +
    bytesLen report.agentVersion.utf8ByteSize

theorem le_bytesLen (length : ℕ) : length ≤ bytesLen length := by
  unfold bytesLen messageLen
  split <;> omega

theorem name_le_containerInventoryLen {inventory : ContainerInventory}
    {entry : ContainerCatalogEntry} (h : entry ∈ inventory.catalog) :
    entry.name.utf8ByteSize ≤ containerInventoryLen inventory := by
  have hname : entry.name.utf8ByteSize ≤ catalogEntryLen entry := by
    have hfield := le_bytesLen entry.name.utf8ByteSize
    unfold catalogEntryLen
    omega
  have hmessage : catalogEntryLen entry ≤ messageLen (catalogEntryLen entry) := by
    unfold messageLen
    omega
  have hsum : messageLen (catalogEntryLen entry) ≤
      (inventory.catalog.map fun entry ↦ messageLen (catalogEntryLen entry)).sum :=
    List.single_le_sum (fun _ _ ↦ Nat.zero_le _) _ (List.mem_map_of_mem h)
  unfold containerInventoryLen
  omega

end AlphaPing.Protocol
