import Mathlib.Data.Int.NatAbs

/-!
# Protocol messages

The protobuf messages that the agent and the ingest worker exchange, with the fields that some
modelled function reads or writes. Unsigned fields are natural numbers, `int64` fields are
integers, and an absent optional field is `none`.

Encoding, compression and hashing are third-party code. A `Codec` stands for them: the model
carries a report as a value, together with the lengths and the digest that the code takes from
its encoded form.
-/

namespace AlphaPing.Protocol

abbrev Bytes := List UInt8

def maxEnvelopeBytes : ℕ := 65536

def maxDecompressedBytes : ℕ := 262144

def maxReportSamples : ℕ := 60

def maxSequence : ℕ := 9007199254740991

/-! ## Samples and containers -/

structure MetricSample where
  observedAtMs : ℤ
  cpuPermille : ℕ := 0
  memoryUsedBytes : ℕ := 0
  memoryTotalBytes : ℕ := 0
  storageUsedBytes : ℕ := 0
  storageTotalBytes : ℕ := 0
  networkRxBytesPerSecond : ℕ := 0
  networkTxBytesPerSecond : ℕ := 0
  networkRxBytesTotal : ℕ := 0
  networkTxBytesTotal : ℕ := 0
  load1mMilli : Option ℕ := none
  uptimeSeconds : Option ℕ := none
  deriving DecidableEq

structure RuntimeSnapshot where
  kind : ℕ
  instance_ : String
  availability : ℕ
  version : String
  detailCode : String
  deriving DecidableEq

structure ContainerCatalogEntry where
  containerKey : Bytes
  runtime : ℕ
  runtimeInstance : String
  runtimeContainerId : String
  name : String
  image : String
  deriving DecidableEq

structure ContainerPort where
  privatePort : ℕ
  publicPort : ℕ
  protocol : String
  deriving DecidableEq

structure ContainerMetric where
  containerKey : Bytes
  state : ℕ := 0
  health : ℕ := 0
  startedAtMs : ℤ := 0
  restartCount : ℕ := 0
  cpuPermille : ℕ := 0
  memoryUsedBytes : ℕ := 0
  memoryLimitBytes : ℕ := 0
  networkRxBytesPerSecond : ℕ := 0
  networkTxBytesPerSecond : ℕ := 0
  ports : List ContainerPort := []
  deriving DecidableEq

structure ContainerInventory where
  observedAtMs : ℤ
  catalogDigest : Bytes
  runtimes : List RuntimeSnapshot
  catalog : List ContainerCatalogEntry
  metrics : List ContainerMetric
  catalogIncluded : Bool
  deriving DecidableEq

/-! ## Probes -/

structure ProbeHeader where
  name : String
  value : String
  sensitive : Bool

structure ProbeAssertion where
  source : String
  operator : String
  selector : String
  expectedJson : Bytes
  severity : String

structure HttpProbeRequest where
  url : String
  method : String
  headers : List ProbeHeader
  body : Bytes
  expectedStatus : List ℕ
  degradedAfterMs : UInt32
  downAfterMs : UInt32
  maxRedirects : ℕ
  maxResponseBytes : ℕ
  assertions : List ProbeAssertion
  tlsVerify : Option Bool

structure TcpProbeRequest where
  hostname : String
  port : ℕ
  useTls : Bool
  payload : Bytes
  responsePrefix : Bytes
  serverName : Option String
  tlsVerify : Option Bool

structure IcmpProbeRequest where
  hostname : String
  degradedAfterMs : UInt32
  downAfterMs : UInt32

/-- The `oneof request` of a probe task. -/
inductive ProbeRequest where
  | http (request : HttpProbeRequest)
  | tcp (request : TcpProbeRequest)
  | icmp (request : IcmpProbeRequest)

structure ProbeTask where
  checkId : String
  checkPk : ℕ
  servicePk : ℕ
  workspacePk : ℕ
  configRevision : ℕ
  intervalSeconds : ℕ
  phaseSeconds : ℕ
  timeoutMs : ℕ
  request : Option ProbeRequest
  retryCount : Option ℕ

structure AgentConfigSnapshot where
  revision : ℕ
  probeTasks : List ProbeTask
  createdAtMs : ℤ
  digest : Bytes
  sampleIntervalSeconds : Option ℕ
  reportIntervalSeconds : Option ℕ
  containerMonitoringEnabled : Option Bool

/-- `AgentConfigSnapshot::default()`. -/
def AgentConfigSnapshot.default : AgentConfigSnapshot where
  revision := 0
  probeTasks := []
  createdAtMs := 0
  digest := []
  sampleIntervalSeconds := none
  reportIntervalSeconds := none
  containerMonitoringEnabled := none

inductive ProbeState where
  | unspecified
  | healthy
  | degraded
  | down
  deriving DecidableEq

/-- The protobuf number of a probe state. -/
def ProbeState.toNat : ProbeState → ℕ
  | unspecified => 0
  | healthy => 1
  | degraded => 2
  | down => 3

structure ProbeResult where
  executionId : Bytes
  checkId : String
  checkPk : ℕ
  servicePk : ℕ
  workspacePk : ℕ
  executorAgentId : String
  configRevision : ℕ
  nominalSlotMs : ℤ
  observedAtMs : ℤ
  state : ℕ
  latencyMs : Option ℕ
  failureCode : String
  failureSummary : String
  deriving DecidableEq

/-! ## Commands, reports and acknowledgements -/

inductive AgentCommandType where
  | unspecified
  | refreshConfig
  | checkUpdate
  | installVersion
  | redetectRuntimes
  deriving DecidableEq

structure AgentCommand where
  id : String
  type : Option AgentCommandType
  notBeforeMs : ℤ
  expiresAtMs : ℤ
  attemptLimit : ℕ
  payloadSchemaVersion : ℕ
  requestedVersion : String
  bypassRollout : Bool

structure AgentCommandResult where
  commandId : String
  status : ℕ
  completedAtMs : ℤ
  resultCode : String
  installedVersion : String
  deriving DecidableEq

structure MachineReport where
  reportId : Bytes
  machinePk : ℕ
  workspacePk : ℕ
  nominalMinuteMs : ℤ
  samples : List MetricSample
  schemaVersion : ℕ
  containerInventory : Option ContainerInventory
  probeResults : List ProbeResult
  appliedConfigRevision : ℕ
  commandResults : List AgentCommandResult
  agentVersion : String
  deriving DecidableEq

inductive AckStatus where
  | committed
  | duplicate
  deriving DecidableEq

structure KeyRotationProposal where
  keyEpoch : ℕ
  dataKey : Bytes
  noncePrefix : Bytes
  validFromMs : ℤ
  validUntilMs : ℤ

structure DurableAck where
  reportId : Bytes
  status : AckStatus
  committedAtMs : ℤ
  configRevision : ℕ
  config : Option AgentConfigSnapshot
  commands : List AgentCommand
  keyRotation : Option KeyRotationProposal
  payloadHash : Bytes

/-! ## Encoded forms -/

/-- `u64::to_be_bytes`. -/
def toBeBytes (value : ℕ) : Bytes :=
  [56, 48, 40, 32, 24, 16, 8, 0].map fun shift ↦ UInt8.ofNat (value / 2 ^ shift)

/-- `i64::to_be_bytes`. -/
def intToBeBytes (value : ℤ) : Bytes :=
  toBeBytes (value % 2 ^ 64).toNat

/-- Encoding, compression and BLAKE3 as the code uses them. -/
structure Codec where
  /-- BLAKE3 of a byte string. -/
  hash : Bytes → Bytes
  length_hash : ∀ bytes, (hash bytes).length = 32
  /-- `encode_message` of a configuration. -/
  encodeConfig : AgentConfigSnapshot → Bytes
  /-- The length of `encode_message` of a report. -/
  encodedLen : MachineReport → ℕ
  /-- `compress_message` of a report, once its length is accepted. -/
  compress : MachineReport → Bytes
  /-- `parse_url` accepts the text. -/
  parseUrl : String → Bool
  /-- `Uuid::parse_str` accepts the text. -/
  parseUuid : String → Bool

variable (codec : Codec)

/-- BLAKE3 of the compressed report. -/
def Codec.payloadHash (report : MachineReport) : Bytes :=
  codec.hash (codec.compress report)

/-- `compress_message` succeeds. -/
def Codec.fits (report : MachineReport) : Bool :=
  codec.encodedLen report ≤ maxDecompressedBytes

/-- A codec to run the model with on small reports: the digest of a byte string is its beginning,
and the length of a report is the one of its identifier and of its samples. -/
def prefixCodec : Codec where
  hash bytes := (bytes ++ List.replicate 32 0).take 32
  length_hash bytes := by simp
  encodeConfig config := toBeBytes config.revision
  encodedLen report := report.reportId.length + 64 * report.samples.length
  compress report := report.reportId ++ report.samples.flatMap fun sample ↦
    intToBeBytes sample.observedAtMs
  parseUrl _ := true
  parseUuid text := text.utf8ByteSize == 36

end AlphaPing.Protocol
