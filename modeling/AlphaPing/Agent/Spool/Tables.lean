import AlphaPing.Library.Tables
import AlphaPing.Protocol.Messages
import Mathlib.Data.Prod.Lex

/-!
# The tables of the agent spool

The spool is one SQLite database. Its rows are modelled as they are declared, with the decoded
message in the place of an encoded payload; the two `meta` tables become the fields that the
modelled statements read and write. The live session counter and the encryption of the stored
probe configuration have no counterpart here.

An operation of the spool returns its result together with the tables it leaves. A transaction
that fails leaves the tables as they were, but a statement outside of the transaction keeps its
effect also when a later one fails.
-/

namespace AlphaPing.Agent

open Protocol

structure SampleRow where
  id : ℕ
  sampleBucket : ℤ
  observedAt : ℤ
  payload : MetricSample
  createdAt : ℤ
  deriving DecidableEq

structure SnapshotRow where
  nominalMinute : ℤ
  observedAt : ℤ
  payload : ContainerInventory
  createdAt : ℤ

inductive DeliveryState where
  | pending
  | quarantined
  deriving DecidableEq

structure DeliveryRow where
  reportId : Bytes
  nominalMinute : ℤ
  payload : MachineReport
  payloadHash : Bytes
  createdAt : ℤ
  nextAttemptAt : ℤ
  attemptCount : ℕ
  state : DeliveryState
  lastErrorCode : Option String
  catalogDigest : Option Bytes
  catalogIncluded : Bool

structure DeliverySampleRow where
  reportId : Bytes
  sampleId : ℕ
  deriving DecidableEq

structure ProbeConfigRow where
  revision : ℕ
  payload : AgentConfigSnapshot
  updatedAt : ℤ

structure ProbeRow where
  executionId : Bytes
  nominalMinute : ℤ
  observedAt : ℤ
  payload : ProbeResult
  createdAt : ℤ

inductive CommandState where
  | pending
  | running
  | completed
  deriving DecidableEq

structure CommandRow where
  commandId : String
  payload : AgentCommand
  state : CommandState
  attemptCount : ℕ
  attemptLimit : ℕ
  nextAttemptAt : ℤ
  createdAt : ℤ
  updatedAt : ℤ

structure CommandResultRow where
  commandId : String
  payload : AgentCommandResult
  completedAt : ℤ

structure DeliveryCommandRow where
  reportId : Bytes
  commandId : String

structure GapRow where
  hourStart : ℤ
  droppedSamples : ℕ
  reason : String
  updatedAt : ℤ

/-- The database. `nextSampleId` is the state of `AUTOINCREMENT`. -/
structure Spool where
  transportSequence : ℕ
  appliedConfigRevision : ℕ
  containerCatalogDigest : Option Bytes
  nextSampleId : ℕ
  samples : List SampleRow
  containerSnapshots : List SnapshotRow
  deliveries : List DeliveryRow
  deliverySamples : List DeliverySampleRow
  probeConfig : Option ProbeConfigRow
  probeResults : List ProbeRow
  agentCommands : List CommandRow
  commandResults : List CommandResultRow
  deliveryCommandResults : List DeliveryCommandRow
  dataGaps : List GapRow

/-- The result of an operation and the tables it leaves. -/
abbrev Outcome (Value : Type) := Except String Value × Spool

/-- The tables as `Spool::create` leaves them, before the sequence is set. -/
def Spool.empty : Spool where
  transportSequence := 0
  appliedConfigRevision := 0
  containerCatalogDigest := none
  nextSampleId := 1
  samples := []
  containerSnapshots := []
  deliveries := []
  deliverySamples := []
  probeConfig := none
  probeResults := []
  agentCommands := []
  commandResults := []
  deliveryCommandResults := []
  dataGaps := []

/-- `div_euclid(60_000) * 60_000`. -/
def floorMinute (timeMs : ℤ) : ℤ := timeMs / 60000 * 60000

/-- `(t / 60000) * 60000` in SQL, where the division truncates. -/
def truncatedMinute (timeMs : ℤ) : ℤ := timeMs.tdiv 60000 * 60000

/-- A row of `delivery_samples` mentions the sample. -/
def Spool.attached (spool : Spool) (sampleId : ℕ) : Bool :=
  spool.deliverySamples.any fun row ↦ row.sampleId == sampleId

/-- The `LEFT JOIN … WHERE ds.sample_id IS NULL` that several statements share. -/
def Spool.unassigned (spool : Spool) : List SampleRow :=
  spool.samples.filter fun row ↦ !spool.attached row.id

/-- `WHERE report_id = ? AND state = 'pending'`. -/
def isPending (reportId : Bytes) (row : DeliveryRow) : Bool :=
  row.reportId == reportId && row.state == .pending

theorem mem_unassigned {spool : Spool} {row : SampleRow} :
    row ∈ spool.unassigned ↔
      row ∈ spool.samples ∧ ∀ attachment ∈ spool.deliverySamples, attachment.sampleId ≠ row.id := by
  simp [Spool.unassigned, Spool.attached]

end AlphaPing.Agent
