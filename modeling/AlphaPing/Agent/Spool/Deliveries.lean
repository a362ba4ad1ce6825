import AlphaPing.Agent.Spool.Tables

/-!
# Samples and durable deliveries

A delivery freezes one report. `create_next_delivery` packs the oldest complete minute that has
unassigned samples; where that minute already has a delivery, the samples are parked on it and
the search goes on. The row then stays, pending or quarantined, until an acknowledgement removes
it together with everything attached to it.

The report identifier, which the code draws as a UUID, is an argument here. So is the clock.
-/

namespace AlphaPing.Agent

open Protocol Library.Tables

def quarantineRedriveMs : ℤ := 3600000

def maxDeliveryAttempts : ℕ := 8

def redriveBatch : ℕ := 64

/-- `env!("CARGO_PKG_VERSION")`. -/
def cargoPkgVersion : String := "0.1.0"

structure PendingDelivery where
  reportId : Bytes
  nominalMinuteMs : ℤ
  payload : MachineReport
  attemptCount : ℕ

namespace Spool

/-! ## Collecting -/

/-- `append_sample`: a second sample of one bucket is ignored. -/
def appendSample (spool : Spool) (sample : MetricSample) (nowMs : ℤ) : Bool × Spool :=
  if spool.samples.any fun row ↦ row.sampleBucket == sample.observedAtMs then (false, spool)
  else
    (true, { spool with
      nextSampleId := spool.nextSampleId + 1
      samples := spool.samples ++
        [{ id := spool.nextSampleId
           sampleBucket := sample.observedAtMs
           observedAt := sample.observedAtMs
           payload := sample
           createdAt := nowMs }] })

/-- `append_container_inventory`: one snapshot a minute, the latest one. -/
def appendContainerInventory (spool : Spool) (inventory : ContainerInventory) (nowMs : ℤ) :
    Spool :=
  let row : SnapshotRow :=
    { nominalMinute := floorMinute inventory.observedAtMs
      observedAt := inventory.observedAtMs
      payload := inventory
      createdAt := nowMs }
  if spool.containerSnapshots.any fun old ↦ old.nominalMinute == row.nominalMinute then
    { spool with
      containerSnapshots := updateWhere
        (fun old ↦ old.nominalMinute == row.nominalMinute && old.observedAt ≤ row.observedAt)
        (fun _ ↦ row) spool.containerSnapshots }
  else { spool with containerSnapshots := spool.containerSnapshots ++ [row] }

/-! ## Creating a delivery -/

def unassignedIn (spool : Spool) (minute : ℤ) : List SampleRow :=
  spool.unassigned.filter fun row ↦ minute ≤ row.observedAt && row.observedAt < minute + 60000

def oldestUnassigned (spool : Spool) (currentMinute : ℤ) : Option SampleRow :=
  (selectOrdered SampleRow.observedAt 1
    (spool.unassigned.filter fun row ↦ row.observedAt < currentMinute)).head?

def deliveryOf (spool : Spool) (minute : ℤ) : Option DeliveryRow :=
  spool.deliveries.find? fun row ↦ row.nominalMinute == minute

/-- `INSERT OR IGNORE INTO delivery_samples SELECT …`: leftover samples of a minute are attached
to the delivery that the minute already has. -/
def park (spool : Spool) (reportId : Bytes) (minute : ℤ) : Spool :=
  { spool with
    deliverySamples := spool.deliverySamples ++
      (spool.unassignedIn minute).map fun row ↦ ⟨reportId, row.id⟩ }

/-- The loop that looks for a minute without a delivery; the first argument is what is left of
the 256 minutes it may park. -/
def nextMinute (currentMinute : ℤ) : ℕ → Spool → Option ℤ × Spool
  | 0, spool => (none, spool)
  | left + 1, spool =>
    match spool.oldestUnassigned currentMinute with
    | none => (none, spool)
    | some row =>
      let minute := truncatedMinute row.observedAt
      match spool.deliveryOf minute with
      | none => (some minute, spool)
      | some delivery => nextMinute currentMinute left (spool.park delivery.reportId minute)

def packedSamples (spool : Spool) (minute : ℤ) : List SampleRow :=
  selectOrdered SampleRow.observedAt maxReportSamples (spool.unassignedIn minute)

def snapshotOf (spool : Spool) (minute : ℤ) : Option ContainerInventory :=
  (spool.containerSnapshots.find? fun row ↦ row.nominalMinute == minute).map SnapshotRow.payload

/-- The catalog travels unless its digest is the last acknowledged one. -/
def includesCatalog (spool : Spool) (minute : ℤ) : Bool :=
  (spool.snapshotOf minute).any fun inventory ↦
    spool.containerCatalogDigest != some inventory.catalogDigest

/-- The inventory as the report carries it. -/
def packedInventory (spool : Spool) (minute : ℤ) : Option ContainerInventory :=
  (spool.snapshotOf minute).map fun inventory ↦
    { inventory with
      catalogIncluded := spool.includesCatalog minute
      catalog := if spool.includesCatalog minute then inventory.catalog else [] }

/-- The probe results that a new delivery of the minute takes along. -/
def packedProbes (spool : Spool) (minute : ℤ) : List ProbeRow :=
  selectOrdered (fun row ↦ toLex (row.nominalMinute, row.observedAt)) 512
    (spool.probeResults.filter fun row ↦ row.nominalMinute ≤ minute)

/-- The command results that no delivery carries yet. -/
def packedCommands (spool : Spool) : List CommandResultRow :=
  selectOrdered CommandResultRow.completedAt 16
    (spool.commandResults.filter fun row ↦
      !spool.deliveryCommandResults.any fun attached ↦ attached.commandId == row.commandId)

/-- The report of a new delivery. -/
def buildReport (spool : Spool) (machinePk workspacePk : ℕ) (reportId : Bytes) (minute : ℤ) :
    MachineReport where
  reportId
  machinePk
  workspacePk
  nominalMinuteMs := minute
  samples := (spool.packedSamples minute).map SampleRow.payload
  schemaVersion := 4
  containerInventory := spool.packedInventory minute
  probeResults := (spool.packedProbes minute).map ProbeRow.payload
  appliedConfigRevision := spool.appliedConfigRevision
  commandResults := spool.packedCommands.map CommandResultRow.payload
  agentVersion := cargoPkgVersion

def deliveryRow (spool : Spool) (codec : Codec) (report : MachineReport) (nowMs : ℤ) :
    DeliveryRow where
  reportId := report.reportId
  nominalMinute := report.nominalMinuteMs
  payload := report
  payloadHash := codec.payloadHash report
  createdAt := nowMs
  nextAttemptAt := nowMs
  attemptCount := 0
  state := .pending
  lastErrorCode := none
  catalogDigest := (spool.snapshotOf report.nominalMinuteMs).map ContainerInventory.catalogDigest
  catalogIncluded := spool.includesCatalog report.nominalMinuteMs

/-- The transaction of `create_next_delivery`. -/
def insertDelivery (spool : Spool) (codec : Codec) (report : MachineReport) (nowMs : ℤ) : Spool :=
  let minute := report.nominalMinuteMs
  let taken := (spool.packedProbes minute).map ProbeRow.executionId
  { spool with
    deliveries := spool.deliveries ++ [spool.deliveryRow codec report nowMs]
    deliverySamples := spool.deliverySamples ++
      (spool.packedSamples minute).map fun row ↦ ⟨report.reportId, row.id⟩
    probeResults := spool.probeResults.filter fun row ↦ !taken.contains row.executionId
    deliveryCommandResults := spool.deliveryCommandResults ++
      spool.packedCommands.map fun row ↦ ⟨report.reportId, row.commandId⟩
    containerSnapshots := spool.containerSnapshots.filter fun row ↦ row.nominalMinute != minute }

def createNextDelivery (spool : Spool) (codec : Codec) (machinePk workspacePk : ℕ)
    (reportId : Bytes) (nowMs : ℤ) : Outcome (Option Bytes) :=
  match nextMinute (floorMinute nowMs) 256 spool with
  | (none, parked) => (.ok none, parked)
  | (some minute, parked) =>
    if (parked.packedSamples minute).isEmpty then (.ok none, parked)
    else
      let report := parked.buildReport machinePk workspacePk reportId minute
      if ¬ codec.fits report then (.error "payload exceeds the protocol size limit", parked)
      else if parked.deliveries.any fun row ↦
          row.reportId == reportId || row.nominalMinute == minute then
        (.error "UNIQUE constraint failed: deliveries", parked)
      else (.ok (some reportId), parked.insertDelivery codec report nowMs)

/-! ## Attempts -/

def reconcileSequenceCheckpoint (spool : Spool) (checkpoint : ℕ) : Outcome ℕ :=
  if maxSequence < checkpoint then
    (.error "transport sequence checkpoint exceeds the protocol limit", spool)
  else
    let sequence := max spool.transportSequence checkpoint
    let spool := { spool with transportSequence := sequence }
    if maxSequence < sequence then (.error "transport sequence exceeds the protocol limit", spool)
    else (.ok sequence, spool)

def dueDelivery (spool : Spool) (nowMs : ℤ) : Option PendingDelivery :=
  (selectOrdered DeliveryRow.nominalMinute 1
    (spool.deliveries.filter fun row ↦
      row.state == .pending && decide (row.nextAttemptAt ≤ nowMs))).head?.map fun row ↦
    { reportId := row.reportId
      nominalMinuteMs := row.nominalMinute
      payload := row.payload
      attemptCount := row.attemptCount }

def beginDeliveryAttempt (spool : Spool) (reportId : Bytes) (nextAttemptAt : ℤ) : Outcome ℕ :=
  let next := spool.transportSequence + 1
  if maxSequence < next then
    (.error "transport sequence reached the protocol limit; key rotation is required", spool)
  else if spool.deliveries.countP (isPending reportId) ≠ 1 then
    (.error "Agent delivery is no longer pending", spool)
  else
    (.ok next, { spool with
      transportSequence := next
      deliveries := updateWhere (isPending reportId)
        (fun row ↦ { row with
          attemptCount := row.attemptCount + 1
          nextAttemptAt := nextAttemptAt
          lastErrorCode := none }) spool.deliveries })

/-- The conditional update that `reschedule_delivery` and `quarantine_delivery` share: it fails
unless exactly one pending delivery was changed. -/
def changePending (spool : Spool) (reportId : Bytes) (change : DeliveryRow → DeliveryRow) :
    Outcome Unit :=
  if spool.deliveries.countP (isPending reportId) ≠ 1 then
    (.error "Agent delivery is no longer pending",
      { spool with deliveries := updateWhere (isPending reportId) change spool.deliveries })
  else (.ok (), { spool with deliveries := updateWhere (isPending reportId) change spool.deliveries })

def rescheduleDelivery (spool : Spool) (reportId : Bytes) (nextAttemptAt : ℤ)
    (errorCode : String) : Outcome Unit :=
  spool.changePending reportId fun row ↦
    { row with nextAttemptAt := nextAttemptAt, lastErrorCode := some errorCode }

def quarantineDelivery (spool : Spool) (reportId : Bytes) (errorCode : String) (nowMs : ℤ) :
    Outcome Unit :=
  spool.changePending reportId fun row ↦
    { row with
      state := .quarantined
      lastErrorCode := some errorCode
      nextAttemptAt := nowMs + quarantineRedriveMs }

/-- The quarantined deliveries that `redrive_quarantined` wakes. -/
def redrivable (spool : Spool) (nowMs : ℤ) : List DeliveryRow :=
  selectOrdered DeliveryRow.nominalMinute redriveBatch
    (spool.deliveries.filter fun row ↦
      row.state == .quarantined && decide (row.nextAttemptAt ≤ nowMs) &&
        decide (row.attemptCount < maxDeliveryAttempts) &&
        row.lastErrorCode != some "payload_too_large")

def redriveQuarantined (spool : Spool) (nowMs : ℤ) : Spool :=
  let chosen := (spool.redrivable nowMs).map DeliveryRow.reportId
  { spool with
    deliveries := updateWhere (fun row ↦ chosen.contains row.reportId)
      (fun row ↦ { row with state := .pending }) spool.deliveries }

def wakeBacklog (spool : Spool) (retryAt : ℤ) (limit : ℕ) : Outcome Unit :=
  if limit = 0 ∨ 64 < limit then (.error "delivery wake batch must be between 1 and 64", spool)
  else
    let chosen := (selectOrdered DeliveryRow.nominalMinute limit
      (spool.deliveries.filter fun row ↦
        row.state == .pending && decide (retryAt < row.nextAttemptAt))).map DeliveryRow.reportId
    (.ok (), { spool with
      deliveries := updateWhere (fun row ↦ chosen.contains row.reportId)
        (fun row ↦ { row with nextAttemptAt := retryAt }) spool.deliveries })

/-! ## Acknowledgement -/

def attachedSamples (spool : Spool) (reportId : Bytes) : List ℕ :=
  (spool.deliverySamples.filter fun row ↦ row.reportId == reportId).map
    DeliverySampleRow.sampleId

/-- The command results that are attached to a delivery. -/
def attachedCommands (spool : Spool) (reportId : Bytes) : List String :=
  (spool.deliveryCommandResults.filter fun row ↦ row.reportId == reportId).map
    DeliveryCommandRow.commandId

/-- `DELETE FROM deliveries`, with the cascade to the attachment tables. -/
def deleteDeliveries (spool : Spool) (condition : DeliveryRow → Bool) : Spool :=
  let removed := (spool.deliveries.filter condition).map DeliveryRow.reportId
  { spool with
    deliveries := spool.deliveries.filter fun row ↦ !condition row
    deliverySamples := spool.deliverySamples.filter fun row ↦ !removed.contains row.reportId
    deliveryCommandResults := spool.deliveryCommandResults.filter fun row ↦
      !removed.contains row.reportId }

/-- The digest that an acknowledged delivery makes the agreed one. -/
def acknowledgedCatalog (spool : Spool) (reportId : Bytes) : Option Bytes :=
  match spool.deliveries.find? fun row ↦ row.reportId == reportId with
  | some row => if row.catalogIncluded then row.catalogDigest else none
  | none => none

/-- The delivery and its attachments are gone, the samples and the command results not yet. -/
def detach (spool : Spool) (reportId : Bytes) : Spool :=
  { spool with
    deliverySamples := spool.deliverySamples.filter fun row ↦ row.reportId != reportId
  }.deleteDeliveries fun row ↦ row.reportId == reportId

/-- The tables that a committed acknowledgement leaves. -/
def acknowledged (spool : Spool) (reportId : Bytes) : Spool :=
  { spool.detach reportId with
    containerCatalogDigest := (spool.acknowledgedCatalog reportId).orElse fun _ ↦
      spool.containerCatalogDigest
    samples := spool.samples.filter fun row ↦
      !(spool.attachedSamples reportId).contains row.id
    commandResults := spool.commandResults.filter fun row ↦
      !(spool.attachedCommands reportId).contains row.commandId
    agentCommands := spool.agentCommands.filter fun row ↦
      !((spool.attachedCommands reportId).contains row.commandId && row.state == .completed) }

/-- `acknowledge`. Deleting a sample or a command result that another delivery still refers to
violates a foreign key and rolls the transaction back. -/
def acknowledge (spool : Spool) (reportId : Bytes) : Outcome Bool :=
  if ((spool.detach reportId).deliverySamples.any fun row ↦
        (spool.attachedSamples reportId).contains row.sampleId) ||
      ((spool.detach reportId).deliveryCommandResults.any fun row ↦
        (spool.attachedCommands reportId).contains row.commandId) then
    (.error "FOREIGN KEY constraint failed", spool)
  else
    let deletedDelivery := spool.deliveries.countP fun row ↦ row.reportId == reportId
    let deletedSamples := spool.samples.countP fun row ↦
      (spool.attachedSamples reportId).contains row.id
    (.ok (deletedDelivery == 1 && decide (0 < deletedSamples)), spool.acknowledged reportId)

end Spool

end AlphaPing.Agent
