import AlphaPing.Agent.Spool.Structure

/-!
# What the server gets to know of the spool

The ingest worker sees frozen reports, and later reports are built from the applied revision, the
acknowledged catalog, the container snapshots and the waiting probe results. These make the core
of a spool. Attempts, schedules, samples and commands come and go without touching it, and each
operation that does touch it is described here by what it leaves.
-/

namespace AlphaPing.Agent

open Protocol Library.Tables

/-- What of a delivery never changes. -/
structure FrozenReport where
  reportId : Bytes
  report : MachineReport
  catalogDigest : Option Bytes
  catalogIncluded : Bool

def DeliveryRow.frozen (row : DeliveryRow) : FrozenReport where
  reportId := row.reportId
  report := row.payload
  catalogDigest := row.catalogDigest
  catalogIncluded := row.catalogIncluded

structure Core where
  revision : ℕ
  digest : Option Bytes
  reports : List FrozenReport
  snapshots : List SnapshotRow
  results : List ProbeRow

/-- The digest that the acknowledgement of a report brings, if the report carries its catalog. -/
def Core.acknowledgedCatalog (core : Core) (reportId : Bytes) : Option Bytes :=
  match core.reports.find? fun frozen ↦ frozen.reportId == reportId with
  | some frozen => if frozen.catalogIncluded then frozen.catalogDigest else none
  | none => none

def Core.acknowledge (core : Core) (reportId : Bytes) : Core :=
  { core with
    digest := (core.acknowledgedCatalog reportId).orElse fun _ ↦ core.digest
    reports := core.reports.filter fun frozen ↦ frozen.reportId != reportId }

namespace Spool

def core (spool : Spool) : Core where
  revision := spool.appliedConfigRevision
  digest := spool.containerCatalogDigest
  reports := spool.deliveries.map DeliveryRow.frozen
  snapshots := spool.containerSnapshots
  results := spool.probeResults

/-! ## Operations that leave the core alone -/

variable (spool : Spool)

@[simp] theorem core_appendSample (sample : MetricSample) (nowMs : ℤ) :
    (spool.appendSample sample nowMs).2.core = spool.core := by
  unfold appendSample
  split <;> rfl

theorem core_updateDeliveries (condition : DeliveryRow → Bool) (change : DeliveryRow → DeliveryRow)
    (hfrozen : ∀ row, (change row).frozen = row.frozen) :
    core { spool with deliveries := updateWhere condition change spool.deliveries } =
      spool.core := by
  simp only [core, map_updateWhere hfrozen]

variable (reportId : Bytes)

@[simp] theorem core_beginDeliveryAttempt (nextAttemptAt : ℤ) :
    (spool.beginDeliveryAttempt reportId nextAttemptAt).2.core = spool.core := by
  unfold beginDeliveryAttempt
  dsimp only
  split
  · rfl
  · split
    · rfl
    · exact core_updateDeliveries spool _ _ fun _ ↦ rfl

theorem core_changePending (change : DeliveryRow → DeliveryRow)
    (hfrozen : ∀ row, (change row).frozen = row.frozen) :
    (spool.changePending reportId change).2.core = spool.core := by
  unfold changePending
  split <;> exact core_updateDeliveries spool _ _ hfrozen

@[simp] theorem core_rescheduleDelivery (nextAttemptAt : ℤ) (errorCode : String) :
    (spool.rescheduleDelivery reportId nextAttemptAt errorCode).2.core = spool.core :=
  core_changePending spool reportId _ fun _ ↦ rfl

@[simp] theorem core_quarantineDelivery (errorCode : String) (nowMs : ℤ) :
    (spool.quarantineDelivery reportId errorCode nowMs).2.core = spool.core :=
  core_changePending spool reportId _ fun _ ↦ rfl

@[simp] theorem core_redriveQuarantined (nowMs : ℤ) :
    (spool.redriveQuarantined nowMs).core = spool.core :=
  core_updateDeliveries spool _ _ fun _ ↦ rfl

@[simp] theorem core_wakeBacklog (retryAt : ℤ) (limit : ℕ) :
    (spool.wakeBacklog retryAt limit).2.core = spool.core := by
  unfold wakeBacklog
  split
  · rfl
  · exact core_updateDeliveries spool _ _ fun _ ↦ rfl

@[simp] theorem core_acceptCommands (codec : Codec) (commands : List AgentCommand) (nowMs : ℤ) :
    (spool.acceptCommands codec commands nowMs).2.core = spool.core := by
  unfold acceptCommands
  split
  · rfl
  · split <;> rfl

@[simp] theorem core_markCommandAttempt (commandId : String) (retryAtMs : ℤ) :
    (spool.markCommandAttempt commandId retryAtMs).2.core = spool.core := by
  unfold markCommandAttempt
  split <;> rfl

@[simp] theorem core_completeCommand (result : AgentCommandResult) :
    (spool.completeCommand result).2.core = spool.core := by
  unfold completeCommand
  dsimp only
  split <;> rfl

theorem ParkedFrom.core {before after : Spool} (h : ParkedFrom before after) :
    after.core = before.core := by
  rw [h.eq]
  rfl

/-! ## Operations that change it -/

theorem core_appendContainerInventory (inventory : ContainerInventory) (nowMs : ℤ) :
    (spool.appendContainerInventory inventory nowMs).core =
      { spool.core with
        snapshots := (spool.appendContainerInventory inventory nowMs).containerSnapshots } := by
  unfold appendContainerInventory
  dsimp only
  split <;> rfl

theorem core_appendProbeResult (result : ProbeResult) (nowMs : ℤ) :
    (spool.appendProbeResult result nowMs).2.core =
      { spool.core with results := (spool.appendProbeResult result nowMs).2.probeResults } := by
  unfold appendProbeResult
  split <;> rfl

theorem core_applyProbeConfig (config : AgentConfigSnapshot) (nowMs : ℤ) :
    (spool.applyProbeConfig config nowMs).2.core =
      { spool.core with revision := max spool.appliedConfigRevision config.revision } := by
  unfold applyProbeConfig
  split
  · next hlt => simp [core, max_eq_left hlt.le]
  · next hle =>
    split
    · next heq => simp [core, heq]
    · simp [core, max_eq_right (not_lt.mp hle)]

theorem acknowledgedCatalog_core :
    spool.core.acknowledgedCatalog reportId = spool.acknowledgedCatalog reportId := by
  simp only [Core.acknowledgedCatalog, acknowledgedCatalog, core, List.find?_map,
    Function.comp_def, DeliveryRow.frozen]
  cases spool.deliveries.find? fun row ↦ row.reportId == reportId <;> rfl

theorem core_acknowledged :
    (spool.acknowledged reportId).core = spool.core.acknowledge reportId := by
  have hfilter : ((spool.deliveries.filter fun row ↦ !(row.reportId == reportId)).map
      DeliveryRow.frozen) =
      (spool.deliveries.map DeliveryRow.frozen).filter fun frozen ↦
        frozen.reportId != reportId := by
    rw [List.filter_map]
    rfl
  rw [Core.acknowledge, acknowledgedCatalog_core]
  simp only [core, acknowledged, detach, deleteDeliveries, hfilter]

/-- A new delivery freezes the report that was built, and takes its results and its snapshot. -/
theorem core_insertDelivery (codec : Codec) (machinePk workspacePk : ℕ) (reportId : Bytes)
    (minute nowMs : ℤ) :
    (spool.insertDelivery codec (spool.buildReport machinePk workspacePk reportId minute)
        nowMs).core =
      { spool.core with
        reports := spool.core.reports ++
          [{ reportId := reportId
             report := spool.buildReport machinePk workspacePk reportId minute
             catalogDigest := (spool.snapshotOf minute).map ContainerInventory.catalogDigest
             catalogIncluded := spool.includesCatalog minute }]
        snapshots := spool.containerSnapshots.filter fun row ↦ row.nominalMinute != minute
        results := spool.probeResults.filter fun row ↦
          !((spool.packedProbes minute).map ProbeRow.executionId).contains row.executionId } := by
  simp only [core, insertDelivery, List.map_append, List.map_cons, List.map_nil]
  rfl

end Spool

end AlphaPing.Agent
