import AlphaPing.Agent.Spool.Frame
import AlphaPing.Library.Runs
import Mathlib.Data.Finset.Max

/-!
# How samples leave the spool

A sample leaves with the acknowledgement of the delivery that it is attached to, or under
pressure. Its attachment was made when the delivery was created, and then the report holds the
sample, or later, when a creation found that the minute of the sample already had a delivery.
The report is frozen by then, so a parked sample leaves without having been sent.

The ledger of a run is the spool together with the attachments that were parked.
-/

namespace AlphaPing.Agent.Spool

open Protocol Library.Tables Library.Runs

/-- The calls that change the spool. -/
inductive Operation where
  | appendSample (sample : MetricSample) (nowMs : ℤ)
  | appendContainerInventory (inventory : ContainerInventory) (nowMs : ℤ)
  | createNextDelivery (machinePk workspacePk : ℕ) (reportId : Bytes) (nowMs : ℤ)
  | beginDeliveryAttempt (reportId : Bytes) (nextAttemptAt : ℤ)
  | rescheduleDelivery (reportId : Bytes) (nextAttemptAt : ℤ) (errorCode : String)
  | quarantineDelivery (reportId : Bytes) (errorCode : String) (nowMs : ℤ)
  | redriveQuarantined (nowMs : ℤ)
  | wakeBacklog (retryAt : ℤ) (limit : ℕ)
  | acknowledge (reportId : Bytes)
  | enforceCapacity (maxBytes : ℕ) (readings : StorageReadings) (nowMs : ℤ)
  | applyProbeConfig (config : AgentConfigSnapshot) (nowMs : ℤ)
  | appendProbeResult (result : ProbeResult) (nowMs : ℤ)
  | acceptCommands (commands : List AgentCommand) (nowMs : ℤ)
  | markCommandAttempt (commandId : String) (retryAtMs : ℤ)
  | completeCommand (result : AgentCommandResult)

/-- The tables after a call. -/
def apply (codec : Codec) (spool : Spool) : Operation → Spool
  | .appendSample sample nowMs => (spool.appendSample sample nowMs).2
  | .appendContainerInventory inventory nowMs => spool.appendContainerInventory inventory nowMs
  | .createNextDelivery machinePk workspacePk reportId nowMs =>
    (spool.createNextDelivery codec machinePk workspacePk reportId nowMs).2
  | .beginDeliveryAttempt reportId nextAttemptAt =>
    (spool.beginDeliveryAttempt reportId nextAttemptAt).2
  | .rescheduleDelivery reportId nextAttemptAt errorCode =>
    (spool.rescheduleDelivery reportId nextAttemptAt errorCode).2
  | .quarantineDelivery reportId errorCode nowMs =>
    (spool.quarantineDelivery reportId errorCode nowMs).2
  | .redriveQuarantined nowMs => spool.redriveQuarantined nowMs
  | .wakeBacklog retryAt limit => (spool.wakeBacklog retryAt limit).2
  | .acknowledge reportId => (spool.acknowledge reportId).2
  | .enforceCapacity maxBytes readings nowMs => (spool.enforceCapacity maxBytes readings nowMs).2
  | .applyProbeConfig config nowMs => (spool.applyProbeConfig config nowMs).2
  | .appendProbeResult result nowMs => (spool.appendProbeResult result nowMs).2
  | .acceptCommands commands nowMs => (spool.acceptCommands codec commands nowMs).2
  | .markCommandAttempt commandId retryAtMs => (spool.markCommandAttempt commandId retryAtMs).2
  | .completeCommand result => (spool.completeCommand result).2

structure Ledger where
  spool : Spool
  parked : List DeliverySampleRow

/-- A call parks the samples that it attaches to a delivery that was there before. -/
def parkedBy (before after : Spool) : List DeliverySampleRow :=
  after.deliverySamples.filter fun link ↦
    !before.deliverySamples.contains link &&
      before.deliveries.any fun row ↦ row.reportId == link.reportId

def record (codec : Codec) (ledger : Ledger) (operation : Operation) : Ledger :=
  let after := ledger.spool.apply codec operation
  { spool := after
    parked := ledger.parked.filter (fun link ↦ after.deliverySamples.contains link) ++
      parkedBy ledger.spool after }

def Ledger.empty : Ledger where
  spool := Spool.empty
  parked := []

/-! ## Calls that make no attachment -/

/-- Every attachment that stays keeps its delivery, with its report, and its sample. -/
structure Retains (before after : Spool) : Prop where
  links : after.deliverySamples ⊆ before.deliverySamples
  deliveries : ∀ link ∈ after.deliverySamples, ∀ row ∈ before.deliveries,
    row.reportId = link.reportId → ∃ same ∈ after.deliveries, same.reportId = row.reportId ∧
      same.payload = row.payload ∧ same.nominalMinute = row.nominalMinute
  samples : ∀ link ∈ after.deliverySamples, ∀ sample ∈ before.samples,
    sample.id = link.sampleId → sample ∈ after.samples

theorem Retains.refl (spool : Spool) : Retains spool spool where
  links := List.Subset.refl _
  deliveries _ _ row hrow _ := ⟨row, hrow, rfl, rfl, rfl⟩
  samples _ _ _ hsample _ := hsample

theorem Retains.trans {first second third : Spool} (h : Retains first second)
    (h' : Retains second third) : Retains first third where
  links := List.Subset.trans h'.links h.links
  deliveries link hlink row hrow hid := by
    obtain ⟨same, hsame, hreport, hpayload, hminute⟩ :=
      h.deliveries link (h'.links hlink) row hrow hid
    obtain ⟨last, hlast, hreport', hpayload', hminute'⟩ :=
      h'.deliveries link hlink same hsame (hreport.trans hid)
    exact ⟨last, hlast, hreport'.trans hreport, hpayload'.trans hpayload, hminute'.trans hminute⟩
  samples link hlink sample hsample hid :=
    h'.samples link hlink sample (h.samples link (h'.links hlink) sample hsample hid) hid

theorem Retains.of_eq {before after : Spool} (hlinks : after.deliverySamples = before.deliverySamples)
    (hdeliveries : after.deliveries = before.deliveries) (hsamples : before.samples ⊆ after.samples) :
    Retains before after where
  links := hlinks ▸ List.Subset.refl _
  deliveries _ _ row hrow _ := ⟨row, hdeliveries ▸ hrow, rfl, rfl, rfl⟩
  samples _ _ _ hsample _ := hsamples hsample

/-- Deliveries keep what they carry, and what has been recorded or attached stays. -/
structure Rewrites (before after : Spool) : Prop where
  samples : after.samples = before.samples
  links : after.deliverySamples = before.deliverySamples
  snapshots : after.containerSnapshots = before.containerSnapshots
  probes : after.probeResults = before.probeResults
  commands : after.commandResults = before.commandResults
  deliveries : ∃ condition change,
    after.deliveries = updateWhere condition change before.deliveries ∧ ∀ row : DeliveryRow,
      (change row).reportId = row.reportId ∧ (change row).payload = row.payload ∧
        (change row).nominalMinute = row.nominalMinute

/-- The calls that record, attach and delete nothing. -/
def rewrites : Operation → Bool
  | .beginDeliveryAttempt .. | .rescheduleDelivery .. | .quarantineDelivery ..
  | .redriveQuarantined .. | .wakeBacklog .. | .applyProbeConfig .. | .acceptCommands ..
  | .markCommandAttempt .. => true
  | _ => false

theorem Rewrites.of_eq {before after : Spool} (hdeliveries : after.deliveries = before.deliveries)
    (hsamples : after.samples = before.samples)
    (hlinks : after.deliverySamples = before.deliverySamples)
    (hsnapshots : after.containerSnapshots = before.containerSnapshots)
    (hprobes : after.probeResults = before.probeResults)
    (hcommands : after.commandResults = before.commandResults) : Rewrites before after :=
  ⟨hsamples, hlinks, hsnapshots, hprobes, hcommands, fun _ ↦ false, id,
    hdeliveries.trans (updateWhere_eq_self fun _ _ ↦ rfl).symm, fun _ ↦ ⟨rfl, rfl, rfl⟩⟩

theorem rewrites_apply (spool : Spool) (codec : Codec) {operation : Operation}
    (h : rewrites operation = true) : Rewrites spool (spool.apply codec operation) := by
  have hrefl : Rewrites spool spool := .of_eq rfl rfl rfl rfl rfl rfl
  cases operation with
  | beginDeliveryAttempt reportId nextAttemptAt =>
    unfold apply beginDeliveryAttempt
    dsimp only
    split
    · exact hrefl
    · split
      · exact hrefl
      · exact ⟨rfl, rfl, rfl, rfl, rfl, _, _, rfl, fun _ ↦ ⟨rfl, rfl, rfl⟩⟩
  | rescheduleDelivery reportId nextAttemptAt errorCode =>
    unfold apply rescheduleDelivery changePending
    dsimp only
    split <;> exact ⟨rfl, rfl, rfl, rfl, rfl, _, _, rfl, fun _ ↦ ⟨rfl, rfl, rfl⟩⟩
  | quarantineDelivery reportId errorCode nowMs =>
    unfold apply quarantineDelivery changePending
    dsimp only
    split <;> exact ⟨rfl, rfl, rfl, rfl, rfl, _, _, rfl, fun _ ↦ ⟨rfl, rfl, rfl⟩⟩
  | redriveQuarantined nowMs =>
    exact ⟨rfl, rfl, rfl, rfl, rfl, _, _, rfl, fun _ ↦ ⟨rfl, rfl, rfl⟩⟩
  | wakeBacklog retryAt limit =>
    unfold apply wakeBacklog
    dsimp only
    split
    · exact hrefl
    · exact ⟨rfl, rfl, rfl, rfl, rfl, _, _, rfl, fun _ ↦ ⟨rfl, rfl, rfl⟩⟩
  | applyProbeConfig config nowMs =>
    unfold apply applyProbeConfig
    dsimp only
    split_ifs <;> exact .of_eq rfl rfl rfl rfl rfl rfl
  | acceptCommands commands nowMs =>
    unfold apply acceptCommands
    dsimp only
    split
    · exact hrefl
    · split <;> exact .of_eq rfl rfl rfl rfl rfl rfl
  | markCommandAttempt commandId retryAtMs =>
    unfold apply markCommandAttempt
    dsimp only
    split <;> exact .of_eq rfl rfl rfl rfl rfl rfl
  | _ => cases h

theorem Rewrites.retains {before after : Spool} (h : Rewrites before after) :
    Retains before after where
  links := h.links ▸ List.Subset.refl _
  deliveries _ _ row hrow _ := by
    obtain ⟨condition, change, hdeliveries, hsame⟩ := h.deliveries
    rw [hdeliveries]
    refine ⟨_, mem_updateWhere_of_mem hrow, ?_⟩
    split
    · exact hsame row
    · exact ⟨rfl, rfl, rfl⟩
  samples _ _ _ hsample _ := h.samples ▸ hsample

theorem retains_deleteSamples (spool : Spool) {rows : List SampleRow}
    (hrows : ∀ row ∈ rows, row ∈ spool.unassigned) : Retains spool (spool.deleteSamples rows) where
  links := List.Subset.refl _
  deliveries _ _ row hrow _ := ⟨row, hrow, rfl, rfl, rfl⟩
  samples link hlink sample hsample hid := by
    have hkept : sample.id ∉ rows.map SampleRow.id := fun hmem ↦ by
      obtain ⟨row, hrow, heq⟩ := List.mem_map.mp hmem
      exact (mem_unassigned.mp (hrows row hrow)).2 link hlink (hid.symm.trans heq.symm)
    exact List.mem_filter.mpr ⟨hsample, by simpa using hkept⟩

theorem retains_deleteDeliveries (spool : Spool) (condition : DeliveryRow → Bool) :
    Retains spool (spool.deleteDeliveries condition) where
  links := List.filter_sublist.subset
  deliveries link hlink row hrow hid := by
    have hkept := (List.mem_filter.mp hlink).2
    simp only [Bool.not_eq_eq_eq_not, Bool.not_true, List.contains_eq_mem,
      decide_eq_false_iff_not] at hkept
    have hfalse : condition row = false := by
      by_contra htrue
      refine hkept (List.mem_map.mpr ⟨row, List.mem_filter.mpr ⟨hrow, by simpa using htrue⟩, hid⟩)
    exact ⟨row, List.mem_filter.mpr ⟨hrow, by simp [hfalse]⟩, rfl, rfl, rfl⟩
  samples _ _ _ hsample _ := hsample

theorem retains_recordGap (spool : Spool) (dropped : ℕ) (nowMs : ℤ) :
    Retains spool (spool.recordGap dropped nowMs) := by
  unfold recordGap
  dsimp only
  split <;> exact .of_eq rfl rfl (List.Subset.refl _)

variable {spool : Spool} {row : SampleRow} {statements : List (Spool → Spool)} {codec : Codec}

theorem unassigned_of_compacted {before : Option ℤ} {width : ℤ} {limit : ℕ}
    (h : row ∈ spool.compacted before width limit) : row ∈ spool.unassigned := by
  have hcandidate := List.mem_of_mem_filter (mem_of_mem_selectOrdered h)
  exact List.mem_of_mem_filter (mem_of_mem_selectOrdered hcandidate)

theorem CapacityStatement.retains {statement : Spool → Spool} (h : CapacityStatement statement)
    (spool : Spool) : Retains spool (statement spool) := by
  cases h with
  | compact before width limit =>
    exact retains_deleteSamples spool fun _ ↦ unassigned_of_compacted
  | evict => exact retains_deleteDeliveries spool _
  | drop => exact retains_deleteSamples spool fun _ ↦ mem_of_mem_selectOrdered

theorem retains_perform (h : ∀ statement ∈ statements, CapacityStatement statement) (spool : Spool)
    : Retains spool (spool.perform statements) :=
  perform_invariant (fun statement hstatement state hstate ↦
    hstate.trans ((h statement hstatement).retains state)) (.refl spool)

theorem retains_enforceCapacity (spool : Spool) (maxBytes : ℕ) (readings : StorageReadings)
    (nowMs : ℤ) : Retains spool (spool.enforceCapacity maxBytes readings nowMs).2 := by
  rw [enforceCapacity_eq]
  have hperform := retains_perform (fun statement
    (hstatement : statement ∈ capacityStatements maxBytes readings nowMs) ↦
      capacityStatement_of_mem hstatement) spool
  split
  · exact hperform.trans (retains_recordGap _ _ _)
  · exact hperform

theorem retains_acknowledge (spool : Spool) (h : spool.Wellformed) (reportId : Bytes) :
    Retains spool (spool.acknowledge reportId).2 := by
  rw [acknowledge_eq h]
  have hlinks : ∀ link ∈ (spool.acknowledged reportId).deliverySamples,
      link ∈ spool.deliverySamples ∧ link.reportId ≠ reportId := fun _ ↦ mem_detach_samples
  refine ⟨fun link hlink ↦ (hlinks link hlink).1, fun link hlink row hrow hid ↦ ?_,
    fun link hlink sample hsample hid ↦ ?_⟩
  · have hother : row.reportId ≠ reportId := hid ▸ (hlinks link hlink).2
    exact ⟨row, List.mem_filter.mpr ⟨hrow, by simpa using hother⟩, rfl, rfl, rfl⟩
  · have hfree : sample.id ∉ spool.attachedSamples reportId := fun hattached ↦ by
      obtain ⟨first, hfirst, hfrom, heq⟩ := mem_attachedSamples.mp hattached
      obtain rfl := h.sampleLinks.child_unique.eq_of_mem hfirst (hlinks link hlink).1
        (heq.trans hid)
      exact (hlinks _ hlink).2 hfrom
    exact List.mem_filter.mpr ⟨hsample, by simpa using hfree⟩

theorem retains_apply (h : spool.Wellformed) {operation : Operation}
    (hcreate : ∀ machinePk workspacePk reportId nowMs,
      operation ≠ .createNextDelivery machinePk workspacePk reportId nowMs) :
    Retains spool (spool.apply codec operation) := by
  cases operation with
  | appendSample sample nowMs =>
    unfold apply appendSample
    dsimp only
    split
    · exact .refl spool
    · exact .of_eq rfl rfl (List.subset_append_left _ _)
  | appendContainerInventory inventory nowMs =>
    unfold apply appendContainerInventory
    dsimp only
    split <;> exact .of_eq rfl rfl (List.Subset.refl _)
  | createNextDelivery machinePk workspacePk reportId nowMs =>
    exact absurd rfl (hcreate machinePk workspacePk reportId nowMs)
  | acknowledge reportId => exact retains_acknowledge spool h reportId
  | enforceCapacity maxBytes readings nowMs =>
    exact retains_enforceCapacity spool maxBytes readings nowMs
  | appendProbeResult result nowMs =>
    unfold apply appendProbeResult
    dsimp only
    split <;> exact .of_eq rfl rfl (List.Subset.refl _)
  | completeCommand result =>
    unfold apply completeCommand
    dsimp only
    split <;> exact .of_eq rfl rfl (List.Subset.refl _)
  | _ => exact (rewrites_apply spool codec rfl).retains

theorem wellformed_enforceCapacity (h : spool.Wellformed) (maxBytes : ℕ)
    (readings : StorageReadings) (nowMs : ℤ) :
    (spool.enforceCapacity maxBytes readings nowMs).2.Wellformed :=
  (keeps_enforceCapacity h maxBytes readings nowMs).wellformed h

theorem wellformed_apply (h : spool.Wellformed) (operation : Operation) :
    (spool.apply codec operation).Wellformed := by
  cases operation with
  | appendSample sample nowMs => exact wellformed_appendSample h sample nowMs
  | appendContainerInventory inventory nowMs =>
    exact h.of_shape (shape_appendContainerInventory spool inventory nowMs)
  | createNextDelivery machinePk workspacePk reportId nowMs =>
    exact wellformed_createNextDelivery h codec machinePk workspacePk reportId nowMs
  | beginDeliveryAttempt reportId nextAttemptAt =>
    exact h.of_shape (shape_beginDeliveryAttempt spool reportId nextAttemptAt)
  | rescheduleDelivery reportId nextAttemptAt errorCode =>
    exact h.of_shape (shape_rescheduleDelivery spool reportId nextAttemptAt errorCode)
  | quarantineDelivery reportId errorCode nowMs =>
    exact h.of_shape (shape_quarantineDelivery spool reportId errorCode nowMs)
  | redriveQuarantined nowMs => exact h.of_shape (shape_redriveQuarantined spool nowMs)
  | wakeBacklog retryAt limit => exact h.of_shape (shape_wakeBacklog spool retryAt limit)
  | acknowledge reportId =>
    rw [apply, acknowledge_eq h]
    exact wellformed_acknowledged h reportId
  | enforceCapacity maxBytes readings nowMs =>
    exact wellformed_enforceCapacity h maxBytes readings nowMs
  | applyProbeConfig config nowMs => exact h.of_shape (shape_applyProbeConfig spool config nowMs)
  | appendProbeResult result nowMs => exact h.of_shape (shape_appendProbeResult spool result nowMs)
  | acceptCommands commands nowMs =>
    exact h.of_shape (shape_acceptCommands spool codec commands nowMs)
  | markCommandAttempt commandId retryAtMs =>
    exact h.of_shape (shape_markCommandAttempt spool commandId retryAtMs)
  | completeCommand result => exact wellformed_completeCommand h result

/-! ## Attachments and reports -/

/-- The report of the delivery holds the attached sample, or the attachment was parked on a
delivery of the sample's minute. -/
def Ledger.Backed (ledger : Ledger) (link : DeliverySampleRow) : Prop :=
  ∃ delivery ∈ ledger.spool.deliveries, delivery.reportId = link.reportId ∧
    ∃ sample ∈ ledger.spool.samples, sample.id = link.sampleId ∧
      (sample.payload ∈ delivery.payload.samples ∨
        (link ∈ ledger.parked ∧ delivery.nominalMinute ≤ sample.observedAt ∧
          sample.observedAt < delivery.nominalMinute + 60000))

structure Ledger.Balanced (ledger : Ledger) : Prop where
  wellformed : ledger.spool.Wellformed
  backed : ∀ link ∈ ledger.spool.deliverySamples, ledger.Backed link

theorem balanced_empty : Ledger.empty.Balanced where
  wellformed := wellformed_empty
  backed _ h := absurd h List.not_mem_nil

section Record

variable {codec : Codec} {ledger : Ledger} {operation : Operation}

theorem mem_parked_record {link : DeliverySampleRow} (hparked : link ∈ ledger.parked)
    (hlink : link ∈ (ledger.spool.apply codec operation).deliverySamples) :
    link ∈ (record codec ledger operation).parked :=
  List.mem_append_left _ (List.mem_filter.mpr ⟨hparked, by simpa using hlink⟩)

theorem backed_of_retains (h : ledger.Balanced)
    (hretains : Retains ledger.spool (ledger.spool.apply codec operation))
    {link : DeliverySampleRow}
    (hlink : link ∈ (ledger.spool.apply codec operation).deliverySamples) :
    (record codec ledger operation).Backed link := by
  obtain ⟨delivery, hdelivery, hid, sample, hsample, hsampleId, hcause⟩ :=
    h.backed link (hretains.links hlink)
  obtain ⟨same, hsame, hreport, hpayload, hminute⟩ :=
    hretains.deliveries link hlink delivery hdelivery hid
  refine ⟨same, hsame, hreport.trans hid, sample,
    hretains.samples link hlink sample hsample hsampleId, hsampleId, ?_⟩
  rw [hpayload, hminute]
  exact hcause.imp id fun hparked ↦ ⟨mem_parked_record hparked.1 hlink, hparked.2⟩

theorem backed_of_parked (h : ledger.Balanced) {parked : Spool}
    (hparked : ParkedFrom ledger.spool parked)
    (hlinks : parked.deliverySamples ⊆ (ledger.spool.apply codec operation).deliverySamples)
    (hdeliveries : ledger.spool.deliveries ⊆ (ledger.spool.apply codec operation).deliveries)
    (hsamples : ledger.spool.samples ⊆ (ledger.spool.apply codec operation).samples)
    {link : DeliverySampleRow} (hlink : link ∈ parked.deliverySamples) :
    (record codec ledger operation).Backed link := by
  rcases hparked.parked link hlink with hold | ⟨delivery, hdelivery, hid, row, hrow, hrowId, hminute⟩
  · obtain ⟨delivery, hdelivery, hid, sample, hsample, hsampleId, hcause⟩ := h.backed link hold
    refine ⟨delivery, hdeliveries hdelivery, hid, sample, hsamples hsample, hsampleId, ?_⟩
    exact hcause.imp id fun hparked ↦ ⟨mem_parked_record hparked.1 (hlinks hlink), hparked.2⟩
  · obtain ⟨hmem, hfree⟩ := mem_unassigned.mp hrow
    refine ⟨delivery, hdeliveries hdelivery, hid, row, hsamples hmem, hrowId, .inr ⟨?_, hminute⟩⟩
    refine List.mem_append_right _ (List.mem_filter.mpr ⟨hlinks hlink, ?_⟩)
    have hnew : link ∉ ledger.spool.deliverySamples := fun hold ↦ hfree link hold hrowId.symm
    simp only [Bool.and_eq_true, Bool.not_eq_eq_eq_not, Bool.not_true, List.contains_eq_mem,
      decide_eq_false_iff_not, List.any_eq_true, beq_iff_eq]
    exact ⟨hnew, delivery, hdelivery, hid⟩

theorem balanced_create (h : ledger.Balanced) (machinePk workspacePk : ℕ) (reportId : Bytes)
    (nowMs : ℤ) :
    (record codec ledger (.createNextDelivery machinePk workspacePk reportId nowMs)).Balanced := by
  refine ⟨wellformed_apply h.wellformed _, ?_⟩
  have hcases := createNextDelivery_cases ledger.spool codec machinePk workspacePk reportId nowMs
  have hbacked := @backed_of_parked codec ledger
    (.createNextDelivery machinePk workspacePk reportId nowMs) h
  simp only [apply] at hbacked
  simp only [Ledger.Backed, record, apply] at hbacked ⊢
  generalize ledger.spool.createNextDelivery codec machinePk workspacePk reportId nowMs = outcome
    at hcases hbacked ⊢
  cases hcases with
  | idle parked hparked =>
    intro link hlink
    exact hbacked hparked (List.Subset.refl _) (hparked.deliveries ▸ List.Subset.refl _)
      (hparked.samples ▸ List.Subset.refl _) hlink
  | failed message parked hparked =>
    intro link hlink
    exact hbacked hparked (List.Subset.refl _) (hparked.deliveries ▸ List.Subset.refl _)
      (hparked.samples ▸ List.Subset.refl _) hlink
  | created minute parked hparked =>
    intro link hlink
    rcases List.mem_append.mp hlink with hold | hnew
    · refine hbacked hparked (List.subset_append_left _ _) ?_ ?_ hold
      · rw [← hparked.deliveries]
        exact List.subset_append_left _ _
      · rw [← hparked.samples]
        exact List.Subset.refl _
    · obtain ⟨row, hrow, rfl⟩ := List.mem_map.mp hnew
      refine ⟨_, List.mem_append_right _ List.mem_cons_self, rfl, row, ?_, rfl, .inl ?_⟩
      · exact (mem_unassigned.mp (mem_unassigned_of_packed hrow)).1
      · exact List.mem_map_of_mem hrow

theorem balanced_record (h : ledger.Balanced) (operation : Operation) :
    (record codec ledger operation).Balanced := by
  by_cases hcreate : ∃ machinePk workspacePk reportId nowMs,
      operation = .createNextDelivery machinePk workspacePk reportId nowMs
  · obtain ⟨machinePk, workspacePk, reportId, nowMs, rfl⟩ := hcreate
    exact balanced_create h machinePk workspacePk reportId nowMs
  · have hretains : Retains ledger.spool (ledger.spool.apply codec operation) :=
      retains_apply h.wellformed fun machinePk workspacePk reportId nowMs heq ↦
        hcreate ⟨machinePk, workspacePk, reportId, nowMs, heq⟩
    exact ⟨wellformed_apply h.wellformed operation, fun _ ↦ backed_of_retains h hretains⟩

end Record

theorem balanced_run (codec : Codec) (operations : List Operation) :
    (run (record codec) Ledger.empty operations).Balanced := by
  have hstep : ∀ ledger operation, ledger.Balanced → (record codec ledger operation).Balanced :=
    fun _ operation h ↦ balanced_record h operation
  exact run_invariant hstep balanced_empty operations

/-! ## Departures -/

/-- What `data_gaps` counts for an hour. -/
def gapCount (spool : Spool) (hourStart : ℤ) : ℕ :=
  ((spool.dataGaps.find? fun row ↦ row.hourStart == hourStart).map GapRow.droppedSamples).getD 0

/-- The ways in which a call may delete a sample. -/
inductive Departure (codec : Codec) (ledger : Ledger) (row : SampleRow) : Operation → Prop where
  | sent (delivery : DeliveryRow) (hdelivery : delivery ∈ ledger.spool.deliveries)
    (hsent : row.payload ∈ delivery.payload.samples) :
    Departure codec ledger row (.acknowledge delivery.reportId)
  | parked (delivery : DeliveryRow) (hdelivery : delivery ∈ ledger.spool.deliveries)
    (hparked : ⟨delivery.reportId, row.id⟩ ∈ ledger.parked)
    (hminute : delivery.nominalMinute ≤ row.observedAt ∧
      row.observedAt < delivery.nominalMinute + 60000) :
    Departure codec ledger row (.acknowledge delivery.reportId)
  | dropped (maxBytes : ℕ) (readings : StorageReadings) (nowMs : ℤ) (before : Spool)
    (hbefore : before ∈ ledger.spool.statesAfter (capacityStatements maxBytes readings nowMs))
    (hrow : row ∈ before.droppable)
    (hgap : (ledger.spool.enforceCapacity maxBytes readings nowMs).2.gapCount
        (nowMs / hourMs * hourMs) =
      ledger.spool.gapCount (nowMs / hourMs * hourMs) + before.droppable.length) :
    Departure codec ledger row (.enforceCapacity maxBytes readings nowMs)
  | compacted (maxBytes : ℕ) (readings : StorageReadings) (nowMs : ℤ) (before : Spool)
    (cutoff : Option ℤ) (width : ℤ) (limit : ℕ) (newer : SampleRow)
    (hbefore : before = ledger.spool ∨
      before ∈ ledger.spool.statesAfter (capacityStatements maxBytes readings nowMs))
    (hrow : row ∈ before.compacted cutoff width limit)
    (hkept : newer ∈ (before.compact cutoff width limit).2.unassigned)
    (hpart : newer.observedAt.tdiv width = row.observedAt.tdiv width)
    (hnewer : row.observedAt < newer.observedAt) :
    Departure codec ledger row (.enforceCapacity maxBytes readings nowMs)

/-- A compaction statement keeps a newer sample for each one that it deletes. -/
theorem exists_newer_of_compacted (hunique : UniqueKey SampleRow.id spool.samples)
    {cutoff : Option ℤ} {width : ℤ} {limit : ℕ} (h : row ∈ spool.compacted cutoff width limit) :
    ∃ newer ∈ (spool.compact cutoff width limit).2.unassigned,
      newer.observedAt.tdiv width = row.observedAt.tdiv width ∧
        row.observedAt < newer.observedAt := by
  set candidates := spool.compactionCandidates cutoff with hcandidates
  have houtranked := (List.mem_filter.mp (mem_of_mem_selectOrdered h)).2
  simp only [outranked, List.any_eq_true, Bool.and_eq_true, beq_iff_eq, decide_eq_true_eq]
    at houtranked
  obtain ⟨other, hother, hpart, hlater⟩ := houtranked
  -- The newest candidate of the partition is not outranked.
  obtain ⟨newest, hnewest, hmax⟩ := Finset.exists_max_image
    (candidates.filter fun other ↦
      other.observedAt.tdiv width == row.observedAt.tdiv width).toFinset SampleRow.observedAt
    ⟨other, by simpa [hcandidates] using ⟨hother, hpart⟩⟩
  simp only [List.mem_toFinset, List.mem_filter, beq_iff_eq] at hnewest hmax
  refine ⟨newest, ?_, hnewest.2, hlater.trans_le (hmax other ⟨hother, hpart⟩)⟩
  have hunassigned : newest ∈ spool.unassigned :=
    List.mem_of_mem_filter (mem_of_mem_selectOrdered hnewest.1)
  obtain ⟨hmem, hfree⟩ := mem_unassigned.mp hunassigned
  refine mem_unassigned.mpr ⟨List.mem_filter.mpr ⟨hmem, ?_⟩, hfree⟩
  have hkept : newest.id ∉ (spool.compacted cutoff width limit).map SampleRow.id := fun hdeleted ↦ by
    obtain ⟨deleted, hrow, hid⟩ := List.mem_map.mp hdeleted
    have hsame := hunique.eq_of_mem
      (mem_unassigned.mp (unassigned_of_compacted hrow)).1 hmem hid
    rw [hsame] at hrow
    have htrue := (List.mem_filter.mp (mem_of_mem_selectOrdered hrow)).2
    simp only [outranked, List.any_eq_true, Bool.and_eq_true, beq_iff_eq, decide_eq_true_eq] at htrue
    obtain ⟨above, habove, hsamePart, habovenewest⟩ := htrue
    exact absurd (hmax above ⟨habove, hsamePart.trans hnewest.2⟩) (not_le.mpr habovenewest)
  simpa using hkept

theorem mem_of_lost_deleteSamples (hunique : UniqueKey SampleRow.id spool.samples)
    {rows : List SampleRow} (hrows : ∀ row ∈ rows, row ∈ spool.samples) (hrow : row ∈ spool.samples)
    (hlost : row ∉ (spool.deleteSamples rows).samples) : row ∈ rows := by
  by_contra hkept
  refine hlost (List.mem_filter.mpr ⟨hrow, ?_⟩)
  have hid : row.id ∉ rows.map SampleRow.id := fun hmem ↦ by
    obtain ⟨deleted, hdeleted, heq⟩ := List.mem_map.mp hmem
    exact hkept (hunique.eq_of_mem (hrows deleted hdeleted) hrow heq ▸ hdeleted)
  simpa using hid

theorem mem_statesAfter (spool : Spool) (first : List (Spool → Spool))
    (rest : List (Spool → Spool)) :
    spool.perform first = spool ∨ spool.perform first ∈ spool.statesAfter (first ++ rest) := by
  induction first generalizing spool with
  | nil => exact .inl rfl
  | cons statement first ih =>
    refine .inr ?_
    rcases ih (statement spool) with heq | hmem
    · exact List.mem_cons.mpr (.inl heq)
    · exact List.mem_cons_of_mem _ hmem

theorem statement_mem_statesAfter (spool : Spool) (first : List (Spool → Spool))
    (statement : Spool → Spool) (rest : List (Spool → Spool)) :
    statement (spool.perform first) ∈ spool.statesAfter (first ++ statement :: rest) := by
  induction first generalizing spool with
  | nil => exact List.mem_cons_self
  | cons head first ih => exact List.mem_cons_of_mem _ (ih (head spool))

theorem exists_compaction_of_lost (hstatements : ∀ statement ∈ statements, ∃ cutoff width limit,
      statement = fun spool ↦ (spool.compact cutoff width limit).2)
    (hunique : UniqueKey SampleRow.id spool.samples) (hrow : row ∈ spool.samples)
    (hlost : row ∉ (spool.perform statements).samples) :
    ∃ first rest, statements = first ++ rest ∧
      UniqueKey SampleRow.id (spool.perform first).samples ∧ ∃ cutoff width limit,
        row ∈ (spool.perform first).compacted cutoff width limit := by
  induction statements generalizing spool with
  | nil => exact absurd hrow hlost
  | cons statement later ih =>
    obtain ⟨cutoff, width, limit, rfl⟩ := hstatements statement List.mem_cons_self
    by_cases hkept : row ∈ (spool.compact cutoff width limit).2.samples
    · obtain ⟨first, rest, rfl, hfirst⟩ :=
        ih (fun other hother ↦ hstatements other (List.mem_cons_of_mem _ hother))
          (hunique.filter _) hkept hlost
      exact ⟨_ :: first, rest, rfl, hfirst⟩
    · refine ⟨[], _, rfl, hunique, cutoff, width, limit, ?_⟩
      exact mem_of_lost_deleteSamples hunique
        (fun other hother ↦ (mem_unassigned.mp (unassigned_of_compacted hother)).1) hrow hkept

theorem compactionStatements_eq {ratio : ℚ} {lowOnSpace : Bool} {nowMs : ℤ}
    {statement : Spool → Spool} (h : statement ∈ compactionStatements ratio lowOnSpace nowMs) :
    ∃ cutoff width limit, statement = fun spool ↦ (spool.compact cutoff width limit).2 := by
  unfold compactionStatements at h
  rcases List.mem_append.mp h with hfirst | hthird
  · rcases List.mem_append.mp hfirst with hone | htwo
    · exact ⟨_, _, _, List.mem_singleton.mp hone⟩
    · split at htwo
      · exact ⟨_, _, _, List.mem_singleton.mp htwo⟩
      · exact absurd htwo List.not_mem_nil
  · split at hthird
    · exact ⟨_, _, _, List.mem_singleton.mp hthird⟩
    · exact absurd hthird List.not_mem_nil

theorem dataGaps_perform (hstatements : ∀ statement ∈ statements, ∃ cutoff width limit,
      statement = fun spool ↦ (spool.compact cutoff width limit).2) (spool : Spool) :
    (spool.perform statements).dataGaps = spool.dataGaps := by
  induction statements generalizing spool with
  | nil => rfl
  | cons statement rest ih =>
    obtain ⟨cutoff, width, limit, rfl⟩ := hstatements statement List.mem_cons_self
    exact ih (fun other hother ↦ hstatements other (List.mem_cons_of_mem _ hother)) _

theorem uniqueKey_perform (hstatements : ∀ statement ∈ statements, ∃ cutoff width limit,
      statement = fun spool ↦ (spool.compact cutoff width limit).2)
    (hunique : UniqueKey SampleRow.id spool.samples) :
    UniqueKey SampleRow.id (spool.perform statements).samples := by
  induction statements generalizing spool with
  | nil => exact hunique
  | cons statement rest ih =>
    obtain ⟨cutoff, width, limit, rfl⟩ := hstatements statement List.mem_cons_self
    exact ih (fun other hother ↦ hstatements other (List.mem_cons_of_mem _ hother))
      (hunique.filter _)

theorem gapCount_recordGap (spool : Spool) (dropped : ℕ) (nowMs : ℤ) :
    (spool.recordGap dropped nowMs).gapCount (nowMs / hourMs * hourMs) =
      spool.gapCount (nowMs / hourMs * hourMs) + dropped := by
  unfold recordGap gapCount
  dsimp only
  generalize nowMs / hourMs * hourMs = hour
  induction spool.dataGaps with
  | nil => simp
  | cons gap rest ih =>
    by_cases hgap : gap.hourStart = hour
    · simp [hgap, updateWhere]
    · simp only [List.any_cons, hgap, beq_iff_eq, Bool.or_eq_true, false_or] at ih ⊢
      split at ih
      · next hany =>
        rw [if_pos hany]
        simpa [updateWhere, hgap] using ih
      · next hany =>
        rw [if_neg hany]
        simpa [hgap] using ih

theorem samples_recordGap (spool : Spool) (dropped : ℕ) (nowMs : ℤ) :
    (spool.recordGap dropped nowMs).samples = spool.samples := by
  unfold recordGap
  dsimp only
  split <;> rfl

theorem lost_relieve (hunique : UniqueKey SampleRow.id spool.samples) (nowMs : ℤ)
    (hrow : row ∈ spool.samples) (hlost : row ∉ (spool.relieve nowMs).2.2.samples) :
    row ∈ spool.evictQuarantined.2.droppable ∧
      (spool.relieve nowMs).2.2.gapCount (nowMs / hourMs * hourMs) =
        spool.gapCount (nowMs / hourMs * hourMs) + spool.evictQuarantined.2.droppable.length := by
  unfold relieve at hlost ⊢
  dsimp only at hlost ⊢
  have hdropped : row ∉ spool.evictQuarantined.2.dropOldest.2.samples := by
    split at hlost
    · rwa [samples_recordGap] at hlost
    · exact hlost
  have hrows : ∀ other ∈ spool.evictQuarantined.2.droppable,
      other ∈ spool.evictQuarantined.2.samples :=
    fun other hother ↦ (mem_unassigned.mp (mem_of_mem_selectOrdered hother)).1
  have hmem : row ∈ spool.evictQuarantined.2.droppable :=
    mem_of_lost_deleteSamples hunique hrows hrow hdropped
  refine ⟨hmem, ?_⟩
  have hpositive : 0 < spool.evictQuarantined.2.dropOldest.1 := List.length_pos_of_mem hmem
  rw [if_pos hpositive, gapCount_recordGap]
  rfl

/-- A sample that a capacity call deletes was compacted, or it was dropped and counted. -/
theorem lost_enforceCapacity {ledger : Ledger} (h : UniqueKey SampleRow.id ledger.spool.samples)
    (maxBytes : ℕ) (readings : StorageReadings) (nowMs : ℤ) (hrow : row ∈ ledger.spool.samples)
    (hlost : row ∉ (ledger.spool.enforceCapacity maxBytes readings nowMs).2.samples) :
    Departure codec ledger row (.enforceCapacity maxBytes readings nowMs) := by
  set lowOnSpace := decide (readings.free < max minFreeBytes (readings.total / 20)) with hlow
  set compactions := compactionStatements readings.ratio lowOnSpace nowMs with hcompactions
  have hstatements : ∀ statement ∈ compactions,
      ∃ cutoff width limit, statement = fun spool ↦ (spool.compact cutoff width limit).2 :=
    fun _ ↦ compactionStatements_eq
  have hdropped := @Departure.dropped codec ledger row maxBytes readings nowMs
    (ledger.spool.perform compactions).evictQuarantined.2
  have hcompacted := @Departure.compacted codec ledger row maxBytes readings nowMs
  unfold enforceCapacity capacityStatements at hdropped
  unfold capacityStatements at hcompacted
  unfold enforceCapacity at hlost
  dsimp only at hlost hdropped hcompacted
  rw [← hlow] at hlost hdropped hcompacted
  rw [← hcompactions] at hdropped hcompacted
  split at hlost
  · exact absurd hrow hlost
  · next hpressed =>
    simp only [if_neg hpressed] at hdropped hcompacted
    by_cases hkept : row ∈ (ledger.spool.perform compactions).samples
    · simp only [compactAll_eq] at hlost hdropped
      split at hlost
      · next hlimit =>
        simp only [if_pos hlimit] at hdropped
        obtain ⟨hmem, hcount⟩ :=
          lost_relieve (uniqueKey_perform hstatements h) nowMs hkept hlost
        refine hdropped (statement_mem_statesAfter _ _ _ _) hmem (hcount.trans ?_)
        rw [gapCount, gapCount, dataGaps_perform hstatements]
      · exact absurd hkept hlost
    · obtain ⟨first, rest, hsplit, hunique, cutoff, width, limit, hmem⟩ :=
        exists_compaction_of_lost hstatements h hrow hkept
      obtain ⟨newer, hnewest, hpart, hnewer⟩ := exists_newer_of_compacted hunique hmem
      refine hcompacted _ cutoff width limit newer ?_ hmem hnewest hpart hnewer
      rw [hsplit, List.append_assoc]
      exact mem_statesAfter ledger.spool first _

/-- The acknowledgement of a delivery deletes the samples that are attached to it. -/
theorem lost_acknowledge {ledger : Ledger} (h : ledger.Balanced) (reportId : Bytes)
    (hrow : row ∈ ledger.spool.samples)
    (hlost : row ∉ (ledger.spool.acknowledge reportId).2.samples) :
    Departure codec ledger row (.acknowledge reportId) := by
  rw [acknowledge_eq h.wellformed] at hlost
  have hattached : row.id ∈ ledger.spool.attachedSamples reportId := by
    by_contra hfree
    exact hlost (List.mem_filter.mpr ⟨hrow, by simpa using hfree⟩)
  obtain ⟨link, hlink, hfrom, hid⟩ := mem_attachedSamples.mp hattached
  obtain ⟨delivery, hdelivery, hreport, sample, hsample, hsampleId, hcause⟩ := h.backed link hlink
  obtain rfl := h.wellformed.sample_unique.eq_of_mem hsample hrow (hsampleId.trans hid)
  obtain rfl := hreport.trans hfrom
  rcases hcause with hsent | ⟨hparked, hminute⟩
  · exact .sent delivery hdelivery hsent
  · refine .parked delivery hdelivery ?_ hminute
    rwa [hreport, hsampleId]

theorem samples_createNextDelivery (spool : Spool) (codec : Codec) (machinePk workspacePk : ℕ)
    (reportId : Bytes) (nowMs : ℤ) :
    (spool.createNextDelivery codec machinePk workspacePk reportId nowMs).2.samples =
      spool.samples := by
  have hcases := createNextDelivery_cases spool codec machinePk workspacePk reportId nowMs
  generalize spool.createNextDelivery codec machinePk workspacePk reportId nowMs = outcome
    at hcases ⊢
  cases hcases with
  | idle parked hparked => exact hparked.samples
  | failed message parked hparked => exact hparked.samples
  | created minute parked hparked => exact hparked.samples

theorem lost_apply {ledger : Ledger} (h : ledger.Balanced) (operation : Operation)
    (hrow : row ∈ ledger.spool.samples) (hlost : row ∉ (ledger.spool.apply codec operation).samples)
    : Departure codec ledger row operation := by
  have hkept : ∀ after : Spool, ledger.spool.samples ⊆ after.samples → row ∉ after.samples →
      Departure codec ledger row operation := fun _ hsub hgone ↦ absurd (hsub hrow) hgone
  have hrewrites (h : rewrites operation = true) : Departure codec ledger row operation :=
    absurd ((rewrites_apply ledger.spool codec h).samples ▸ hrow) hlost
  cases operation with
  | acknowledge reportId => exact lost_acknowledge h reportId hrow hlost
  | enforceCapacity maxBytes readings nowMs =>
    exact lost_enforceCapacity h.wellformed.sample_unique maxBytes readings nowMs hrow hlost
  | createNextDelivery machinePk workspacePk reportId nowMs =>
    refine hkept _ ?_ hlost
    rw [apply, samples_createNextDelivery]
    exact List.Subset.refl _
  | appendSample sample nowMs =>
    refine hkept _ ?_ hlost
    unfold apply appendSample
    dsimp only
    split
    · exact List.Subset.refl _
    · exact List.subset_append_left _ _
  | appendContainerInventory inventory nowMs =>
    refine hkept _ ?_ hlost
    unfold apply appendContainerInventory
    dsimp only
    split <;> exact List.Subset.refl _
  | appendProbeResult result nowMs =>
    refine hkept _ ?_ hlost
    unfold apply appendProbeResult
    dsimp only
    split <;> exact List.Subset.refl _
  | completeCommand result =>
    refine hkept _ ?_ hlost
    unfold apply completeCommand
    dsimp only
    split <;> exact List.Subset.refl _
  | _ => exact hrewrites rfl

/-- The call deletes samples in the known ways only. -/
def Accounted (codec : Codec) (ledger : Ledger) (operation : Operation) : Prop :=
  ∀ row ∈ ledger.spool.samples, row ∉ (ledger.spool.apply codec operation).samples →
    Departure codec ledger row operation

def lateRun : List Operation :=
  [.appendSample { observedAtMs := 60000 } 60000,
    .createNextDelivery 7 2 [1] 120000,
    .appendSample { observedAtMs := 61000 } 120000,
    .createNextDelivery 7 2 [2] 180000]

def lateRow : SampleRow where
  id := 2
  sampleBucket := 61000
  observedAt := 61000
  payload := { observedAtMs := 61000 }
  createdAt := 120000

end AlphaPing.Agent.Spool
