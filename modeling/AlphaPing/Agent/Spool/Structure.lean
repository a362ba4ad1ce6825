import AlphaPing.Agent.Spool.Capacity
import AlphaPing.Agent.Spool.Commands
import AlphaPing.Agent.Spool.Probes

/-!
# The structural invariant of the spool

Every delivery carries at least one sample, every sample and every command result belongs to at
most one delivery, and a minute has at most one delivery. The schema states only a part of this:
nothing in it keeps a sample from being attached twice or a delivery from being empty.

The invariant reads only identifiers, which the `Shape` of a spool collects. An operation that
leaves the shape alone keeps the invariant for that reason.
-/

namespace AlphaPing.Agent

open Protocol Library.Tables

/-- The identifiers in a spool and the links between them. -/
structure Shape where
  nextSampleId : ℕ
  sampleIds : List ℕ
  reportIds : List Bytes
  minutes : List ℤ
  deliverySamples : List DeliverySampleRow
  resultIds : List String
  deliveryCommandResults : List DeliveryCommandRow

structure Shape.Valid (shape : Shape) : Prop where
  sampleIds_nodup : shape.sampleIds.Nodup
  sampleIds_lt : ∀ id ∈ shape.sampleIds, id < shape.nextSampleId
  reportIds_nodup : shape.reportIds.Nodup
  minutes_nodup : shape.minutes.Nodup
  sampleLinks : LinkTable DeliverySampleRow.reportId DeliverySampleRow.sampleId shape.reportIds
    shape.sampleIds shape.deliverySamples
  nonempty : ∀ reportId ∈ shape.reportIds, ∃ link ∈ shape.deliverySamples,
    link.reportId = reportId
  resultIds_nodup : shape.resultIds.Nodup
  commandLinks : LinkTable DeliveryCommandRow.reportId DeliveryCommandRow.commandId
    shape.reportIds shape.resultIds shape.deliveryCommandResults

namespace Spool

def shape (spool : Spool) : Shape where
  nextSampleId := spool.nextSampleId
  sampleIds := spool.samples.map SampleRow.id
  reportIds := spool.deliveries.map DeliveryRow.reportId
  minutes := spool.deliveries.map DeliveryRow.nominalMinute
  deliverySamples := spool.deliverySamples
  resultIds := spool.commandResults.map CommandResultRow.commandId
  deliveryCommandResults := spool.deliveryCommandResults

/-- The structural invariant. -/
def Wellformed (spool : Spool) : Prop :=
  spool.shape.Valid

theorem wellformed_empty : Spool.empty.Wellformed where
  sampleIds_nodup := List.nodup_nil
  sampleIds_lt _ h := absurd h List.not_mem_nil
  reportIds_nodup := List.nodup_nil
  minutes_nodup := List.nodup_nil
  sampleLinks := linkTable_nil
  nonempty _ h := absurd h List.not_mem_nil
  resultIds_nodup := List.nodup_nil
  commandLinks := linkTable_nil

theorem Wellformed.of_shape {spool next : Spool} (h : spool.Wellformed)
    (hshape : next.shape = spool.shape) : next.Wellformed := by
  rw [Wellformed, hshape]
  exact h

variable {spool : Spool} {reportId : Bytes}

theorem Wellformed.sample_unique (h : spool.Wellformed) : UniqueKey SampleRow.id spool.samples :=
  h.sampleIds_nodup

theorem Wellformed.delivery_unique (h : spool.Wellformed) :
    UniqueKey DeliveryRow.reportId spool.deliveries :=
  h.reportIds_nodup

theorem Wellformed.minute_unique (h : spool.Wellformed) :
    UniqueKey DeliveryRow.nominalMinute spool.deliveries :=
  h.minutes_nodup

variable {row : DeliveryRow} {minute : ℤ} {before after : Spool}

theorem Wellformed.exists_sample (h : spool.Wellformed) (hrow : row ∈ spool.deliveries) :
    ∃ link ∈ spool.deliverySamples, link.reportId = row.reportId ∧
      ∃ sample ∈ spool.samples, sample.id = link.sampleId := by
  obtain ⟨link, hlink, hreport⟩ := h.nonempty row.reportId (List.mem_map_of_mem hrow)
  have hsample := h.sampleLinks.child_mem link hlink
  obtain ⟨sample, hmem, hid⟩ := List.mem_map.mp hsample
  exact ⟨link, hlink, hreport, sample, hmem, hid⟩

/-! ## Operations that keep the shape -/

theorem shape_updateDeliveries (spool : Spool) (condition : DeliveryRow → Bool)
    (change : DeliveryRow → DeliveryRow) (hid : ∀ row, (change row).reportId = row.reportId)
    (hminute : ∀ row, (change row).nominalMinute = row.nominalMinute) :
    shape { spool with deliveries := updateWhere condition change spool.deliveries } =
      spool.shape := by
  simp only [shape, map_updateWhere hid, map_updateWhere hminute]

@[simp] theorem shape_appendContainerInventory (spool : Spool) (inventory : ContainerInventory)
    (nowMs : ℤ) : (spool.appendContainerInventory inventory nowMs).shape = spool.shape := by
  unfold appendContainerInventory
  dsimp only
  split <;> rfl

@[simp] theorem shape_appendProbeResult (spool : Spool) (result : ProbeResult) (nowMs : ℤ) :
    (spool.appendProbeResult result nowMs).2.shape = spool.shape := by
  unfold appendProbeResult
  split <;> rfl

@[simp] theorem shape_applyProbeConfig (spool : Spool) (config : AgentConfigSnapshot)
    (nowMs : ℤ) : (spool.applyProbeConfig config nowMs).2.shape = spool.shape := by
  unfold applyProbeConfig
  split
  · rfl
  · split <;> rfl

@[simp] theorem shape_beginDeliveryAttempt (spool : Spool) (reportId : Bytes) (nextAttemptAt : ℤ) :
    (spool.beginDeliveryAttempt reportId nextAttemptAt).2.shape = spool.shape := by
  unfold beginDeliveryAttempt
  dsimp only
  split
  · rfl
  · split
    · rfl
    · exact shape_updateDeliveries spool _ _ (fun _ ↦ rfl) fun _ ↦ rfl

theorem shape_changePending (spool : Spool) (reportId : Bytes)
    (change : DeliveryRow → DeliveryRow) (hid : ∀ row, (change row).reportId = row.reportId)
    (hminute : ∀ row, (change row).nominalMinute = row.nominalMinute) :
    (spool.changePending reportId change).2.shape = spool.shape := by
  unfold changePending
  split <;> exact shape_updateDeliveries spool _ _ hid hminute

@[simp] theorem shape_rescheduleDelivery (spool : Spool) (reportId : Bytes) (nextAttemptAt : ℤ)
    (errorCode : String) :
    (spool.rescheduleDelivery reportId nextAttemptAt errorCode).2.shape = spool.shape :=
  shape_changePending spool reportId _ (fun _ ↦ rfl) fun _ ↦ rfl

@[simp] theorem shape_quarantineDelivery (spool : Spool) (reportId : Bytes) (errorCode : String)
    (nowMs : ℤ) : (spool.quarantineDelivery reportId errorCode nowMs).2.shape = spool.shape :=
  shape_changePending spool reportId _ (fun _ ↦ rfl) fun _ ↦ rfl

@[simp] theorem shape_redriveQuarantined (spool : Spool) (nowMs : ℤ) :
    (spool.redriveQuarantined nowMs).shape = spool.shape :=
  shape_updateDeliveries spool _ _ (fun _ ↦ rfl) fun _ ↦ rfl

@[simp] theorem shape_wakeBacklog (spool : Spool) (retryAt : ℤ) (limit : ℕ) :
    (spool.wakeBacklog retryAt limit).2.shape = spool.shape := by
  unfold wakeBacklog
  split
  · rfl
  · exact shape_updateDeliveries spool _ _ (fun _ ↦ rfl) fun _ ↦ rfl

@[simp] theorem shape_acceptCommands (spool : Spool) (codec : Codec)
    (commands : List AgentCommand) (nowMs : ℤ) :
    (spool.acceptCommands codec commands nowMs).2.shape = spool.shape := by
  unfold acceptCommands
  split
  · rfl
  · split <;> rfl

@[simp] theorem shape_markCommandAttempt (spool : Spool) (commandId : String) (retryAtMs : ℤ) :
    (spool.markCommandAttempt commandId retryAtMs).2.shape = spool.shape := by
  unfold markCommandAttempt
  split <;> rfl

@[simp] theorem shape_recordGap (spool : Spool) (dropped : ℕ) (nowMs : ℤ) :
    (spool.recordGap dropped nowMs).shape = spool.shape := by
  unfold recordGap
  dsimp only
  split <;> rfl

/-! ## Samples and command results come in -/

theorem wellformed_appendSample (h : spool.Wellformed) (sample : MetricSample) (nowMs : ℤ) :
    (spool.appendSample sample nowMs).2.Wellformed := by
  unfold appendSample
  split
  · exact h
  · have hnew : spool.nextSampleId ∉ spool.samples.map SampleRow.id :=
      fun hmem ↦ lt_irrefl _ (h.sampleIds_lt _ hmem)
    refine ⟨?_, ?_, h.reportIds_nodup, h.minutes_nodup, ?_, h.nonempty, h.resultIds_nodup,
      h.commandLinks⟩
    · simp only [shape, List.map_append, List.map_cons, List.map_nil]
      exact List.Nodup.append h.sampleIds_nodup (List.nodup_singleton _)
        (List.disjoint_singleton.mpr hnew)
    · intro id hid
      simp only [shape, List.map_append, List.mem_append, List.map_cons, List.map_nil,
        List.mem_singleton] at hid ⊢
      rcases hid with hold | rfl
      · exact Nat.lt_succ_of_lt (h.sampleIds_lt id hold)
      · exact Nat.lt_succ_self _
    · refine h.sampleLinks.mono (List.Subset.refl _) ?_
      simp only [shape, List.map_append]
      exact List.subset_append_left _ _

theorem map_commandId_upsertResult (rows : List CommandResultRow) (result : AgentCommandResult) :
    (upsertResult rows result).map CommandResultRow.commandId =
      if result.commandId ∈ rows.map CommandResultRow.commandId then
        rows.map CommandResultRow.commandId
      else rows.map CommandResultRow.commandId ++ [result.commandId] := by
  have hany : (rows.any fun old ↦ old.commandId == result.commandId) = true ↔
      result.commandId ∈ rows.map CommandResultRow.commandId := by
    simp [List.any_eq_true, List.mem_map]
  unfold upsertResult
  dsimp only
  by_cases hmem : result.commandId ∈ rows.map CommandResultRow.commandId
  · rw [if_pos (hany.mpr hmem), if_pos hmem, updateWhere, List.map_map]
    refine List.map_congr_left fun row _ ↦ ?_
    simp only [Function.comp_apply]
    split
    · next heq => exact (eq_of_beq heq).symm
    · rfl
  · rw [if_neg (fun h ↦ hmem (hany.mp h)), if_neg hmem, List.map_append]
    rfl

theorem wellformed_completeCommand (h : spool.Wellformed) (result : AgentCommandResult) :
    (spool.completeCommand result).2.Wellformed := by
  unfold completeCommand
  dsimp only
  split
  · exact h
  · have hids := map_commandId_upsertResult spool.commandResults result
    refine ⟨h.sampleIds_nodup, h.sampleIds_lt, h.reportIds_nodup, h.minutes_nodup, h.sampleLinks,
      h.nonempty, ?_, ?_⟩
    · simp only [shape, hids]
      split
      · exact h.resultIds_nodup
      · next hnew =>
        exact List.Nodup.append h.resultIds_nodup (List.nodup_singleton _)
          (List.disjoint_singleton.mpr hnew)
    · refine h.commandLinks.mono (List.Subset.refl _) ?_
      simp only [shape, hids]
      split
      · exact List.Subset.refl _
      · exact List.subset_append_left _ _

/-! ## Parking -/

theorem mem_unassignedIn {row : SampleRow} :
    row ∈ spool.unassignedIn minute ↔ row ∈ spool.unassigned ∧
      minute ≤ row.observedAt ∧ row.observedAt < minute + 60000 := by
  simp [unassignedIn]

theorem deliveryOf_some (h : spool.deliveryOf minute = some row) :
    row ∈ spool.deliveries ∧ row.nominalMinute = minute :=
  ⟨List.mem_of_find?_eq_some h, by simpa using List.find?_some h⟩

theorem deliveryOf_none (h : spool.deliveryOf minute = none) :
    ∀ row ∈ spool.deliveries, row.nominalMinute ≠ minute := by
  simpa [deliveryOf] using h

theorem sampleLinks_attach (h : spool.Wellformed) {reportIds : List Bytes}
    (hsub : spool.shape.reportIds ⊆ reportIds) (hreport : reportId ∈ reportIds)
    {rows : List SampleRow} (hrows : ∀ row ∈ rows, row ∈ spool.unassigned)
    (hunique : UniqueKey SampleRow.id rows) :
    LinkTable DeliverySampleRow.reportId DeliverySampleRow.sampleId reportIds
      (spool.samples.map SampleRow.id)
      (spool.deliverySamples ++ rows.map fun row ↦ ⟨reportId, row.id⟩) := by
  refine (h.sampleLinks.mono hsub (List.Subset.refl _)).append ?_ ?_ ?_ ?_
  · intro link hlink
    obtain ⟨row, -, rfl⟩ := List.mem_map.mp hlink
    exact hreport
  · intro link hlink
    obtain ⟨row, hrow, rfl⟩ := List.mem_map.mp hlink
    exact List.mem_map_of_mem (mem_unassigned.mp (hrows row hrow)).1
  · rw [UniqueKey, List.map_map]
    exact hunique
  · intro link hlink other hother
    obtain ⟨row, hrow, rfl⟩ := List.mem_map.mp hother
    exact (mem_unassigned.mp (hrows row hrow)).2 link hlink

theorem uniqueKey_unassignedIn (h : spool.Wellformed) (minute : ℤ) :
    UniqueKey SampleRow.id (spool.unassignedIn minute) :=
  (h.sample_unique.filter _).filter _

theorem wellformed_park (h : spool.Wellformed) {delivery : DeliveryRow}
    (hdelivery : delivery ∈ spool.deliveries) (minute : ℤ) :
    (spool.park delivery.reportId minute).Wellformed where
  sampleIds_nodup := h.sampleIds_nodup
  sampleIds_lt := h.sampleIds_lt
  reportIds_nodup := h.reportIds_nodup
  minutes_nodup := h.minutes_nodup
  sampleLinks := sampleLinks_attach h (List.Subset.refl _) (List.mem_map_of_mem hdelivery)
    (fun _ hrow ↦ (mem_unassignedIn.mp hrow).1) (uniqueKey_unassignedIn h minute)
  nonempty reportId hreport := by
    obtain ⟨link, hlink, heq⟩ := h.nonempty reportId hreport
    exact ⟨link, List.mem_append_left _ hlink, heq⟩
  resultIds_nodup := h.resultIds_nodup
  commandLinks := h.commandLinks

/-- What the search for a free minute leaves behind: samples of minutes that already had a
delivery are attached to it, and nothing else has changed. -/
structure ParkedFrom (before after : Spool) : Prop where
  eq : after = { before with deliverySamples := after.deliverySamples }
  wellformed : before.Wellformed → after.Wellformed
  kept : before.deliverySamples ⊆ after.deliverySamples
  parked : ∀ link ∈ after.deliverySamples, link ∈ before.deliverySamples ∨
    ∃ delivery ∈ before.deliveries, delivery.reportId = link.reportId ∧
      ∃ row ∈ before.unassigned, row.id = link.sampleId ∧
        delivery.nominalMinute ≤ row.observedAt ∧ row.observedAt < delivery.nominalMinute + 60000

theorem ParkedFrom.refl (spool : Spool) : ParkedFrom spool spool where
  eq := rfl
  wellformed := id
  kept := List.Subset.refl _
  parked _ h := .inl h

theorem ParkedFrom.samples (h : ParkedFrom before after) : after.samples = before.samples := by
  rw [h.eq]

theorem ParkedFrom.deliveries (h : ParkedFrom before after) :
    after.deliveries = before.deliveries := by
  rw [h.eq]

theorem ParkedFrom.unassigned_subset (h : ParkedFrom before after) :
    after.unassigned ⊆ before.unassigned := by
  intro row hrow
  obtain ⟨hmem, hfree⟩ := mem_unassigned.mp hrow
  rw [h.samples] at hmem
  exact mem_unassigned.mpr ⟨hmem, fun link hlink ↦ hfree link (h.kept hlink)⟩

theorem parkedFrom_park (spool : Spool) {delivery : DeliveryRow}
    (hdelivery : delivery ∈ spool.deliveries) :
    ParkedFrom spool (spool.park delivery.reportId delivery.nominalMinute) where
  eq := rfl
  wellformed h := wellformed_park h hdelivery delivery.nominalMinute
  kept := List.subset_append_left _ _
  parked link hlink := by
    rcases List.mem_append.mp hlink with hold | hnew
    · exact .inl hold
    · obtain ⟨row, hrow, rfl⟩ := List.mem_map.mp hnew
      obtain ⟨hfree, hlow, hhigh⟩ := mem_unassignedIn.mp hrow
      exact .inr ⟨delivery, hdelivery, rfl, row, hfree, rfl, hlow, hhigh⟩

theorem ParkedFrom.trans {first second third : Spool} (h : ParkedFrom first second)
    (h' : ParkedFrom second third) : ParkedFrom first third where
  eq := by rw [h'.eq, h.eq]
  wellformed := h'.wellformed ∘ h.wellformed
  kept := List.Subset.trans h.kept h'.kept
  parked link hlink := by
    rcases h'.parked link hlink with hold | ⟨delivery, hdelivery, hreport, row, hrow, hrest⟩
    · exact h.parked link hold
    · rw [h.deliveries] at hdelivery
      exact .inr ⟨delivery, hdelivery, hreport, row, h.unassigned_subset hrow, hrest⟩

/-- A minute that the search returns has no delivery and lies before the current one. -/
theorem nextMinute_spec (currentMinute : ℤ) (left : ℕ) (spool : Spool) :
    ParkedFrom spool (nextMinute currentMinute left spool).2 ∧
      ∀ minute, (nextMinute currentMinute left spool).1 = some minute →
        (nextMinute currentMinute left spool).2.deliveryOf minute = none := by
  induction left generalizing spool with
  | zero => exact ⟨.refl spool, fun _ h ↦ by cases h⟩
  | succ left ih =>
    unfold nextMinute
    cases spool.oldestUnassigned currentMinute with
    | none => exact ⟨.refl spool, fun _ h ↦ by cases h⟩
    | some row =>
      dsimp only
      cases hdelivery : spool.deliveryOf (truncatedMinute row.observedAt) with
      | none =>
        refine ⟨.refl spool, fun minute h ↦ ?_⟩
        obtain rfl := Option.some.inj h
        exact hdelivery
      | some delivery =>
        obtain ⟨hmem, hminute⟩ := deliveryOf_some hdelivery
        have hpark := parkedFrom_park spool hmem
        rw [hminute] at hpark
        obtain ⟨hparked, hfree⟩ := ih (spool.park delivery.reportId (truncatedMinute row.observedAt))
        exact ⟨hpark.trans hparked, hfree⟩

/-! ## A new delivery -/

/-- What `create_next_delivery` can do. -/
inductive CreateCase (spool : Spool) (codec : Codec) (machinePk workspacePk : ℕ)
    (reportId : Bytes) (nowMs : ℤ) : Outcome (Option Bytes) → Prop where
  | idle (parked : Spool) (hparked : ParkedFrom spool parked) :
    CreateCase spool codec machinePk workspacePk reportId nowMs (.ok none, parked)
  | failed (message : String) (parked : Spool) (hparked : ParkedFrom spool parked) :
    CreateCase spool codec machinePk workspacePk reportId nowMs (.error message, parked)
  | created (minute : ℤ) (parked : Spool) (hparked : ParkedFrom spool parked)
    (hpacked : parked.packedSamples minute ≠ [])
    (hfits : codec.fits (parked.buildReport machinePk workspacePk reportId minute) = true)
    (hreport : ∀ row ∈ parked.deliveries, row.reportId ≠ reportId)
    (hminute : ∀ row ∈ parked.deliveries, row.nominalMinute ≠ minute) :
    CreateCase spool codec machinePk workspacePk reportId nowMs
      (.ok (some reportId),
        parked.insertDelivery codec (parked.buildReport machinePk workspacePk reportId minute)
          nowMs)

theorem createNextDelivery_cases (spool : Spool) (codec : Codec) (machinePk workspacePk : ℕ)
    (reportId : Bytes) (nowMs : ℤ) :
    CreateCase spool codec machinePk workspacePk reportId nowMs
      (spool.createNextDelivery codec machinePk workspacePk reportId nowMs) := by
  obtain ⟨hparked, hfree⟩ := nextMinute_spec (floorMinute nowMs) 256 spool
  unfold createNextDelivery
  generalize nextMinute (floorMinute nowMs) 256 spool = found at hparked hfree
  obtain ⟨minute, parked⟩ := found
  cases minute with
  | none => exact .idle parked hparked
  | some minute =>
    dsimp only
    split
    · exact .idle parked hparked
    · next hpacked =>
      split
      · exact .failed _ parked hparked
      · next hfits =>
        split
        · exact .failed _ parked hparked
        · next hunique =>
          have hnone : ∀ row ∈ parked.deliveries,
              row.reportId ≠ reportId ∧ row.nominalMinute ≠ minute := by
            simpa [List.any_eq_true] using hunique
          exact .created minute parked hparked (by simpa using hpacked) (by simpa using hfits)
            (fun row hrow ↦ (hnone row hrow).1) fun row hrow ↦ (hnone row hrow).2

theorem mem_unassigned_of_packed {row : SampleRow} (h : row ∈ spool.packedSamples minute) :
    row ∈ spool.unassigned :=
  (mem_unassignedIn.mp (mem_of_mem_selectOrdered h)).1

theorem unlinked_of_packedCommands {row : CommandResultRow} (h : row ∈ spool.packedCommands) :
    row ∈ spool.commandResults ∧
      ∀ link ∈ spool.deliveryCommandResults, link.commandId ≠ row.commandId := by
  have hmem := mem_of_mem_selectOrdered h
  simpa using hmem

theorem wellformed_insertDelivery (h : spool.Wellformed) (codec : Codec) {report : MachineReport}
    (nowMs : ℤ) (hpacked : spool.packedSamples report.nominalMinuteMs ≠ [])
    (hreport : ∀ row ∈ spool.deliveries, row.reportId ≠ report.reportId)
    (hminute : ∀ row ∈ spool.deliveries, row.nominalMinute ≠ report.nominalMinuteMs) :
    (spool.insertDelivery codec report nowMs).Wellformed := by
  have hids : (spool.insertDelivery codec report nowMs).shape.reportIds =
      spool.shape.reportIds ++ [report.reportId] := by
    simp [shape, insertDelivery, deliveryRow]
  have hminutes : (spool.insertDelivery codec report nowMs).shape.minutes =
      spool.shape.minutes ++ [report.nominalMinuteMs] := by
    simp [shape, insertDelivery, deliveryRow]
  have hsub : spool.shape.reportIds ⊆ spool.shape.reportIds ++ [report.reportId] :=
    List.subset_append_left _ _
  have hself : report.reportId ∈ spool.shape.reportIds ++ [report.reportId] :=
    List.mem_append_right _ List.mem_cons_self
  refine ⟨h.sampleIds_nodup, h.sampleIds_lt, ?_, ?_, ?_, ?_, h.resultIds_nodup, ?_⟩
  · rw [hids]
    have hnew : report.reportId ∉ spool.shape.reportIds := fun hmem ↦ by
      obtain ⟨row, hrow, heq⟩ := List.mem_map.mp hmem
      exact hreport row hrow heq
    exact List.Nodup.append h.reportIds_nodup (List.nodup_singleton _)
      (List.disjoint_singleton.mpr hnew)
  · rw [hminutes]
    have hnew : report.nominalMinuteMs ∉ spool.shape.minutes := fun hmem ↦ by
      obtain ⟨row, hrow, heq⟩ := List.mem_map.mp hmem
      exact hminute row hrow heq
    exact List.Nodup.append h.minutes_nodup (List.nodup_singleton _)
      (List.disjoint_singleton.mpr hnew)
  · rw [hids]
    exact sampleLinks_attach h hsub hself (fun _ ↦ mem_unassigned_of_packed)
      (uniqueKey_selectOrdered (uniqueKey_unassignedIn h _))
  · intro reportId hmem
    rw [hids] at hmem
    rcases List.mem_append.mp hmem with hold | hnew
    · obtain ⟨link, hlink, heq⟩ := h.nonempty reportId hold
      exact ⟨link, List.mem_append_left _ hlink, heq⟩
    · obtain ⟨row, hrow⟩ := List.exists_mem_of_ne_nil _ hpacked
      refine ⟨⟨report.reportId, row.id⟩, List.mem_append_right _ (List.mem_map_of_mem hrow), ?_⟩
      exact (List.mem_singleton.mp hnew).symm
  · rw [hids]
    refine (h.commandLinks.mono hsub (List.Subset.refl _)).append ?_ ?_ ?_ ?_
    · intro link hlink
      obtain ⟨row, -, rfl⟩ := List.mem_map.mp hlink
      exact hself
    · intro link hlink
      obtain ⟨row, hrow, rfl⟩ := List.mem_map.mp hlink
      exact List.mem_map_of_mem (unlinked_of_packedCommands hrow).1
    · rw [UniqueKey, List.map_map]
      have hresults : UniqueKey CommandResultRow.commandId spool.commandResults :=
        h.resultIds_nodup
      exact uniqueKey_selectOrdered (hresults.filter _)
    · intro link hlink other hother
      obtain ⟨row, hrow, rfl⟩ := List.mem_map.mp hother
      exact (unlinked_of_packedCommands hrow).2 link hlink

theorem wellformed_createNextDelivery (h : spool.Wellformed) (codec : Codec)
    (machinePk workspacePk : ℕ) (reportId : Bytes) (nowMs : ℤ) :
    (spool.createNextDelivery codec machinePk workspacePk reportId nowMs).2.Wellformed := by
  have hcases := createNextDelivery_cases spool codec machinePk workspacePk reportId nowMs
  generalize spool.createNextDelivery codec machinePk workspacePk reportId nowMs = outcome
    at hcases ⊢
  cases hcases with
  | idle parked hparked => exact hparked.wellformed h
  | failed message parked hparked => exact hparked.wellformed h
  | created minute parked hparked hpacked hfits hreport hminute =>
    exact wellformed_insertDelivery (hparked.wellformed h) codec nowMs hpacked hreport hminute

/-! ## Deletions -/

/-- Attached samples are not among the ones that a capacity statement deletes. -/
theorem wellformed_deleteSamples (h : spool.Wellformed) {rows : List SampleRow}
    (hrows : ∀ row ∈ rows, row ∈ spool.unassigned) : (spool.deleteSamples rows).Wellformed where
  sampleIds_nodup := h.sample_unique.filter _
  sampleIds_lt id hid := by
    obtain ⟨row, hrow, rfl⟩ := List.mem_map.mp hid
    exact h.sampleIds_lt _ (List.mem_map_of_mem (List.mem_filter.mp hrow).1)
  reportIds_nodup := h.reportIds_nodup
  minutes_nodup := h.minutes_nodup
  sampleLinks :=
    { parent_mem := h.sampleLinks.parent_mem
      child_unique := h.sampleLinks.child_unique
      child_mem := fun link hlink ↦ by
        obtain ⟨sample, hsample, hid⟩ := List.mem_map.mp (h.sampleLinks.child_mem link hlink)
        refine List.mem_map.mpr ⟨sample, List.mem_filter.mpr ⟨hsample, ?_⟩, hid⟩
        have hkept : sample.id ∉ rows.map SampleRow.id := fun hmem ↦ by
          obtain ⟨row, hrow, heq⟩ := List.mem_map.mp hmem
          exact (mem_unassigned.mp (hrows row hrow)).2 link hlink (hid.symm.trans heq.symm)
        simpa using hkept }
  nonempty := h.nonempty
  resultIds_nodup := h.resultIds_nodup
  commandLinks := h.commandLinks

theorem wellformed_deleteDeliveries (h : spool.Wellformed) (condition : DeliveryRow → Bool) :
    (spool.deleteDeliveries condition).Wellformed := by
  have hkept : ∀ row ∈ spool.deliveries, condition row = false ↔
      row.reportId ∉ (spool.deliveries.filter condition).map DeliveryRow.reportId := by
    intro row hrow
    constructor
    · intro hfalse hmem
      obtain ⟨other, hother, heq⟩ := List.mem_map.mp hmem
      obtain ⟨hmember, htrue⟩ := List.mem_filter.mp hother
      obtain rfl := h.delivery_unique.eq_of_mem hmember hrow heq
      exact Bool.false_ne_true (hfalse.symm.trans htrue)
    · intro hmem
      by_contra htrue
      exact hmem (List.mem_map_of_mem (List.mem_filter.mpr ⟨hrow, by simpa using htrue⟩))
  have hparent : ∀ reportId ∈ spool.shape.reportIds,
      reportId ∉ (spool.deliveries.filter condition).map DeliveryRow.reportId →
        reportId ∈ (spool.deleteDeliveries condition).shape.reportIds := by
    intro reportId hid hfree
    obtain ⟨row, hrow, rfl⟩ := List.mem_map.mp hid
    have hfalse := (hkept row hrow).mpr hfree
    exact List.mem_map_of_mem (List.mem_filter.mpr ⟨hrow, by simp [hfalse]⟩)
  refine ⟨h.sampleIds_nodup, h.sampleIds_lt, h.delivery_unique.filter _, h.minute_unique.filter _,
    h.sampleLinks.restrict _ ?_ fun link hlink _ ↦ h.sampleLinks.child_mem link hlink, ?_,
    h.resultIds_nodup,
    h.commandLinks.restrict _ ?_ fun link hlink _ ↦ h.commandLinks.child_mem link hlink⟩
  · intro link hlink hcondition
    exact hparent _ (h.sampleLinks.parent_mem link hlink) (by simpa using hcondition)
  · intro reportId hid
    obtain ⟨row, hrow, rfl⟩ := List.mem_map.mp hid
    obtain ⟨hmem, hfalse⟩ := List.mem_filter.mp hrow
    obtain ⟨link, hlink, heq⟩ := h.nonempty row.reportId (List.mem_map_of_mem hmem)
    have hfree := (hkept row hmem).mp (by simpa using hfalse)
    refine ⟨link, List.mem_filter.mpr ⟨hlink, ?_⟩, heq⟩
    simpa [heq] using hfree
  · intro link hlink hcondition
    exact hparent _ (h.commandLinks.parent_mem link hlink) (by simpa using hcondition)

theorem wellformed_compact (h : spool.Wellformed) (before : Option ℤ) (width : ℤ) (limit : ℕ) :
    (spool.compact before width limit).2.Wellformed := by
  refine wellformed_deleteSamples h fun row hrow ↦ ?_
  have hcandidate := List.mem_of_mem_filter (mem_of_mem_selectOrdered hrow)
  exact List.mem_of_mem_filter (mem_of_mem_selectOrdered hcandidate)

theorem wellformed_evictQuarantined (h : spool.Wellformed) : spool.evictQuarantined.2.Wellformed :=
  wellformed_deleteDeliveries h _

theorem wellformed_dropOldest (h : spool.Wellformed) : spool.dropOldest.2.Wellformed :=
  wellformed_deleteSamples h fun _ ↦ mem_of_mem_selectOrdered

/-! ## Acknowledgement -/

theorem mem_attachedSamples {sampleId : ℕ} :
    sampleId ∈ spool.attachedSamples reportId ↔
      ∃ link ∈ spool.deliverySamples, link.reportId = reportId ∧ link.sampleId = sampleId := by
  simp [attachedSamples, and_assoc]

theorem mem_attachedCommands {commandId : String} :
    commandId ∈ spool.attachedCommands reportId ↔
      ∃ link ∈ spool.deliveryCommandResults,
        link.reportId = reportId ∧ link.commandId = commandId := by
  simp [attachedCommands, and_assoc]

theorem mem_detach_samples {link : DeliverySampleRow}
    (h : link ∈ (spool.detach reportId).deliverySamples) :
    link ∈ spool.deliverySamples ∧ link.reportId ≠ reportId := by
  have hmem := List.mem_of_mem_filter h
  simpa using hmem

theorem mem_detach_commands (h : spool.Wellformed) {link : DeliveryCommandRow}
    (hlink : link ∈ (spool.detach reportId).deliveryCommandResults) :
    link ∈ spool.deliveryCommandResults ∧ link.reportId ≠ reportId := by
  obtain ⟨hmem, hkept⟩ := List.mem_filter.mp hlink
  refine ⟨hmem, fun heq ↦ ?_⟩
  obtain ⟨row, hrow, hid⟩ := List.mem_map.mp (h.commandLinks.parent_mem link hmem)
  have hremoved : link.reportId ∈
      (spool.deliveries.filter fun row ↦ row.reportId == reportId).map DeliveryRow.reportId :=
    List.mem_map.mpr ⟨row, List.mem_filter.mpr ⟨hrow, by simp [hid, heq]⟩, hid⟩
  simp only [Bool.not_eq_eq_eq_not, Bool.not_true, List.contains_eq_mem,
    decide_eq_false_iff_not] at hkept
  exact hkept hremoved

/-- No other delivery refers to the samples and command results of an acknowledged one. -/
theorem acknowledge_eq (h : spool.Wellformed) (reportId : Bytes) :
    spool.acknowledge reportId =
      (.ok ((spool.deliveries.countP fun row ↦ row.reportId == reportId) == 1 &&
          decide (0 < spool.samples.countP fun row ↦
            (spool.attachedSamples reportId).contains row.id)),
        spool.acknowledged reportId) := by
  refine if_neg ?_
  simp only [Bool.or_eq_true, List.any_eq_true, List.contains_eq_mem, decide_eq_true_eq,
    not_or, not_exists, not_and]
  constructor
  · intro link hlink hattached
    obtain ⟨hmem, hother⟩ := mem_detach_samples hlink
    obtain ⟨first, hfirst, hreport, hsample⟩ := mem_attachedSamples.mp hattached
    obtain rfl := h.sampleLinks.child_unique.eq_of_mem hfirst hmem hsample
    exact hother hreport
  · intro link hlink hattached
    obtain ⟨hmem, hother⟩ := mem_detach_commands h hlink
    obtain ⟨first, hfirst, hreport, hcommand⟩ := mem_attachedCommands.mp hattached
    obtain rfl := h.commandLinks.child_unique.eq_of_mem hfirst hmem hcommand
    exact hother hreport

theorem acknowledge_ok (h : spool.Wellformed) (hrow : row ∈ spool.deliveries) :
    spool.acknowledge row.reportId = (.ok true, spool.acknowledged row.reportId) := by
  rw [acknowledge_eq h]
  have hone : (spool.deliveries.countP fun other ↦ other.reportId == row.reportId) = 1 :=
    h.delivery_unique.countP_eq_one hrow (by simp) fun other hother ↦ by simpa using hother
  obtain ⟨link, hlink, hreport, sample, hsample, hid⟩ := h.exists_sample hrow
  have hattached : sample.id ∈ spool.attachedSamples row.reportId :=
    mem_attachedSamples.mpr ⟨link, hlink, hreport, hid.symm⟩
  have hpositive : 0 < spool.samples.countP fun other ↦
      (spool.attachedSamples row.reportId).contains other.id :=
    List.countP_pos_iff.mpr ⟨sample, hsample, by simpa using hattached⟩
  rw [hone, decide_eq_true hpositive]
  rfl

theorem wellformed_acknowledged (h : spool.Wellformed) (reportId : Bytes) :
    (spool.acknowledged reportId).Wellformed := by
  have hreport : ∀ other ∈ spool.shape.reportIds, other ≠ reportId →
      other ∈ (spool.acknowledged reportId).shape.reportIds := by
    intro other hother hne
    obtain ⟨row, hrow, rfl⟩ := List.mem_map.mp hother
    exact List.mem_map_of_mem (List.mem_filter.mpr ⟨hrow, by simpa using hne⟩)
  have hresults : UniqueKey CommandResultRow.commandId spool.commandResults := h.resultIds_nodup
  have hsampleLinks : ∀ link ∈ (spool.acknowledged reportId).deliverySamples,
      link ∈ spool.deliverySamples ∧ link.reportId ≠ reportId := fun _ ↦ mem_detach_samples
  have hcommandLinks : ∀ link ∈ (spool.acknowledged reportId).deliveryCommandResults,
      link ∈ spool.deliveryCommandResults ∧ link.reportId ≠ reportId :=
    fun _ ↦ mem_detach_commands h
  refine
    { sampleIds_nodup := h.sample_unique.filter _
      sampleIds_lt := fun id hid ↦ ?_
      reportIds_nodup := h.delivery_unique.filter _
      minutes_nodup := h.minute_unique.filter _
      sampleLinks :=
        { parent_mem := fun link hlink ↦ ?_
          child_mem := fun link hlink ↦ ?_
          child_unique := (h.sampleLinks.child_unique.filter _).filter _ }
      nonempty := fun other hother ↦ ?_
      resultIds_nodup := hresults.filter _
      commandLinks :=
        { parent_mem := fun link hlink ↦ ?_
          child_mem := fun link hlink ↦ ?_
          child_unique := h.commandLinks.child_unique.filter _ } }
  · obtain ⟨row, hrow, rfl⟩ := List.mem_map.mp hid
    exact h.sampleIds_lt _ (List.mem_map_of_mem (List.mem_of_mem_filter hrow))
  · obtain ⟨hmem, hne⟩ := hsampleLinks link hlink
    exact hreport _ (h.sampleLinks.parent_mem link hmem) hne
  · obtain ⟨hmem, hne⟩ := hsampleLinks link hlink
    obtain ⟨sample, hsample, hid⟩ := List.mem_map.mp (h.sampleLinks.child_mem link hmem)
    refine List.mem_map.mpr ⟨sample, List.mem_filter.mpr ⟨hsample, ?_⟩, hid⟩
    have hfree : sample.id ∉ spool.attachedSamples reportId := fun hattached ↦ by
      obtain ⟨first, hfirst, hfrom, heq⟩ := mem_attachedSamples.mp hattached
      obtain rfl := h.sampleLinks.child_unique.eq_of_mem hfirst hmem (heq.trans hid)
      exact hne hfrom
    simpa using hfree
  · obtain ⟨row, hrow, rfl⟩ := List.mem_map.mp hother
    obtain ⟨hmem, hne⟩ := List.mem_filter.mp hrow
    obtain ⟨link, hlink, heq⟩ := h.nonempty row.reportId (List.mem_map_of_mem hmem)
    have hkept : link.reportId ≠ reportId := by simpa [heq] using hne
    refine ⟨link, List.mem_filter.mpr ⟨List.mem_filter.mpr ⟨hlink, by simpa using hkept⟩, ?_⟩, heq⟩
    have hnone : link.reportId ∉ (spool.deliveries.filter fun row ↦ row.reportId == reportId).map
        DeliveryRow.reportId := fun hremoved ↦ by
      obtain ⟨other, hfrom, hid⟩ := List.mem_map.mp hremoved
      exact hkept (hid ▸ by simpa using (List.mem_filter.mp hfrom).2)
    simpa using hnone
  · obtain ⟨hmem, hne⟩ := hcommandLinks link hlink
    exact hreport _ (h.commandLinks.parent_mem link hmem) hne
  · obtain ⟨hmem, hne⟩ := hcommandLinks link hlink
    obtain ⟨result, hresult, hid⟩ := List.mem_map.mp (h.commandLinks.child_mem link hmem)
    refine List.mem_map.mpr ⟨result, List.mem_filter.mpr ⟨hresult, ?_⟩, hid⟩
    have hfree : result.commandId ∉ spool.attachedCommands reportId := fun hattached ↦ by
      obtain ⟨first, hfirst, hfrom, heq⟩ := mem_attachedCommands.mp hattached
      obtain rfl := h.commandLinks.child_unique.eq_of_mem hfirst hmem (heq.trans hid)
      exact hne hfrom
    simpa using hfree

end Spool

end AlphaPing.Agent
