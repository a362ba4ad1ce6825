import AlphaPing.Agent.Spool.Structure

/-!
# What the operations leave alone

Apart from the calls of an upload, no operation of the spool moves the transport sequence or
takes a pending delivery away. The relation `Keeps` says so for two spools; it composes, so an
operation of several statements keeps what each of them keeps.
-/

namespace AlphaPing.Agent

open Protocol Library.Tables

namespace Spool

/-- There is a delivery with the identifier, and it is pending. -/
def Pending (spool : Spool) (reportId : Bytes) : Prop :=
  ∃ row ∈ spool.deliveries, row.reportId = reportId ∧ row.state = .pending

structure Keeps (before after : Spool) : Prop where
  sequence : after.transportSequence = before.transportSequence
  wellformed : before.Wellformed → after.Wellformed
  pending : ∀ reportId, before.Pending reportId → after.Pending reportId

theorem Keeps.refl (spool : Spool) : Keeps spool spool where
  sequence := rfl
  wellformed := id
  pending _ := id

theorem Keeps.trans {first second third : Spool} (h : Keeps first second)
    (h' : Keeps second third) : Keeps first third where
  sequence := h'.sequence.trans h.sequence
  wellformed := h'.wellformed ∘ h.wellformed
  pending reportId := h'.pending reportId ∘ h.pending reportId

theorem Keeps.of_deliveries {before after : Spool}
    (hsequence : after.transportSequence = before.transportSequence)
    (hwellformed : before.Wellformed → after.Wellformed)
    (hdeliveries : before.deliveries ⊆ after.deliveries) : Keeps before after where
  sequence := hsequence
  wellformed := hwellformed
  pending _ := fun ⟨row, hrow, h⟩ ↦ ⟨row, hdeliveries hrow, h⟩

variable {reportId : Bytes} {spool : Spool}

theorem exists_pending_updateWhere {rows : List DeliveryRow} {condition : DeliveryRow → Bool}
    {change : DeliveryRow → DeliveryRow} (hid : ∀ row, (change row).reportId = row.reportId)
    (hstate : ∀ row, row.state = .pending → (change row).state = .pending)
    (h : ∃ row ∈ rows, row.reportId = reportId ∧ row.state = .pending) :
    ∃ row ∈ updateWhere condition change rows, row.reportId = reportId ∧ row.state = .pending := by
  obtain ⟨row, hrow, rfl, hpending⟩ := h
  refine ⟨_, mem_updateWhere_of_mem hrow, ?_, ?_⟩
  · split
    · exact hid row
    · rfl
  · split
    · exact hstate row hpending
    · exact hpending

theorem keeps_updateDeliveries (spool : Spool) {condition : DeliveryRow → Bool}
    {change : DeliveryRow → DeliveryRow} (hid : ∀ row, (change row).reportId = row.reportId)
    (hminute : ∀ row, (change row).nominalMinute = row.nominalMinute)
    (hstate : ∀ row, row.state = .pending → (change row).state = .pending) :
    Keeps spool { spool with deliveries := updateWhere condition change spool.deliveries } where
  sequence := rfl
  wellformed h := h.of_shape (shape_updateDeliveries spool condition change hid hminute)
  pending _ := exists_pending_updateWhere hid hstate

/-! ## Collecting and creating -/

theorem keeps_appendSample (spool : Spool) (sample : MetricSample) (nowMs : ℤ) :
    Keeps spool (spool.appendSample sample nowMs).2 := by
  refine .of_deliveries ?_ (wellformed_appendSample · sample nowMs) ?_ <;>
    unfold appendSample <;> split
  · rfl
  · rfl
  · exact List.Subset.refl _
  · exact List.Subset.refl _

theorem keeps_appendContainerInventory (spool : Spool) (inventory : ContainerInventory)
    (nowMs : ℤ) : Keeps spool (spool.appendContainerInventory inventory nowMs) := by
  refine .of_deliveries ?_ (·.of_shape (shape_appendContainerInventory spool inventory nowMs)) ?_
    <;> unfold appendContainerInventory <;> dsimp only <;> split
  · rfl
  · rfl
  · exact List.Subset.refl _
  · exact List.Subset.refl _

theorem ParkedFrom.keeps {before after : Spool} (h : ParkedFrom before after) :
    Keeps before after := by
  refine .of_deliveries ?_ h.wellformed (h.deliveries ▸ List.Subset.refl _)
  rw [h.eq]

theorem keeps_nextMinute (currentMinute : ℤ) (left : ℕ) (spool : Spool) :
    Keeps spool (nextMinute currentMinute left spool).2 :=
  (nextMinute_spec currentMinute left spool).1.keeps

theorem keeps_createNextDelivery (spool : Spool) (codec : Codec) (machinePk workspacePk : ℕ)
    (reportId : Bytes) (nowMs : ℤ) :
    Keeps spool (spool.createNextDelivery codec machinePk workspacePk reportId nowMs).2 := by
  have hwellformed : spool.Wellformed → _ :=
    (wellformed_createNextDelivery · codec machinePk workspacePk reportId nowMs)
  have hcases := createNextDelivery_cases spool codec machinePk workspacePk reportId nowMs
  generalize spool.createNextDelivery codec machinePk workspacePk reportId nowMs = outcome
    at hwellformed hcases ⊢
  cases hcases with
  | idle parked hparked => exact hparked.keeps
  | failed message parked hparked => exact hparked.keeps
  | created minute parked hparked =>
    refine .of_deliveries ?_ hwellformed ?_
    · exact hparked.keeps.sequence
    · rw [← hparked.deliveries]
      exact List.subset_append_left _ _

/-! ## Probes and commands -/

theorem keeps_appendProbeResult (spool : Spool) (result : ProbeResult) (nowMs : ℤ) :
    Keeps spool (spool.appendProbeResult result nowMs).2 := by
  refine .of_deliveries ?_ (·.of_shape (shape_appendProbeResult spool result nowMs)) ?_ <;>
    unfold appendProbeResult <;> split
  · rfl
  · rfl
  · exact List.Subset.refl _
  · exact List.Subset.refl _

theorem keeps_applyProbeConfig (spool : Spool) (config : AgentConfigSnapshot) (nowMs : ℤ) :
    Keeps spool (spool.applyProbeConfig config nowMs).2 := by
  refine .of_deliveries ?_ (·.of_shape (shape_applyProbeConfig spool config nowMs)) ?_ <;>
    unfold applyProbeConfig <;> split_ifs <;> first | rfl | exact List.Subset.refl _

theorem keeps_acceptCommands (spool : Spool) (codec : Codec) (commands : List AgentCommand)
    (nowMs : ℤ) : Keeps spool (spool.acceptCommands codec commands nowMs).2 := by
  refine .of_deliveries ?_ (·.of_shape (shape_acceptCommands spool codec commands nowMs)) ?_ <;>
    unfold acceptCommands <;> split
  · rfl
  · split <;> rfl
  · exact List.Subset.refl _
  · split <;> exact List.Subset.refl _

theorem keeps_markCommandAttempt (spool : Spool) (commandId : String) (retryAtMs : ℤ) :
    Keeps spool (spool.markCommandAttempt commandId retryAtMs).2 := by
  refine .of_deliveries ?_ (·.of_shape (shape_markCommandAttempt spool commandId retryAtMs)) ?_ <;>
    unfold markCommandAttempt <;> split
  · rfl
  · rfl
  · exact List.Subset.refl _
  · exact List.Subset.refl _

theorem keeps_completeCommand (spool : Spool) (result : AgentCommandResult) :
    Keeps spool (spool.completeCommand result).2 := by
  refine .of_deliveries ?_ (wellformed_completeCommand · result) ?_ <;>
    unfold completeCommand <;> dsimp only <;> split
  · rfl
  · rfl
  · exact List.Subset.refl _
  · exact List.Subset.refl _

/-! ## Backlog and capacity -/

theorem keeps_redriveQuarantined (spool : Spool) (nowMs : ℤ) :
    Keeps spool (spool.redriveQuarantined nowMs) :=
  keeps_updateDeliveries spool (fun _ ↦ rfl) (fun _ ↦ rfl) fun _ _ ↦ rfl

theorem keeps_wakeBacklog (spool : Spool) (retryAt : ℤ) (limit : ℕ) :
    Keeps spool (spool.wakeBacklog retryAt limit).2 := by
  unfold wakeBacklog
  split
  · exact .refl spool
  · exact keeps_updateDeliveries spool (fun _ ↦ rfl) (fun _ ↦ rfl) fun _ h ↦ h

theorem keeps_compact (spool : Spool) (before : Option ℤ) (width : ℤ) (limit : ℕ) :
    Keeps spool (spool.compact before width limit).2 :=
  .of_deliveries rfl (wellformed_compact · before width limit) (List.Subset.refl _)

theorem keeps_dropOldest (spool : Spool) : Keeps spool spool.dropOldest.2 :=
  .of_deliveries rfl wellformed_dropOldest (List.Subset.refl _)

theorem keeps_evictQuarantined (hunique : spool.Wellformed) :
    Keeps spool spool.evictQuarantined.2 where
  sequence := rfl
  wellformed := wellformed_evictQuarantined
  pending := by
    rintro _ ⟨row, hrow, rfl, hpending⟩
    refine ⟨row, List.mem_filter.mpr ⟨hrow, ?_⟩, rfl, hpending⟩
    have hkept : row.reportId ∉ spool.evictable.map DeliveryRow.reportId := fun hmem ↦ by
      obtain ⟨other, hother, heq⟩ := List.mem_map.mp hmem
      obtain ⟨hmember, hquarantined⟩ := List.mem_filter.mp (mem_of_mem_selectOrdered hother)
      obtain rfl := hunique.delivery_unique.eq_of_mem hmember hrow heq
      rw [hpending] at hquarantined
      exact absurd hquarantined (by decide)
    simpa using hkept

theorem keeps_recordGap (spool : Spool) (dropped : ℕ) (nowMs : ℤ) :
    Keeps spool (spool.recordGap dropped nowMs) := by
  refine .of_deliveries ?_ (·.of_shape (shape_recordGap spool dropped nowMs)) ?_ <;>
    unfold recordGap <;> dsimp only <;> split
  · rfl
  · rfl
  · exact List.Subset.refl _
  · exact List.Subset.refl _

theorem CapacityStatement.keeps {statement : Spool → Spool} (h : CapacityStatement statement)
    (hunique : spool.Wellformed) : Keeps spool (statement spool) := by
  cases h with
  | compact before width limit => exact keeps_compact spool before width limit
  | evict => exact keeps_evictQuarantined hunique
  | drop => exact keeps_dropOldest spool

theorem keeps_statement {maxBytes : ℕ} {readings : StorageReadings} {nowMs : ℤ}
    {statement : Spool → Spool} (h : statement ∈ capacityStatements maxBytes readings nowMs)
    (state : Spool) (hstate : state.Wellformed ∧ Keeps spool state) :
    (statement state).Wellformed ∧ Keeps spool (statement state) := by
  have hkeeps := (capacityStatement_of_mem h).keeps hstate.1
  exact ⟨hkeeps.wellformed hstate.1, hstate.2.trans hkeeps⟩

theorem keeps_statesAfter (hunique : spool.Wellformed) (maxBytes : ℕ) (readings : StorageReadings)
    (nowMs : ℤ) :
    ∀ state ∈ spool.statesAfter (capacityStatements maxBytes readings nowMs),
      Keeps spool state := by
  intro state hstate
  exact (statesAfter_invariant (fun _ ↦ keeps_statement) ⟨hunique, .refl spool⟩ state hstate).2

theorem keeps_enforceCapacity (hunique : spool.Wellformed) (maxBytes : ℕ)
    (readings : StorageReadings) (nowMs : ℤ) :
    Keeps spool (spool.enforceCapacity maxBytes readings nowMs).2 := by
  rw [enforceCapacity_eq]
  have hperform : Keeps spool (spool.perform (capacityStatements maxBytes readings nowMs)) :=
    (perform_invariant (fun _ ↦ keeps_statement) ⟨hunique, .refl spool⟩).2
  split
  · exact hperform.trans (keeps_recordGap _ _ _)
  · exact hperform

/-! ## The calls of an upload -/

theorem countP_isPending (h : spool.Wellformed) (hpending : spool.Pending reportId) :
    spool.deliveries.countP (isPending reportId) = 1 := by
  obtain ⟨row, hrow, rfl, hstate⟩ := hpending
  refine h.delivery_unique.countP_eq_one hrow (by simp [isPending, hstate]) fun other hother ↦ ?_
  simp only [isPending, Bool.and_eq_true, beq_iff_eq] at hother
  exact hother.1

theorem pending_of_dueDelivery {nowMs : ℤ} {delivery : PendingDelivery}
    (h : spool.dueDelivery nowMs = some delivery) : spool.Pending delivery.reportId := by
  obtain ⟨row, hrow, rfl⟩ := Option.map_eq_some_iff.mp h
  have hselected := List.mem_filter.mp (mem_of_mem_selectOrdered (List.mem_of_mem_head? hrow))
  simp only [Bool.and_eq_true, beq_iff_eq] at hselected
  exact ⟨row, hselected.1, rfl, hselected.2.1⟩

theorem beginDeliveryAttempt_cases (h : spool.Wellformed) (hpending : spool.Pending reportId)
    (nextAttemptAt : ℤ) :
    spool.beginDeliveryAttempt reportId nextAttemptAt =
        (.error "transport sequence reached the protocol limit; key rotation is required", spool) ∨
      ((spool.beginDeliveryAttempt reportId nextAttemptAt).1 =
          .ok (spool.transportSequence + 1) ∧
        (spool.beginDeliveryAttempt reportId nextAttemptAt).2.transportSequence =
          spool.transportSequence + 1 ∧
        (spool.beginDeliveryAttempt reportId nextAttemptAt).2.Wellformed ∧
        (spool.beginDeliveryAttempt reportId nextAttemptAt).2.Pending reportId) := by
  have hwellformed := h.of_shape (shape_beginDeliveryAttempt spool reportId nextAttemptAt)
  unfold beginDeliveryAttempt at hwellformed ⊢
  dsimp only at hwellformed ⊢
  by_cases hlimit : maxSequence < spool.transportSequence + 1
  · exact .inl (if_pos hlimit)
  · have hone : ¬ spool.deliveries.countP (isPending reportId) ≠ 1 := fun hne ↦
      hne (countP_isPending h hpending)
    rw [if_neg hlimit, if_neg hone] at hwellformed ⊢
    refine .inr ⟨rfl, rfl, hwellformed, ?_⟩
    exact exists_pending_updateWhere (fun _ ↦ rfl) (fun _ hrow ↦ hrow) hpending

theorem changePending_ok (h : spool.Wellformed) (hpending : spool.Pending reportId)
    (change : DeliveryRow → DeliveryRow) :
    (spool.changePending reportId change).1 = .ok () := by
  unfold changePending
  rw [if_neg fun hne ↦ hne (countP_isPending h hpending)]

@[simp] theorem sequence_changePending (spool : Spool) (reportId : Bytes)
    (change : DeliveryRow → DeliveryRow) :
    (spool.changePending reportId change).2.transportSequence = spool.transportSequence := by
  unfold changePending
  split <;> rfl

end Spool

end AlphaPing.Agent
