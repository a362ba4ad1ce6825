import AlphaPing.Agent.Safety
import Mathlib.Data.Rat.Floor

/-!
# The bound on retries

The process reads the clock at every event. Here the clock is a part of the state: it goes on
between the events, and it can be set to any value, also while no process runs. The delay before
an attempt is the one that `equal_jitter_delay` draws, which is never longer than five minutes,
so no pending delivery waits for longer than that from the moment at which it was scheduled.

The bound is lost when the clock goes back, since the start of the process does not look at the
times that it finds.
-/

namespace AlphaPing.Agent

open Protocol Library.Programs Library.Runs
open Library.Tables

/-! ## The backoff -/

def maxBackoffSeconds : ℕ := 300

/-- `equal_jitter_delay`, in whole milliseconds. The draw, a floating-point number, is a rational
number here. -/
def equalJitterDelay (attempt : ℕ) (unitInterval : ℚ) : ℕ :=
  let ceiling : ℚ := min (2 ^ min attempt 31) maxBackoffSeconds
  let boundedUnit := max 0 (min 1 unitInterval)
  (((ceiling / 2 + ceiling / 2 * boundedUnit) * 1000).floor).toNat

theorem equalJitterDelay_le (attempt : ℕ) (unitInterval : ℚ) :
    equalJitterDelay attempt unitInterval ≤ 300000 := by
  have hceiling : min ((2 : ℚ) ^ min attempt 31) maxBackoffSeconds ≤ 300 :=
    (min_le_right _ _).trans (by norm_num [maxBackoffSeconds])
  have hpositive : 0 ≤ min ((2 : ℚ) ^ min attempt 31) maxBackoffSeconds :=
    le_min (by positivity) (by norm_num [maxBackoffSeconds])
  have hunit : max 0 (min 1 unitInterval) ≤ 1 := max_le zero_le_one (min_le_left _ _)
  unfold equalJitterDelay
  dsimp only
  generalize min ((2 : ℚ) ^ min attempt 31) maxBackoffSeconds = ceiling at *
  generalize max 0 (min 1 unitInterval) = unit at *
  have hproduct : ceiling / 2 * unit ≤ ceiling / 2 :=
    mul_le_of_le_one_right (by linarith) hunit
  have hfloor : ((ceiling / 2 + ceiling / 2 * unit) * 1000).floor ≤ 300000 := by
    have hbound : (ceiling / 2 + ceiling / 2 * unit) * 1000 ≤ ((300000 : ℤ) : ℚ) := by
      push_cast
      linarith
    exact (Rat.floor_monotone hbound).trans_eq (Rat.floor_intCast _)
  exact Int.toNat_le.mpr hfloor

/-! ## The clock -/

/-- What one pass through the loop draws. -/
structure Draws where
  unitInterval : ℚ
  recoveryJitterMs : ℕ
  recoveryJitterMs_le : recoveryJitterMs ≤ 5000

/-- The agent and what its clock reads. -/
structure Clocked where
  host : Host
  nowMs : ℤ

inductive Occurrence where
  /-- The clock has gone on, or it was set. -/
  | clock (nowMs : ℤ)
  | event (event : Host.Event) (draws : Draws) (fates : List Fate)

/-- The event with the time that the clock reads and with what the loop draws. -/
def Host.Event.at (host : Host) (nowMs : ℤ) (draws : Draws) : Host.Event → Host.Event
  | .start => .start
  | .stop => .stop
  | .restore index => .restore index
  | .sampleTick sample _ readings => .sampleTick sample nowMs readings
  | .reportTick inventory _ reportIds => .reportTick inventory nowMs reportIds
  | .uploadTick _ _ => .uploadTick nowMs (equalJitterDelay
      (((host.spool.dueDelivery nowMs).map PendingDelivery.attemptCount).getD 0)
      draws.unitInterval)
  | .uploadDone result _ _ => .uploadDone result nowMs draws.recoveryJitterMs
  | .commandTick _ refreshed retryDelayMs => .commandTick nowMs refreshed retryDelayMs
  | .commandDone execution _ => .commandDone execution nowMs
  | .probeResult result _ => .probeResult result nowMs

def Clocked.step (codec : Codec) (state : Clocked) : Occurrence → Clocked
  | .clock nowMs => { state with nowMs }
  | .event event draws fates =>
    { state with
      host := Host.step codec state.host (event.at state.host state.nowMs draws, fates) }

/-- No pending delivery waits for a time after the limit. -/
def Spool.Due (limit : ℤ) (spool : Spool) : Prop :=
  ∀ row ∈ spool.deliveries, row.state = .pending → row.nextAttemptAt ≤ limit

instance (limit : ℤ) (spool : Spool) : Decidable (spool.Due limit) :=
  inferInstanceAs (Decidable (∀ row ∈ spool.deliveries, row.state = .pending → _))

/-- No pending delivery is postponed for more than five minutes. -/
def Clocked.Punctual (state : Clocked) : Prop :=
  state.host.spool.Due (state.nowMs + 300000)

/-- The clock goes back only to a time from which the pending deliveries are still due within
five minutes, and so is what a database that was put back holds when the process opens it. -/
def Clocked.Careful (state : Clocked) : Occurrence → Prop
  | .clock nowMs => nowMs < state.nowMs → state.host.spool.Due (nowMs + 300000)
  | .event .start _ _ => state.host.running = false → state.host.file.validate = .ok () →
      ∀ spool ∈ state.host.restored, spool.Due (state.nowMs + 300000)
  | .event _ _ _ => True

/-! ## Operations that postpone nothing -/

namespace Spool

/-- A consistent spool without a late delivery. -/
def Within (limit : ℤ) (spool : Spool) : Prop :=
  spool.Wellformed ∧ spool.Due limit

section Within

variable {limit nowMs : ℤ} {spool after : Spool}

theorem Due.mono {later : ℤ} (h : spool.Due limit) (hle : limit ≤ later) : spool.Due later :=
  fun row hrow hstate ↦ (h row hrow hstate).trans hle

theorem Within.of_subset (h : spool.Within limit) (hkeeps : Keeps spool after)
    (hdeliveries : after.deliveries ⊆ spool.deliveries) : after.Within limit :=
  ⟨hkeeps.wellformed h.1, fun row hrow ↦ h.2 row (hdeliveries hrow)⟩

theorem Within.updateDeliveries (h : spool.Within limit) {condition : DeliveryRow → Bool}
    {change : DeliveryRow → DeliveryRow} (hid : ∀ row, (change row).reportId = row.reportId)
    (hminute : ∀ row, (change row).nominalMinute = row.nominalMinute)
    (hdue : ∀ row ∈ spool.deliveries, condition row = true → (change row).state = .pending →
      (change row).nextAttemptAt ≤ limit) :
    Within limit { spool with
      deliveries := updateWhere condition change spool.deliveries } := by
  refine ⟨h.1.of_shape (shape_updateDeliveries spool condition change hid hminute), ?_⟩
  intro row hrow hstate
  obtain ⟨old, hold, ⟨hcondition, rfl⟩ | ⟨-, rfl⟩⟩ := mem_updateWhere.mp hrow
  · exact hdue old hold hcondition hstate
  · exact h.2 row hold hstate

theorem within_appendSample (h : spool.Within limit) (sample : MetricSample) (nowMs : ℤ) :
    (spool.appendSample sample nowMs).2.Within limit := by
  apply h.of_subset (keeps_appendSample spool sample nowMs)
  unfold appendSample
  split
  · exact List.Subset.refl _
  · exact List.Subset.refl _

theorem within_appendContainerInventory (h : spool.Within limit) (inventory : ContainerInventory)
    (nowMs : ℤ) : (spool.appendContainerInventory inventory nowMs).Within limit := by
  apply h.of_subset (keeps_appendContainerInventory spool inventory nowMs)
  unfold appendContainerInventory
  dsimp only
  split
  · exact List.Subset.refl _
  · exact List.Subset.refl _

theorem within_appendProbeResult (h : spool.Within limit) (result : ProbeResult) (nowMs : ℤ) :
    (spool.appendProbeResult result nowMs).2.Within limit := by
  apply h.of_subset (keeps_appendProbeResult spool result nowMs)
  unfold appendProbeResult
  split
  · exact List.Subset.refl _
  · exact List.Subset.refl _

theorem within_applyProbeConfig (h : spool.Within limit) (config : AgentConfigSnapshot)
    (nowMs : ℤ) : (spool.applyProbeConfig config nowMs).2.Within limit := by
  apply h.of_subset (keeps_applyProbeConfig spool config nowMs)
  unfold applyProbeConfig
  split
  · exact List.Subset.refl _
  · split
    · exact List.Subset.refl _
    · exact List.Subset.refl _

theorem within_acceptCommands (h : spool.Within limit) (codec : Codec)
    (commands : List AgentCommand) (nowMs : ℤ) :
    (spool.acceptCommands codec commands nowMs).2.Within limit := by
  apply h.of_subset (keeps_acceptCommands spool codec commands nowMs)
  unfold acceptCommands
  split
  · exact List.Subset.refl _
  · split
    · exact List.Subset.refl _
    · exact List.Subset.refl _

theorem within_markCommandAttempt (h : spool.Within limit) (commandId : String)
    (retryAtMs : ℤ) : (spool.markCommandAttempt commandId retryAtMs).2.Within limit := by
  apply h.of_subset (keeps_markCommandAttempt spool commandId retryAtMs)
  unfold markCommandAttempt
  split
  · exact List.Subset.refl _
  · exact List.Subset.refl _

theorem within_completeCommand (h : spool.Within limit) (result : AgentCommandResult) :
    (spool.completeCommand result).2.Within limit := by
  apply h.of_subset (keeps_completeCommand spool result)
  unfold completeCommand
  dsimp only
  split
  · exact List.Subset.refl _
  · exact List.Subset.refl _

theorem CapacityStatement.within {statement : Spool → Spool} (h : CapacityStatement statement)
    (hspool : spool.Within limit) : (statement spool).Within limit := by
  refine hspool.of_subset (h.keeps hspool.1) ?_
  cases h with
  | compact before width limit => exact List.Subset.refl _
  | evict => exact List.filter_sublist.subset
  | drop => exact List.Subset.refl _

theorem within_statesAfter (h : spool.Within limit) (maxBytes : ℕ) (readings : StorageReadings)
    (nowMs : ℤ) : ∀ state ∈ spool.statesAfter (capacityStatements maxBytes readings nowMs),
      state.Within limit :=
  statesAfter_invariant (fun _ hstatement _ ↦ (capacityStatement_of_mem hstatement).within) h

theorem within_enforceCapacity (h : spool.Within limit) (maxBytes : ℕ)
    (readings : StorageReadings) (nowMs : ℤ) :
    (spool.enforceCapacity maxBytes readings nowMs).2.Within limit := by
  have hperform : (spool.perform (capacityStatements maxBytes readings nowMs)).Within limit :=
    perform_invariant (fun _ hstatement _ ↦ (capacityStatement_of_mem hstatement).within) h
  rw [enforceCapacity_eq]
  split
  · apply hperform.of_subset (keeps_recordGap _ _ _)
    unfold recordGap
    dsimp only
    split
    · exact List.Subset.refl _
    · exact List.Subset.refl _
  · exact hperform

theorem within_nextMinute (h : spool.Within limit) (currentMinute : ℤ) (left : ℕ) :
    (nextMinute currentMinute left spool).2.Within limit := by
  have hparked := (nextMinute_spec currentMinute left spool).1
  apply h.of_subset hparked.keeps
  rw [hparked.deliveries]
  exact List.Subset.refl _

theorem within_createNextDelivery (h : spool.Within limit) (codec : Codec)
    (machinePk workspacePk : ℕ) (reportId : Bytes) (hnow : nowMs ≤ limit) :
    (spool.createNextDelivery codec machinePk workspacePk reportId nowMs).2.Within limit := by
  have hkeeps := keeps_createNextDelivery spool codec machinePk workspacePk reportId nowMs
  have hcases := createNextDelivery_cases spool codec machinePk workspacePk reportId nowMs
  generalize spool.createNextDelivery codec machinePk workspacePk reportId nowMs = outcome
    at hkeeps hcases ⊢
  cases hcases with
  | idle parked hparked => exact h.of_subset hkeeps (hparked.deliveries ▸ List.Subset.refl _)
  | failed message parked hparked =>
    exact h.of_subset hkeeps (hparked.deliveries ▸ List.Subset.refl _)
  | created minute parked hparked =>
    refine ⟨hkeeps.wellformed h.1, fun row hrow hstate ↦ ?_⟩
    rcases List.mem_append.mp hrow with hold | hnew
    · rw [hparked.deliveries] at hold
      exact h.2 row hold hstate
    · rw [List.mem_singleton.mp hnew]
      exact hnow

/-! ## Operations that set a time -/

theorem within_beginDeliveryAttempt (h : spool.Within limit) (reportId : Bytes)
    {nextAttemptAt : ℤ} (hnext : nextAttemptAt ≤ limit) :
    (spool.beginDeliveryAttempt reportId nextAttemptAt).2.Within limit := by
  unfold beginDeliveryAttempt
  dsimp only
  split
  · exact h
  · split
    · exact h
    · exact h.updateDeliveries (fun _ ↦ rfl) (fun _ ↦ rfl) fun _ _ _ _ ↦ hnext

theorem Within.changePending (h : spool.Within limit) (reportId : Bytes)
    {change : DeliveryRow → DeliveryRow} (hid : ∀ row, (change row).reportId = row.reportId)
    (hminute : ∀ row, (change row).nominalMinute = row.nominalMinute)
    (hdue : ∀ row, (change row).state = .pending → (change row).nextAttemptAt ≤ limit) :
    (spool.changePending reportId change).2.Within limit := by
  unfold Spool.changePending
  split
  · exact h.updateDeliveries hid hminute fun row _ _ ↦ hdue row
  · exact h.updateDeliveries hid hminute fun row _ _ ↦ hdue row

theorem within_rescheduleDelivery (h : spool.Within limit) (reportId : Bytes) (errorCode : String)
    {nextAttemptAt : ℤ} (hnext : nextAttemptAt ≤ limit) :
    (spool.rescheduleDelivery reportId nextAttemptAt errorCode).2.Within limit :=
  h.changePending reportId (fun _ ↦ rfl) (fun _ ↦ rfl) fun _ _ ↦ hnext

theorem within_quarantineDelivery (h : spool.Within limit) (reportId : Bytes)
    (errorCode : String) (nowMs : ℤ) :
    (spool.quarantineDelivery reportId errorCode nowMs).2.Within limit :=
  h.changePending reportId (fun _ ↦ rfl) (fun _ ↦ rfl) fun _ hstate ↦ by cases hstate

theorem within_redriveQuarantined (h : spool.Within limit) (hnow : nowMs ≤ limit) :
    (spool.redriveQuarantined nowMs).Within limit := by
  refine h.updateDeliveries (fun _ ↦ rfl) (fun _ ↦ rfl) fun row hrow hchosen _ ↦ ?_
  obtain ⟨other, hother, hid⟩ := List.mem_map.mp (List.contains_iff_mem.mp hchosen)
  obtain ⟨hmem, hredrivable⟩ := List.mem_filter.mp (mem_of_mem_selectOrdered hother)
  obtain rfl := h.1.delivery_unique.eq_of_mem hmem hrow hid
  simp only [Bool.and_eq_true, decide_eq_true_eq] at hredrivable
  exact hredrivable.1.1.2.trans hnow

theorem within_wakeBacklog (h : spool.Within limit) {retryAt : ℤ} (count : ℕ)
    (hretry : retryAt ≤ limit) : (spool.wakeBacklog retryAt count).2.Within limit := by
  unfold wakeBacklog
  split
  · exact h
  · exact h.updateDeliveries (fun _ ↦ rfl) (fun _ ↦ rfl) fun _ _ _ _ ↦ hretry

theorem within_acknowledge (h : spool.Within limit) (reportId : Bytes) :
    (spool.acknowledge reportId).2.Within limit := by
  rw [acknowledge_eq h.1]
  refine ⟨wellformed_acknowledged h.1 reportId, fun row hrow ↦ ?_⟩
  exact h.2 row (List.mem_of_mem_filter hrow)

end Within

end Spool

/-! ## Branches that postpone nothing -/

namespace Host

/-- The database has no late delivery, and an upload in flight will not make one. -/
def Bounded (nowMs : ℤ) (host : Host) : Prop :=
  host.spool.Within (nowMs + 300000) ∧ ∀ upload ∈ host.upload, upload.retryDelayMs ≤ 300000

section Bounded

variable {nowMs : ℤ} {codec : Codec} {Value : Type}

theorem Bounded.pass {host : Host} (h : Bounded nowMs host) {states : List Spool}
    (hstates : ∀ spool ∈ states, spool.Within (nowMs + 300000)) :
    Bounded nowMs (host.pass states) := by
  refine ⟨?_, h.2⟩
  rcases List.eq_nil_or_concat states with rfl | ⟨before, last, rfl⟩
  · exact h.1
  · have hlast : (host.pass (before.concat last)).spool = last := by simp [Host.pass]
    rw [hlast]
    exact hstates last (by simp)

theorem maintains_onSpool {operation : Spool → Outcome Value} {between : Spool → List Spool}
    (hoperation : ∀ spool : Spool, spool.Within (nowMs + 300000) →
      (operation spool).2.Within (nowMs + 300000))
    (hbetween : ∀ spool : Spool, spool.Within (nowMs + 300000) → ∀ state ∈ between spool,
      state.Within (nowMs + 300000)) : Maintains (Bounded nowMs) (onSpool operation between) := by
  refine maintains_operation (fun host h ↦ h.pass fun state hstate ↦ ?_) fun count host h ↦
    h.pass fun state hstate ↦ hbetween host.spool h.1 state (List.mem_of_mem_take hstate)
  rcases List.mem_append.mp hstate with hmid | hlast
  · exact hbetween host.spool h.1 state hmid
  · rw [List.mem_singleton.mp hlast]
    exact hoperation host.spool h.1

theorem maintains_transaction {operation : Spool → Outcome Value}
    (hoperation : ∀ spool : Spool, spool.Within (nowMs + 300000) →
      (operation spool).2.Within (nowMs + 300000)) : Maintains (Bounded nowMs) (onSpool operation) :=
  maintains_onSpool hoperation fun _ _ _ h ↦ absurd h List.not_mem_nil

theorem maintains_query (question : Spool → Value) : Maintains (Bounded nowMs) (query question) :=
  maintains_operation (fun _ ↦ id) fun _ _ ↦ id

theorem maintains_save (config : AgentConfig) : Maintains (Bounded nowMs) (save config) := by
  refine maintains_operation (fun host h ↦ ?_) fun _ _ ↦ id
  dsimp only
  split
  · exact h
  · exact h

theorem maintains_memory {change : Host → Host} (hspool : ∀ host, (change host).spool = host.spool)
    (hupload : ∀ host, (change host).upload = host.upload) :
    Maintains (Bounded nowMs) (Program.modify change) := by
  refine maintains_modify fun host h ↦ ?_
  rw [Bounded, hspool, hupload]
  exact h

theorem maintains_logged {program : Program Host Unit} (h : Maintains (Bounded nowMs) program) :
    Maintains (Bounded nowMs) (logged program) := by
  refine maintains_bind (maintains_attempt h) fun result ↦ ?_
  cases result with
  | ok value => exact maintains_pure ()
  | error message => exact maintains_memory (fun _ ↦ rfl) fun _ ↦ rfl

theorem maintains_sampleTick (sample : MetricSample) (readings : StorageReadings) :
    Maintains (Bounded nowMs) (sampleTick sample nowMs readings) := by
  refine maintains_bind (maintains_logged (maintains_transaction fun spool h ↦
    Spool.within_appendSample h sample nowMs)) fun _ ↦ maintains_bind maintains_read fun host ↦ ?_
  refine maintains_logged (maintains_onSpool (fun spool h ↦ ?_) fun spool h ↦ ?_)
  · exact Spool.within_enforceCapacity h host.config.maxSpoolBytes readings nowMs
  · exact Spool.within_statesAfter h host.config.maxSpoolBytes readings nowMs

theorem maintains_createDeliveries (machinePk workspacePk : ℕ) (reportIds : List Bytes) :
    Maintains (Bounded nowMs) (createDeliveries codec machinePk workspacePk nowMs reportIds) := by
  induction reportIds with
  | nil => exact maintains_pure ()
  | cons reportId rest ih =>
    refine maintains_bind (maintains_attempt (maintains_onSpool (fun spool h ↦ ?_)
      fun spool h state hstate ↦ ?_)) fun created ↦ ?_
    · exact Spool.within_createNextDelivery h codec machinePk workspacePk reportId (by omega)
    · obtain ⟨count, -, rfl⟩ := List.mem_map.mp hstate
      exact Spool.within_nextMinute h (floorMinute nowMs) count
    · rcases created with message | _ | created
      · exact maintains_memory (fun _ ↦ rfl) fun _ ↦ rfl
      · exact maintains_pure ()
      · exact ih

theorem maintains_collectInventory (inventory : Option ContainerInventory) :
    Maintains (Bounded nowMs) (collectInventory inventory nowMs) := by
  refine maintains_bind maintains_read fun host ↦ ?_
  cases inventory with
  | none => exact maintains_pure ()
  | some inventory =>
    exact maintains_ite (maintains_logged (maintains_transaction fun spool h ↦
      Spool.within_appendContainerInventory h inventory nowMs)) (maintains_pure ())

theorem maintains_reportTick (inventory : Option ContainerInventory) (reportIds : List Bytes) :
    Maintains (Bounded nowMs) (reportTick codec inventory nowMs reportIds) := by
  refine maintains_bind (maintains_collectInventory inventory) fun _ ↦
    maintains_bind maintains_read fun host ↦ ?_
  exact maintains_bind (maintains_logged (maintains_transaction fun spool h ↦
    Spool.within_redriveQuarantined h (by omega))) fun _ ↦ maintains_createDeliveries _ _ _

theorem maintains_reserve (current : ℕ) : Maintains (Bounded nowMs) (reserve current) := by
  refine maintains_ite (maintains_raise _) (maintains_bind maintains_read fun host ↦ ?_)
  exact maintains_bind (maintains_save _) fun _ ↦ maintains_memory (fun _ ↦ rfl) fun _ ↦ rfl

theorem maintains_ensureSequenceReservation :
    Maintains (Bounded nowMs) ensureSequenceReservation := by
  refine maintains_bind (maintains_query _) fun current ↦ maintains_bind maintains_read fun host ↦ ?_
  exact maintains_ite (maintains_reserve current) (maintains_pure ())

theorem maintains_startDueUpload {retryDelayMs : ℕ} (hdelay : retryDelayMs ≤ 300000) :
    Maintains (Bounded nowMs) (startDueUpload nowMs retryDelayMs) := by
  refine maintains_bind maintains_read fun host ↦ maintains_ite (maintains_pure ()) ?_
  refine maintains_bind (maintains_query _) fun due ↦ ?_
  cases due with
  | none => exact maintains_pure ()
  | some delivery =>
    refine maintains_bind maintains_ensureSequenceReservation fun _ ↦ ?_
    refine maintains_bind (maintains_transaction fun spool h ↦
      Spool.within_beginDeliveryAttempt h delivery.reportId (by omega)) fun sequence ↦ ?_
    refine maintains_modify fun before h ↦ ⟨h.1, fun upload hupload ↦ ?_⟩
    obtain rfl := Option.mem_some_iff.mp hupload
    exact hdelay

theorem maintains_applyConfig (acknowledgement : DurableAck) :
    Maintains (Bounded nowMs) (applyConfig codec acknowledgement nowMs) := by
  refine maintains_bind (maintains_query _) fun currentRevision ↦
    maintains_ite ?_ (maintains_pure false)
  cases acknowledgement.config with
  | none => exact maintains_raise _
  | some next =>
    refine maintains_bind (maintains_ofExcept _) fun _ ↦ maintains_bind maintains_read fun host ↦ ?_
    refine maintains_bind (maintains_save _) fun _ ↦
      maintains_bind (maintains_memory (fun _ ↦ rfl) fun _ ↦ rfl) fun _ ↦ ?_
    refine maintains_bind (maintains_transaction fun spool h ↦
      Spool.within_applyProbeConfig h next nowMs) fun _ ↦ ?_
    exact maintains_bind (maintains_memory (fun _ ↦ rfl) fun _ ↦ rfl) fun _ ↦ maintains_pure _

theorem maintains_applyKeyRotation (acknowledgement : DurableAck) :
    Maintains (Bounded nowMs) (applyKeyRotation acknowledgement nowMs) := by
  unfold applyKeyRotation
  cases acknowledgement.keyRotation with
  | none => exact maintains_pure ()
  | some proposal =>
    refine maintains_bind maintains_read fun host ↦ maintains_bind (maintains_ofExcept _)
      fun updated ↦ maintains_bind (maintains_save _) fun _ ↦ ?_
    refine maintains_bind (maintains_operation (fun _ ↦ id) fun _ _ ↦ id) fun _ ↦ ?_
    exact maintains_memory (fun _ ↦ rfl) fun _ ↦ rfl

theorem maintains_applyAck (reportId : Bytes) (acknowledgement : DurableAck) :
    Maintains (Bounded nowMs) (applyAck codec reportId acknowledgement nowMs) := by
  refine maintains_bind (maintains_applyConfig acknowledgement) fun scheduleChanged ↦
    maintains_bind (maintains_applyKeyRotation acknowledgement) fun _ ↦ ?_
  refine maintains_bind (maintains_transaction fun spool h ↦
    Spool.within_acceptCommands h codec acknowledgement.commands nowMs) fun _ ↦ ?_
  refine maintains_bind (maintains_transaction fun spool h ↦
    Spool.within_acknowledge h reportId) fun acknowledged ↦ ?_
  exact maintains_ite (maintains_pure scheduleChanged) (maintains_raise _)

theorem maintains_finishUpload {upload : Upload} (result : UploadResult) {recoveryJitterMs : ℕ}
    (hdelay : upload.retryDelayMs ≤ 300000) (hjitter : recoveryJitterMs ≤ 5000) :
    Maintains (Bounded nowMs) (finishUpload codec upload result nowMs recoveryJitterMs) := by
  cases result with
  | acknowledged acknowledgement =>
    refine maintains_bind (maintains_attempt (maintains_applyAck _ _)) fun outcome ↦ ?_
    cases outcome with
    | ok scheduleChanged =>
      exact maintains_transaction fun spool h ↦
        Spool.within_wakeBacklog h backlogWakeBatch (by omega)
    | error message =>
      refine maintains_bind (maintains_transaction fun spool h ↦
        Spool.within_rescheduleDelivery h _ _ (le_refl _)) fun _ ↦ ?_
      exact maintains_memory (fun _ ↦ rfl) fun _ ↦ rfl
  | permanentStatus status =>
    exact maintains_transaction fun spool h ↦ Spool.within_quarantineDelivery h _ _ _
  | oversized => exact maintains_transaction fun spool h ↦ Spool.within_quarantineDelivery h _ _ _
  | failed message =>
    exact maintains_transaction fun spool h ↦
      Spool.within_rescheduleDelivery h _ _ (by omega)

theorem maintains_complete (result : AgentCommandResult) :
    Maintains (Bounded nowMs) (complete result) :=
  maintains_transaction fun _ h ↦ Spool.within_completeCommand h result

theorem maintains_startDueCommand (refreshed : Bool) (retryDelayMs : ℕ) :
    Maintains (Bounded nowMs) (startDueCommand nowMs refreshed retryDelayMs) := by
  have hcomplete : ∀ result : AgentCommandResult, Maintains (Bounded nowMs)
      (complete result >>= fun _ ↦ (pure false : Program Host Bool)) :=
    fun result ↦ maintains_bind (maintains_complete result) fun _ ↦ maintains_pure false
  refine maintains_bind (maintains_query _) fun due ↦ ?_
  cases due with
  | none => exact maintains_pure false
  | some pending =>
    refine maintains_ite (hcomplete _) (maintains_ite (hcomplete _) ?_)
    refine maintains_bind (maintains_transaction fun spool h ↦
      Spool.within_markCommandAttempt h _ _) fun _ ↦ ?_
    cases pending.command.type.getD .unspecified with
    | refreshConfig => exact hcomplete _
    | redetectRuntimes => exact maintains_bind maintains_read fun _ ↦ hcomplete _
    | checkUpdate => exact maintains_pure true
    | installVersion => exact maintains_pure true
    | unspecified => exact hcomplete _

theorem maintains_commandTick (refreshed : Bool) (retryDelayMs : ℕ) :
    Maintains (Bounded nowMs) (commandTick nowMs refreshed retryDelayMs) := by
  refine maintains_bind maintains_read fun host ↦ maintains_ite (maintains_pure ()) ?_
  exact maintains_bind (maintains_startDueCommand refreshed retryDelayMs) fun _ ↦
    maintains_memory (fun _ ↦ rfl) fun _ ↦ rfl

theorem maintains_commandDone (execution : CommandExecution) :
    Maintains (Bounded nowMs) (commandDone execution nowMs) := by
  refine maintains_bind (maintains_memory (fun _ ↦ rfl) fun _ ↦ rfl) fun _ ↦ ?_
  refine maintains_ite (maintains_pure ()) (maintains_bind (maintains_complete _) fun _ ↦ ?_)
  exact maintains_ite (maintains_memory (fun _ ↦ rfl) fun _ ↦ rfl) (maintains_pure ())

theorem ensures_bounded {host : Host} (h : Bounded nowMs host) (draws : Draws) {event : Event}
    (hevent : event ≠ .start) : Ensures (branch codec host (event.at host nowMs draws)) host
      (fun _ ↦ Bounded nowMs) (fun _ ↦ Bounded nowMs) (Bounded nowMs) := by
  have hrunning : ∀ {program : Program Host Unit}, Maintains (Bounded nowMs) program →
      Maintains (Bounded nowMs) (if host.running then program else pure ()) :=
    fun hprogram ↦ maintains_ite hprogram (maintains_pure ())
  cases event with
  | start => exact absurd rfl hevent
  | stop => exact ensures_modify h
  | restore index => exact ensures_modify h
  | sampleTick sample time readings =>
    exact hrunning (maintains_sampleTick sample readings) host h
  | reportTick inventory time reportIds =>
    exact hrunning (maintains_reportTick inventory reportIds) host h
  | uploadTick time retryDelayMs =>
    exact hrunning (maintains_startDueUpload (equalJitterDelay_le _ _)) host h
  | uploadDone result time recoveryJitterMs =>
    refine ensures_ite (fun _ ↦ ?_) fun _ ↦ ensures_pure h
    cases hupload : host.upload with
    | none => exact ensures_pure h
    | some upload =>
      have hdelay : upload.retryDelayMs ≤ 300000 := h.2 upload hupload
      refine ensures_bind (ensures_modify ?_)
      exact maintains_finishUpload result hdelay draws.recoveryJitterMs_le
        { host with upload := none } ⟨h.1, fun _ hmem ↦ absurd hmem (Option.not_mem_none _)⟩
  | commandTick time refreshed retryDelayMs =>
    exact hrunning (maintains_commandTick refreshed retryDelayMs) host h
  | commandDone execution time => exact hrunning (maintains_commandDone execution) host h
  | probeResult result time =>
    exact hrunning (maintains_logged (maintains_transaction fun spool hspool ↦
      Spool.within_appendProbeResult hspool result nowMs)) host h

end Bounded

/-! ## The start of the process -/

/-- The process has opened a database with these deliveries. -/
def Opened (deliveries : List DeliveryRow) (upload : Option Upload) (host : Host) : Prop :=
  host.spool.deliveries = deliveries ∧ ∀ other ∈ host.upload, other ∈ upload

theorem Opened.pass {deliveries : List DeliveryRow} {upload : Option Upload} {host : Host}
    (h : Opened deliveries upload host) {spool : Spool} (hspool : spool.deliveries = deliveries) :
    Opened deliveries upload (host.pass [spool]) :=
  ⟨hspool, h.2⟩

theorem deliveries_reconcileSequenceCheckpoint (spool : Spool) (checkpoint : ℕ) :
    (spool.reconcileSequenceCheckpoint checkpoint).2.deliveries = spool.deliveries := by
  unfold Spool.reconcileSequenceCheckpoint
  dsimp only
  split
  · rfl
  · split
    · rfl
    · rfl

theorem ensures_start_opened (codec : Codec) {host : Host} (hvalid : host.file.validate = .ok ()) :
    Ensures (start codec) host
      (fun _ ↦ Opened (host.restored.getD host.spool).deliveries host.upload)
      (fun _ ↦ Opened (host.restored.getD host.spool).deliveries host.upload)
      (Opened (host.restored.getD host.spool).deliveries host.upload) := by
  set deliveries := (host.restored.getD host.spool).deliveries with hdeliveries
  have hreconcile : Maintains (Opened deliveries host.upload) (onSpool fun spool ↦
      spool.reconcileSequenceCheckpoint host.file.transportSequenceCheckpoint) := by
    refine maintains_operation (fun before h ↦ h.pass ?_) fun count before h ↦ ?_
    · exact (deliveries_reconcileSequenceCheckpoint _ _).trans h.1
    · rwa [List.take_nil]
  refine ensures_bind (ensures_read (ensures_bind (ensures_ofExcept (fun _ _ ↦ ?_)
    fun message hmessage ↦ ?_)))
  · refine ensures_bind (ensures_modify ?_)
    refine maintains_bind hreconcile (fun _ ↦ ?_) _ ⟨rfl, fun _ h ↦ h⟩
    refine maintains_bind (maintains_operation (fun _ ↦ id) fun _ _ ↦ id) fun probeConfig ↦ ?_
    refine maintains_bind (maintains_ofExcept _) fun _ ↦ ?_
    refine maintains_bind (maintains_operation (fun _ ↦ id) fun _ _ ↦ id) fun _ ↦ ?_
    exact maintains_modify fun before h ↦
      ⟨h.1, fun _ hmem ↦ absurd hmem (Option.not_mem_none _)⟩
  · rw [hvalid] at hmessage
    cases hmessage

theorem ensures_start_invalid (codec : Codec) {host : Host}
    (hinvalid : host.file.validate ≠ .ok ()) : Ensures (start codec) host
      (fun _ next ↦ next = host) (fun _ next ↦ next = host) (fun next ↦ next = host) := by
  refine ensures_bind (ensures_read (ensures_bind (ensures_ofExcept (fun _ hvalid ↦ ?_)
    fun _ _ ↦ rfl)))
  exact absurd hvalid hinvalid

theorem step_of_ensures {codec : Codec} {P : Host → Prop} {host : Host} {event : Event}
    (hsettle : ∀ ending next, P next → P (settle ending next))
    (h : Ensures (branch codec host event) host (fun _ ↦ P) (fun _ ↦ P) P) (fates : List Fate) :
    P (step codec host (event, fates)) := by
  have hends := h fates
  unfold step
  generalize branch codec host event host fates = outcome at hends ⊢
  obtain ⟨ending, next, left⟩ := outcome
  apply hsettle
  cases ending with
  | returned value => exact hends
  | raised message => exact hends
  | interrupted => exact hends

theorem bounded_settle {nowMs : ℤ} (ending : Ending Unit) (host : Host)
    (h : Bounded nowMs host) : Bounded nowMs (settle ending host) := by
  cases ending with
  | returned value => exact h
  | raised message => exact h
  | interrupted => exact h

theorem opened_settle {deliveries : List DeliveryRow} {upload : Option Upload}
    (ending : Ending Unit) (host : Host) (h : Opened deliveries upload host) :
    Opened deliveries upload (settle ending host) := by
  cases ending with
  | returned value => exact h
  | raised message => exact h
  | interrupted => exact h

theorem opened_step_start (codec : Codec) (host : Host) (fates : List Fate) :
    Opened (if host.running = false ∧ host.file.validate = .ok () then
        (host.restored.getD host.spool).deliveries else host.spool.deliveries) host.upload
      (step codec host (.start, fates)) := by
  refine step_of_ensures opened_settle ?_ fates
  refine ensures_ite (fun hrunning ↦ ?_) fun hstopped ↦ ?_
  · rw [if_neg fun h ↦ by rw [hrunning] at h; cases h.1]
    exact ensures_pure ⟨rfl, fun _ h ↦ h⟩
  · by_cases hvalid : host.file.validate = .ok ()
    · rw [if_pos ⟨Bool.eq_false_iff.mpr hstopped, hvalid⟩]
      exact ensures_start_opened codec hvalid
    · rw [if_neg fun h ↦ hvalid h.2]
      refine ensures_mono (ensures_start_invalid codec hvalid) ?_ ?_ ?_
      · rintro _ _ rfl
        exact ⟨rfl, fun _ h ↦ h⟩
      · rintro _ _ rfl
        exact ⟨rfl, fun _ h ↦ h⟩
      · rintro _ rfl
        exact ⟨rfl, fun _ h ↦ h⟩

end Host

/-! ## Runs -/

namespace Clocked

/-- What holds in every state, whatever the clock does. -/
def Kept (state : Clocked) : Prop :=
  state.host.Invariant ∧ ∀ upload ∈ state.host.upload, upload.retryDelayMs ≤ 300000

variable {codec : Codec} {state : Clocked}

theorem Kept.bounded (h : state.Kept) (hpunctual : state.Punctual) :
    state.host.Bounded state.nowMs :=
  ⟨⟨h.1.1.spool.1, hpunctual⟩, h.2⟩

theorem bounded_step (h : state.Kept) (hpunctual : state.Punctual) (draws : Draws)
    (fates : List Fate) {event : Host.Event} (hevent : event ≠ .start) :
    (state.step codec (.event event draws fates)).host.Bounded state.nowMs :=
  Host.step_of_ensures Host.bounded_settle
    (Host.ensures_bounded (h.bounded hpunctual) draws hevent) fates

theorem kept_step (h : state.Kept) (hpunctual : state.Punctual) (occurrence : Occurrence) :
    (state.step codec occurrence).Kept := by
  cases occurrence with
  | clock nowMs => exact h
  | event event draws fates =>
    refine ⟨Host.invariant_step codec state.host _ h.1, ?_⟩
    by_cases hevent : event = .start
    · subst hevent
      intro upload hupload
      exact h.2 upload ((Host.opened_step_start codec state.host fates).2 upload hupload)
    · exact (bounded_step h hpunctual draws fates hevent).2

theorem punctual_step_iff (h : state.Kept) (hpunctual : state.Punctual) (occurrence : Occurrence) :
    (state.step codec occurrence).Punctual ↔ state.Careful occurrence := by
  cases occurrence with
  | clock nowMs =>
    constructor
    · exact fun hafter _ ↦ hafter
    · intro hcareful
      by_cases hback : nowMs < state.nowMs
      · exact hcareful hback
      · exact Spool.Due.mono hpunctual (Int.add_le_add_right (Int.not_lt.mp hback) _)
  | event event draws fates =>
    by_cases hevent : event = .start
    · subst hevent
      have hopened := (Host.opened_step_start codec state.host fates).1
      have hafter : (state.step codec (.event .start draws fates)).Punctual ↔
          ∀ row ∈ (state.step codec (.event .start draws fates)).host.spool.deliveries,
            row.state = .pending → row.nextAttemptAt ≤ state.nowMs + 300000 := Iff.rfl
      have hstep : (state.step codec (.event .start draws fates)).host =
          Host.step codec state.host (.start, fates) := rfl
      rw [hafter, hstep, hopened]
      split
      · next hstart =>
        cases hrestored : state.host.restored with
        | none =>
          exact ⟨fun _ _ _ spool hspool ↦ absurd (hrestored ▸ hspool) (Option.not_mem_none _),
            fun _ ↦ hpunctual⟩
        | some spool =>
          constructor
          · intro hdue _ _ other hother
            obtain rfl := Option.mem_some_iff.mp (hrestored ▸ hother)
            exact hdue
          · exact fun hcareful ↦ hcareful hstart.1 hstart.2 spool hrestored
      · next hnot =>
        exact ⟨fun _ hstopped hvalid ↦ absurd ⟨hstopped, hvalid⟩ hnot, fun _ ↦ hpunctual⟩
    · have hcareful : state.Careful (.event event draws fates) := by
        cases event with
        | start => exact absurd rfl hevent
        | _ => trivial
      exact iff_of_true (bounded_step h hpunctual draws fates hevent).1.2 hcareful

end Clocked

/-- No pending delivery is ever postponed for more than five minutes exactly if the clock is never
set back beyond the deliveries that wait. -/
theorem visits_punctual_iff (codec : Codec) (config : AgentConfig) (initialClientSequence : ℕ)
    (nowMs : ℤ) (occurrences : List Occurrence) :
    Visits (Clocked.step codec) Clocked.Punctual
        ⟨.enrolled config initialClientSequence, nowMs⟩ occurrences ↔
      Along (Clocked.step codec) Clocked.Careful
        ⟨.enrolled config initialClientSequence, nowMs⟩ occurrences := by
  refine visits_iff_along (fun _ occurrence hkept hpunctual _ ↦
    Clocked.kept_step hkept hpunctual occurrence)
    (fun _ occurrence hkept hpunctual ↦ Clocked.punctual_step_iff hkept hpunctual occurrence) ?_ ?_
    occurrences
  · exact ⟨Host.invariant_enrolled config initialClientSequence,
      fun _ hmem ↦ absurd hmem (Option.not_mem_none _)⟩
  · exact fun _ hrow ↦ absurd hrow List.not_mem_nil

/-! ## A clock that is set back -/

def setBackConfig : AgentConfig where
  agentId := "agent"
  machinePk := 1
  workspacePk := 1
  keyEpoch := 1
  dataKey := List.replicate 32 0
  noncePrefix := List.replicate 4 0
  transportSequenceCheckpoint := 0
  sampleIntervalSeconds := 10
  reportIntervalSeconds := 60
  maxSpoolBytes := 1000000
  containerMonitoringEnabled := false

def setBackDraws : Draws := ⟨1, 0, by decide⟩

/-- A disk with nothing on it. -/
def emptyDisk : StorageReadings := ⟨⟨0, 0, 1000000⟩, 1000000000, 1000000000, 0, ⟨0, 0, 1000000⟩,
  1000000000⟩

/-- An hour's first report waits when the process stops; the clock is an hour behind when the
process starts again. -/
def setBackRun : List Occurrence :=
  [.event .start setBackDraws [],
    .event (.sampleTick { observedAtMs := 0 } 0 emptyDisk) setBackDraws [],
    .clock 3600000,
    .event (.reportTick none 0 [[1]]) setBackDraws [],
    .event .stop setBackDraws [],
    .clock 0,
    .event .start setBackDraws []]

/-- The restarted process leaves the delivery postponed for an hour. -/
theorem setBackRun_not_punctual :
    (run (Clocked.step prefixCodec) ⟨.enrolled setBackConfig 1, 0⟩ setBackRun).host.running = true ∧
      ¬(run (Clocked.step prefixCodec) ⟨.enrolled setBackConfig 1, 0⟩ setBackRun).Punctual := by
  have hdue : (run (Clocked.step prefixCodec) ⟨.enrolled setBackConfig 1, 0⟩
      setBackRun).host.running = true ∧
      ¬(run (Clocked.step prefixCodec) ⟨.enrolled setBackConfig 1, 0⟩
        setBackRun).host.spool.Due 300000 := by
    decide +kernel
  exact hdue

end AlphaPing.Agent
