import AlphaPing.Agent.Runtime
import AlphaPing.Agent.Spool.SampleLoss
import AlphaPing.Ingest.Enrollment
import AlphaPing.Ingest.Validation

/-!
# The times of a report

The agent stamps what it collects with its own clock, and the ingest worker compares the stamps
with another one. The envelope may be five minutes off, which the worker also announces at the
enrollment; a nominal minute, a slot or the end of a command may lie two minutes ahead. A report
that is refused for it is refused with the status that quarantines it.
-/

namespace AlphaPing.System.ReportTimes

open Protocol Library.Tables Library.Runs Agent Agent.Spool Ingest.Validation

open Ingest.Enrollment (maxClockSkewMs)

def withinClockSkew (nowMs sentAtMs : ℤ) (maximumSkewMs : ℕ) : Bool :=
  (nowMs - sentAtMs).natAbs ≤ maximumSkewMs

/-! ## What the worker asks of the times -/

def inMinute (minute timeMs : ℤ) : Bool := minute ≤ timeMs && timeMs < minute + 60000

def probeTimesValid (nowMs : ℤ) (result : ProbeResult) : Bool :=
  result.nominalSlotMs % 1000 == 0 && result.nominalSlotMs ≤ nowMs + 120000 &&
    result.nominalSlotMs ≤ result.observedAtMs && result.observedAtMs ≤ result.nominalSlotMs + 60000

/-- The conditions of `validate_report` that are about times. -/
def timesValid (report : MachineReport) (nowMs : ℤ) : Bool :=
  report.nominalMinuteMs % 60000 == 0 && report.nominalMinuteMs ≤ nowMs + 120000 &&
    report.samples.all (fun sample ↦ inMinute report.nominalMinuteMs sample.observedAtMs) &&
    report.containerInventory.all
      (fun inventory ↦ inMinute report.nominalMinuteMs inventory.observedAtMs) &&
    report.probeResults.all (probeTimesValid nowMs) &&
    report.commandResults.all fun result ↦ result.completedAtMs ≤ nowMs + 120000

section Validation

variable {report : MachineReport} {authenticatedReportId : Bytes} {machinePk workspacePk : ℕ}
  {agentId : String} {nowMs laterMs : ℤ}

theorem timesValid_of_validateReport
    (h : validateReport report authenticatedReportId machinePk workspacePk agentId nowMs = .ok ())
    : timesValid report nowMs = true := by
  have hvalid := validateReport_eq_ok_iff.mp h
  have hminute := hvalid.minute
  have hinventory := hvalid.inventory
  simp only [not_or, not_not, not_lt] at hminute
  simp only [timesValid, Bool.and_eq_true, decide_eq_true_eq, beq_iff_eq, List.all_eq_true]
  refine ⟨⟨⟨⟨hminute, ?_⟩, ?_⟩, ?_⟩, ?_⟩
  · intro sample hsample
    have hsampleValid := List.all_eq_true.mp hvalid.samples sample hsample
    simp only [sampleValid, Bool.and_eq_true] at hsampleValid
    simp only [inMinute, Bool.and_eq_true]
    exact hsampleValid.1.1.1.1
  · cases hpart : report.containerInventory with
    | none => rfl
    | some inventory =>
      rw [hpart] at hinventory
      simp only [Option.all_some, inventoryValid, Bool.and_eq_true] at hinventory
      simp only [Option.all_some, inMinute, Bool.and_eq_true]
      exact hinventory.1.1.1.1.1.1.1
  · intro result hresult
    have hprobe := List.all_eq_true.mp hvalid.probeResults result hresult
    simp only [probeResultValid, Bool.and_eq_true] at hprobe
    simp only [probeTimesValid, Bool.and_eq_true]
    exact ⟨⟨⟨hprobe.1.1.1.1.1.1.2, hprobe.1.1.1.1.1.2⟩, hprobe.1.1.1.1.2⟩, hprobe.1.1.1.2⟩
  · intro result hresult
    have hcommand := List.all_eq_true.mp hvalid.commandResults result hresult
    simp only [commandResultValid, Bool.and_eq_true] at hcommand
    exact of_decide_eq_true hcommand.1.1.1.1.2

theorem validateReport_of_timesValid
    (h : validateReport report authenticatedReportId machinePk workspacePk agentId nowMs = .ok ())
    (htimes : timesValid report laterMs = true) :
    validateReport report authenticatedReportId machinePk workspacePk agentId laterMs =
      .ok () := by
  have hvalid := validateReport_eq_ok_iff.mp h
  simp only [timesValid, Bool.and_eq_true, decide_eq_true_eq, beq_iff_eq, List.all_eq_true]
    at htimes
  obtain ⟨⟨⟨⟨⟨halign, hlater⟩, -⟩, -⟩, hslots⟩, hends⟩ := htimes
  refine validateReport_eq_ok_iff.mpr
    { hvalid with minute := ?_, probeResults := ?_, commandResults := ?_ }
  · rw [not_or, not_not, not_lt]
    exact ⟨halign, hlater⟩
  · refine List.all_eq_true.mpr fun result hresult ↦ ?_
    have hprobe := List.all_eq_true.mp hvalid.probeResults result hresult
    have hslot := hslots result hresult
    simp only [probeTimesValid, Bool.and_eq_true] at hslot
    simp only [probeResultValid, Bool.and_eq_true] at hprobe ⊢
    exact ⟨⟨⟨⟨⟨⟨hprobe.1.1.1.1.1.1, hslot.1.1.2⟩, hprobe.1.1.1.1.2⟩, hprobe.1.1.1.2⟩,
      hprobe.1.1.2⟩, hprobe.1.2⟩, hprobe.2⟩
  · refine List.all_eq_true.mpr fun result hresult ↦ ?_
    have hcommand := List.all_eq_true.mp hvalid.commandResults result hresult
    simp only [commandResultValid, Bool.and_eq_true] at hcommand ⊢
    exact ⟨⟨⟨⟨⟨hcommand.1.1.1.1.1, decide_eq_true (hends result hresult)⟩, hcommand.1.1.1.2⟩,
      hcommand.1.1.2⟩, hcommand.1.2⟩, hcommand.2⟩

end Validation

/-! ## The agent's clock -/

/-- The spool and the reading of the agent's clock, which does not go back. -/
structure ClockedSpool where
  clock : ℕ
  spool : Spool

inductive ClockAction where
  | pass (milliseconds : ℕ)
  | call (operation : Operation)

variable (codec : Codec)

def clockStep (agent : ClockedSpool) : ClockAction → ClockedSpool
  | .pass milliseconds => { agent with clock := agent.clock + milliseconds }
  | .call operation => { agent with spool := agent.spool.apply codec operation }

def clockStart : ClockedSpool := ⟨0, Spool.empty⟩

/-- The stamps come from the agent's clock. A slot has begun before its result is observed. -/
def Stamps (clockMs : ℤ) : Operation → Prop
  | .appendSample sample _ => sample.observedAtMs = clockMs
  | .createNextDelivery _ _ _ nowMs => nowMs = clockMs
  | .appendProbeResult result _ => result.nominalSlotMs % 1000 = 0 ∧
      result.nominalSlotMs ≤ result.observedAtMs ∧ result.observedAtMs ≤ clockMs
  | .completeCommand result => result.completedAtMs ≤ clockMs
  | _ => True

def Timely : Operation → Prop
  | .appendProbeResult result _ => result.observedAtMs ≤ result.nominalSlotMs + 60000
  | _ => True

def OnTime (agent : ClockedSpool) : ClockAction → Prop
  | .pass _ => True
  | .call operation => Stamps agent.clock operation ∧ Timely operation

/-- The agent's clock is so much ahead of the worker's. A delivery that is sent now arrives after
any delay and is accepted by the envelope check; its times are valid when they are looked at. -/
def Accepted (lead : ℤ) (agent : ClockedSpool) : Prop :=
  ∀ row ∈ agent.spool.deliveries, ∀ received validated : ℤ, agent.clock - lead ≤ received →
    received ≤ validated → withinClockSkew received agent.clock maxClockSkewMs = true →
    timesValid row.payload validated = true

/-! ## What a delivery holds -/

/-- The stamps of a report that was made before this reading of the agent's clock. -/
structure Dated (clockMs : ℤ) (report : MachineReport) : Prop where
  aligned : report.nominalMinuteMs % 60000 = 0
  past : report.nominalMinuteMs + 60000 ≤ clockMs
  samples : ∀ sample ∈ report.samples, inMinute report.nominalMinuteMs sample.observedAtMs = true
  inventory : ∀ inventory ∈ report.containerInventory,
    inMinute report.nominalMinuteMs inventory.observedAtMs = true
  probes : ∀ result ∈ report.probeResults, result.nominalSlotMs % 1000 = 0 ∧
    result.nominalSlotMs ≤ result.observedAtMs ∧
    result.observedAtMs ≤ result.nominalSlotMs + 60000 ∧
    result.nominalSlotMs < report.nominalMinuteMs + 60000
  commands : ∀ result ∈ report.commandResults, result.completedAtMs ≤ clockMs

structure Stamped (clockMs : ℤ) (spool : Spool) : Prop where
  samples : ∀ row ∈ spool.samples, row.payload.observedAtMs = row.observedAt ∧ 0 ≤ row.observedAt
  snapshots : ∀ row ∈ spool.containerSnapshots,
    row.nominalMinute = floorMinute row.payload.observedAtMs
  probes : ∀ row ∈ spool.probeResults, row.nominalMinute = floorMinute row.payload.nominalSlotMs ∧
    row.payload.nominalSlotMs % 1000 = 0 ∧ row.payload.nominalSlotMs ≤ row.payload.observedAtMs ∧
    row.payload.observedAtMs ≤ row.payload.nominalSlotMs + 60000
  commands : ∀ row ∈ spool.commandResults, row.payload.completedAtMs ≤ clockMs
  deliveries : ∀ row ∈ spool.deliveries, Dated clockMs row.payload

theorem Dated.later {clockMs laterMs : ℤ} {report : MachineReport} (h : Dated clockMs report)
    (hlater : clockMs ≤ laterMs) : Dated laterMs report where
  aligned := h.aligned
  past := h.past.trans hlater
  samples := h.samples
  inventory := h.inventory
  probes := h.probes
  commands result hresult := (h.commands result hresult).trans hlater

theorem Stamped.later {clockMs laterMs : ℤ} {spool : Spool} (h : Stamped clockMs spool)
    (hlater : clockMs ≤ laterMs) : Stamped laterMs spool where
  samples := h.samples
  snapshots := h.snapshots
  probes := h.probes
  commands row hrow := (h.commands row hrow).trans hlater
  deliveries row hrow := (h.deliveries row hrow).later hlater

/-- A report's times are valid as soon as the worker's clock is at most two minutes behind. -/
theorem Dated.timesValid {clockMs nowMs : ℤ} {report : MachineReport} (h : Dated clockMs report)
    (hnow : clockMs ≤ nowMs + 120000) : timesValid report nowMs = true := by
  have hpast := h.past
  simp only [ReportTimes.timesValid, Bool.and_eq_true, decide_eq_true_eq, beq_iff_eq,
    List.all_eq_true]
  refine ⟨⟨⟨⟨⟨h.aligned, ?_⟩, h.samples⟩, ?_⟩, ?_⟩, ?_⟩
  · omega
  · exact Option.all_eq_true _ _ |>.mpr h.inventory
  · intro result hresult
    obtain ⟨halign, hslot, hwindow, hminute⟩ := h.probes result hresult
    simp only [probeTimesValid, Bool.and_eq_true, decide_eq_true_eq, beq_iff_eq]
    refine ⟨⟨⟨halign, ?_⟩, hslot⟩, hwindow⟩
    omega
  · intro result hresult
    have hend := h.commands result hresult
    omega

/-! ## Calls that only keep what there is -/

/-- What the tables hold was there before. -/
structure Kept (before after : Spool) : Prop where
  samples : after.samples ⊆ before.samples
  snapshots : after.containerSnapshots ⊆ before.containerSnapshots
  probes : after.probeResults ⊆ before.probeResults
  commands : after.commandResults ⊆ before.commandResults
  deliveries : ∀ row ∈ after.deliveries, ∃ old ∈ before.deliveries, old.payload = row.payload

variable (spool : Spool) {before after : Spool}

theorem Kept.refl : Kept spool spool where
  samples := List.Subset.refl _
  snapshots := List.Subset.refl _
  probes := List.Subset.refl _
  commands := List.Subset.refl _
  deliveries row hrow := ⟨row, hrow, rfl⟩

theorem Kept.trans {first second third : Spool} (h : Kept first second) (h' : Kept second third) :
    Kept first third where
  samples := List.Subset.trans h'.samples h.samples
  snapshots := List.Subset.trans h'.snapshots h.snapshots
  probes := List.Subset.trans h'.probes h.probes
  commands := List.Subset.trans h'.commands h.commands
  deliveries row hrow := by
    obtain ⟨old, hold, hpayload⟩ := h'.deliveries row hrow
    obtain ⟨first, hfirst, hsame⟩ := h.deliveries old hold
    exact ⟨first, hfirst, hsame.trans hpayload⟩

theorem Kept.stamped {clockMs : ℤ} (h : Kept before after) (hstamped : Stamped clockMs before) :
    Stamped clockMs after where
  samples row hrow := hstamped.samples row (h.samples hrow)
  snapshots row hrow := hstamped.snapshots row (h.snapshots hrow)
  probes row hrow := hstamped.probes row (h.probes hrow)
  commands row hrow := hstamped.commands row (h.commands hrow)
  deliveries row hrow := by
    obtain ⟨old, hold, hpayload⟩ := h.deliveries row hrow
    rw [← hpayload]
    exact hstamped.deliveries old hold

theorem Kept.of_rewrites (h : Rewrites before after) : Kept before after where
  samples := h.samples ▸ List.Subset.refl _
  snapshots := h.snapshots ▸ List.Subset.refl _
  probes := h.probes ▸ List.Subset.refl _
  commands := h.commands ▸ List.Subset.refl _
  deliveries row hrow := by
    obtain ⟨condition, change, hdeliveries, hsame⟩ := h.deliveries
    rw [hdeliveries] at hrow
    obtain ⟨old, hold, ⟨-, rfl⟩ | ⟨-, rfl⟩⟩ := mem_updateWhere.mp hrow
    · exact ⟨old, hold, (hsame old).2.1.symm⟩
    · exact ⟨row, hold, rfl⟩

theorem kept_deleteSamples (rows : List SampleRow) : Kept spool (spool.deleteSamples rows) :=
  { Kept.refl spool with samples := List.filter_sublist.subset }

theorem kept_deleteDeliveries (condition : DeliveryRow → Bool) :
    Kept spool (spool.deleteDeliveries condition) :=
  { Kept.refl spool with deliveries := fun row hrow ↦ ⟨row, (List.mem_filter.mp hrow).1, rfl⟩ }

theorem kept_capacityStatement {statement : Spool → Spool} (h : CapacityStatement statement)
    (spool : Spool) : Kept spool (statement spool) := by
  cases h with
  | compact before width limit => exact kept_deleteSamples spool _
  | evict => exact kept_deleteDeliveries spool _
  | drop => exact kept_deleteSamples spool _

theorem kept_enforceCapacity (maxBytes : ℕ) (readings : StorageReadings) (nowMs : ℤ) :
    Kept spool (spool.enforceCapacity maxBytes readings nowMs).2 := by
  rw [enforceCapacity_eq]
  have hperform : Kept spool (spool.perform (capacityStatements maxBytes readings nowMs)) :=
    perform_invariant (fun statement hstatement state hstate ↦
      hstate.trans (kept_capacityStatement (capacityStatement_of_mem hstatement) state))
      (.refl spool)
  split
  · refine hperform.trans ?_
    unfold recordGap
    dsimp only
    split <;> exact .of_rewrites (.of_eq rfl rfl rfl rfl rfl rfl)
  · exact hperform

theorem kept_acknowledge (reportId : Bytes) : Kept spool (spool.acknowledge reportId).2 := by
  unfold acknowledge
  split
  · exact .refl spool
  · exact {
      samples := List.filter_sublist.subset
      snapshots := List.Subset.refl _
      probes := List.Subset.refl _
      commands := List.filter_sublist.subset
      deliveries := fun row hrow ↦ ⟨row, (List.mem_filter.mp hrow).1, rfl⟩ }

/-! ## Calls that add something -/

section Adding

variable {codec} {clockMs : ℤ} {spool : Spool}

theorem stamped_appendSample (h : Stamped clockMs spool) {sample : MetricSample} {nowMs : ℤ}
    (hclock : 0 ≤ clockMs) (hsample : sample.observedAtMs = clockMs) :
    Stamped clockMs (spool.appendSample sample nowMs).2 := by
  unfold appendSample
  split
  · exact h
  · refine { h with samples := fun row hrow ↦ ?_ }
    rcases List.mem_append.mp hrow with hold | hnew
    · exact h.samples row hold
    · rw [List.mem_singleton.mp hnew]
      exact ⟨rfl, hsample ▸ hclock⟩

theorem stamped_appendContainerInventory (h : Stamped clockMs spool)
    (inventory : ContainerInventory) (nowMs : ℤ) :
    Stamped clockMs (spool.appendContainerInventory inventory nowMs) := by
  unfold appendContainerInventory
  dsimp only
  split
  · refine { h with snapshots := fun row hrow ↦ ?_ }
    obtain ⟨old, hold, ⟨-, rfl⟩ | ⟨-, rfl⟩⟩ := mem_updateWhere.mp hrow
    · rfl
    · exact h.snapshots row hold
  · refine { h with snapshots := fun row hrow ↦ ?_ }
    rcases List.mem_append.mp hrow with hold | hnew
    · exact h.snapshots row hold
    · rw [List.mem_singleton.mp hnew]

theorem stamped_appendProbeResult (h : Stamped clockMs spool) {result : ProbeResult} {nowMs : ℤ}
    (halign : result.nominalSlotMs % 1000 = 0) (hslot : result.nominalSlotMs ≤ result.observedAtMs)
    (hwindow : result.observedAtMs ≤ result.nominalSlotMs + 60000) :
    Stamped clockMs (spool.appendProbeResult result nowMs).2 := by
  unfold appendProbeResult
  split
  · exact h
  · refine { h with probes := fun row hrow ↦ ?_ }
    rcases List.mem_append.mp hrow with hold | hnew
    · exact h.probes row hold
    · rw [List.mem_singleton.mp hnew]
      exact ⟨rfl, halign, hslot, hwindow⟩

theorem stamped_completeCommand (h : Stamped clockMs spool) {result : AgentCommandResult}
    (hresult : result.completedAtMs ≤ clockMs) :
    Stamped clockMs (spool.completeCommand result).2 := by
  unfold completeCommand
  dsimp only
  split
  · exact h
  · refine { h with commands := fun row hrow ↦ ?_ }
    unfold upsertResult at hrow
    dsimp only at hrow
    split at hrow
    · obtain ⟨old, hold, ⟨-, rfl⟩ | ⟨-, rfl⟩⟩ := mem_updateWhere.mp hrow
      · exact hresult
      · exact h.commands row hold
    · rcases List.mem_append.mp hrow with hold | hnew
      · exact h.commands row hold
      · rw [List.mem_singleton.mp hnew]
        exact hresult

theorem kept_of_parkedFrom {before after : Spool} (h : ParkedFrom before after) :
    Kept before after := by
  rw [h.eq]
  exact { Kept.refl before with }

theorem nextMinute_minute {currentMinute minute : ℤ} (hcurrent : currentMinute % 60000 = 0)
    (left : ℕ) (hspool : Stamped clockMs spool)
    (h : (nextMinute currentMinute left spool).1 = some minute) :
    minute % 60000 = 0 ∧ minute + 60000 ≤ currentMinute := by
  induction left generalizing spool with
  | zero => cases h
  | succ left ih =>
    unfold nextMinute at h
    cases hrow : spool.oldestUnassigned currentMinute with
    | none => rw [hrow] at h; cases h
    | some row =>
      rw [hrow] at h
      dsimp only at h
      have hmem := List.mem_of_mem_head? hrow
      obtain ⟨hfree, hbefore⟩ := List.mem_filter.mp (mem_of_mem_selectOrdered hmem)
      obtain ⟨-, hnonneg⟩ := hspool.samples row (mem_unassigned.mp hfree).1
      cases hdelivery : spool.deliveryOf (truncatedMinute row.observedAt) with
      | none =>
        rw [hdelivery] at h
        obtain rfl := Option.some.inj h
        rw [decide_eq_true_eq] at hbefore
        rw [truncatedMinute, Int.tdiv_eq_ediv_of_nonneg hnonneg]
        omega
      | some delivery =>
        rw [hdelivery] at h
        have hparked := parkedFrom_park spool (deliveryOf_some hdelivery).1
        rw [(deliveryOf_some hdelivery).2] at hparked
        exact ih ((kept_of_parkedFrom hparked).stamped hspool) h

theorem dated_buildReport (h : Stamped clockMs spool) {minute : ℤ} (haligned : minute % 60000 = 0)
    (hpast : minute + 60000 ≤ clockMs) (machinePk workspacePk : ℕ) (reportId : Bytes) :
    Dated clockMs (spool.buildReport machinePk workspacePk reportId minute) where
  aligned := haligned
  past := hpast
  samples sample hsample := by
    obtain ⟨row, hrow, rfl⟩ := List.mem_map.mp hsample
    obtain ⟨hfree, hlow, hhigh⟩ := mem_unassignedIn.mp (mem_of_mem_selectOrdered hrow)
    obtain ⟨hobserved, -⟩ := h.samples row (mem_unassigned.mp hfree).1
    rw [hobserved, inMinute, Bool.and_eq_true, decide_eq_true_eq, decide_eq_true_eq]
    exact ⟨hlow, hhigh⟩
  inventory inventory hinventory := by
    obtain ⟨packed, hpacked, rfl⟩ := Option.map_eq_some_iff.mp hinventory
    obtain ⟨row, hrow, rfl⟩ := Option.map_eq_some_iff.mp hpacked
    have hminute : row.nominalMinute = minute := by simpa using List.find?_some hrow
    have hobserved := h.snapshots row (List.mem_of_find?_eq_some hrow)
    rw [hminute, floorMinute] at hobserved
    show inMinute minute row.payload.observedAtMs = true
    rw [inMinute, Bool.and_eq_true, decide_eq_true_eq, decide_eq_true_eq]
    omega
  probes result hresult := by
    obtain ⟨row, hrow, rfl⟩ := List.mem_map.mp hresult
    obtain ⟨hmem, hminute⟩ := List.mem_filter.mp (mem_of_mem_selectOrdered hrow)
    obtain ⟨hnominal, halign, hslot, hwindow⟩ := h.probes row hmem
    rw [decide_eq_true_eq, hnominal, floorMinute] at hminute
    refine ⟨halign, hslot, hwindow, ?_⟩
    show row.payload.nominalSlotMs < minute + 60000
    omega
  commands result hresult := by
    obtain ⟨row, hrow, rfl⟩ := List.mem_map.mp hresult
    exact h.commands row (List.mem_filter.mp (mem_of_mem_selectOrdered hrow)).1

theorem floorMinute_emod (timeMs : ℤ) : floorMinute timeMs % 60000 = 0 :=
  Int.mul_emod_left (timeMs / 60000) 60000

theorem stamped_createNextDelivery (h : Stamped clockMs spool) (machinePk workspacePk : ℕ)
    (reportId : Bytes) :
    Stamped clockMs
      (spool.createNextDelivery codec machinePk workspacePk reportId clockMs).2 := by
  have hcurrent := nextMinute_spec (floorMinute clockMs) 256 spool
  have hminute : ∀ minute, (nextMinute (floorMinute clockMs) 256 spool).1 = some minute →
      minute % 60000 = 0 ∧ minute + 60000 ≤ floorMinute clockMs :=
    fun minute hfound ↦ nextMinute_minute (floorMinute_emod clockMs) 256 h hfound
  unfold createNextDelivery
  generalize nextMinute (floorMinute clockMs) 256 spool = found at hcurrent hminute
  obtain ⟨minute, parked⟩ := found
  have hparked : Stamped clockMs parked := (kept_of_parkedFrom hcurrent.1).stamped h
  cases minute with
  | none => exact hparked
  | some minute =>
    obtain ⟨haligned, hpast⟩ := hminute minute rfl
    have hclock : minute + 60000 ≤ clockMs := by
      rw [floorMinute] at hpast
      omega
    dsimp only
    split
    · exact hparked
    · split
      · exact hparked
      · split
        · exact hparked
        · refine ⟨hparked.samples, fun row hrow ↦ ?_, fun row hrow ↦ ?_, hparked.commands,
            fun row hrow ↦ ?_⟩
          · exact hparked.snapshots row (List.mem_filter.mp hrow).1
          · exact hparked.probes row (List.mem_filter.mp hrow).1
          · rcases List.mem_append.mp hrow with hold | hnew
            · exact hparked.deliveries row hold
            · rw [List.mem_singleton.mp hnew]
              exact dated_buildReport hparked haligned hclock machinePk workspacePk reportId

/-- The calls that put something into a table. -/
def Adds : Operation → Prop
  | .appendSample _ _ | .appendContainerInventory _ _ | .createNextDelivery _ _ _ _
  | .appendProbeResult _ _ | .completeCommand _ => True
  | _ => False

theorem kept_apply (codec : Codec) (spool : Spool) {operation : Operation}
    (hadds : ¬Adds operation) : Kept spool (spool.apply codec operation) := by
  cases operation with
  | appendSample | appendContainerInventory | createNextDelivery | appendProbeResult
  | completeCommand => exact absurd trivial hadds
  | acknowledge reportId => exact kept_acknowledge spool reportId
  | enforceCapacity maxBytes readings nowMs =>
    exact kept_enforceCapacity spool maxBytes readings nowMs
  | _ => exact .of_rewrites (rewrites_apply spool codec rfl)

theorem stamped_apply (h : Stamped clockMs spool) (hclock : 0 ≤ clockMs) {operation : Operation}
    (hstamps : Stamps clockMs operation) (htimely : Timely operation) :
    Stamped clockMs (spool.apply codec operation) := by
  cases operation with
  | appendSample sample nowMs => exact stamped_appendSample h hclock hstamps
  | appendContainerInventory inventory nowMs =>
    exact stamped_appendContainerInventory h inventory nowMs
  | createNextDelivery machinePk workspacePk reportId nowMs =>
    obtain rfl : nowMs = clockMs := hstamps
    exact stamped_createNextDelivery h machinePk workspacePk reportId
  | appendProbeResult result nowMs =>
    exact stamped_appendProbeResult h hstamps.1 hstamps.2.1 htimely
  | completeCommand result => exact stamped_completeCommand h hstamps
  | _ => exact (kept_apply codec spool id).stamped h

end Adding

/-! ## Every run -/

section Runs

variable {codec}

theorem accepted_of_stamped {lead : ℤ} {agent : ClockedSpool} (hlead : lead ≤ 120000)
    (h : Stamped agent.clock agent.spool) : Accepted lead agent := by
  intro row hrow received validated hreceived hvalidated _
  have hnow : (agent.clock : ℤ) ≤ validated + 120000 := by omega
  exact (h.deliveries row hrow).timesValid hnow

theorem visits_stamped {actions : List ClockAction}
    (h : Along (clockStep codec) OnTime clockStart actions) :
    Visits (clockStep codec) (fun agent ↦ Stamped agent.clock agent.spool) clockStart actions := by
  refine visits_of_along (fun agent action hstamped hontime ↦ ?_) ?_ h
  · cases action with
    | pass milliseconds =>
      apply hstamped.later
      show (agent.clock : ℤ) ≤ ((agent.clock + milliseconds : ℕ) : ℤ)
      omega
    | call operation =>
      exact stamped_apply hstamped (Int.natCast_nonneg agent.clock) hontime.1 hontime.2
  · refine ⟨?_, ?_, ?_, ?_, ?_⟩
    all_goals exact fun row hrow ↦ absurd hrow List.not_mem_nil

theorem timesValid_of_late {report : MachineReport} {result : ProbeResult}
    (hresult : result ∈ report.probeResults)
    (hlate : result.nominalSlotMs + 60000 < result.observedAtMs) (nowMs : ℤ) :
    timesValid report nowMs = false := by
  by_contra htimes
  simp only [Bool.not_eq_false, timesValid, Bool.and_eq_true, List.all_eq_true] at htimes
  have hprobe := htimes.1.2 result hresult
  simp only [probeTimesValid, Bool.and_eq_true, decide_eq_true_eq] at hprobe
  omega

end Runs

/-! ## A clock that is ahead -/

def aheadCommand : AgentCommand where
  id := "00000000-0000-0000-0000-000000000001"
  type := some .refreshConfig
  notBeforeMs := 1800000
  expiresAtMs := 1900000
  attemptLimit := 1
  payloadSchemaVersion := 1
  requestedVersion := ""
  bypassRollout := false

/-- A sample, and in the next minute a command that is carried out just before the report is
created. -/
def aheadActions : List ClockAction :=
  [.pass 1800000,
    .call (.appendSample { observedAtMs := 1800000 } 1800000),
    .pass 60000,
    .call (.acceptCommands [aheadCommand] 1860000),
    .call (.completeCommand (Host.commandResult aheadCommand.id true 1860000 "config_refreshed")),
    .call (.createNextDelivery 7 3 (List.replicate 16 1) 1860000)]

theorem onTime_aheadActions : Along (clockStep prefixCodec) OnTime clockStart aheadActions :=
  ⟨trivial, ⟨rfl, trivial⟩, trivial, ⟨trivial, trivial⟩, ⟨le_rfl, trivial⟩, ⟨rfl, trivial⟩,
    trivial⟩

theorem clock_aheadActions :
    (run (clockStep prefixCodec) clockStart aheadActions).clock = 1860000 := rfl

theorem exists_aheadRow :
    ∃ row ∈ (run (clockStep prefixCodec) clockStart aheadActions).spool.deliveries,
      ∃ result ∈ row.payload.commandResults, result.completedAtMs = 1860000 := by
  decide +kernel

theorem not_accepted_ahead {lead : ℤ} (hlead : 120000 < lead) :
    ¬ Accepted lead (run (clockStep prefixCodec) clockStart aheadActions) := by
  intro h
  obtain ⟨row, hrow, result, hresult, hend⟩ := exists_aheadRow
  have hvalid := h row hrow (1860000 - min lead 300000) (1860000 - min lead 300000)
  rw [clock_aheadActions] at hvalid
  have htimes := hvalid (by omega) le_rfl (by simp [withinClockSkew, maxClockSkewMs]; omega)
  simp only [timesValid, Bool.and_eq_true, List.all_eq_true, decide_eq_true_eq] at htimes
  have hcommand := htimes.2 result hresult
  omega

/-- In every run of an agent whose probes end in time, the times of its reports are valid whenever
the envelope is accepted, if and only if its clock is at most two minutes ahead; a probe that
does not end in time is refused with its report by every clock. -/
theorem reports_accepted_iff (lead : ℤ) :
    ((∀ (codec : Codec) (actions : List ClockAction),
        Along (clockStep codec) OnTime clockStart actions →
        Visits (clockStep codec) (Accepted lead) clockStart actions) ↔ lead ≤ 120000) ∧
      ∀ (report : MachineReport), ∀ result ∈ report.probeResults,
        result.nominalSlotMs + 60000 < result.observedAtMs → ∀ nowMs : ℤ,
          timesValid report nowMs = false := by
  refine ⟨⟨fun h ↦ ?_, fun hlead codec actions hontime ↦ ?_⟩, ?_⟩
  · by_contra hlead
    have hvisits := h prefixCodec aheadActions onTime_aheadActions
    exact not_accepted_ahead (not_le.mp hlead) (visits_run hvisits)
  · exact visits_mono (fun _ hstamped ↦ accepted_of_stamped hlead hstamped)
      (visits_stamped hontime)
  · exact fun report result hresult hlate nowMs ↦ timesValid_of_late hresult hlate nowMs

/-- The worker accepts the envelope of an agent that is five minutes ahead, and refuses the
report. -/
theorem ahead_agent_quarantined :
    ¬ ∀ (lead : ℤ) (codec : Codec) (actions : List ClockAction), lead.natAbs ≤ maxClockSkewMs →
      Along (clockStep codec) OnTime clockStart actions →
      Visits (clockStep codec) (Accepted lead) clockStart actions := by
  intro h
  have hvisits := h 300000 prefixCodec aheadActions (by decide) onTime_aheadActions
  exact not_accepted_ahead (by decide) (visits_run hvisits)

end AlphaPing.System.ReportTimes
