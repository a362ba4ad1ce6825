import AlphaPing.Ingest.Rollups
import AlphaPing.Library.Saturation

/-!
# Network volumes of rollups

A rollup turns rates into volumes: every sample stands for the time to the next one, the sampling
interval of its machine. The rollup takes ten seconds for that time, whatever the machine is
configured to.
-/

namespace AlphaPing.Ingest.NetworkVolumes

open Protocol Library.Saturation Blocks Telemetry Rollups

/-- The intervals that `normalizeMachineConfiguration` accepts for a machine. -/
structure MachineIntervals where
  samplingIntervalSeconds : ℕ
  reportIntervalSeconds : ℕ
  sampling_range : 1 ≤ samplingIntervalSeconds ∧ samplingIntervalSeconds ≤ 300
  report_range : 60 ≤ reportIntervalSeconds ∧ reportIntervalSeconds ≤ 900
  divides : reportIntervalSeconds % samplingIntervalSeconds = 0

/-! ## Both directions -/

inductive Direction where
  | received
  | transmitted
  deriving DecidableEq

def rate : Direction → MetricSample → ℕ
  | .received, sample => sample.networkRxBytesPerSecond
  | .transmitted, sample => sample.networkTxBytesPerSecond

def volume : Direction → MachineRollup → ℕ
  | .received, rollup => rollup.networkRxBytes
  | .transmitted, rollup => rollup.networkTxBytes

def storedVolume : Direction → RollupRow → ℕ
  | .received, row => row.networkRxBytes
  | .transmitted, row => row.networkTxBytes

/-! ## What a rollup is made of -/

def blockReports (tables : MachineTables) (report : MachineReport) : List MachineReport :=
  ([0, 1, 2, 3].filterMap fun minute : ℤ ↦
    (readSlot tables.blocks report.machinePk report.workspacePk
      (blockStart report.nominalMinuteMs + minute * 60000)).map SlotColumns.payload) ++ [report]

def blockSamples (tables : MachineTables) (report : MachineReport) : List MetricSample :=
  (blockReports tables report).flatMap MachineReport.samples

/-- The stored rollups that are folded into the hour. -/
def hourRows (tables : MachineTables) (report : MachineReport) : List RollupRow :=
  (tables.rollups5m.filter fun row ↦
    row.workspacePk == report.workspacePk && row.machinePk == report.machinePk &&
      decide (hourStart report ≤ row.bucketStart) &&
      decide (row.bucketStart < blockStart report.nominalMinuteMs)).insertionSort
    fun first second ↦ first.bucketStart ≤ second.bucketStart

/-- The sum of the rates of the block. -/
def totalRate (direction : Direction) (tables : MachineTables) (report : MachineReport) : ℕ :=
  ((blockSamples tables report).map (rate direction)).sum

/-- The volumes of the five minutes are the rates times the time that a sample stands for, and the
volumes of the hour are those of its five minutes; a total is cut off at the largest `u64`. -/
structure VolumesHold (samplingIntervalSeconds : ℕ) (tables : MachineTables)
    (report : MachineReport) : Prop where
  five : ∀ direction, volume direction (closedFive tables report) =
    min (((blockSamples tables report).map fun sample ↦
      rate direction sample * samplingIntervalSeconds).sum) maxU64
  hour : ∀ direction, volume direction (closedHour tables report (closedFive tables report)) =
    min (((hourRows tables report).map (storedVolume direction)).sum +
      volume direction (closedFive tables report)) maxU64

/-! ## Folding -/

variable (direction : Direction)

theorem volume_addSample (rollup : MachineRollup) (sample : MetricSample) :
    volume direction (rollup.addSample sample) =
      min (volume direction rollup + min (rate direction sample * 10) maxU64) maxU64 := by
  cases direction <;> rfl

theorem volume_addStored (hour : MachineRollup) (row : RollupRow) :
    volume direction (hour.addStored row) =
      min (volume direction hour + storedVolume direction row) maxU64 := by
  cases direction <;> rfl

theorem volume_addBucket (hour five : MachineRollup) :
    volume direction (hour.addBucket five) =
      min (volume direction hour + volume direction five) maxU64 := by
  cases direction <;> rfl

variable (tables : MachineTables)

theorem closedFive_samples (report : MachineReport) :
    closedFive tables report =
      (blockSamples tables report).foldl MachineRollup.addSample {} := by
  have hreports (reports : List MachineReport) (start : MachineRollup) :
      reports.foldl MachineRollup.addReport start =
        (reports.flatMap MachineReport.samples).foldl MachineRollup.addSample start := by
    induction reports generalizing start with
    | nil => rfl
    | cons first rest ih =>
      rw [List.foldl_cons, ih, List.flatMap_cons, List.foldl_append]
      rfl
  rw [blockSamples, ← hreports, blockReports, List.foldl_append]
  rfl

theorem volume_foldl_addSample (samples : List MetricSample) (rollup : MachineRollup) :
    volume direction (samples.foldl MachineRollup.addSample rollup) =
      samples.foldl (fun total sample ↦
        min (total + min (rate direction sample * 10) maxU64) maxU64) (volume direction rollup) := by
  apply Eq.symm
  apply List.foldl_hom (volume direction)
  intro rollup sample
  exact (volume_addSample direction rollup sample).symm

theorem sum_rates (samples : List MetricSample) (seconds : ℕ) :
    (samples.map fun sample ↦ rate direction sample * seconds).sum =
      seconds * (samples.map (rate direction)).sum := by
  rw [List.sum_map_mul_right, Nat.mul_comm]

theorem volume_closedFive (report : MachineReport) :
    volume direction (closedFive tables report) =
      min (10 * totalRate direction tables report) maxU64 := by
  have hstart : volume direction {} = 0 := by cases direction <;> rfl
  calc
    _ = (blockSamples tables report).foldl (fun total sample ↦
          min (total + min (rate direction sample * 10) maxU64) maxU64) 0 := by
      rw [closedFive_samples, volume_foldl_addSample, hstart]
    _ = min (0 + ((blockSamples tables report).map fun sample ↦
          rate direction sample * 10).sum) maxU64 :=
      foldl_min_eq maxU64 _ _ (Nat.zero_le _)
    _ = _ := by rw [Nat.zero_add, sum_rates, totalRate]

theorem volume_closedHour (report : MachineReport) (five : MachineRollup) :
    volume direction (closedHour tables report five) =
      min (((hourRows tables report).map (storedVolume direction)).sum + volume direction five)
        maxU64 := by
  have hrows (rows : List RollupRow) (hour : MachineRollup) :
      min (volume direction (rows.foldl MachineRollup.addStored hour)) maxU64 =
        min (volume direction hour + (rows.map (storedVolume direction)).sum) maxU64 := by
    induction rows generalizing hour with
    | nil => simp
    | cons row rest ih =>
      rw [List.foldl_cons, ih, volume_addStored, min_min_add, List.map_cons, List.sum_cons,
        Nat.add_assoc]
  have hstart : volume direction {} = 0 := by cases direction <;> rfl
  have hhour : closedHour tables report five =
      ((hourRows tables report).foldl MachineRollup.addStored {}).addBucket five := rfl
  rw [hhour, volume_addBucket, ← min_min_add, hrows, hstart, Nat.zero_add, min_min_add]

/-- The volumes are right exactly if the machine is sampled every ten seconds, or nothing is sent
or received at all, or both totals are cut off. -/
theorem volumes_hold_iff (intervals : MachineIntervals) (tables : MachineTables)
    (report : MachineReport) :
    VolumesHold intervals.samplingIntervalSeconds tables report ↔
      ∀ direction, intervals.samplingIntervalSeconds = 10 ∨
        totalRate direction tables report = 0 ∨
        (maxU64 ≤ 10 * totalRate direction tables report ∧
          maxU64 ≤ intervals.samplingIntervalSeconds * totalRate direction tables report) := by
  have hfive (direction : Direction) :
      volume direction (closedFive tables report) =
          min (((blockSamples tables report).map fun sample ↦
            rate direction sample * intervals.samplingIntervalSeconds).sum) maxU64 ↔
        intervals.samplingIntervalSeconds = 10 ∨ totalRate direction tables report = 0 ∨
          (maxU64 ≤ 10 * totalRate direction tables report ∧
            maxU64 ≤ intervals.samplingIntervalSeconds * totalRate direction tables report) := by
    rw [volume_closedFive, sum_rates, eq_comm (a := intervals.samplingIntervalSeconds)]
    exact min_mul_eq_iff maxU64
  constructor
  · intro h direction
    exact (hfive direction).mp (h.five direction)
  · intro h
    exact
      { five := fun direction ↦ (hfive direction).mpr (h direction)
        hour := fun direction ↦ volume_closedHour direction tables report _ }

/-! ## A machine that is sampled every minute -/

def minuteIntervals : MachineIntervals where
  samplingIntervalSeconds := 60
  reportIntervalSeconds := 60
  sampling_range := by decide
  report_range := by decide
  divides := by decide

/-- The report of the last minute of a block; a hundred bytes a second were received. -/
def busyArrival : Arrival where
  agentKey := soleAgent
  request := ⟨"agent", 1, 1, List.replicate 16 1,
    { singleSample 1 240000 with
      samples := [{ observedAtMs := 240000, networkRxBytesPerSecond := 100 }] }⟩
  now := 300000
  valid := by decide

/-- The rollup has a sixth of the volume. -/
theorem minute_samples_undercounted :
    ¬ ∀ (intervals : MachineIntervals) (tables : MachineTables) (arrival : Arrival),
      VolumesHold intervals.samplingIntervalSeconds tables arrival.report := by
  intro h
  have hfive := (h minuteIntervals emptyReception.tables busyArrival).five .received
  revert hfive
  decide

end AlphaPing.Ingest.NetworkVolumes
