import AlphaPing.Checks.Rollups
import AlphaPing.Library.WeightedMeans

/-!
# The mean latency of an hour

The hourly row of a check is put together from the five-minute rows of the hour and from the block
that is being closed. Results that have no latency are counted in a row, not in its mean, and the
row does not say how many they are: a stored mean enters the hour with the number of all results.
The ingest worker adds the block that it closes with the exact total of its latencies; the checks
worker adds it as it adds a stored row.
-/

namespace AlphaPing.Checks.HourlyLatency

open Library.WeightedMeans Ingest.CheckResults Rollups
open Ingest.Telemetry (saturatingAdd saturatingMul maxU64)

/-! ## Blocks -/

/-- The results of a block as a worker reads them. -/
structure FiveMinutes where
  readings : List (ResultState × Option ℕ)
  length_le : readings.length ≤ 5
  latency_le : ∀ reading ∈ readings, ∀ latency ∈ reading.2, latency ≤ 4294967295

namespace FiveMinutes

def latencies (block : FiveMinutes) : List ℕ :=
  block.readings.filterMap Prod.snd

def rollup (executor : Rollups.Executor) (block : FiveMinutes) : CheckRollup :=
  block.readings.foldl (fun rollup read ↦ rollup.add executor read.1 read.2) {}

theorem length_latencies_le (block : FiveMinutes) :
    block.latencies.length ≤ block.readings.length :=
  List.length_filterMap_le _ _

theorem le_of_mem_latencies {block : FiveMinutes} {latency : ℕ} (h : latency ∈ block.latencies) :
    latency ≤ 4294967295 := by
  obtain ⟨reading, hreading, hlatency⟩ := List.mem_filterMap.mp h
  exact block.latency_le reading hreading latency hlatency

theorem sum_latencies_le (block : FiveMinutes) :
    block.latencies.sum ≤ block.latencies.length * 4294967295 := by
  have h := List.sum_le_card_nsmul block.latencies 4294967295 fun _ ↦ le_of_mem_latencies
  rwa [smul_eq_mul] at h

theorem foldl_add (executor : Rollups.Executor) (readings : List (ResultState × Option ℕ))
    (rollup : CheckRollup) (h : rollup.latencyTotal + (readings.filterMap Prod.snd).sum ≤ maxU64) :
    let after := readings.foldl (fun rollup read ↦ rollup.add executor read.1 read.2) rollup
    after.total = rollup.total + readings.length ∧
      after.latencyCount = rollup.latencyCount + (readings.filterMap Prod.snd).length ∧
      after.latencyTotal = rollup.latencyTotal + (readings.filterMap Prod.snd).sum := by
  induction readings generalizing rollup with
  | nil => exact ⟨rfl, rfl, rfl⟩
  | cons reading rest ih =>
    obtain ⟨state, latency⟩ := reading
    rw [List.foldl_cons]
    cases latency with
    | none =>
      obtain ⟨htotal, hcount, hsum⟩ := ih (rollup.add executor state none) h
      refine ⟨htotal.trans ?_, hcount, hsum⟩
      simp only [CheckRollup.add, List.length_cons]
      omega
    | some latency =>
      have hlatencies : ((state, some latency) :: rest).filterMap Prod.snd =
          latency :: rest.filterMap Prod.snd := List.filterMap_cons_some rfl
      rw [hlatencies, List.sum_cons] at h
      have hplus : (rollup.add executor state (some latency)).latencyTotal =
          rollup.latencyTotal + latency := plus_eq executor (by omega)
      obtain ⟨htotal, hcount, hsum⟩ := ih (rollup.add executor state (some latency)) (by omega)
      dsimp only
      rw [hlatencies, htotal, hcount, hsum, hplus, List.length_cons, List.length_cons,
        List.sum_cons]
      refine ⟨?_, ?_, by omega⟩
      · simp only [CheckRollup.add]
        omega
      · simp only [CheckRollup.add, Option.isSome_some, if_true]
        omega

theorem rollup_fields (executor : Rollups.Executor) (block : FiveMinutes) :
    (block.rollup executor).total = block.readings.length ∧
      (block.rollup executor).latencyCount = block.latencies.length ∧
      (block.rollup executor).latencyTotal = block.latencies.sum := by
  have hsum := block.sum_latencies_le
  have hlength := block.length_latencies_le
  have hfive := block.length_le
  obtain ⟨htotal, hcount, hlatency⟩ := foldl_add executor block.readings {} (by
    simp only [latencies, maxU64] at *
    omega)
  simp only [Nat.zero_add] at htotal hcount hlatency
  exact ⟨htotal, hcount, hlatency⟩

end FiveMinutes

/-! ## Rounding -/

/-- The ingest worker truncates, the checks worker rounds half up. -/
def rounded (executor : Rollups.Executor) (total count : ℕ) : ℕ :=
  match executor with
  | .agent => total / count
  | .central => (2 * total + count) / (2 * count)

/-- What a rounding of a worker can change. -/
def step : Rollups.Executor → ℚ
  | .agent => 1
  | .central => 1 / 2

theorem step_bounds (executor : Rollups.Executor) : 1 / 2 ≤ step executor ∧ step executor ≤ 1 := by
  cases executor <;> norm_num [step]

theorem mul_div_bounds (total : ℕ) {count : ℕ} (hcount : 0 < count) :
    total / count * count ≤ total ∧ total < total / count * count + count := by
  have hmod := Nat.mod_lt total hcount
  have hdiv := Nat.div_add_mod' total count
  omega

theorem rounded_near (executor : Rollups.Executor) (total : ℕ) {count : ℕ} (hcount : 0 < count) :
    |(rounded executor total count * count - total : ℚ)| ≤ step executor * count := by
  rw [abs_le]
  cases executor with
  | agent =>
    obtain ⟨hle, hlt⟩ := mul_div_bounds total hcount
    have hle : ((total / count : ℕ) : ℚ) * count ≤ total := by exact_mod_cast hle
    have hlt : (total : ℚ) < ((total / count : ℕ) : ℚ) * count + count := by exact_mod_cast hlt
    simp only [rounded, step]
    constructor <;> linarith
  | central =>
    obtain ⟨hle, hlt⟩ := mul_div_bounds (2 * total + count) (show 0 < 2 * count by omega)
    have hle : (((2 * total + count) / (2 * count) : ℕ) : ℚ) * (2 * count) ≤ 2 * total + count := by
      exact_mod_cast hle
    have hlt : (2 * total + count : ℚ) <
        (((2 * total + count) / (2 * count) : ℕ) : ℚ) * (2 * count) + 2 * count := by
      exact_mod_cast hlt
    simp only [rounded, step]
    constructor <;> linarith

theorem rounded_le (executor : Rollups.Executor) {total count bound : ℕ}
    (h : total ≤ bound * count) : rounded executor total count ≤ bound := by
  rcases Nat.eq_zero_or_pos count with rfl | hcount
  · cases executor <;> simp [rounded]
  · cases executor with
    | agent => exact Nat.div_le_of_le_mul (by rwa [Nat.mul_comm])
    | central =>
      apply Nat.lt_succ_iff.mp
      rw [rounded, Nat.div_lt_iff_lt_mul (by omega)]
      nlinarith

theorem FiveMinutes.average_rollup (executor : Rollups.Executor) (block : FiveMinutes) :
    (block.rollup executor).average executor = if block.latencies.length = 0 then none
      else some (rounded executor block.latencies.sum block.latencies.length) := by
  obtain ⟨-, hcount, htotal⟩ := block.rollup_fields executor
  have hsum := block.sum_latencies_le
  unfold CheckRollup.average
  rw [hcount, htotal]
  split
  · rfl
  · cases executor with
    | agent =>
      have hle : rounded .agent block.latencies.sum block.latencies.length ≤ 4294967295 :=
        rounded_le .agent (by rwa [Nat.mul_comm])
      exact congrArg some (Nat.min_eq_left hle)
    | central => rfl

/-! ## Hours -/

/-- What a stored row enters an hour with: its mean counts for all of its results. -/
def FiveMinutes.part (executor : Rollups.Executor) (block : FiveMinutes) : Part where
  weight := if block.latencies.length = 0 then 0 else block.readings.length
  amount := rounded executor block.latencies.sum block.latencies.length * block.readings.length
  count := block.latencies.length
  sum := block.latencies.sum

/-- A block that enters as it is. -/
def FiveMinutes.exactPart (block : FiveMinutes) : Part where
  weight := block.latencies.length
  amount := block.latencies.sum
  count := block.latencies.length
  sum := block.latencies.sum

/-- A block whose row one of the workers has stored. -/
structure StoredBlock where
  executor : Rollups.Executor
  start : ℤ
  block : FiveMinutes

def StoredBlock.row (stored : StoredBlock) (checkPk workspacePk : ℕ) : CheckRollupRow :=
  (stored.block.rollup stored.executor).row stored.executor checkPk workspacePk stored.start

def StoredBlock.part (stored : StoredBlock) : Part :=
  stored.block.part stored.executor

/-- An hour of a check: the rows of the blocks before the last one, and the last block. -/
structure Hour where
  checkPk : ℕ
  workspacePk : ℕ
  stored : List StoredBlock
  stored_length_le : stored.length ≤ 11
  start : ℤ
  last : FiveMinutes

namespace Hour

/-- `hourly_rollup_statement` and the end of `prepareClosedRollups`. -/
def rollup (executor : Rollups.Executor) (hour : Hour) : CheckRollup :=
  ((hour.stored.map fun stored ↦ stored.row hour.checkPk hour.workspacePk).foldl
    (CheckRollup.addStored executor) {}).addBucket executor (hour.last.rollup executor)
      ((hour.last.rollup executor).row executor hour.checkPk hour.workspacePk hour.start)

def average (executor : Rollups.Executor) (hour : Hour) : Option ℕ :=
  (hour.rollup executor).average executor

def latencies (hour : Hour) : List ℕ :=
  (hour.stored.flatMap fun stored ↦ stored.block.latencies) ++ hour.last.latencies

def lastPart (executor : Rollups.Executor) (hour : Hour) : Part :=
  match executor with
  | .agent => hour.last.exactPart
  | .central => hour.last.part .central

def parts (executor : Rollups.Executor) (hour : Hour) : List Part :=
  hour.stored.map StoredBlock.part ++ [hour.lastPart executor]

end Hour

/-- What bounds a part: it has five results at most, and each latency is a `u32`. -/
structure Small (part : Part) : Prop where
  weight : part.weight ≤ 5
  amount : part.amount ≤ 4294967295 * part.weight

theorem small_part (executor : Rollups.Executor) (block : FiveMinutes) :
    Small (block.part executor) := by
  have hsum := block.sum_latencies_le
  have hlength := block.length_le
  unfold FiveMinutes.part
  constructor
  · dsimp only
    split <;> omega
  · dsimp only
    split
    · next hnone =>
      have hzero : rounded executor block.latencies.sum block.latencies.length ≤ 0 :=
        rounded_le executor (by rw [hnone] at hsum ⊢; omega)
      rw [Nat.le_zero.mp hzero, Nat.zero_mul]
    · exact Nat.mul_le_mul_right _ (rounded_le executor (by rwa [Nat.mul_comm]))

variable (block : FiveMinutes) {value : ℕ}

theorem small_exactPart : Small block.exactPart where
  weight := block.length_latencies_le.trans block.length_le
  amount := by
    rw [Nat.mul_comm]
    exact block.sum_latencies_le

variable {parts : List Part} {executor : Rollups.Executor} {hour : Hour}

theorem total_amount_le (h : ∀ part ∈ parts, Small part) :
    total Part.amount parts ≤ 4294967295 * total Part.weight parts := by
  induction parts with
  | nil => exact le_rfl
  | cons part rest ih =>
    obtain ⟨hpart, hrest⟩ := List.forall_mem_cons.mp h
    have hamount := hpart.amount
    have hothers := ih hrest
    rw [total_cons, total_cons]
    omega

theorem total_weight_le (h : ∀ part ∈ parts, Small part) :
    total Part.weight parts ≤ 5 * parts.length := by
  induction parts with
  | nil => exact le_rfl
  | cons part rest ih =>
    obtain ⟨hpart, hrest⟩ := List.forall_mem_cons.mp h
    have hweight := hpart.weight
    have hothers := ih hrest
    rw [total_cons, List.length_cons]
    omega

theorem forall_parts {P : Part → Prop}
    (hpart : ∀ (executor : Rollups.Executor) (block : FiveMinutes), P (block.part executor))
    (hexact : ∀ block : FiveMinutes, P block.exactPart) (executor : Rollups.Executor)
    (hour : Hour) : ∀ part ∈ hour.parts executor, P part := by
  intro part hmem
  rcases List.mem_append.mp hmem with hstored | hlast
  · obtain ⟨stored, -, rfl⟩ := List.mem_map.mp hstored
    exact hpart stored.executor stored.block
  · obtain rfl := List.mem_singleton.mp hlast
    cases executor with
    | agent => exact hexact hour.last
    | central => exact hpart .central hour.last

theorem small_parts (executor : Rollups.Executor) (hour : Hour) :
    ∀ part ∈ hour.parts executor, Small part :=
  forall_parts small_part small_exactPart executor hour

theorem totals_le (executor : Rollups.Executor) (hour : Hour) :
    total Part.weight (hour.parts executor) ≤ 60 ∧
      total Part.amount (hour.parts executor) ≤ maxU64 := by
  have hweight := total_weight_le (small_parts executor hour)
  have hamount := total_amount_le (small_parts executor hour)
  have hlength := hour.stored_length_le
  rw [Hour.parts, List.length_append, List.length_map, List.length_singleton] at hweight
  simp only [maxU64]
  rw [Hour.parts] at hamount ⊢
  omega

theorem addStored_row (executor : Rollups.Executor) (rollup : CheckRollup) (stored : StoredBlock)
    (checkPk workspacePk : ℕ) (htotal : rollup.latencyTotal + stored.part.amount ≤ maxU64)
    (hcount : rollup.latencyCount + stored.part.weight ≤ maxU64) :
    (rollup.addStored executor (stored.row checkPk workspacePk)).latencyTotal =
        rollup.latencyTotal + stored.part.amount ∧
      (rollup.addStored executor (stored.row checkPk workspacePk)).latencyCount =
        rollup.latencyCount + stored.part.weight := by
  have haverage := stored.block.average_rollup stored.executor
  obtain ⟨hresults, -, -⟩ := stored.block.rollup_fields stored.executor
  have hsmall := (small_part stored.executor stored.block).amount
  unfold CheckRollup.addStored StoredBlock.row CheckRollup.row
  dsimp only
  rw [haverage, hresults]
  unfold StoredBlock.part FiveMinutes.part at *
  dsimp only at *
  split
  · next hnone =>
    rw [if_pos hnone] at hsmall
    exact ⟨by simp only [Option.map_none, Option.getD_none]; omega, rfl⟩
  · next hsome =>
    rw [if_neg hsome] at hcount
    have htimes : times executor (rounded stored.executor stored.block.latencies.sum
        stored.block.latencies.length) stored.block.readings.length =
          rounded stored.executor stored.block.latencies.sum stored.block.latencies.length *
            stored.block.readings.length := by
      cases executor with
      | agent => exact Nat.min_eq_left (by omega)
      | central => rfl
    simp only [Option.map_some, Option.getD_some, Option.isSome_some, if_true]
    rw [htimes]
    exact ⟨plus_eq executor htotal, plus_eq executor hcount⟩

theorem foldl_addStored (executor : Rollups.Executor) (checkPk workspacePk : ℕ)
    (stored : List StoredBlock) (rollup : CheckRollup)
    (htotal : rollup.latencyTotal + total Part.amount (stored.map StoredBlock.part) ≤ maxU64)
    (hcount : rollup.latencyCount + total Part.weight (stored.map StoredBlock.part) ≤ maxU64) :
    let after := (stored.map fun stored ↦ stored.row checkPk workspacePk).foldl
      (CheckRollup.addStored executor) rollup
    after.latencyTotal =
        rollup.latencyTotal + total Part.amount (stored.map StoredBlock.part) ∧
      after.latencyCount =
        rollup.latencyCount + total Part.weight (stored.map StoredBlock.part) := by
  induction stored generalizing rollup with
  | nil => exact ⟨rfl, rfl⟩
  | cons first rest ih =>
    rw [List.map_cons, total_cons] at htotal hcount
    obtain ⟨hamount, hweight⟩ :=
      addStored_row executor rollup first checkPk workspacePk (by omega) (by omega)
    obtain ⟨hamounts, hweights⟩ :=
      ih (rollup.addStored executor (first.row checkPk workspacePk)) (by omega) (by omega)
    rw [List.map_cons, List.foldl_cons, List.map_cons, total_cons, total_cons]
    dsimp only
    rw [hamounts, hweights, hamount, hweight]
    exact ⟨Nat.add_assoc _ _ _, Nat.add_assoc _ _ _⟩

theorem rollup_latency (executor : Rollups.Executor) (hour : Hour) :
    (hour.rollup executor).latencyTotal = total Part.amount (hour.parts executor) ∧
      (hour.rollup executor).latencyCount = total Part.weight (hour.parts executor) := by
  obtain ⟨hweight, hamount⟩ := totals_le executor hour
  have hbound : 60 ≤ maxU64 := by decide
  simp only [Hour.parts, total_append, total_cons, total_nil, Nat.add_zero] at hweight hamount ⊢
  obtain ⟨htotal, hcount⟩ := foldl_addStored executor hour.checkPk hour.workspacePk hour.stored {}
    (by simp only [Nat.zero_add]; omega) (by simp only [Nat.zero_add]; omega)
  simp only [Nat.zero_add] at htotal hcount
  unfold Hour.rollup CheckRollup.addBucket
  cases executor with
  | agent =>
    obtain ⟨-, hlastCount, hlastTotal⟩ := hour.last.rollup_fields .agent
    dsimp only
    rw [htotal, hcount, hlastTotal, hlastCount]
    exact ⟨plus_eq .agent hamount, plus_eq .agent (hweight.trans hbound)⟩
  | central =>
    have hlast := addStored_row .central
      ((hour.stored.map fun stored ↦ stored.row hour.checkPk hour.workspacePk).foldl
        (CheckRollup.addStored .central) {}) ⟨.central, hour.start, hour.last⟩ hour.checkPk
          hour.workspacePk (by rw [htotal]; exact hamount)
            (by rw [hcount]; exact hweight.trans hbound)
    rw [htotal, hcount] at hlast
    exact hlast

theorem average_eq (executor : Rollups.Executor) (hour : Hour) :
    hour.average executor = if total Part.weight (hour.parts executor) = 0 then none
      else some (rounded executor (total Part.amount (hour.parts executor))
        (total Part.weight (hour.parts executor))) := by
  obtain ⟨htotal, hcount⟩ := rollup_latency executor hour
  have hamount := total_amount_le (small_parts executor hour)
  unfold Hour.average CheckRollup.average
  rw [htotal, hcount]
  split
  · rfl
  · cases executor with
    | agent =>
      have hle : rounded .agent (total Part.amount (hour.parts .agent))
          (total Part.weight (hour.parts .agent)) ≤ 4294967295 := rounded_le .agent hamount
      exact congrArg some (Nat.min_eq_left hle)
    | central => rfl

/-! ## Observations -/

theorem total_count_parts (executor : Rollups.Executor) (hour : Hour) :
    total Part.count (hour.parts executor) = hour.latencies.length := by
  have hlast : (hour.lastPart executor).count = hour.last.latencies.length := by
    cases executor <;> rfl
  rw [Hour.parts, total_append, total_cons, total_nil, hlast, Hour.latencies, List.length_append,
    List.length_flatMap, total, List.map_map]
  rfl

theorem total_sum_parts (executor : Rollups.Executor) (hour : Hour) :
    total Part.sum (hour.parts executor) = hour.latencies.sum := by
  have hlast : (hour.lastPart executor).sum = hour.last.latencies.sum := by
    cases executor <;> rfl
  rw [Hour.parts, total_append, total_cons, total_nil, hlast, Hour.latencies, List.sum_append,
    total, List.map_map, List.flatMap, List.sum_flatten, List.map_map]
  rfl

theorem weight_bounds (executor : Rollups.Executor) (hour : Hour) :
    ∀ part ∈ hour.parts executor,
      part.count ≤ part.weight ∧ (part.weight = 0 ↔ part.count = 0) := by
  apply forall_parts
  · intro worker block
    have hlength := block.length_latencies_le
    unfold FiveMinutes.part
    dsimp only
    split <;> omega
  · exact fun block ↦ ⟨le_rfl, Iff.rfl⟩

theorem total_count_le (executor : Rollups.Executor) (hour : Hour) :
    total Part.count (hour.parts executor) ≤ 60 :=
  (List.sum_le_sum fun part hpart ↦ (weight_bounds executor hour part hpart).1).trans
    (totals_le executor hour).1

theorem total_weight_eq_zero_iff (executor : Rollups.Executor) (hour : Hour) :
    total Part.weight (hour.parts executor) = 0 ↔ hour.latencies = [] := by
  rw [← List.length_eq_zero_iff, ← total_count_parts executor, total_eq_zero_iff,
    total_eq_zero_iff]
  exact forall₂_congr fun part hpart ↦ (weight_bounds executor hour part hpart).2

/-! ## Errors -/

/-- The largest rounding of a mean that enters the hour. -/
def Hour.fiveStep (executor : Rollups.Executor) (hour : Hour) : ℚ :=
  (hour.stored.map fun stored ↦ step stored.executor).foldr max (match executor with
    | .agent => 0
    | .central => step .central)

/-- What is stored is the mean of the latencies of the hour, up to one rounding of the means that
enter and one of the result. -/
def Hour.Accurate (executor : Rollups.Executor) (hour : Hour) : Prop :=
  match hour.average executor with
  | none => hour.latencies = []
  | some value => hour.latencies ≠ [] ∧
      |(value - hour.latencies.sum / hour.latencies.length : ℚ)| ≤
        hour.fiveStep executor + step executor

theorem near_mono {first second : ℚ} (h : first ≤ second) {part : Part}
    (hnear : part.Near first) : part.Near second where
  near := hnear.near.trans (mul_le_mul_of_nonneg_right h
    (mul_nonneg (Nat.cast_nonneg _) (Nat.cast_nonneg _)))
  empty := hnear.empty

theorem near_part (executor : Rollups.Executor) (block : FiveMinutes) :
    (block.part executor).Near (step executor) := by
  rcases Nat.eq_zero_or_pos block.latencies.length with hnone | hsome
  · have hamount := (small_part executor block).amount
    have hsum := block.sum_latencies_le
    rw [hnone, Nat.zero_mul, Nat.le_zero] at hsum
    have hweight : (block.part executor).weight = 0 := if_pos hnone
    rw [hweight, Nat.mul_zero, Nat.le_zero] at hamount
    have hzero : (block.part executor).sum = 0 := hsum
    refine ⟨?_, fun _ ↦ ⟨hamount, hzero⟩⟩
    rw [hamount, hzero, hweight]
    simp
  · have hweight : (block.part executor).weight = block.readings.length := if_neg hsome.ne'
    refine ⟨?_, fun hcount ↦ absurd hcount hsome.ne'⟩
    have hnear := mul_le_mul_of_nonneg_left (rounded_near executor block.latencies.sum hsome)
      (Nat.cast_nonneg (α := ℚ) block.readings.length)
    rw [← abs_of_nonneg (Nat.cast_nonneg (α := ℚ) block.readings.length), ← abs_mul,
      abs_of_nonneg (Nat.cast_nonneg (α := ℚ) block.readings.length)] at hnear
    rw [hweight]
    calc _ = |(block.readings.length * (rounded executor block.latencies.sum
          block.latencies.length * block.latencies.length - block.latencies.sum) : ℚ)| := by
          simp only [FiveMinutes.part]
          push_cast
          congr 1
          ring
      _ ≤ _ := hnear
      _ = _ := by
          simp only [FiveMinutes.part]
          ring

theorem near_exactPart : block.exactPart.Near 0 where
  near := by simp [FiveMinutes.exactPart]
  empty hcount := by
    have hsum := block.sum_latencies_le
    have hnone : block.latencies.length = 0 := hcount
    rw [hnone, Nat.zero_mul, Nat.le_zero] at hsum
    exact ⟨hsum, hsum⟩

theorem le_foldr_max (values : List ℚ) (last : ℚ) :
    last ≤ values.foldr max last ∧ ∀ value ∈ values, value ≤ values.foldr max last := by
  induction values with
  | nil => exact ⟨le_rfl, nofun⟩
  | cons first rest ih =>
    obtain ⟨hlast, hrest⟩ := ih
    refine ⟨hlast.trans (le_max_right _ _), List.forall_mem_cons.mpr ⟨le_max_left _ _, ?_⟩⟩
    intro value hvalue
    exact (hrest value hvalue).trans (le_max_right _ _)

theorem foldr_max_le {values : List ℚ} {last bound : ℚ} (hlast : last ≤ bound)
    (h : ∀ value ∈ values, value ≤ bound) : values.foldr max last ≤ bound := by
  induction values with
  | nil => exact hlast
  | cons first rest ih =>
    obtain ⟨hfirst, hrest⟩ := List.forall_mem_cons.mp h
    exact max_le hfirst (ih hrest)

theorem fiveStep_le (executor : Rollups.Executor) (hour : Hour) : hour.fiveStep executor ≤ 1 := by
  apply foldr_max_le
  · cases executor <;> norm_num [step]
  · intro value hvalue
    obtain ⟨stored, -, rfl⟩ := List.mem_map.mp hvalue
    exact (step_bounds stored.executor).2

theorem near_parts (executor : Rollups.Executor) (hour : Hour) :
    ∀ part ∈ hour.parts executor, part.Near (hour.fiveStep executor) := by
  obtain ⟨hlast, hstored⟩ := le_foldr_max (hour.stored.map fun stored ↦ step stored.executor)
    (match executor with
      | .agent => 0
      | .central => step .central)
  intro part hpart
  rcases List.mem_append.mp hpart with hmem | hmem
  · obtain ⟨stored, hblock, rfl⟩ := List.mem_map.mp hmem
    exact near_mono (hstored _ (List.mem_map_of_mem hblock))
      (near_part stored.executor stored.block)
  · obtain rfl := List.mem_singleton.mp hmem
    cases executor with
    | agent => exact near_mono hlast (near_exactPart hour.last)
    | central => exact near_mono hlast (near_part .central hour.last)

theorem rounded_near_usedMean (executor : Rollups.Executor) (h : total Part.weight parts ≠ 0) :
    |(rounded executor (total Part.amount parts) (total Part.weight parts) - usedMean parts : ℚ)| ≤
      step executor := by
  have hpos : (0 : ℚ) < total Part.weight parts := by exact_mod_cast Nat.pos_of_ne_zero h
  have hnear := rounded_near executor (total Part.amount parts) (Nat.pos_of_ne_zero h)
  rw [usedMean, sub_div' hpos.ne', abs_div, abs_of_pos hpos, div_le_iff₀ hpos]
  exact hnear

theorem exactMean_parts (executor : Rollups.Executor) (hour : Hour) :
    exactMean (hour.parts executor) = hour.latencies.sum / hour.latencies.length := by
  rw [exactMean, total_count_parts, total_sum_parts]

theorem accurate_of_proportional (h : Proportional (hour.parts executor)) :
    hour.Accurate executor := by
  have hzero := total_weight_eq_zero_iff executor hour
  rw [Hour.Accurate, average_eq]
  by_cases hweight : total Part.weight (hour.parts executor) = 0
  · rw [if_pos hweight]
    exact hzero.mp hweight
  · have hsome : hour.latencies ≠ [] := fun hnone ↦ hweight (hzero.mpr hnone)
    have hcount : total Part.count (hour.parts executor) ≠ 0 := by
      rw [total_count_parts]
      exact fun hlength ↦ hsome (List.length_eq_zero_iff.mp hlength)
    have hused := abs_usedMean_sub_le h (near_parts executor hour) hweight hcount
    have hrounded := rounded_near_usedMean executor hweight
    rw [if_neg hweight]
    refine ⟨hsome, ?_⟩
    rw [← exactMean_parts executor hour]
    calc _ ≤ _ := abs_sub_le _ (usedMean (hour.parts executor)) _
      _ ≤ step executor + hour.fiveStep executor := add_le_add hrounded hused
      _ = _ := add_comm _ _

/-! ## Which results have a latency -/

/-- The results of a block, without the values of their latencies. -/
def FiveMinutes.shape (block : FiveMinutes) : List (ResultState × Bool) :=
  block.readings.map fun reading ↦ (reading.1, reading.2.isSome)

/-- The results of an hour, without the values of their latencies. -/
def Hour.shape (hour : Hour) :
    List (Rollups.Executor × List (ResultState × Bool)) × List (ResultState × Bool) :=
  (hour.stored.map fun stored ↦ (stored.executor, stored.block.shape), hour.last.shape)

/-- The same results, with one latency for all of those that have one. -/
def FiveMinutes.fill (value : ℕ) (h : value ≤ 4294967295) (block : FiveMinutes) : FiveMinutes where
  readings := block.readings.map fun reading ↦ (reading.1, reading.2.map fun _ ↦ value)
  length_le := by
    rw [List.length_map]
    exact block.length_le
  latency_le := by
    intro reading hreading latency hlatency
    obtain ⟨old, -, rfl⟩ := List.mem_map.mp hreading
    obtain ⟨other, -, rfl⟩ := Option.mem_map.mp hlatency
    exact h

def StoredBlock.fill (value : ℕ) (h : value ≤ 4294967295) (stored : StoredBlock) : StoredBlock :=
  { stored with block := stored.block.fill value h }

section Fill

variable {value : ℕ} (h : value ≤ 4294967295) (block : FiveMinutes)

theorem shape_fill : (block.fill value h).shape = block.shape := by
  rw [FiveMinutes.shape, FiveMinutes.fill, List.map_map, FiveMinutes.shape]
  apply List.map_congr_left
  intro reading _
  simp only [Function.comp_apply, Option.isSome_map]

theorem latencies_fill :
    (block.fill value h).latencies = List.replicate block.latencies.length value := by
  unfold FiveMinutes.latencies FiveMinutes.fill
  dsimp only
  generalize block.readings = readings
  induction readings with
  | nil => rfl
  | cons reading rest ih =>
    obtain ⟨state, latency⟩ := reading
    cases latency with
    | none => exact ih
    | some latency => exact congrArg (value :: ·) ih

theorem length_readings_fill : (block.fill value h).readings.length = block.readings.length :=
  List.length_map _

end Fill

theorem rounded_mul (executor : Rollups.Executor) (value : ℕ) {count : ℕ} (hcount : 0 < count) :
    rounded executor (count * value) count = value := by
  cases executor with
  | agent => exact Nat.mul_div_cancel_left value hcount
  | central =>
    have hsplit : 2 * (count * value) + count = count + 2 * count * value := by ring
    have hsmall : count / (2 * count) = 0 := Nat.div_eq_of_lt (by omega)
    rw [rounded, hsplit, Nat.add_mul_div_left _ _ (by omega), hsmall, Nat.zero_add]

theorem part_fill (executor : Rollups.Executor) (h : value ≤ 4294967295) (block : FiveMinutes) :
    (block.fill value h).part executor = (block.part executor).constant value := by
  unfold FiveMinutes.part Part.constant
  dsimp only
  rw [latencies_fill, length_readings_fill, List.length_replicate, List.sum_replicate, smul_eq_mul]
  rcases Nat.eq_zero_or_pos block.latencies.length with hnone | hsome
  · rw [hnone, if_pos rfl]
    have hzero : rounded executor (0 * value) 0 ≤ 0 := rounded_le executor (by omega)
    rw [Nat.le_zero.mp hzero]
    simp
  · rw [rounded_mul executor value hsome, if_neg hsome.ne', Nat.mul_comm block.latencies.length]

theorem exactPart_fill (h : value ≤ 4294967295) (block : FiveMinutes) :
    (block.fill value h).exactPart = block.exactPart.constant value := by
  unfold FiveMinutes.exactPart Part.constant
  rw [latencies_fill, List.length_replicate, List.sum_replicate, smul_eq_mul, Nat.mul_comm]

theorem length_latencies_eq_countP : block.latencies.length = block.shape.countP Prod.snd := by
  unfold FiveMinutes.latencies FiveMinutes.shape
  rw [List.countP_map]
  generalize block.readings = readings
  induction readings with
  | nil => rfl
  | cons reading rest ih =>
    obtain ⟨state, latency⟩ := reading
    cases latency with
    | none => exact ih
    | some latency =>
      rw [List.countP_cons_of_pos rfl]
      exact congrArg Nat.succ ih

/-- The weight and the number of latencies of a block, from its shape. -/
def shapeWeights (shape : List (ResultState × Bool)) : ℕ × ℕ :=
  (if shape.countP Prod.snd = 0 then 0 else shape.length, shape.countP Prod.snd)

theorem weights_part (executor : Rollups.Executor) (block : FiveMinutes) :
    ((block.part executor).weight, (block.part executor).count) = shapeWeights block.shape := by
  have hlength : block.readings.length = block.shape.length := (List.length_map _).symm
  unfold FiveMinutes.part shapeWeights
  rw [length_latencies_eq_countP, hlength]

theorem weights_parts (executor : Rollups.Executor) (hour : Hour) :
    weights (hour.parts executor) = (hour.shape.1.map fun stored ↦ shapeWeights stored.2) ++
      [match executor with
        | .agent => (hour.shape.2.countP Prod.snd, hour.shape.2.countP Prod.snd)
        | .central => shapeWeights hour.shape.2] := by
  rw [weights, Hour.parts, List.map_append, List.map_map, Hour.shape, List.map_map]
  congr 1
  · exact List.map_congr_left fun stored _ ↦ weights_part stored.executor stored.block
  · cases executor with
    | agent =>
      rw [← length_latencies_eq_countP]
      rfl
    | central => exact congrArg (fun pair ↦ [pair]) (weights_part .central hour.last)

theorem weights_of_shape (executor : Rollups.Executor) {hour other : Hour}
    (h : other.shape = hour.shape) :
    weights (other.parts executor) = weights (hour.parts executor) := by
  rw [weights_parts, weights_parts, h]

/-! ## Weights that are out of proportion -/

/-- Large enough to show through the roundings. -/
def spike : ℕ := 14400

theorem spike_le : spike ≤ 4294967295 := by decide

theorem not_accurate_of_spike {before after : List Part} {part : Part}
    (hparts : hour.parts executor = before ++ part :: after)
    (hothers : ∀ other ∈ before ++ after, other.amount = 0 ∧ other.sum = 0)
    (hpart : part = part.constant spike)
    (hprop : part.weight * total Part.count (hour.parts executor) ≠
      part.count * total Part.weight (hour.parts executor)) :
    ¬ hour.Accurate executor := by
  have hzero := total_weight_eq_zero_iff executor hour
  have hcount := total_count_parts executor hour
  have hweight : total Part.weight (hour.parts executor) ≠ 0 := by
    intro hnone
    rw [hcount, hzero.mp hnone, hnone, List.length_nil] at hprop
    exact hprop rfl
  have hlatencies : hour.latencies ≠ [] := fun hnone ↦ hweight (hzero.mpr hnone)
  have hcounts : total Part.count (hour.parts executor) ≠ 0 := by
    rw [hcount]
    exact fun hlength ↦ hlatencies (List.length_eq_zero_iff.mp hlength)
  have hweights := (totals_le executor hour).1
  have hcountsLe : total Part.count (hour.parts executor) ≤ 60 := total_count_le executor hour
  have hgap : (4 : ℚ) ≤ |usedMean (hour.parts executor) - exactMean (hour.parts executor)| := by
    rw [hparts] at hprop hweight hcounts hweights hcountsLe ⊢
    refine le_trans ?_ (abs_usedMean_sub_of_spike hothers hpart hweight hcounts hprop)
    have hpos : 0 < total Part.weight (before ++ part :: after) *
        total Part.count (before ++ part :: after) :=
      Nat.mul_pos (Nat.pos_of_ne_zero hweight) (Nat.pos_of_ne_zero hcounts)
    have hle := Nat.mul_le_mul hweights hcountsLe
    rw [le_div_iff₀ (by exact_mod_cast hpos)]
    have hspike : 4 * (total Part.weight (before ++ part :: after) *
        total Part.count (before ++ part :: after)) ≤ spike := by
      rw [spike]
      omega
    exact_mod_cast hspike
  have hrounded := rounded_near_usedMean executor hweight
  have hstep := (step_bounds executor).2
  have hfive := fiveStep_le executor hour
  rw [Hour.Accurate, average_eq, if_neg hweight]
  rintro ⟨-, hnear⟩
  rw [← exactMean_parts executor hour] at hnear
  rw [abs_sub_comm] at hrounded
  have htriangle := abs_sub_le (usedMean (hour.parts executor))
    (rounded executor (total Part.amount (hour.parts executor))
      (total Part.weight (hour.parts executor)) : ℚ) (exactMean (hour.parts executor))
  linarith

/-- The hour with the same results and other latencies. -/
def Hour.refill (hour : Hour) (stored : List StoredBlock) (last : FiveMinutes)
    (h : stored.length = hour.stored.length) : Hour :=
  { hour with
    stored := stored
    stored_length_le := h.trans_le hour.stored_length_le
    last := last }

theorem lastPart_refill (executor : Rollups.Executor) (hour : Hour) (hvalue : value ≤ 4294967295)
    {stored : List StoredBlock} (h : stored.length = hour.stored.length) :
    (hour.refill stored (hour.last.fill value hvalue) h).lastPart executor =
      (hour.lastPart executor).constant value := by
  cases executor with
  | agent => exact exactPart_fill hvalue hour.last
  | central => exact part_fill .central hvalue hour.last

/-- The blocks with no latency above zero. -/
def zeroed (blocks : List StoredBlock) : List StoredBlock :=
  blocks.map (StoredBlock.fill 0 (Nat.zero_le _))

theorem parts_zeroed (blocks : List StoredBlock) :
    (zeroed blocks).map StoredBlock.part =
      (blocks.map StoredBlock.part).map (Part.constant 0) := by
  rw [zeroed, List.map_map, List.map_map]
  exact List.map_congr_left fun stored _ ↦ part_fill stored.executor (Nat.zero_le _) stored.block

def StoredBlock.shape (stored : StoredBlock) : Rollups.Executor × List (ResultState × Bool) :=
  (stored.executor, stored.block.shape)

theorem storedShape_fill (h : value ≤ 4294967295) (stored : StoredBlock) :
    (stored.fill value h).shape = stored.shape :=
  congrArg (Prod.mk stored.executor) (shape_fill h stored.block)

theorem shapes_zeroed (blocks : List StoredBlock) :
    (zeroed blocks).map StoredBlock.shape = blocks.map StoredBlock.shape := by
  rw [zeroed, List.map_map]
  exact List.map_congr_left fun stored _ ↦ storedShape_fill (Nat.zero_le _) stored

theorem constant_zero_of_mem {other : Part} (h : other ∈ parts.map (Part.constant 0)) :
    other.amount = 0 ∧ other.sum = 0 := by
  obtain ⟨part, -, rfl⟩ := List.mem_map.mp h
  exact ⟨Nat.zero_mul _, Nat.zero_mul _⟩

theorem exists_not_accurate (h : ¬ Proportional (hour.parts executor)) :
    ∃ other : Hour, other.shape = hour.shape ∧ ¬ other.Accurate executor := by
  unfold Proportional at h
  push Not at h
  obtain ⟨part, hpart, hprop⟩ := h
  have hstill : ∀ other : Hour, other.shape = hour.shape →
      (part.constant spike).weight * total Part.count (other.parts executor) ≠
        (part.constant spike).count * total Part.weight (other.parts executor) := by
    intro other hshape
    obtain ⟨hweight, hcount⟩ := totals_congr (weights_of_shape executor hshape)
    rwa [hweight, hcount]
  rcases List.mem_append.mp hpart with hmem | hmem
  · -- a stored row is out of proportion
    obtain ⟨stored, hstored, rfl⟩ := List.mem_map.mp hmem
    obtain ⟨before, after, hsplit⟩ := List.append_of_mem hstored
    let blocks := zeroed before ++ stored.fill spike spike_le :: zeroed after
    have hlength : blocks.length = hour.stored.length := by simp [blocks, zeroed, hsplit]
    let other := hour.refill blocks (hour.last.fill 0 (Nat.zero_le _)) hlength
    have hshape : other.shape = hour.shape := by
      have hblocks : blocks.map StoredBlock.shape = hour.stored.map StoredBlock.shape := by
        simp only [blocks, hsplit, List.map_append, List.map_cons, shapes_zeroed,
          storedShape_fill]
      exact congrArg₂ Prod.mk hblocks (shape_fill (Nat.zero_le _) hour.last)
    have hparts : other.parts executor =
        (before.map StoredBlock.part).map (Part.constant 0) ++ stored.part.constant spike ::
          ((after.map StoredBlock.part).map (Part.constant 0) ++
            [(hour.lastPart executor).constant 0]) := by
      have hlast : other.lastPart executor = (hour.lastPart executor).constant 0 :=
        lastPart_refill executor hour (Nat.zero_le _) hlength
      have hspike : (stored.fill spike spike_le).part = stored.part.constant spike :=
        part_fill stored.executor spike_le stored.block
      have hblocks : other.stored = blocks := rfl
      simp only [Hour.parts, hlast, hblocks, blocks, List.map_append, List.map_cons, parts_zeroed,
        hspike, List.append_assoc, List.cons_append]
    refine ⟨other, hshape, not_accurate_of_spike hparts ?_ rfl (hstill other hshape)⟩
    intro zero hzero
    rcases List.mem_append.mp hzero with hbefore | hafter
    · exact constant_zero_of_mem hbefore
    · rcases List.mem_append.mp hafter with hafter | hlast
      · exact constant_zero_of_mem hafter
      · obtain rfl := List.mem_singleton.mp hlast
        exact ⟨Nat.zero_mul _, Nat.zero_mul _⟩
  · -- the last block is
    obtain rfl := List.mem_singleton.mp hmem
    have hlength : (zeroed hour.stored).length = hour.stored.length := List.length_map _
    let other := hour.refill (zeroed hour.stored) (hour.last.fill spike spike_le) hlength
    have hshape : other.shape = hour.shape :=
      congrArg₂ Prod.mk (shapes_zeroed hour.stored) (shape_fill spike_le hour.last)
    have hparts : other.parts executor = (hour.stored.map StoredBlock.part).map (Part.constant 0) ++
        (hour.lastPart executor).constant spike :: [] :=
      congrArg₂ (fun first last ↦ first ++ [last]) (parts_zeroed hour.stored)
        (lastPart_refill executor hour spike_le hlength)
    refine ⟨other, hshape, not_accurate_of_spike hparts ?_ rfl (hstill other hshape)⟩
    intro zero hzero
    rw [List.append_nil] at hzero
    exact constant_zero_of_mem hzero

theorem forall_accurate_iff (executor : Rollups.Executor) (hour : Hour) :
    (∀ other : Hour, other.shape = hour.shape → other.Accurate executor) ↔
      Proportional (hour.parts executor) := by
  constructor
  · intro hall
    by_contra hprop
    obtain ⟨other, hshape, hother⟩ := exists_not_accurate hprop
    exact hother (hall other hshape)
  · intro hprop other hshape
    have hweights := weights_of_shape executor hshape
    exact accurate_of_proportional ((proportional_congr hweights).mpr hprop)

/-! ## The same integer -/

/-- The part of a millisecond that the ingest worker truncates, with what rounding the last block
adds to it, is less than half. -/
def Hour.Half (hour : Hour) : Prop :=
  let weight := total Part.weight (hour.parts .agent)
  let amount := total Part.amount (hour.parts .agent)
  let last := hour.last.latencies
  0 < weight →
    2 * (amount % weight + rounded .central last.sum last.length * last.length) <
      weight + 2 * last.sum

theorem div_eq_rounded_iff {amount other exact near weight : ℕ} (hweight : 0 < weight)
    (hother : other + exact = amount + near) (hnear : 2 * exact ≤ 2 * near + weight) :
    amount / weight = rounded .central other weight ↔
      2 * (amount % weight + near) < weight + 2 * exact := by
  have hdiv := Nat.div_add_mod' amount weight
  have hmod := Nat.mod_lt amount hweight
  rw [rounded, eq_comm, Nat.div_eq_iff (by omega)]
  have hscaled : amount / weight * (2 * weight) = 2 * (amount / weight * weight) := by ring
  generalize amount / weight * weight = whole at *
  rw [hscaled]
  omega

theorem sum_le_rounded :
    2 * block.latencies.sum ≤ 2 * (rounded .central block.latencies.sum block.latencies.length *
      block.latencies.length) + block.latencies.length := by
  rcases Nat.eq_zero_or_pos block.latencies.length with hnone | hsome
  · have hsum := block.sum_latencies_le
    omega
  · obtain ⟨-, hlt⟩ := mul_div_bounds (2 * block.latencies.sum + block.latencies.length)
      (show 0 < 2 * block.latencies.length by omega)
    have hscaled : rounded .central block.latencies.sum block.latencies.length *
        (2 * block.latencies.length) = 2 * (rounded .central block.latencies.sum
          block.latencies.length * block.latencies.length) := by ring
    rw [← hscaled]
    simp only [rounded]
    omega

/-- With weights in proportion for both workers: the checks worker rounds the same amount, but for
the rounding of the last block. -/
theorem rounded_parts_central (hagent : Proportional (hour.parts .agent))
    (hcentral : Proportional (hour.parts .central)) :
    ∃ other, other + hour.last.latencies.sum = total Part.amount (hour.parts .agent) +
        rounded .central hour.last.latencies.sum hour.last.latencies.length *
          hour.last.latencies.length ∧
      rounded .central (total Part.amount (hour.parts .central))
          (total Part.weight (hour.parts .central)) =
        rounded .central other (total Part.weight (hour.parts .agent)) := by
  have hlastAgent := hagent (hour.lastPart .agent)
    (List.mem_append.mpr (.inr (List.mem_singleton_self _)))
  have hlastCentral := hcentral (hour.lastPart .central)
    (List.mem_append.mpr (.inr (List.mem_singleton_self _)))
  have hstored : total Part.amount (hour.stored.map StoredBlock.part) ≤
      4294967295 * total Part.weight (hour.stored.map StoredBlock.part) := by
    apply total_amount_le
    intro part hpart
    exact small_parts .agent hour part (List.mem_append.mpr (.inl hpart))
  have hsum := hour.last.sum_latencies_le
  simp only [Hour.parts, total_append, total_cons, total_nil, Nat.add_zero] at *
  generalize total Part.amount (hour.stored.map StoredBlock.part) = amounts at *
  generalize total Part.weight (hour.stored.map StoredBlock.part) = weights at *
  generalize total Part.count (hour.stored.map StoredBlock.part) = counts at *
  simp only [Hour.lastPart, FiveMinutes.exactPart, FiveMinutes.part] at *
  rcases Nat.eq_zero_or_pos hour.last.latencies.length with hnone | hsome
  · -- the last block has no latency
    rw [hnone, Nat.zero_mul, Nat.le_zero] at hsum
    have hzero : rounded .central 0 0 = 0 := rfl
    rw [hnone, hsum, hzero, if_pos rfl]
    exact ⟨amounts, by omega, by simp⟩
  · rw [if_neg hsome.ne'] at hlastCentral ⊢
    have hcounts : counts = weights := by
      have hcancel := Nat.eq_of_mul_eq_mul_left hsome hlastAgent
      omega
    have hcross : hour.last.readings.length * weights =
        hour.last.latencies.length * weights := by
      rw [hcounts, Nat.mul_add, Nat.mul_add, Nat.mul_comm hour.last.latencies.length
        hour.last.readings.length] at hlastCentral
      omega
    rcases Nat.eq_zero_or_pos weights with hweights | hweights
    · -- only the last block has latencies
      have hamounts : amounts = 0 := by omega
      have hreadings : 0 < hour.last.readings.length :=
        hsome.trans_le hour.last.length_latencies_le
      rw [hamounts, hweights, Nat.zero_add, Nat.zero_add, Nat.zero_add, Nat.zero_add,
        Nat.mul_comm _ hour.last.readings.length, rounded_mul .central _ hreadings]
      refine ⟨hour.last.latencies.length * rounded .central hour.last.latencies.sum
        hour.last.latencies.length, ?_, (rounded_mul .central _ hsome).symm⟩
      rw [Nat.mul_comm, Nat.add_comm]
    · -- every result of the last block has a latency
      rw [Nat.eq_of_mul_eq_mul_right hweights hcross]
      exact ⟨_, by omega, rfl⟩

theorem averages_eq_iff (hagent : Proportional (hour.parts .agent))
    (hcentral : Proportional (hour.parts .central)) :
    hour.average .agent = hour.average .central ↔ hour.Half := by
  have hzeroAgent := total_weight_eq_zero_iff .agent hour
  have hzeroCentral := total_weight_eq_zero_iff .central hour
  rw [average_eq, average_eq]
  by_cases hnone : hour.latencies = []
  · rw [if_pos (hzeroAgent.mpr hnone), if_pos (hzeroCentral.mpr hnone)]
    refine iff_of_true rfl fun hpos ↦ ?_
    exact absurd (hzeroAgent.mpr hnone) hpos.ne'
  · have hweight : 0 < total Part.weight (hour.parts .agent) :=
      Nat.pos_of_ne_zero fun hzero ↦ hnone (hzeroAgent.mp hzero)
    obtain ⟨other, hother, hrounded⟩ := rounded_parts_central hagent hcentral
    have hcount : hour.last.latencies.length ≤ total Part.weight (hour.parts .agent) := by
      simp only [Hour.parts, total_append, total_cons]
      exact le_trans (Nat.le_add_right _ _) (Nat.le_add_left _ _)
    have hnear := sum_le_rounded hour.last
    rw [if_neg fun hzero ↦ hnone (hzeroAgent.mp hzero),
      if_neg fun hzero ↦ hnone (hzeroCentral.mp hzero), Option.some.injEq, hrounded]
    rw [rounded, div_eq_rounded_iff hweight hother (by omega)]
    exact ⟨fun hlt _ ↦ hlt, fun hhalf ↦ hhalf hweight⟩

/-- The hourly mean is the mean of the latencies of the hour, up to rounding, whatever the
latencies of its results are, and both workers store the same integer for these ones, exactly when
the weights are in proportion for both of them and less than half a millisecond is truncated. -/
theorem hourly_average_iff (hour : Hour) :
    ((∀ (executor : Rollups.Executor) (other : Hour), other.shape = hour.shape →
        other.Accurate executor) ∧ hour.average .agent = hour.average .central) ↔
      (∀ executor : Rollups.Executor, Proportional (hour.parts executor)) ∧ hour.Half := by
  constructor
  · rintro ⟨haccurate, hsame⟩
    have hprop : ∀ executor : Rollups.Executor, Proportional (hour.parts executor) :=
      fun executor ↦ (forall_accurate_iff executor hour).mp (haccurate executor)
    exact ⟨hprop, (averages_eq_iff (hprop .agent) (hprop .central)).mp hsame⟩
  · rintro ⟨hprop, hhalf⟩
    exact ⟨fun executor ↦ (forall_accurate_iff executor hour).mpr (hprop executor),
      (averages_eq_iff (hprop .agent) (hprop .central)).mpr hhalf⟩

/-- Five results, with these latencies. -/
def sampleBlock (first second third fourth fifth : Option ℕ)
    (h : ∀ latency ∈ [first, second, third, fourth, fifth], ∀ value ∈ latency,
      value ≤ 4294967295) : FiveMinutes where
  readings := [first, second, third, fourth, fifth].map fun latency ↦
    (if latency.isSome then .healthy else .down, latency)
  length_le := le_rfl
  latency_le := by
    intro reading hreading
    obtain ⟨latency, hlatency, rfl⟩ := List.mem_map.mp hreading
    exact h latency hlatency

/-- A block whose check answered once, and a block in which it always answered. -/
def mixedHour : Hour where
  checkPk := 1
  workspacePk := 1
  stored := [⟨.agent, 0, sampleBlock (some 1000) none none none none (by decide)⟩]
  stored_length_le := by decide
  start := 3300000
  last := sampleBlock (some 100) (some 100) (some 100) (some 100) (some 100) (by decide)

/-- A block whose check answered twice, in one and in two milliseconds. -/
def halfHour : Hour where
  checkPk := 1
  workspacePk := 1
  stored := []
  stored_length_le := by decide
  start := 3300000
  last := sampleBlock (some 1) (some 2) none none none (by decide)

/-- The mean latency of six results is 250, and both workers store 550; where the mean is one and
a half, one of them stores 1 and the other 2. -/
theorem mixed_hour_not_accurate :
    (¬ mixedHour.Accurate .agent ∧ ¬ mixedHour.Accurate .central) ∧
      halfHour.average .agent ≠ halfHour.average .central := by
  have haverage : ∀ executor : Rollups.Executor, mixedHour.average executor = some 550 := by
    intro executor
    cases executor <;> decide
  have hlatencies : mixedHour.latencies.sum = 1500 ∧ mixedHour.latencies.length = 6 := by decide
  have hnot : ∀ executor : Rollups.Executor, ¬ mixedHour.Accurate executor := by
    intro executor haccurate
    rw [Hour.Accurate, haverage, hlatencies.1, hlatencies.2] at haccurate
    have hfive := fiveStep_le executor mixedHour
    have hstep := (step_bounds executor).2
    have hnear := (le_abs_self _).trans haccurate.2
    norm_num at hnear
    linarith
  exact ⟨⟨hnot .agent, hnot .central⟩, by decide⟩

end AlphaPing.Checks.HourlyLatency
