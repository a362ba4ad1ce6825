import AlphaPing.Agent.Spool.Deliveries
import Mathlib.Data.Rat.Defs

/-!
# Capacity of the spool

`enforce_capacity` runs after every sample. Under pressure it thins out old unassigned samples,
keeping the newest of each minute or of each five minutes; at the limit it evicts quarantined
deliveries, whose samples become unassigned again, and then drops the oldest unassigned ones.
Only the last step leaves a trace in `data_gaps`.

What the file system and the database report about space are inputs, each read when the code
reads it. The fill ratio, which the code divides in floating point, is one of them.
-/

namespace AlphaPing.Agent

open Library.Tables

def minFreeBytes : ℕ := 268435456

def hourMs : ℤ := 3600000

def dayMs : ℤ := 86400000

def compactionScanBatch : ℕ := 6000

structure CapacityOutcome where
  compactedSamples : ℕ := 0
  droppedSamples : ℕ := 0
  evictedDeliveries : ℕ := 0

structure StorageUsage where
  liveBytes : ℕ
  freePages : ℕ
  pageLimitBytes : ℕ

/-- The readings that one call makes: before compaction, and again after it. -/
structure StorageReadings where
  usage : StorageUsage
  free : ℕ
  total : ℕ
  ratio : ℚ
  usageAfter : StorageUsage
  freeAfter : ℕ

namespace Spool

/-- The unassigned samples that one compaction statement looks at. -/
def compactionCandidates (spool : Spool) (before : Option ℤ) : List SampleRow :=
  selectOrdered SampleRow.sampleBucket compactionScanBatch
    (spool.unassigned.filter fun row ↦ before.all fun limit ↦ row.observedAt < limit)

/-- `rank > 1`: a newer candidate shares the partition. -/
def outranked (width : ℤ) (candidates : List SampleRow) (row : SampleRow) : Bool :=
  candidates.any fun other ↦
    other.observedAt.tdiv width == row.observedAt.tdiv width &&
      decide (row.observedAt < other.observedAt)

/-- The rows of one compaction statement, in the order of its window. -/
def compacted (spool : Spool) (before : Option ℤ) (width : ℤ) (limit : ℕ) : List SampleRow :=
  let candidates := spool.compactionCandidates before
  selectOrdered (fun row : SampleRow ↦ toLex (row.observedAt.tdiv width, -row.observedAt)) limit
    (candidates.filter (outranked width candidates))

/-- `DELETE FROM samples WHERE id IN …`. -/
def deleteSamples (spool : Spool) (rows : List SampleRow) : Spool :=
  { spool with
    samples := spool.samples.filter fun row ↦ !(rows.map SampleRow.id).contains row.id }

/-- One compaction statement. -/
def compact (spool : Spool) (before : Option ℤ) (width : ℤ) (limit : ℕ) : ℕ × Spool :=
  let rows := spool.compacted before width limit
  (rows.length, spool.deleteSamples rows)

/-- The quarantined deliveries that are evicted first. -/
def evictable (spool : Spool) : List DeliveryRow :=
  selectOrdered DeliveryRow.nominalMinute 64
    (spool.deliveries.filter fun row ↦ row.state == .quarantined)

def evictQuarantined (spool : Spool) : ℕ × Spool :=
  let chosen := spool.evictable.map DeliveryRow.reportId
  (chosen.length, spool.deleteDeliveries fun row ↦ chosen.contains row.reportId)

/-- The oldest unassigned samples. -/
def droppable (spool : Spool) : List SampleRow :=
  selectOrdered SampleRow.observedAt 1000 spool.unassigned

def dropOldest (spool : Spool) : ℕ × Spool :=
  (spool.droppable.length, spool.deleteSamples spool.droppable)

/-- The upsert of `data_gaps`. -/
def recordGap (spool : Spool) (dropped : ℕ) (nowMs : ℤ) : Spool :=
  let hour := nowMs / hourMs * hourMs
  if spool.dataGaps.any fun row ↦ row.hourStart == hour then
    { spool with
      dataGaps := updateWhere (fun row ↦ row.hourStart == hour)
        (fun row ↦ { row with
          droppedSamples := row.droppedSamples + dropped, updatedAt := nowMs }) spool.dataGaps }
  else
    { spool with
      dataGaps := spool.dataGaps ++
        [{ hourStart := hour
           droppedSamples := dropped
           reason := "spool_pressure"
           updatedAt := nowMs }] }

/-- The three compaction statements. -/
def compactAll (spool : Spool) (ratio : ℚ) (lowOnSpace : Bool) (nowMs : ℤ) : ℕ × Spool :=
  let (first, spool) := spool.compact (some (nowMs - dayMs)) 60000 1000
  let (second, spool) :=
    if ratio ≥ 85 / 100 || lowOnSpace then spool.compact (some (nowMs - 7 * dayMs)) 300000 1000
    else (0, spool)
  let (third, spool) :=
    if ratio ≥ 95 / 100 then spool.compact none 300000 5000 else (0, spool)
  (first + second + third, spool)

/-- Eviction and dropping, with the gap that they leave. -/
def relieve (spool : Spool) (nowMs : ℤ) : ℕ × ℕ × Spool :=
  let (evicted, spool) := spool.evictQuarantined
  let (dropped, spool) := spool.dropOldest
  (evicted, dropped, if 0 < dropped then spool.recordGap dropped nowMs else spool)

def enforceCapacity (spool : Spool) (maxBytes : ℕ) (readings : StorageReadings) (nowMs : ℤ) :
    CapacityOutcome × Spool :=
  let reserve := max minFreeBytes (readings.total / 20)
  let budget := max (min maxBytes readings.usage.pageLimitBytes) 1
  if readings.ratio < 70 / 100 ∧ reserve ≤ readings.free then ({}, spool)
  else
    let (compactedSamples, spool) :=
      spool.compactAll readings.ratio (decide (readings.free < reserve)) nowMs
    if budget ≤ readings.usageAfter.liveBytes ∨
        (readings.freeAfter < reserve ∧ readings.usageAfter.freePages = 0) then
      let (evictedDeliveries, droppedSamples, spool) := spool.relieve nowMs
      ({ compactedSamples, droppedSamples, evictedDeliveries }, spool)
    else ({ compactedSamples }, spool)

/-! ## The single statements -/

/-- The compaction statements that the readings ask for. -/
def compactionStatements (ratio : ℚ) (lowOnSpace : Bool) (nowMs : ℤ) : List (Spool → Spool) :=
  [fun spool ↦ (spool.compact (some (nowMs - dayMs)) 60000 1000).2] ++
    (if ratio ≥ 85 / 100 || lowOnSpace then
      [fun spool ↦ (spool.compact (some (nowMs - 7 * dayMs)) 300000 1000).2] else []) ++
    (if ratio ≥ 95 / 100 then [fun spool ↦ (spool.compact none 300000 5000).2] else [])

/-- The statements of one call up to the gap record. -/
def capacityStatements (maxBytes : ℕ) (readings : StorageReadings) (nowMs : ℤ) :
    List (Spool → Spool) :=
  let reserve := max minFreeBytes (readings.total / 20)
  let budget := max (min maxBytes readings.usage.pageLimitBytes) 1
  if readings.ratio < 70 / 100 ∧ reserve ≤ readings.free then []
  else
    compactionStatements readings.ratio (decide (readings.free < reserve)) nowMs ++
      if budget ≤ readings.usageAfter.liveBytes ∨
          (readings.freeAfter < reserve ∧ readings.usageAfter.freePages = 0) then
        [fun spool ↦ spool.evictQuarantined.2, fun spool ↦ spool.dropOldest.2]
      else []

/-- Perform statements in their order. -/
def perform (spool : Spool) (statements : List (Spool → Spool)) : Spool :=
  statements.foldl (fun spool statement ↦ statement spool) spool

def statesAfter (spool : Spool) : List (Spool → Spool) → List Spool
  | [] => []
  | statement :: rest => statement spool :: statesAfter (statement spool) rest

theorem perform_append (spool : Spool) (first second : List (Spool → Spool)) :
    spool.perform (first ++ second) = (spool.perform first).perform second :=
  List.foldl_append

theorem compactAll_eq (spool : Spool) (ratio : ℚ) (lowOnSpace : Bool) (nowMs : ℤ) :
    (spool.compactAll ratio lowOnSpace nowMs).2 =
      spool.perform (compactionStatements ratio lowOnSpace nowMs) := by
  unfold compactAll compactionStatements
  generalize (decide (ratio ≥ 85 / 100) || lowOnSpace) = high
  by_cases hfull : ratio ≥ 95 / 100
  · simp only [if_pos hfull]
    cases high <;> rfl
  · simp only [if_neg hfull]
    cases high <;> rfl

theorem enforceCapacity_eq (spool : Spool) (maxBytes : ℕ) (readings : StorageReadings) (nowMs : ℤ) :
    (spool.enforceCapacity maxBytes readings nowMs).2 =
      if 0 < (spool.enforceCapacity maxBytes readings nowMs).1.droppedSamples then
        (spool.perform (capacityStatements maxBytes readings nowMs)).recordGap
          (spool.enforceCapacity maxBytes readings nowMs).1.droppedSamples nowMs
      else spool.perform (capacityStatements maxBytes readings nowMs) := by
  unfold enforceCapacity capacityStatements
  dsimp only
  split
  · rfl
  · rw [perform_append, ← compactAll_eq]
    split <;> rfl

/-- The statements of a capacity call and what each of them deletes. -/
inductive CapacityStatement : (Spool → Spool) → Prop where
  | compact (before : Option ℤ) (width : ℤ) (limit : ℕ) :
    CapacityStatement fun spool ↦ (spool.compact before width limit).2
  | evict : CapacityStatement fun spool ↦ spool.evictQuarantined.2
  | drop : CapacityStatement fun spool ↦ spool.dropOldest.2

theorem capacityStatement_of_mem {maxBytes : ℕ} {readings : StorageReadings} {nowMs : ℤ}
    {statement : Spool → Spool} (h : statement ∈ capacityStatements maxBytes readings nowMs) :
    CapacityStatement statement := by
  unfold capacityStatements compactionStatements at h
  dsimp only at h
  split at h
  · exact absurd h List.not_mem_nil
  · rcases List.mem_append.mp h with hcompaction | hpressure
    · rcases List.mem_append.mp hcompaction with hfirst | hthird
      · rcases List.mem_append.mp hfirst with hone | htwo
        · rw [List.mem_singleton.mp hone]
          exact .compact _ _ _
        · split at htwo
          · rw [List.mem_singleton.mp htwo]
            exact .compact _ _ _
          · exact absurd htwo List.not_mem_nil
      · split at hthird
        · rw [List.mem_singleton.mp hthird]
          exact .compact _ _ _
        · exact absurd hthird List.not_mem_nil
    · split at hpressure
      · rcases List.mem_cons.mp hpressure with rfl | hlast
        · exact .evict
        · rw [List.mem_singleton.mp hlast]
          exact .drop
      · exact absurd hpressure List.not_mem_nil

theorem perform_invariant {P : Spool → Prop} {statements : List (Spool → Spool)}
    (h : ∀ statement ∈ statements, ∀ spool, P spool → P (statement spool)) {spool : Spool}
    (hspool : P spool) : P (spool.perform statements) := by
  induction statements generalizing spool with
  | nil => exact hspool
  | cons statement rest ih =>
    obtain ⟨hfirst, hrest⟩ := List.forall_mem_cons.mp h
    exact ih hrest (hfirst spool hspool)

theorem statesAfter_invariant {P : Spool → Prop} {statements : List (Spool → Spool)}
    (h : ∀ statement ∈ statements, ∀ spool, P spool → P (statement spool)) {spool : Spool}
    (hspool : P spool) : ∀ state ∈ spool.statesAfter statements, P state := by
  induction statements generalizing spool with
  | nil => exact fun _ hstate ↦ absurd hstate List.not_mem_nil
  | cons statement rest ih =>
    obtain ⟨hfirst, hrest⟩ := List.forall_mem_cons.mp h
    exact List.forall_mem_cons.mpr ⟨hfirst spool hspool, ih hrest (hfirst spool hspool)⟩

end Spool

end AlphaPing.Agent
