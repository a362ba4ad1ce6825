import AlphaPing.Library.Restrictions

/-!
# Queries in batches

A list of values is cut into batches of a fixed size, a query runs for each batch, and the rows of
the batches follow one another. When a batch selects the first rows of an order and the rows of
all batches are selected from once more, the result is the selection from all rows at once.
-/

namespace AlphaPing.Library.QueryBatches

open Restrictions Tables

variable {Value Row Key : Type*}

/-- The batches of a loop whose offset grows by `size`. -/
def batches (size : ℕ) (values : List Value) : List (List Value) :=
  (List.range ((values.length + (size - 1)) / size)).map fun index ↦
    (values.drop (size * index)).take size

section Cutting

variable {size : ℕ} {values : List Value}

theorem flatten_slices (size : ℕ) (values : List Value) (count : ℕ) :
    ((List.range count).map fun index ↦ (values.drop (size * index)).take size).flatten =
      values.take (size * count) := by
  induction count with
  | zero => simp
  | succ count ih =>
    rw [List.range_succ, List.map_append, List.flatten_append, ih, Nat.mul_succ, List.take_add]
    simp

theorem flatten_batches (hsize : 0 < size) (values : List Value) :
    (batches size values).flatten = values := by
  rw [batches, flatten_slices]
  apply List.take_of_length_le
  have hceil := Nat.lt_mul_div_succ (values.length + (size - 1)) hsize
  rw [Nat.mul_succ] at hceil
  omega

theorem subset_of_mem_batches {batch : List Value} (h : batch ∈ batches size values) :
    batch ⊆ values := by
  obtain ⟨index, -, rfl⟩ := List.mem_map.mp h
  exact List.Subset.trans (List.take_subset _ _) (List.drop_subset _ _)

theorem exists_batch (hsize : 0 < size) {value : Value} (h : value ∈ values) :
    ∃ batch ∈ batches size values, value ∈ batch := by
  rw [← flatten_batches hsize values] at h
  exact List.mem_flatten.mp h

end Cutting

/-! ## Rows by a key -/

section Keyed

variable [DecidableEq Key] {size : ℕ} {key : Row → Key} {values : List Key} {rows : List Row}

/-- `SELECT … WHERE condition AND key IN (batch)` for each batch. -/
def selectIn (size : ℕ) (key : Row → Key) (condition : Row → Bool) (values : List Key)
    (rows : List Row) : List Row :=
  (batches size values).flatMap fun batch ↦
    rows.filter fun row ↦ condition row && batch.contains (key row)

variable {condition : Row → Bool}

theorem mem_selectIn (hsize : 0 < size) {row : Row} :
    row ∈ selectIn size key condition values rows ↔
      row ∈ rows ∧ condition row = true ∧ key row ∈ values := by
  simp only [selectIn, List.mem_flatMap, List.mem_filter, Bool.and_eq_true, List.contains_iff_mem]
  constructor
  · rintro ⟨batch, hbatch, hrow, hcondition, hkey⟩
    exact ⟨hrow, hcondition, subset_of_mem_batches hbatch hkey⟩
  · rintro ⟨hrow, hcondition, hkey⟩
    obtain ⟨batch, hbatch, hmem⟩ := exists_batch hsize hkey
    exact ⟨batch, hbatch, hrow, hcondition, hmem⟩

theorem find?_of_mem_iff (hunique : UniqueKey key rows) {value : Key} {found : List Row}
    (hfound : ∀ row, key row = value → (row ∈ found ↔ row ∈ rows ∧ condition row = true)) :
    found.find? (fun row ↦ decide (key row = value)) =
      (lookup key value rows).filter condition := by
  cases hfirst : found.find? fun row ↦ decide (key row = value) with
  | some row =>
    have hkey : key row = value := by simpa using List.find?_some hfirst
    have hrow := (hfound row hkey).mp (List.mem_of_find?_eq_some hfirst)
    rw [hunique.lookup_eq_some_iff.mpr ⟨hrow.1, hkey⟩, Option.filter_some_pos hrow.2]
  | none =>
    symm
    rw [Option.filter_eq_none_iff]
    intro row hrow hcondition
    obtain ⟨hrows, hkey⟩ := lookup_some hrow
    exact List.find?_eq_none.mp hfirst row ((hfound row hkey).mpr ⟨hrows, hcondition⟩)
      (decide_eq_true hkey)

theorem mem_selectIn_of_key (hsize : 0 < size) {value : Key} (hvalue : value ∈ values) (row : Row)
    (hkey : key row = value) :
    row ∈ selectIn size key condition values rows ↔ row ∈ rows ∧ condition row = true := by
  rw [mem_selectIn hsize, hkey]
  exact and_congr_right fun _ ↦ and_iff_left hvalue

theorem find?_selectIn (hsize : 0 < size) (hunique : UniqueKey key rows)
    (condition : Row → Bool) {value : Key} (hvalue : value ∈ values) :
    (selectIn size key condition values rows).find? (fun row ↦ decide (key row = value)) =
      (lookup key value rows).filter condition :=
  find?_of_mem_iff hunique (mem_selectIn_of_key hsize hvalue)

/-- The map over the rows of all batches has the row of the table. -/
theorem lookupLast_selectIn (hsize : 0 < size) (hunique : UniqueKey key rows)
    (condition : Row → Bool) {value : Key} (hvalue : value ∈ values) :
    lookupLast key value (selectIn size key condition values rows) =
      (lookup key value rows).filter condition := by
  apply find?_of_mem_iff hunique
  intro row hkey
  rw [List.mem_reverse]
  exact mem_selectIn_of_key hsize hvalue row hkey

end Keyed

/-! ## Selections that are merged -/

section Merging

variable {Id : Type*} [LinearOrder Key] {key : Row → Key} {rows candidates : List Row} {limit : ℕ}

/-- Two orders that agree on the rows select the same ones. -/
theorem selectOrdered_congr {Other : Type*} [LinearOrder Other] {key' : Row → Other}
    (h : ∀ first ∈ rows, ∀ second ∈ rows, key first ≤ key second ↔ key' first ≤ key' second) :
    selectOrdered key limit rows = selectOrdered key' limit rows := by
  have hsort := List.map_insertionSort (fun first second ↦ key first ≤ key second)
    (fun first second ↦ key' first ≤ key' second) id rows h
  rw [List.map_id, List.map_id] at hsort
  rw [selectOrdered, selectOrdered, hsort]

theorem lt_of_not_selected (hunique : UniqueKey key rows) {row other : Row} (hrow : row ∈ rows)
    (hnot : row ∉ selectOrdered key limit rows) (hother : other ∈ selectOrdered key limit rows) :
    key other < key row := by
  rcases lt_trichotomy (key other) (key row) with hlt | heq | hgt
  · exact hlt
  · have hsame := hunique.eq_of_mem (mem_of_mem_selectOrdered hother) hrow heq
    exact absurd (hsame ▸ hother) hnot
  · exact absurd (mem_selectOrdered_of_lt hrow hother hgt) hnot

/-- Some of the rows are enough for a selection when the selection of a part around each row is
among them. -/
theorem selectOrdered_of_covered (hunique : UniqueKey key rows) (hnodup : candidates.Nodup)
    (hsub : candidates ⊆ rows)
    (hcover : ∀ row ∈ rows, ∃ part : List Row, part.Sublist rows ∧ row ∈ part ∧
      selectOrdered key limit part ⊆ candidates) :
    selectOrdered key limit candidates = selectOrdered key limit rows := by
  have hcandidates : UniqueKey key candidates :=
    hnodup.map_on fun first hfirst second hsecond ↦
      hunique.eq_of_mem (hsub hfirst) (hsub hsecond)
  have hincreasing : ∀ {list : List Row}, UniqueKey key list →
      (selectOrdered key limit list).Pairwise fun row other ↦ key row < key other :=
    fun h ↦ (pairwise_lt_insertionSort h).sublist (List.take_sublist _ _)
  apply eq_of_pairwise_lt (hincreasing hcandidates) (hincreasing hunique)
  intro row
  constructor
  · intro hselected
    have hmem : row ∈ candidates := mem_of_mem_selectOrdered hselected
    have hrank := (mem_selectOrdered_iff hcandidates hmem).mp hselected
    apply (mem_selectOrdered_iff hunique (hsub hmem)).mpr
    -- otherwise a smaller row is no candidate, and the selection of its part fills the limit
    by_contra hfull
    have hmissing : ∃ other ∈ rows, key other < key row ∧ other ∉ candidates := by
      by_contra hnone
      push Not at hnone
      have hle : rows.countP (fun other ↦ decide (key other < key row)) ≤
          candidates.countP fun other ↦ decide (key other < key row) := by
        rw [List.countP_eq_length_filter, List.countP_eq_length_filter]
        apply List.Subperm.length_le
        apply List.subperm_of_subset ((List.Nodup.of_map key hunique).filter _)
        intro other hother
        obtain ⟨hrows, hlt⟩ := List.mem_filter.mp hother
        exact List.mem_filter.mpr ⟨hnone other hrows (of_decide_eq_true hlt), hlt⟩
      omega
    obtain ⟨other, hother, hlt, hno⟩ := hmissing
    obtain ⟨part, hpart, hotherPart, hselection⟩ := hcover other hother
    have huniquePart : UniqueKey key part := hunique.sublist (hpart.map key)
    have hnot : other ∉ selectOrdered key limit part := fun h ↦ hno (hselection h)
    have hlength : limit ≤ (selectOrdered key limit part).length := by
      have hcount := mt (mem_selectOrdered_iff huniquePart hotherPart).mpr hnot
      have hpartLength := List.countP_le_length (l := part)
        (p := fun row ↦ decide (key row < key other))
      rw [selectOrdered, List.length_take, List.length_insertionSort]
      omega
    have hcount : (selectOrdered key limit part).length ≤
        candidates.countP fun other ↦ decide (key other < key row) := by
      rw [List.countP_eq_length_filter]
      apply List.Subperm.length_le
      apply List.subperm_of_subset (List.Nodup.of_map key (uniqueKey_selectOrdered huniquePart))
      intro first hfirst
      have hbefore := (lt_of_not_selected huniquePart hotherPart hnot hfirst).trans hlt
      exact List.mem_filter.mpr ⟨hselection hfirst, decide_eq_true hbefore⟩
    omega
  · intro hselected
    have hmem : row ∈ rows := mem_of_mem_selectOrdered hselected
    have hrank := (mem_selectOrdered_iff hunique hmem).mp hselected
    obtain ⟨part, hpart, hrowPart, hselection⟩ := hcover row hmem
    have huniquePart : UniqueKey key part := hunique.sublist (hpart.map key)
    have hcandidate : row ∈ candidates := by
      apply hselection
      apply (mem_selectOrdered_iff huniquePart hrowPart).mpr
      exact Nat.lt_of_le_of_lt (hpart.countP_le) hrank
    apply (mem_selectOrdered_iff hcandidates hcandidate).mpr
    have hle := (List.subperm_of_subset hnodup hsub).countP_le fun other ↦
      decide (key other < key row)
    exact Nat.lt_of_le_of_lt hle hrank

/-- Rows by an identifier: batches without a common identifier select what one query selects. -/
theorem selectOrdered_batches [DecidableEq Id] {size : ℕ} (hsize : 0 < size)
    (hunique : UniqueKey key rows) (id : Row → Id) {ids : List Id}
    (hdisjoint : (batches size ids).Pairwise List.Disjoint) :
    selectOrdered key limit ((batches size ids).flatMap fun batch ↦
        selectOrdered key limit (rows.filter fun row ↦ batch.contains (id row))) =
      selectOrdered key limit (rows.filter fun row ↦ ids.contains (id row)) := by
  have hpart : ∀ {batch : List Id} {row : Row},
      row ∈ selectOrdered key limit (rows.filter fun row ↦ batch.contains (id row)) →
        row ∈ rows ∧ id row ∈ batch := by
    intro batch row hrow
    obtain ⟨hrows, hid⟩ := List.mem_filter.mp (mem_of_mem_selectOrdered hrow)
    exact ⟨hrows, List.contains_iff_mem.mp hid⟩
  apply selectOrdered_of_covered (hunique.filter _)
  · refine List.nodup_flatMap.mpr ⟨?_, ?_⟩
    · intro batch _
      exact List.Nodup.of_map key (uniqueKey_selectOrdered (hunique.filter _))
    · refine hdisjoint.imp fun hbatches row hfirst hsecond ↦ ?_
      exact hbatches (hpart hfirst).2 (hpart hsecond).2
  · intro row hrow
    obtain ⟨batch, hbatch, hselected⟩ := List.mem_flatMap.mp hrow
    obtain ⟨hrows, hid⟩ := hpart hselected
    exact List.mem_filter.mpr
      ⟨hrows, List.contains_iff_mem.mpr (subset_of_mem_batches hbatch hid)⟩
  · intro row hrow
    obtain ⟨hrows, hid⟩ := List.mem_filter.mp hrow
    obtain ⟨batch, hbatch, hmem⟩ := exists_batch hsize (List.contains_iff_mem.mp hid)
    refine ⟨rows.filter fun row ↦ batch.contains (id row), ?_, ?_, ?_⟩
    · have hsame : (rows.filter fun row ↦ ids.contains (id row)).filter
          (fun row ↦ batch.contains (id row)) = rows.filter fun row ↦ batch.contains (id row) := by
        rw [List.filter_filter]
        refine List.filter_congr fun row _ ↦ ?_
        rw [Bool.eq_iff_iff, Bool.and_eq_true, List.contains_iff_mem, List.contains_iff_mem]
        exact and_iff_left_of_imp fun h ↦ subset_of_mem_batches hbatch h
      exact hsame ▸ List.filter_sublist
    · exact List.mem_filter.mpr ⟨hrows, List.contains_iff_mem.mpr hmem⟩
    · exact fun other hother ↦ List.mem_flatMap.mpr ⟨batch, hbatch, hother⟩

end Merging

end AlphaPing.Library.QueryBatches
