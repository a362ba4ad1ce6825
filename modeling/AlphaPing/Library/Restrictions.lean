import AlphaPing.Library.Tables
import Mathlib.Data.List.Find

/-!
# Queries over the part of a table that may be seen

A table is restricted by a condition on its rows and a change of the rows that are left, which
blanks the columns that may not be seen. A query whose conditions do not read the blanked columns
gives, over restricted tables, the restriction of what it gives over the whole ones; where its own
conditions imply those of the restriction, it gives the same rows with their columns blanked.

Two stores with the same restriction are then told apart by no such query.
-/

namespace AlphaPing.Library.Restrictions

open Tables

variable {Row Seen Other OtherSeen Key : Type*}

/-- The rows that may be seen, without the columns that may not. -/
def restrict (keep : Row → Bool) (blank : Row → Seen) (rows : List Row) : List Seen :=
  (rows.filter keep).map blank

/-- The rows of two tables that match. -/
def joinOn (matched : Row → Other → Bool) (left : List Row) (right : List Other) :
    List (Row × Other) :=
  left.flatMap fun row ↦ (right.filter (matched row)).map fun other ↦ (row, other)

/-- `new Map(rows.map((row) => [key, row])).get(value)`: of several rows with one key the last. -/
def lookupLast [DecidableEq Key] (key : Row → Key) (value : Key) (rows : List Row) : Option Row :=
  rows.reverse.find? fun row ↦ key row = value

section Join

variable {matched : Row → Other → Bool} {left : List Row} {right : List Other}

theorem mem_joinOn {pair : Row × Other} :
    pair ∈ joinOn matched left right ↔
      pair.1 ∈ left ∧ pair.2 ∈ right ∧ matched pair.1 pair.2 = true := by
  obtain ⟨row, other⟩ := pair
  simp only [joinOn, List.mem_flatMap, List.mem_map, List.mem_filter, Prod.mk.injEq]
  constructor
  · rintro ⟨_, hrow, _, ⟨hother, hmatched⟩, rfl, rfl⟩
    exact ⟨hrow, hother, hmatched⟩
  · rintro ⟨hrow, hother, hmatched⟩
    exact ⟨row, hrow, other, ⟨hother, hmatched⟩, rfl, rfl⟩

end Join

section Restrict

variable {keep : Row → Bool} {blank : Row → Seen} {rows : List Row}

theorem restrict_eq_map (h : ∀ row ∈ rows, keep row = true) :
    restrict keep blank rows = rows.map blank := by
  rw [restrict, List.filter_eq_self.mpr h]

theorem restrict_cons (row : Row) :
    restrict keep blank (row :: rows) =
      (if keep row = true then [blank row] else []) ++ restrict keep blank rows := by
  rw [restrict, List.filter_cons]
  split <;> rfl

/-- A condition that reads no blanked column selects the same rows. -/
theorem filter_restrict (condition : Row → Bool) {condition' : Seen → Bool}
    (h : ∀ row ∈ rows, keep row = true → condition' (blank row) = condition row) :
    (restrict keep blank rows).filter condition' =
      restrict keep blank (rows.filter condition) := by
  rw [restrict, restrict, List.filter_map, List.filter_filter, List.filter_filter]
  refine congrArg (List.map blank) (List.filter_congr fun row hrow ↦ ?_)
  cases hkeep : keep row with
  | false => simp
  | true => simp [h row hrow hkeep]

theorem any_restrict {condition : Row → Bool} {condition' : Seen → Bool}
    (h : ∀ row ∈ rows, keep row = true → condition' (blank row) = condition row)
    (hkeep : ∀ row ∈ rows, condition row = true → keep row = true) :
    (restrict keep blank rows).any condition' = rows.any condition := by
  rw [Bool.eq_iff_iff]
  simp only [restrict, List.any_eq_true, List.mem_map, List.mem_filter]
  constructor
  · rintro ⟨_, ⟨row, ⟨hrow, hkept⟩, rfl⟩, hcondition⟩
    exact ⟨row, hrow, h row hrow hkept ▸ hcondition⟩
  · rintro ⟨row, hrow, hcondition⟩
    have hkept := hkeep row hrow hcondition
    exact ⟨_, ⟨row, ⟨hrow, hkept⟩, rfl⟩, (h row hrow hkept).trans hcondition⟩

/-- A join whose condition reads no blanked column joins the rows that are kept. -/
theorem joinOn_restrict {keepOther : Other → Bool} {blankOther : Other → OtherSeen}
    {others : List Other} (matched : Row → Other → Bool) {matched' : Seen → OtherSeen → Bool}
    (h : ∀ row ∈ rows, ∀ other ∈ others, keep row = true → keepOther other = true →
      matched' (blank row) (blankOther other) = matched row other) :
    joinOn matched' (restrict keep blank rows) (restrict keepOther blankOther others) =
      restrict (fun pair : Row × Other ↦ keep pair.1 && keepOther pair.2)
        (fun pair ↦ (blank pair.1, blankOther pair.2)) (joinOn matched rows others) := by
  induction rows with
  | nil => rfl
  | cons row rows ih =>
    have hrows := ih fun other hother ↦ h other (List.mem_cons_of_mem _ hother)
    have hsplit : ∀ (first second : List (Row × Other)),
        restrict (fun pair : Row × Other ↦ keep pair.1 && keepOther pair.2)
          (fun pair ↦ (blank pair.1, blankOther pair.2)) (first ++ second) =
        restrict (fun pair : Row × Other ↦ keep pair.1 && keepOther pair.2)
          (fun pair ↦ (blank pair.1, blankOther pair.2)) first ++
        restrict (fun pair : Row × Other ↦ keep pair.1 && keepOther pair.2)
          (fun pair ↦ (blank pair.1, blankOther pair.2)) second := by
      intro first second
      rw [restrict, List.filter_append, List.map_append]
      rfl
    have hjoin : joinOn matched (row :: rows) others =
        ((others.filter (matched row)).map fun other ↦ (row, other)) ++
          joinOn matched rows others := List.flatMap_cons
    rw [joinOn] at hrows ⊢
    rw [restrict_cons, List.flatMap_append, hrows, hjoin, hsplit]
    refine congrArg₂ (· ++ ·) ?_ rfl
    cases hrow : keep row with
    | true =>
      rw [if_pos rfl, List.flatMap_singleton,
        filter_restrict _ fun other hother hkept ↦ h row List.mem_cons_self other hother hrow hkept]
      simp only [restrict, List.map_map, List.filter_map]
      congr 1
      refine List.filter_congr fun other _ ↦ ?_
      simp [hrow]
    | false =>
      rw [if_neg Bool.false_ne_true, List.flatMap_nil, restrict, List.filter_eq_nil_iff.mpr,
        List.map_nil]
      intro pair hpair
      obtain ⟨other, -, rfl⟩ := List.mem_map.mp hpair
      simp [hrow]

end Restrict

section Ordered

variable [LinearOrder Key] {key : Row → Key} {rows : List Row} {limit : ℕ}

/-- Columns that a selection does not order by may be blanked before it or after it. -/
theorem selectOrdered_map {key' : Seen → Key} {blank : Row → Seen}
    (h : ∀ row ∈ rows, key' (blank row) = key row) :
    selectOrdered key' limit (rows.map blank) = (selectOrdered key limit rows).map blank := by
  rw [selectOrdered, selectOrdered, List.map_take]
  congr 1
  refine (List.map_insertionSort _ _ blank rows fun first hfirst second hsecond ↦ ?_).symm
  rw [h first hfirst, h second hsecond]

theorem filter_orderedInsert {condition : Row → Bool} {row : Row}
    (hsorted : rows.Pairwise fun first second ↦ key first ≤ key second) :
    (rows.orderedInsert (fun first second ↦ key first ≤ key second) row).filter condition =
      if condition row = true then
        (rows.filter condition).orderedInsert (fun first second ↦ key first ≤ key second) row
      else rows.filter condition := by
  induction rows with
  | nil => simp [List.filter_cons]
  | cons head tail ih =>
    obtain ⟨hhead, htail⟩ := List.pairwise_cons.mp hsorted
    by_cases hle : key row ≤ key head
    · rw [List.orderedInsert_cons_of_le (fun first second ↦ key first ≤ key second) _ hle,
        List.filter_cons]
      refine if_congr Iff.rfl ?_ rfl
      symm
      cases hfiltered : (head :: tail).filter condition with
      | nil => rfl
      | cons first rest =>
        have hmem : first ∈ head :: tail :=
          (List.mem_filter.mp (hfiltered.symm ▸ List.mem_cons_self)).1
        refine List.orderedInsert_cons_of_le _ _ ?_
        rcases List.mem_cons.mp hmem with rfl | hlater
        · exact hle
        · exact hle.trans (hhead first hlater)
    · rw [List.orderedInsert_of_not_le (fun first second ↦ key first ≤ key second) _ hle,
        List.filter_cons, List.filter_cons, ih htail]
      by_cases hcondition : condition head = true
      · rw [if_pos hcondition, if_pos hcondition]
        split
        · exact (List.orderedInsert_of_not_le (fun first second ↦ key first ≤ key second)
            _ hle).symm
        · rfl
      · rw [if_neg hcondition, if_neg hcondition]

/-- The rows that satisfy a condition come in the same order whether they are sorted before they
are chosen or after. -/
theorem filter_insertionSort {condition : Row → Bool} :
    (rows.insertionSort fun first second ↦ key first ≤ key second).filter condition =
      (rows.filter condition).insertionSort fun first second ↦ key first ≤ key second := by
  have : Std.Total fun first second : Row ↦ key first ≤ key second :=
    ⟨fun first second ↦ le_total (key first) (key second)⟩
  have : IsTrans Row fun first second ↦ key first ≤ key second :=
    ⟨fun _ _ _ ↦ le_trans⟩
  induction rows with
  | nil => rfl
  | cons row rows ih =>
    rw [List.insertionSort_cons, filter_orderedInsert (List.pairwise_insertionSort _ rows), ih,
      List.filter_cons]
    split <;> rfl

theorem selectOrdered_of_length_le (h : rows.length ≤ limit) :
    selectOrdered key limit rows =
      rows.insertionSort fun first second ↦ key first ≤ key second := by
  rw [selectOrdered, List.take_of_length_le (by rwa [List.length_insertionSort])]

end Ordered

section Lookup

variable [DecidableEq Key] {key : Row → Key} {value : Key} {rows : List Row}

theorem lookupLast_eq_some {row : Row} (h : lookupLast key value rows = some row) :
    row ∈ rows ∧ key row = value := by
  have hmem := List.mem_reverse.mp (List.mem_of_find?_eq_some h)
  exact ⟨hmem, by simpa using List.find?_some h⟩

theorem lookupLast_map {key' : Seen → Key} {blank : Row → Seen}
    (h : ∀ row ∈ rows, key' (blank row) = key row) :
    lookupLast key' value (rows.map blank) = (lookupLast key value rows).map blank := by
  rw [lookupLast, lookupLast, ← List.map_reverse, List.find?_map]
  congr 1
  have hsame : ∀ row ∈ rows.reverse, decide (key' (blank row) = value) = decide (key row = value) :=
    fun row hrow ↦ by rw [h row (List.mem_reverse.mp hrow)]
  exact List.find?_congr hsame

/-- A key whose rows are kept is found in the restricted table. -/
theorem lookupLast_restrict {key' : Seen → Key} {keep : Row → Bool} {blank : Row → Seen}
    (h : ∀ row ∈ rows, key' (blank row) = key row)
    (hkeep : ∀ row ∈ rows, key row = value → keep row = true) :
    lookupLast key' value (restrict keep blank rows) = (lookupLast key value rows).map blank := by
  rw [restrict, lookupLast_map fun row hrow ↦ h row (List.mem_of_mem_filter hrow)]
  congr 1
  rw [lookupLast, lookupLast, ← List.filter_reverse, List.find?_filter]
  refine List.find?_congr fun row hrow ↦ ?_
  rw [Bool.eq_iff_iff]
  simp only [Bool.decide_and, Bool.and_eq_true, decide_eq_true_eq, and_iff_right_iff_imp]
  exact hkeep row (List.mem_reverse.mp hrow)

end Lookup

end AlphaPing.Library.Restrictions
