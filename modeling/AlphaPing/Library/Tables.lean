import Mathlib.Data.Int.NatAbs
import Mathlib.Data.List.Sort

/-!
# Tables of a relational store

A table is the list of its rows. The module gives the statements that the development's stores
use (conditional update, ordered selection with a limit, lookup by a unique key) and how they
act on membership and on a unique key. Conditional deletion is `List.filter`.

A selection that is ordered by a key which is not unique leaves ties in table order.
-/

namespace AlphaPing.Library.Tables

variable {Row Key Other : Type*}

/-- `UPDATE`: the rows that satisfy the condition are changed, the others stay. -/
def updateWhere (condition : Row → Bool) (change : Row → Row) (rows : List Row) : List Row :=
  rows.map fun row ↦ if condition row then change row else row

/-- `SELECT … ORDER BY … LIMIT`. -/
def selectOrdered [LinearOrder Key] (key : Row → Key) (limit : ℕ) (rows : List Row) : List Row :=
  (rows.insertionSort fun first second ↦ key first ≤ key second).take limit

/-- A column whose values are pairwise different. -/
def UniqueKey (key : Row → Key) (rows : List Row) : Prop :=
  (rows.map key).Nodup

section Update

variable {condition : Row → Bool} {change : Row → Row} {rows : List Row} {row : Row}

theorem mem_updateWhere :
    row ∈ updateWhere condition change rows ↔
      ∃ old ∈ rows, (condition old = true ∧ row = change old) ∨
        (condition old = false ∧ row = old) := by
  simp only [updateWhere, List.mem_map]
  refine exists_congr fun old ↦ and_congr_right fun _ ↦ ?_
  cases condition old <;> simp [eq_comm]

theorem map_updateWhere {column : Row → Other} (h : ∀ old, column (change old) = column old) :
    (updateWhere condition change rows).map column = rows.map column := by
  rw [updateWhere, List.map_map]
  refine List.map_congr_left fun old _ ↦ ?_
  simp only [Function.comp_apply]
  split
  · exact h old
  · rfl

theorem updateWhere_eq_self (h : ∀ old ∈ rows, condition old = false) :
    updateWhere condition change rows = rows := by
  conv_rhs => rw [← List.map_id rows]
  refine List.map_congr_left fun old hold ↦ ?_
  rw [if_neg (by simp [h old hold]), id_eq]

theorem mem_updateWhere_of_mem (h : row ∈ rows) :
    (if condition row then change row else row) ∈ updateWhere condition change rows :=
  List.mem_map_of_mem h

theorem mem_updateWhere_of_not (h : row ∈ rows) (hrow : condition row = false) :
    row ∈ updateWhere condition change rows :=
  mem_updateWhere.mpr ⟨row, h, .inr ⟨hrow, rfl⟩⟩

end Update

section Select

variable [LinearOrder Key] {key : Row → Key} {limit : ℕ} {rows : List Row} {row : Row}

theorem mem_of_mem_selectOrdered (h : row ∈ selectOrdered key limit rows) : row ∈ rows :=
  (List.mem_insertionSort _).mp (List.mem_of_mem_take h)

theorem length_selectOrdered_le : (selectOrdered key limit rows).length ≤ limit := by
  rw [selectOrdered, List.length_take]
  exact Nat.min_le_left _ _

/-- A limit that the table does not reach leaves every row in the selection. -/
theorem mem_selectOrdered_of_length_le (hlength : rows.length ≤ limit) (h : row ∈ rows) :
    row ∈ selectOrdered key limit rows := by
  rw [selectOrdered, List.take_of_length_le (by rwa [List.length_insertionSort])]
  exact (List.mem_insertionSort _).mpr h

theorem selectOrdered_eq_nil_iff (hlimit : 0 < limit) :
    selectOrdered key limit rows = [] ↔ rows = [] := by
  rw [selectOrdered, List.take_eq_nil_iff, or_iff_right hlimit.ne', ← List.length_eq_zero_iff,
    List.length_insertionSort, List.length_eq_zero_iff]

/-- A selection takes some of the rows, each as often as the table has it. -/
theorem subperm_selectOrdered : (selectOrdered key limit rows).Subperm rows :=
  (List.take_sublist _ _).subperm.trans (List.perm_insertionSort _ rows).subperm

theorem uniqueKey_selectOrdered {column : Row → Other} (h : UniqueKey column rows) :
    UniqueKey column (selectOrdered key limit rows) := by
  have hsort : UniqueKey column
      (rows.insertionSort fun first second ↦ key first ≤ key second) :=
    ((List.perm_insertionSort _ rows).map column).nodup_iff.mpr h
  exact hsort.sublist ((List.take_sublist _ _).map column)

theorem mem_selectOrdered_of_lt (h : row ∈ rows) {other : Row}
    (hother : other ∈ selectOrdered key limit rows) (hlt : key row < key other) :
    row ∈ selectOrdered key limit rows := by
  have : Std.Total fun first second : Row ↦ key first ≤ key second :=
    ⟨fun first second ↦ le_total (key first) (key second)⟩
  have : IsTrans Row fun first second ↦ key first ≤ key second :=
    ⟨fun _ _ _ ↦ le_trans⟩
  have hsorted := List.pairwise_insertionSort (fun first second ↦ key first ≤ key second) rows
  have hmem := (List.mem_insertionSort fun first second ↦ key first ≤ key second).mpr h
  rw [← List.take_append_drop limit (rows.insertionSort _)] at hsorted hmem
  rcases List.mem_append.mp hmem with htake | hdrop
  · exact htake
  · exact absurd ((List.pairwise_append.mp hsorted).2.2 other hother row hdrop) (not_le.mpr hlt)

/-- A list in strictly increasing order is determined by its members. -/
theorem eq_of_pairwise_lt {first second : List Row}
    (hfirst : first.Pairwise fun row other ↦ key row < key other)
    (hsecond : second.Pairwise fun row other ↦ key row < key other)
    (hmem : ∀ row, row ∈ first ↔ row ∈ second) : first = second := by
  have hnodup : ∀ {rows : List Row}, (rows.Pairwise fun row other ↦ key row < key other) →
      rows.Nodup :=
    fun h ↦ h.imp fun hlt heq ↦ hlt.ne (congrArg key heq)
  have hperm := (List.perm_ext_iff_of_nodup (hnodup hfirst) (hnodup hsecond)).mpr hmem
  exact hperm.eq_of_pairwise (fun _ _ _ _ hlt hgt ↦ absurd hlt (lt_asymm hgt)) hfirst hsecond

theorem pairwise_lt_insertionSort (h : UniqueKey key rows) :
    (rows.insertionSort fun first second ↦ key first ≤ key second).Pairwise
      fun row other ↦ key row < key other := by
  have : Std.Total fun first second : Row ↦ key first ≤ key second :=
    ⟨fun first second ↦ le_total (key first) (key second)⟩
  have : IsTrans Row fun first second ↦ key first ≤ key second :=
    ⟨fun _ _ _ ↦ le_trans⟩
  have hsorted := List.pairwise_insertionSort (fun first second ↦ key first ≤ key second) rows
  have hunique : UniqueKey key (rows.insertionSort fun first second ↦ key first ≤ key second) :=
    ((List.perm_insertionSort _ rows).map key).nodup_iff.mpr h
  exact hsorted.imp₂ (fun _ _ hle hne ↦ lt_of_le_of_ne hle hne) (List.pairwise_map.mp hunique)

/-- In strictly increasing order, as many rows are smaller than a row as come before it. -/
theorem countP_lt_getElem {sorted : List Row}
    (h : sorted.Pairwise fun row other ↦ key row < key other) {index : ℕ}
    (hindex : index < sorted.length) :
    (sorted.countP fun row ↦ decide (key row < key sorted[index])) = index := by
  have hsplit : sorted.take index ++ sorted[index] :: sorted.drop (index + 1) = sorted := by
    rw [List.getElem_cons_drop, List.take_append_drop]
  have hpairs := hsplit.symm ▸ h
  obtain ⟨-, hlater, hbefore⟩ := List.pairwise_append.mp hpairs
  have hlength : (sorted.take index).length = index := List.length_take_of_le hindex.le
  generalize sorted[index] = pivot at *
  conv_lhs => rw [← hsplit]
  rw [List.countP_append, List.countP_cons_of_neg (by simp), List.countP_eq_length.mpr,
    List.countP_eq_zero.mpr, hlength, Nat.add_zero]
  · intro row hrow
    simpa using ((List.pairwise_cons.mp hlater).1 row hrow).le
  · intro row hrow
    exact decide_eq_true (hbefore row hrow _ List.mem_cons_self)

/-- A row is selected where less rows are smaller than the limit allows. -/
theorem mem_selectOrdered_iff (hkey : UniqueKey key rows) (h : row ∈ rows) :
    row ∈ selectOrdered key limit rows ↔
      (rows.countP fun other ↦ decide (key other < key row)) < limit := by
  have hpairs := pairwise_lt_insertionSort hkey
  obtain ⟨index, hindex, hrow⟩ := List.getElem_of_mem
    ((List.mem_insertionSort fun first second ↦ key first ≤ key second).mpr h)
  have hcount : (rows.countP fun other ↦ decide (key other < key row)) = index := by
    rw [← (List.perm_insertionSort (fun first second ↦ key first ≤ key second) rows).countP_eq,
      ← hrow]
    exact countP_lt_getElem hpairs hindex
  rw [hcount, selectOrdered, List.mem_take_iff_getElem]
  constructor
  · rintro ⟨other, hother, hsame⟩
    have hnodup : (rows.insertionSort fun first second ↦ key first ≤ key second).Nodup :=
      hpairs.imp fun hlt heq ↦ hlt.ne (congrArg key heq)
    have heq : other = index := (hnodup.getElem_inj_iff).mp (hsame.trans hrow.symm)
    exact heq ▸ lt_of_lt_of_le hother (Nat.min_le_left _ _)
  · exact fun hlt ↦ ⟨index, lt_min hlt hindex, hrow⟩

end Select

variable {rows : List Row}

theorem countP_le_add {first second either : Row → Bool}
    (h : ∀ row, either row = true → first row = true ∨ second row = true) :
    rows.countP either ≤ rows.countP first + rows.countP second := by
  induction rows with
  | nil => simp
  | cons head tail ih =>
    simp only [List.countP_cons]
    by_cases heither : either head = true
    · rcases h head heither with hfirst | hsecond
      · simp only [heither, hfirst, if_true]
        omega
      · simp only [heither, hsecond, if_true]
        omega
    · rw [if_neg heither]
      omega

theorem countP_eq_add {first second either : Row → Bool}
    (h : ∀ row, either row = (first row || second row))
    (hdisjoint : ∀ row, first row = true → second row = false) :
    rows.countP either = rows.countP first + rows.countP second := by
  induction rows with
  | nil => rfl
  | cons head tail ih =>
    have hhead := hdisjoint head
    simp only [List.countP_cons, ih, h head]
    cases hfirst : first head with
    | false => simp only [Bool.false_or, Bool.false_eq_true, if_false]; omega
    | true =>
      simp only [hhead hfirst, Bool.or_false, if_true, Bool.false_eq_true, if_false]
      omega

/-- Rows whose key is requested, when no key has more than so many. -/
theorem countP_requested_le [DecidableEq Key] {key : Row → Key} {condition : Row → Bool} {bound : ℕ}
    (h : ∀ value, rows.countP (fun row ↦ condition row && decide (key row = value)) ≤ bound)
    (requested : List Key) :
    rows.countP (fun row ↦ condition row && requested.contains (key row)) ≤
      bound * requested.length := by
  induction requested with
  | nil => simp
  | cons value rest ih =>
    calc
      _ ≤ rows.countP (fun row ↦ condition row && decide (key row = value)) +
          rows.countP (fun row ↦ condition row && rest.contains (key row)) := by
        refine countP_le_add fun row hrow ↦ ?_
        simp only [Bool.and_eq_true, List.contains_cons, Bool.or_eq_true, beq_iff_eq,
          decide_eq_true_eq] at hrow ⊢
        exact hrow.2.imp (fun hvalue ↦ ⟨hrow.1, hvalue⟩) fun hrest ↦ ⟨hrow.1, hrest⟩
      _ ≤ bound + bound * rest.length := Nat.add_le_add (h value) ih
      _ = bound * (value :: rest).length := by rw [List.length_cons, Nat.mul_succ, Nat.add_comm]

section Unique

variable {key : Row → Key} {rows : List Row}

theorem uniqueKey_nil : UniqueKey key [] :=
  List.nodup_nil

theorem UniqueKey.filter (h : UniqueKey key rows) (condition : Row → Bool) :
    UniqueKey key (rows.filter condition) :=
  h.sublist (List.filter_sublist.map key)

variable {condition : Row → Bool}

theorem UniqueKey.updateWhere (h : UniqueKey key rows) {change : Row → Row}
    (hchange : ∀ old, key (change old) = key old) :
    UniqueKey key (updateWhere condition change rows) := by
  rw [UniqueKey, map_updateWhere hchange]
  exact h

theorem UniqueKey.eq_of_mem (h : UniqueKey key rows) {first second : Row} (hfirst : first ∈ rows)
    (hsecond : second ∈ rows) (hkey : key first = key second) : first = second :=
  List.inj_on_of_nodup_map h hfirst hsecond hkey

theorem uniqueKey_append {new : List Row} (h : UniqueKey key rows) (hnew : UniqueKey key new)
    (hdisjoint : ∀ row ∈ rows, ∀ other ∈ new, key row ≠ key other) :
    UniqueKey key (rows ++ new) := by
  rw [UniqueKey, List.map_append]
  refine List.Nodup.append h hnew fun value hold hadded ↦ ?_
  obtain ⟨row, hrow, rfl⟩ := List.mem_map.mp hold
  obtain ⟨other, hother, heq⟩ := List.mem_map.mp hadded
  exact hdisjoint row hrow other hother heq.symm

theorem uniqueKey_append_singleton {new : Row} (h : UniqueKey key rows)
    (hnew : ∀ row ∈ rows, key row ≠ key new) : UniqueKey key (rows ++ [new]) := by
  refine uniqueKey_append h (List.nodup_singleton _) fun row hrow other hother ↦ ?_
  rw [List.mem_singleton.mp hother]
  exact hnew row hrow

/-- A condition that implies a unique key is satisfied by at most one row. -/
theorem UniqueKey.countP_eq_one (h : UniqueKey key rows) {row : Row} (hrow : row ∈ rows)
    (hcondition : condition row = true)
    (hkey : ∀ other, condition other = true → key other = key row) :
    rows.countP condition = 1 := by
  induction rows with
  | nil => exact absurd hrow List.not_mem_nil
  | cons head tail ih =>
    obtain ⟨hhead, htail⟩ := List.nodup_cons.mp h
    rcases List.mem_cons.mp hrow with rfl | hmem
    · rw [List.countP_cons_of_pos hcondition, List.countP_eq_zero.mpr]
      intro other hother htrue
      exact hhead (hkey other htrue ▸ List.mem_map_of_mem hother)
    · have hfalse : ¬ condition head = true := fun htrue ↦
        hhead (hkey head htrue ▸ List.mem_map_of_mem hmem)
      rw [List.countP_cons_of_neg hfalse]
      exact ih htail hmem

theorem UniqueKey.countP_key_le_one [DecidableEq Key] {key : Row → Key} (h : UniqueKey key rows)
    (value : Key) : rows.countP (fun row ↦ decide (key row = value)) ≤ 1 := by
  calc
    _ = (rows.map key).count value := by
      rw [List.count, List.countP_map]
      rfl
    _ ≤ 1 := List.nodup_iff_count_le_one.mp h value

/-- Rows with given keys are as many as the keys when each key has one. -/
theorem UniqueKey.countP_eq_length_iff (h : UniqueKey key rows) {values : List Key}
    (hvalues : values.Nodup) (hcondition : ∀ row, condition row = true → key row ∈ values) :
    rows.countP condition = values.length ↔
      ∀ value ∈ values, ∃ row ∈ rows, condition row = true ∧ key row = value := by
  let found := (rows.filter condition).map key
  have hlength : found.length = rows.countP condition := by
    rw [List.length_map, List.countP_eq_length_filter]
  have hfound : found.Subperm values := by
    apply List.subperm_of_subset (h.filter condition)
    intro value hvalue
    obtain ⟨row, hrow, rfl⟩ := List.mem_map.mp hvalue
    exact hcondition row (List.mem_filter.mp hrow).2
  have hmem (value : Key) :
      value ∈ found ↔ ∃ row ∈ rows, condition row = true ∧ key row = value := by
    simp only [found, List.mem_map, List.mem_filter, and_assoc]
  simp only [← hlength, ← hmem]
  constructor
  · intro heq value hvalue
    exact (hfound.perm_of_length_le heq.ge).mem_iff.mpr hvalue
  · intro hall
    exact le_antisymm hfound.length_le (List.subperm_of_subset hvalues hall).length_le

/-- A sum over the rows when one row is changed: the rows with another key, and the new row. -/
theorem UniqueKey.sum_updateWhere [DecidableEq Key] {key : Row → Key} (h : UniqueKey key rows)
    {row : Row} (hrow : row ∈ rows) (hcondition : condition row = true)
    (hkey : ∀ other, condition other = true → key other = key row) (change : Row → Row)
    (weight : Row → ℕ) :
    ((Tables.updateWhere condition change rows).map weight).sum =
      ((rows.filter fun other ↦ key other ≠ key row).map weight).sum + weight (change row) := by
  induction rows with
  | nil => exact absurd hrow List.not_mem_nil
  | cons head tail ih =>
    obtain ⟨hhead, htail⟩ := List.nodup_cons.mp h
    have hne : ∀ other ∈ tail, key other ≠ key head := fun other hother heq ↦
      hhead (heq ▸ List.mem_map_of_mem hother)
    rcases List.mem_cons.mp hrow with rfl | hmem
    · have hrest : Tables.updateWhere condition change tail = tail :=
        updateWhere_eq_self fun other hother ↦ by
          by_contra htrue
          exact hne other hother (hkey other (by simpa using htrue))
      have hfilter : (row :: tail).filter (fun other ↦ key other ≠ key row) = tail := by
        rw [List.filter_cons_of_neg (by simp), List.filter_eq_self]
        exact fun other hother ↦ by simpa using hne other hother
      rw [hfilter, Tables.updateWhere, List.map_cons, if_pos hcondition, List.map_cons,
        List.sum_cons, ← Tables.updateWhere, hrest, Nat.add_comm]
    · have hother : key head ≠ key row := (hne row hmem).symm
      have hfalse : condition head = false := by
        by_contra htrue
        exact hother (hkey head (by simpa using htrue))
      rw [List.filter_cons_of_pos (by simpa using hother), Tables.updateWhere, List.map_cons,
        if_neg (by simp [hfalse]), List.map_cons, List.sum_cons, ← Tables.updateWhere,
        ih htail hmem, List.map_cons, List.sum_cons, Nat.add_assoc]

end Unique

/-- A sum over the rows does not grow when no changed row weighs more than it did. -/
theorem sum_updateWhere_le {condition : Row → Bool} {change : Row → Row} {weight : Row → ℕ}
    (h : ∀ row ∈ rows, condition row = true → weight (change row) ≤ weight row) :
    ((updateWhere condition change rows).map weight).sum ≤ (rows.map weight).sum := by
  induction rows with
  | nil => exact le_rfl
  | cons head tail ih =>
    obtain ⟨hhead, htail⟩ := List.forall_mem_cons.mp h
    rw [updateWhere, List.map_cons, List.map_cons, List.sum_cons, ← updateWhere, List.map_cons,
      List.sum_cons]
    refine Nat.add_le_add ?_ (ih htail)
    split
    · exact hhead ‹_›
    · exact le_rfl

theorem sum_map_filter (kind : Row → Bool) (weight : Row → ℕ) (rows : List Row) :
    ((rows.filter kind).map weight).sum =
      (rows.map fun row ↦ if kind row then weight row else 0).sum := by
  induction rows with
  | nil => rfl
  | cons head tail ih =>
    rw [List.map_cons, List.sum_cons, ← ih]
    cases hkind : kind head with
    | true => rw [List.filter_cons_of_pos hkind, List.map_cons, List.sum_cons, if_pos rfl]
    | false => rw [List.filter_cons_of_neg (by simp [hkind]), if_neg (by simp), Nat.zero_add]

/-! ## Conditional upserts -/

section Upsert

variable [DecidableEq Key] {key : Row → Key} {condition : Row → Bool} {change : Row → Row}
  {new : Row} {rows : List Row}

/-- `SELECT … WHERE key = ?`. -/
def lookup (key : Row → Key) (value : Key) (rows : List Row) : Option Row :=
  rows.find? fun row ↦ key row = value

/-- `INSERT … ON CONFLICT (key) DO UPDATE … WHERE`. -/
def upsert (key : Row → Key) (condition : Row → Bool) (change : Row → Row) (new : Row)
    (rows : List Row) : List Row :=
  if rows.any fun row ↦ key row = key new then
    updateWhere (fun row ↦ decide (key row = key new) && condition row) change rows
  else rows ++ [new]

/-- The number of rows that an upsert inserts or changes. -/
def upsertChanges (key : Row → Key) (condition : Row → Bool) (new : Row) (rows : List Row) : ℕ :=
  if rows.any fun row ↦ key row = key new then
    rows.countP fun row ↦ decide (key row = key new) && condition row
  else 1

variable {value : Key}

theorem lookup_some {row : Row} (h : lookup key value rows = some row) :
    row ∈ rows ∧ key row = value :=
  ⟨List.mem_of_find?_eq_some h, by simpa using List.find?_some h⟩

theorem UniqueKey.lookup_eq_some_iff (h : UniqueKey key rows) {row : Row} :
    lookup key value rows = some row ↔ row ∈ rows ∧ key row = value := by
  refine ⟨lookup_some, ?_⟩
  rintro ⟨hmem, rfl⟩
  cases hfound : lookup key (key row) rows with
  | none => exact absurd hfound (by simpa [lookup, List.find?_eq_none] using ⟨row, hmem, rfl⟩)
  | some other =>
    obtain ⟨hother, hkey⟩ := lookup_some hfound
    rw [h.eq_of_mem hother hmem hkey]

/-- A condition that fixes a unique key selects at most the row with it. -/
theorem UniqueKey.filter_eq (h : UniqueKey key rows) {condition : Row → Bool}
    (hcondition : ∀ row, condition row = true → key row = value) :
    rows.filter condition = ((lookup key value rows).filter condition).toList := by
  induction rows with
  | nil => rfl
  | cons row rows ih =>
    obtain ⟨hnew, hrest⟩ := List.nodup_cons.mp h
    rw [lookup, List.find?_cons]
    by_cases hkey : key row = value
    · have hothers : rows.filter condition = [] := by
        rw [List.filter_eq_nil_iff]
        intro other hother hselected
        exact hnew (List.mem_map.mpr ⟨other, hother, (hcondition other hselected).trans hkey.symm⟩)
      rw [List.filter_cons, hothers, decide_eq_true hkey]
      cases hselected : condition row <;> simp [Option.filter, hselected]
    · have hselected : condition row ≠ true := fun hselected ↦ hkey (hcondition row hselected)
      rw [List.filter_cons_of_neg hselected, decide_eq_false hkey]
      exact ih hrest

theorem any_key_iff :
    (rows.any fun row ↦ key row = value) = true ↔ lookup key value rows ≠ none := by
  simp [lookup, List.find?_eq_none]

theorem lookup_updateWhere (hkey : ∀ row, key (change row) = key row) (value : Key) :
    lookup key value (updateWhere condition change rows) =
      (lookup key value rows).map fun row ↦ if condition row then change row else row := by
  have hpred : ∀ row, key (if condition row then change row else row) = key row := by
    intro row
    split
    · exact hkey row
    · rfl
  simp only [lookup, updateWhere, List.find?_map, Function.comp_def, hpred]

/-- A statement that conflicts with a row leaves either its change or the row itself. -/
theorem lookup_upsert_self (hkey : ∀ row, key (change row) = key row) :
    lookup key (key new) (upsert key condition change new rows) =
      some (match lookup key (key new) rows with
        | none => new
        | some old => if condition old then change old else old) := by
  unfold upsert
  cases hfound : lookup key (key new) rows with
  | none =>
    have hany : ¬ (rows.any fun row ↦ key row = key new) = true :=
      fun h ↦ any_key_iff.mp h hfound
    rw [if_neg hany, lookup, List.find?_append]
    rw [lookup] at hfound
    simp [hfound]
  | some old =>
    rw [if_pos (any_key_iff.mpr (by simp [hfound])), lookup_updateWhere hkey, hfound]
    simp [(lookup_some hfound).2]

theorem lookup_upsert_other (hkey : ∀ row, key (change row) = key row) (hvalue : value ≠ key new) :
    lookup key value (upsert key condition change new rows) = lookup key value rows := by
  unfold upsert
  split
  · rw [lookup_updateWhere hkey]
    cases hfound : lookup key value rows with
    | none => rfl
    | some old =>
      have hother : key old ≠ key new := (lookup_some hfound).2 ▸ hvalue
      simp [hother]
  · simp [lookup, List.find?_append, hvalue.symm]

theorem upsert_congr {change' : Row → Row}
    (h : ∀ old, key old = key new → change old = change' old) :
    upsert key condition change new rows = upsert key condition change' new rows := by
  unfold upsert
  split
  · refine List.map_congr_left fun old _ ↦ ?_
    split
    · next hchanged =>
      simp only [Bool.and_eq_true, decide_eq_true_eq] at hchanged
      exact h old hchanged.1
    · rfl
  · rfl

theorem lookup_replace (value : Key) :
    lookup key value (upsert key condition (fun _ ↦ new) new rows) =
      if value = key new then
        some (match lookup key (key new) rows with
          | none => new
          | some old => if condition old then new else old)
      else lookup key value rows := by
  have hcongr : upsert key condition (fun _ ↦ new) new rows =
      upsert key condition (fun old ↦ if key old = key new then new else old) new rows :=
    upsert_congr fun old hold ↦ (if_pos hold).symm
  have hkey : ∀ row, key (if key row = key new then new else row) = key row := by
    intro row
    split
    · next hsame => exact hsame.symm
    · rfl
  rw [hcongr]
  split
  · next hvalue =>
    rw [hvalue, lookup_upsert_self hkey]
    cases hfound : lookup key (key new) rows with
    | none => rfl
    | some old => simp only [(lookup_some hfound).2, if_true]
  · next hvalue => exact lookup_upsert_other hkey hvalue

/-- What is in a table after an upsert was there before, was changed or is new. -/
theorem mem_upsert {row : Row} (h : row ∈ upsert key condition change new rows) :
    row ∈ rows ∨ row = new ∨ ∃ old ∈ rows, key old = key new ∧ row = change old := by
  unfold upsert at h
  split at h
  · obtain ⟨old, hold, ⟨hchanged, rfl⟩ | ⟨-, rfl⟩⟩ := mem_updateWhere.mp h
    · simp only [Bool.and_eq_true, decide_eq_true_eq] at hchanged
      exact .inr (.inr ⟨old, hold, hchanged.1, rfl⟩)
    · exact .inl hold
  · rcases List.mem_append.mp h with hold | hnew
    · exact .inl hold
    · exact .inr (.inl (List.mem_singleton.mp hnew))

/-- An upsert whose row is refused does nothing. -/
theorem upsert_eq_self (hany : ∃ old ∈ rows, key old = key new)
    (hrefused : ∀ old ∈ rows, key old = key new → condition old = false) :
    upsert key condition change new rows = rows := by
  obtain ⟨old, hold, hkey⟩ := hany
  rw [upsert, if_pos (List.any_eq_true.mpr ⟨old, hold, decide_eq_true hkey⟩)]
  refine updateWhere_eq_self fun other hother ↦ ?_
  by_cases hsame : key other = key new
  · rw [hrefused other hother hsame, Bool.and_false]
  · rw [decide_eq_false hsame, Bool.false_and]

/-- An upsert that does something leaves the new row or a changed one. -/
theorem upsert_cases :
    upsert key condition change new rows = rows ∨
      new ∈ upsert key condition change new rows ∨
      ∃ old ∈ rows, key old = key new ∧ change old ∈ upsert key condition change new rows := by
  by_cases hany : ∃ old ∈ rows, key old = key new
  · by_cases hrefused : ∀ old ∈ rows, key old = key new → condition old = false
    · exact .inl (upsert_eq_self hany hrefused)
    · push Not at hrefused
      obtain ⟨old, hold, hkey, hcondition⟩ := hrefused
      refine .inr (.inr ⟨old, hold, hkey, ?_⟩)
      rw [upsert, if_pos (List.any_eq_true.mpr ⟨old, hold, decide_eq_true hkey⟩)]
      exact mem_updateWhere.mpr ⟨old, hold, .inl ⟨by simp [hkey, hcondition], rfl⟩⟩
  · refine .inr (.inl ?_)
    rw [upsert, if_neg fun htrue ↦ hany ?_]
    · exact List.mem_append_right _ (List.mem_singleton_self _)
    · obtain ⟨old, hold, hkey⟩ := List.any_eq_true.mp htrue
      exact ⟨old, hold, of_decide_eq_true hkey⟩

theorem UniqueKey.upsertChanges_eq_one (h : UniqueKey key rows)
    (haccepted : ∀ old ∈ rows, key old = key new → condition old = true) :
    upsertChanges key condition new rows = 1 := by
  unfold upsertChanges
  split
  · next hany =>
    obtain ⟨old, hold, hkey⟩ := List.any_eq_true.mp hany
    have heq : key old = key new := of_decide_eq_true hkey
    refine h.countP_eq_one hold (by simp [heq, haccepted old hold heq]) fun other hother ↦ ?_
    simp only [Bool.and_eq_true, decide_eq_true_eq] at hother
    exact hother.1.trans heq.symm
  · rfl

/-- Statements that do the same to related rows keep the rows of two tables related. -/
theorem forall₂_upsert {Same : Row → Row → Prop} {rows' : List Row}
    (hrows : List.Forall₂ Same rows rows') {condition' : Row → Bool} {change' : Row → Row}
    {new' : Row} (hkey : ∀ row row', Same row row' → key row = key row')
    (hcondition : ∀ row row', Same row row' → condition row = condition' row')
    (hchange : ∀ row row', Same row row' → Same (change row) (change' row'))
    (hnew : Same new new') :
    List.Forall₂ Same (upsert key condition change new rows)
      (upsert key condition' change' new' rows') := by
  have hany : ∀ {rows rows' : List Row}, List.Forall₂ Same rows rows' →
      (rows.any fun row ↦ key row = key new) = rows'.any fun row ↦ key row = key new' := by
    intro rows rows' hrows
    induction hrows with
    | nil => rfl
    | cons hsame _ ih => rw [List.any_cons, List.any_cons, ih, hkey _ _ hsame, hkey _ _ hnew]
  unfold upsert
  rw [hany hrows]
  split
  · refine List.forall₂_map_left_iff.mpr (List.forall₂_map_right_iff.mpr (hrows.imp ?_))
    intro row row' hsame
    simp only [hkey _ _ hsame, hkey _ _ hnew, hcondition _ _ hsame]
    split
    · exact hchange _ _ hsame
    · exact hsame
  · exact List.rel_append hrows (.cons hnew .nil)

theorem UniqueKey.upsert (h : UniqueKey key rows)
    (hchange : ∀ old, key old = key new → key (change old) = key old) :
    UniqueKey key (upsert key condition change new rows) := by
  unfold Tables.upsert
  split
  · rw [UniqueKey, Tables.updateWhere, List.map_map]
    have hsame : (rows.map fun row ↦ key (if (decide (key row = key new) && condition row) = true
        then change row else row)) = rows.map key := by
      refine List.map_congr_left fun row _ ↦ ?_
      split
      · next hchanged =>
        simp only [Bool.and_eq_true, decide_eq_true_eq] at hchanged
        exact hchange row hchanged.1
      · rfl
    exact hsame ▸ h
  · next hany =>
    refine uniqueKey_append_singleton h fun row hrow hkey ↦ hany ?_
    exact List.any_eq_true.mpr ⟨row, hrow, by simpa using hkey⟩

/-- An upsert changes a row when there is none yet or when the one found satisfies its
condition. -/
theorem upsertChanges_ne_zero (h : ∀ old, lookup key (key new) rows = some old → condition old) :
    upsertChanges key condition new rows ≠ 0 := by
  unfold upsertChanges
  split
  · next hany =>
    obtain ⟨old, hfound⟩ := Option.ne_none_iff_exists'.mp (any_key_iff.mp hany)
    obtain ⟨hmem, hkey⟩ := lookup_some hfound
    refine (List.countP_pos_iff.mpr ⟨old, hmem, ?_⟩).ne'
    simp [hkey, h old hfound]
  · exact Nat.one_ne_zero

end Upsert

/-! ## Link tables -/

section Links

variable {Parent Child Link : Type*} {parentOf : Link → Parent} {childOf : Link → Child}
  {parents parents' : List Parent} {children children' : List Child} {links : List Link}

/-- A table of links between two tables: both ends exist, and a child is linked at most once. -/
structure LinkTable (parentOf : Link → Parent) (childOf : Link → Child) (parents : List Parent)
    (children : List Child) (links : List Link) : Prop where
  parent_mem : ∀ link ∈ links, parentOf link ∈ parents
  child_mem : ∀ link ∈ links, childOf link ∈ children
  child_unique : UniqueKey childOf links

theorem linkTable_nil : LinkTable parentOf childOf parents children [] where
  parent_mem _ h := absurd h List.not_mem_nil
  child_mem _ h := absurd h List.not_mem_nil
  child_unique := uniqueKey_nil

theorem LinkTable.mono (h : LinkTable parentOf childOf parents children links)
    (hparents : parents ⊆ parents') (hchildren : children ⊆ children') :
    LinkTable parentOf childOf parents' children' links where
  parent_mem link hlink := hparents (h.parent_mem link hlink)
  child_mem link hlink := hchildren (h.child_mem link hlink)
  child_unique := h.child_unique

theorem LinkTable.append (h : LinkTable parentOf childOf parents children links)
    {new : List Link} (hparents : ∀ link ∈ new, parentOf link ∈ parents)
    (hchildren : ∀ link ∈ new, childOf link ∈ children) (hunique : UniqueKey childOf new)
    (hunlinked : ∀ link ∈ links, ∀ other ∈ new, childOf link ≠ childOf other) :
    LinkTable parentOf childOf parents children (links ++ new) where
  parent_mem := List.forall_mem_append.mpr ⟨h.parent_mem, hparents⟩
  child_mem := List.forall_mem_append.mpr ⟨h.child_mem, hchildren⟩
  child_unique := uniqueKey_append h.child_unique hunique hunlinked

/-- Parents and children may go when no link that stays needs them. -/
theorem LinkTable.restrict (h : LinkTable parentOf childOf parents children links)
    (condition : Link → Bool)
    (hparents : ∀ link ∈ links, condition link = true → parentOf link ∈ parents')
    (hchildren : ∀ link ∈ links, condition link = true → childOf link ∈ children') :
    LinkTable parentOf childOf parents' children' (links.filter condition) where
  parent_mem link hlink := by
    obtain ⟨hmem, hkept⟩ := List.mem_filter.mp hlink
    exact hparents link hmem hkept
  child_mem link hlink := by
    obtain ⟨hmem, hkept⟩ := List.mem_filter.mp hlink
    exact hchildren link hmem hkept
  child_unique := h.child_unique.filter condition

end Links

end AlphaPing.Library.Tables
