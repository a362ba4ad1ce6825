import Mathlib.Data.List.Basic

/-!
# Deletions that cascade

Rows refer to the keys of other rows. When a row goes, the rows that follow it go too, one after
the other. In which order the store comes to them is not specified, so every choice is allowed.
A guard is asked before each row; a guard that refuses takes back the whole deletion, and so does
a row at the end that needs one that is gone.
-/

namespace AlphaPing.Library.ForeignKeys

structure Schema (Row Key : Type) where
  key : Row → Key
  /-- `ON DELETE CASCADE`. -/
  follows : Row → List Key
  /-- A reference without an action. -/
  needs : Row → List Key
  /-- `ON DELETE SET NULL`: the row without its reference to the key. -/
  forget : Key → Row → Row
  /-- What a trigger before the deletion of a row lets pass. -/
  guard : List Row → Row → Bool

/-- One of several rows. -/
structure Choice (Row : Type) where
  pick : List Row → Option Row
  mem_of_pick : ∀ {rows row}, pick rows = some row → row ∈ rows
  eq_nil_of_pick : ∀ {rows}, pick rows = none → rows = []

def Choice.first (Row : Type) : Choice Row where
  pick := List.head?
  mem_of_pick h := List.mem_of_head? h
  eq_nil_of_pick h := List.head?_eq_none_iff.mp h

variable {Row Key : Type} [DecidableEq Row] [DecidableEq Key] (schema : Schema Row Key)
  (choice : Choice Row)

def remove (row : Row) (rows : List Row) : List Row :=
  (rows.filter fun other ↦ other ≠ row).map (schema.forget (schema.key row))

/-- The rows that have to go with those that are gone. -/
def following (gone : List Key) (rows : List Row) : List Row :=
  rows.filter fun row ↦ (schema.follows row).any fun key ↦ gone.contains key

/-- As many rows as there are can follow. -/
def cascade : ℕ → List Key → List Row → Option (List Row)
  | 0, _, rows => some rows
  | left + 1, gone, rows =>
    match choice.pick (following schema gone rows) with
    | none => some rows
    | some row =>
      if schema.guard rows row then
        cascade left (schema.key row :: gone) (remove schema row rows)
      else none

/-- Every row has what it needs. -/
def intact (rows : List Row) : Bool :=
  rows.all fun row ↦ (schema.needs row).all fun key ↦ rows.any fun other ↦ schema.key other = key

/-- `DELETE` of one row; none when it is taken back. -/
def delete (rows : List Row) (row : Row) : Option (List Row) :=
  if schema.guard rows row then
    (cascade schema choice rows.length [schema.key row] (remove schema row rows)).filter
      (intact schema)
  else none

/-- `DELETE … WHERE`. -/
def deleteWhere (condition : Row → Bool) (rows : List Row) : Option (List Row) :=
  (rows.filter condition).foldlM (delete schema choice) rows

variable {schema choice} {rows after : List Row} {row target : Row} {gone : List Key} {left : ℕ}

omit [DecidableEq Key] in
theorem length_remove_lt (h : row ∈ rows) : (remove schema row rows).length < rows.length := by
  rw [remove, List.length_map]
  exact List.length_filter_lt_length_iff_exists.mpr ⟨row, h, by simp⟩

omit [DecidableEq Row] in
theorem mem_following (h : row ∈ following schema gone rows) : row ∈ rows :=
  List.mem_of_mem_filter h

theorem not_follows_of_cascade (hleft : rows.length ≤ left)
    (h : cascade schema choice left gone rows = some after) :
    ∀ row ∈ after, ∀ key ∈ gone, key ∉ schema.follows row := by
  induction left generalizing gone rows with
  | zero =>
    obtain rfl : rows = after := Option.some.inj h
    rw [List.length_eq_zero_iff.mp (Nat.le_zero.mp hleft)]
    exact fun _ hrow ↦ absurd hrow List.not_mem_nil
  | succ left ih =>
    rw [cascade] at h
    split at h
    · next hpick =>
      obtain rfl : rows = after := Option.some.inj h
      intro row hrow key hkey hfollows
      have hmem : row ∈ following schema gone rows := by
        refine List.mem_filter.mpr ⟨hrow, List.any_eq_true.mpr ⟨key, hfollows, ?_⟩⟩
        simpa using hkey
      rw [choice.eq_nil_of_pick hpick] at hmem
      exact absurd hmem List.not_mem_nil
    · next row hpick =>
      split at h
      · have hlength : (remove schema row rows).length < rows.length :=
          length_remove_lt (mem_following (choice.mem_of_pick hpick))
        intro other hother key hkey
        exact ih (by omega) h other hother key (List.mem_cons_of_mem _ hkey)
      · cases h

section Keeps

variable {P : Row → Prop}

/-- A guard that never lets the last row of a kind go. -/
structure KeepsLast (schema : Schema Row Key) (P : Row → Prop) : Prop where
  forget : ∀ key row, P row → P (schema.forget key row)
  guard : ∀ rows row, schema.guard rows row = true → P row → ∃ other ∈ rows, other ≠ row ∧ P other

omit [DecidableEq Key] in
theorem KeepsLast.remove (h : KeepsLast schema P) (hguard : schema.guard rows row = true)
    (hsome : ∃ other ∈ rows, P other) : ∃ other ∈ remove schema row rows, P other := by
  obtain ⟨other, hother, hP⟩ := hsome
  have hkept : ∃ kept ∈ rows, kept ≠ row ∧ P kept := by
    by_cases heq : other = row
    · exact h.guard rows row hguard (heq ▸ hP)
    · exact ⟨other, hother, heq, hP⟩
  obtain ⟨kept, hmem, hne, hkept⟩ := hkept
  refine ⟨schema.forget (schema.key row) kept, List.mem_map_of_mem ?_, h.forget _ _ hkept⟩
  exact List.mem_filter.mpr ⟨hmem, by simpa using hne⟩

theorem KeepsLast.cascade (h : KeepsLast schema P) (hsome : ∃ row ∈ rows, P row)
    (hcascade : cascade schema choice left gone rows = some after) : ∃ row ∈ after, P row := by
  induction left generalizing gone rows with
  | zero =>
    obtain rfl : rows = after := Option.some.inj hcascade
    exact hsome
  | succ left ih =>
    rw [ForeignKeys.cascade] at hcascade
    split at hcascade
    · obtain rfl : rows = after := Option.some.inj hcascade
      exact hsome
    · split at hcascade
      · next hguard => exact ih (h.remove hguard hsome) hcascade
      · cases hcascade

theorem KeepsLast.delete (h : KeepsLast schema P) (hsome : ∃ row ∈ rows, P row)
    (hdelete : delete schema choice rows target = some after) : ∃ row ∈ after, P row := by
  rw [ForeignKeys.delete] at hdelete
  split at hdelete
  · next hguard =>
    exact h.cascade (h.remove hguard hsome) (Option.filter_eq_some_iff.mp hdelete).1
  · cases hdelete

theorem KeepsLast.foldlM_delete (h : KeepsLast schema P) {targets : List Row}
    (hsome : ∃ row ∈ rows, P row)
    (hdelete : targets.foldlM (ForeignKeys.delete schema choice) rows = some after) :
    ∃ row ∈ after, P row := by
  induction targets generalizing rows with
  | nil =>
    obtain rfl : rows = after := Option.some.inj hdelete
    exact hsome
  | cons target later ih =>
    obtain ⟨between, hfirst, hlater⟩ := Option.bind_eq_some_iff.mp hdelete
    exact ih (h.delete hsome hfirst) hlater

/-- A row that all rows of a kind follow cannot go while there is one of them. -/
theorem KeepsLast.delete_eq_none (h : KeepsLast schema P) (htarget : target ∈ rows)
    (hfollows : ∀ row, P row → schema.key target ∈ schema.follows row)
    (hsome : ∃ row ∈ rows, P row) : ForeignKeys.delete schema choice rows target = none := by
  rw [ForeignKeys.delete]
  split
  · next hguard =>
    cases hcascade : ForeignKeys.cascade schema choice rows.length [schema.key target]
        (ForeignKeys.remove schema target rows) with
    | none => rfl
    | some after =>
      obtain ⟨row, hrow, hP⟩ := h.cascade (h.remove hguard hsome) hcascade
      have hgone := not_follows_of_cascade (Nat.le_of_lt (length_remove_lt htarget)) hcascade
      exact absurd (hfollows row hP) (hgone row hrow _ (List.mem_singleton_self _))
  · rfl

end Keeps

section From

variable {R : Row → Prop}

/-- What the deletion leaves was there before, but for references that are forgotten. -/
theorem forall_of_cascade (hforget : ∀ key row, R row → R (schema.forget key row))
    (hrows : ∀ row ∈ rows, R row) (h : cascade schema choice left gone rows = some after) :
    ∀ row ∈ after, R row := by
  induction left generalizing gone rows with
  | zero =>
    obtain rfl : rows = after := Option.some.inj h
    exact hrows
  | succ left ih =>
    rw [cascade] at h
    split at h
    · obtain rfl : rows = after := Option.some.inj h
      exact hrows
    · split at h
      · refine ih ?_ h
        rw [remove, List.forall_mem_map]
        exact fun row hrow ↦ hforget _ _ (hrows row (List.mem_of_mem_filter hrow))
      · cases h

theorem forall_of_delete (hforget : ∀ key row, R row → R (schema.forget key row))
    (hrows : ∀ row ∈ rows, R row) (h : delete schema choice rows target = some after) :
    ∀ row ∈ after, R row := by
  rw [delete] at h
  split at h
  · refine forall_of_cascade hforget ?_ (Option.filter_eq_some_iff.mp h).1
    rw [remove, List.forall_mem_map]
    exact fun row hrow ↦ hforget _ _ (hrows row (List.mem_of_mem_filter hrow))
  · cases h

theorem forall_of_foldlM_delete (hforget : ∀ key row, R row → R (schema.forget key row))
    {targets : List Row} (hrows : ∀ row ∈ rows, R row)
    (h : targets.foldlM (delete schema choice) rows = some after) : ∀ row ∈ after, R row := by
  induction targets generalizing rows with
  | nil =>
    obtain rfl : rows = after := Option.some.inj h
    exact hrows
  | cons target later ih =>
    obtain ⟨between, hfirst, hlater⟩ := Option.bind_eq_some_iff.mp h
    exact ih (forall_of_delete hforget hrows hfirst) hlater

end From

end AlphaPing.Library.ForeignKeys
