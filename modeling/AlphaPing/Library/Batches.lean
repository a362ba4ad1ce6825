import Mathlib.Data.List.Basic

/-!
# Batches of statements

A batch is performed as one transaction. Each of its statements meets the store as the ones before
it have left it, and is told how many rows the last of them has changed. A statement that violates
a constraint takes the whole batch back.

A chain of statements that each ask for one change before them does nothing when its first
statement has found no row.
-/

namespace AlphaPing.Library.Batches

variable {Store : Type*}

/-- What a statement makes of the store, with the number of rows that it changes; none is a
violated constraint. -/
abbrev Statement (Store : Type*) := ℕ → Store → Option (Store × ℕ)

/-- The statements in order, after one that has changed so many rows. -/
def performFrom : List (Statement Store) → ℕ → Store → Option (Store × List ℕ)
  | [], _, store => some (store, [])
  | statement :: rest, changes, store =>
    match statement changes store with
    | none => none
    | some (next, changed) =>
      (performFrom rest changed next).map fun (after, results) ↦ (after, changed :: results)

/-- The batch as the database answers it; none is the error of a batch that was taken back. -/
def perform (statements : List (Statement Store)) (store : Store) : Store × Option (List ℕ) :=
  match performFrom statements 0 store with
  | some (after, results) => (after, some results)
  | none => (store, none)

/-- `WHERE changes() = 1`. -/
def Statement.afterChange (statement : Statement Store) : Statement Store := fun changes store ↦
  if changes = 1 then statement changes store else some (store, 0)

variable {statements rest : List (Statement Store)} {statement : Statement Store}
  {store after : Store} {changes : ℕ} {results : List ℕ}

theorem performFrom_cons :
    performFrom (statement :: rest) changes store =
      (statement changes store).bind fun next ↦
        (performFrom rest next.2 next.1).map fun last ↦ (last.1, next.2 :: last.2) := by
  rw [performFrom]
  cases statement changes store <;> rfl

/-- The first statement of a batch that was performed, and the others. -/
theorem performFrom_cons_eq_some
    (h : performFrom (statement :: rest) changes store = some (after, results)) :
    ∃ next changed later, statement changes store = some (next, changed) ∧
      performFrom rest changed next = some (after, later) ∧ results = changed :: later := by
  rw [performFrom_cons] at h
  obtain ⟨⟨next, changed⟩, hfirst, h⟩ := Option.bind_eq_some_iff.mp h
  obtain ⟨⟨last, later⟩, hrest, h⟩ := Option.map_eq_some_iff.mp h
  obtain ⟨rfl, rfl⟩ := Prod.mk.inj h
  exact ⟨next, changed, later, hfirst, hrest, rfl⟩

@[simp] theorem Statement.afterChange_one : statement.afterChange 1 store = statement 1 store :=
  if_pos rfl

theorem Statement.afterChange_of_ne (h : changes ≠ 1) :
    statement.afterChange changes store = some (store, 0) := if_neg h

theorem performFrom_chain_of_ne (h : changes ≠ 1) :
    performFrom (statements.map Statement.afterChange) changes store =
      some (store, List.replicate statements.length 0) := by
  induction statements generalizing changes with
  | nil => rfl
  | cons statement statements ih =>
    rw [List.map_cons, performFrom_cons, Statement.afterChange_of_ne h, Option.bind_some,
      ih Nat.zero_ne_one]
    rfl

theorem performFrom_keeps {P : Store → Prop}
    (h : ∀ statement ∈ statements, ∀ changes store next changed, P store →
      statement changes store = some (next, changed) → P next)
    (hstore : P store) (hperform : performFrom statements changes store = some (after, results)) :
    P after := by
  induction statements generalizing changes store results with
  | nil =>
    obtain ⟨rfl, -⟩ := Prod.mk.inj (Option.some.inj hperform)
    exact hstore
  | cons statement statements ih =>
    obtain ⟨hfirst, hrest⟩ := List.forall_mem_cons.mp h
    obtain ⟨next, changed, later, hnext, hlater, -⟩ := performFrom_cons_eq_some hperform
    exact ih hrest (hfirst changes store next changed hstore hnext) hlater

theorem perform_keeps {P : Store → Prop}
    (h : ∀ statement ∈ statements, ∀ changes store next changed, P store →
      statement changes store = some (next, changed) → P next)
    (hstore : P store) : P (perform statements store).1 := by
  unfold perform
  split
  · next after results hperform => exact performFrom_keeps h hstore hperform
  · exact hstore

theorem perform_eq_some (h : (perform statements store).2 = some results) :
    performFrom statements 0 store = some ((perform statements store).1, results) := by
  unfold perform at h ⊢
  split at h
  · next after results hperform =>
    obtain rfl := Option.some.inj h
    exact hperform
  · cases h

theorem perform_of_none (h : (perform statements store).2 = none) :
    (perform statements store).1 = store := by
  unfold perform at h ⊢
  split at h
  · cases h
  · rfl

end AlphaPing.Library.Batches
