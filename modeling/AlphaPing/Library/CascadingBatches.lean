import Mathlib.Data.List.Basic

/-!
# Batches with cascades

A batch is performed as one transaction. Each statement meets the store as the ones before it have
left it, and a violated constraint takes the whole batch back. By way of the foreign keys a
statement also changes rows that it does not name: the statement after it is told of its own rows
only, the sender of the batch of all.
-/

namespace AlphaPing.Library.CascadingBatches

/-- The rows that a statement has changed. -/
structure Counts where
  /-- `changes()` in the statement that follows. -/
  direct : ℕ
  /-- `meta.changes` in the answer, with the rows of the cascades. -/
  total : ℕ

variable {Store : Type*}

/-- What a statement makes of the store after so many changes before it; none is a violated
constraint. -/
abbrev Statement (Store : Type*) := ℕ → Store → Option (Store × Counts)

/-- The statements in order, after one that has changed so many rows. -/
def performFrom : List (Statement Store) → ℕ → Store → Option (Store × List Counts)
  | [], _, store => some (store, [])
  | statement :: rest, changes, store =>
    (statement changes store).bind fun next ↦
      (performFrom rest next.2.direct next.1).map fun last ↦ (last.1, next.2 :: last.2)

/-- The batch as the database answers it; none is the error of a batch that was taken back. -/
def perform (statements : List (Statement Store)) (store : Store) : Store × Option (List Counts) :=
  match performFrom statements 0 store with
  | some (after, results) => (after, some results)
  | none => (store, none)

/-- `WHERE changes() = 1`. -/
def Statement.afterChange (statement : Statement Store) : Statement Store := fun changes store ↦
  if changes = 1 then statement changes store else some (store, ⟨0, 0⟩)

/-- `INSERT … SELECT … WHERE` of one row. -/
def Statement.insert (condition violates : Store → Bool) (put : Store → Store) :
    Statement Store := fun _ store ↦
  if !condition store then some (store, ⟨0, 0⟩)
  else if violates store then none
  else some (put store, ⟨1, 1⟩)

/-! ## What a batch that is performed leaves -/

/-- When the statements are performed, they leave such a store with such results. -/
def Yields (post : Store → List Counts → Prop) (statements : List (Statement Store)) (changes : ℕ)
    (store : Store) : Prop :=
  ∀ after results, performFrom statements changes store = some (after, results) →
    post after results

section Yields

variable {post other : Store → List Counts → Prop} {rest : List (Statement Store)}
  {statement : Statement Store} {changes : ℕ} {store : Store}

theorem yields_nil (h : post store []) : Yields post [] changes store := by
  intro after results hperform
  obtain ⟨rfl, rfl⟩ := Prod.mk.inj (Option.some.inj hperform)
  exact h

theorem yields_cons (h : ∀ next counts, statement changes store = some (next, counts) →
      Yields (fun after results ↦ post after (counts :: results)) rest counts.direct next) :
    Yields post (statement :: rest) changes store := by
  intro after results hperform
  obtain ⟨⟨next, counts⟩, hfirst, hrest⟩ := Option.bind_eq_some_iff.mp hperform
  obtain ⟨⟨last, later⟩, hlast, heq⟩ := Option.map_eq_some_iff.mp hrest
  obtain ⟨rfl, rfl⟩ := Prod.mk.inj heq
  exact h next counts hfirst last later hlast

/-- A statement that does so much. -/
theorem yields_step {next : Store} {counts : Counts}
    (hfirst : statement changes store = some (next, counts))
    (h : Yields (fun after results ↦ post after (counts :: results)) rest counts.direct next) :
    Yields post (statement :: rest) changes store := by
  apply yields_cons
  intro other counts' hother
  obtain ⟨rfl, rfl⟩ := Prod.mk.inj (Option.some.inj (hfirst.symm.trans hother))
  exact h

/-- A statement that the ones before it allow. -/
theorem yields_afterChange (h : Yields post (statement :: rest) 1 store) :
    Yields post (statement.afterChange :: rest) 1 store := h

/-- A statement that asks for a change before it. -/
theorem yields_noChange (hchanges : changes ≠ 1)
    (h : Yields (fun after results ↦ post after (⟨0, 0⟩ :: results)) rest 0 store) :
    Yields post (statement.afterChange :: rest) changes store :=
  yields_step (if_neg hchanges) h

section Insert

variable {condition violates : Store → Bool} {put : Store → Store}

theorem yields_insert (hcondition : condition store = true)
    (h : Yields (fun after results ↦ post after (⟨1, 1⟩ :: results)) rest 1 (put store)) :
    Yields post (Statement.insert condition violates put :: rest) changes store := by
  apply yields_cons
  intro next counts hnext
  rw [Statement.insert, hcondition] at hnext
  cases hviolates : violates store with
  | true =>
    rw [hviolates] at hnext
    cases hnext
  | false =>
    rw [hviolates] at hnext
    obtain ⟨rfl, rfl⟩ := Prod.mk.inj (Option.some.inj hnext)
    exact h

theorem yields_skip (hcondition : condition store = false)
    (h : Yields (fun after results ↦ post after (⟨0, 0⟩ :: results)) rest 0 store) :
    Yields post (Statement.insert condition violates put :: rest) changes store :=
  yields_step (by rw [Statement.insert, hcondition]; rfl) h

end Insert

/-! ## One statement for each row -/

section Rows

variable {Row : Type*} {condition : Store → Bool} {violates : Row → Store → Bool}
  {put : Row → Store → Store} {rows : List Row} {outcome : Store → Prop}

theorem yields_inserts (hkeeps : ∀ row store, condition (put row store) = condition store)
    (hcondition : condition store = true)
    (h : ∀ changes, Yields (fun after _ ↦ outcome after) rest changes
      (rows.foldl (fun store row ↦ put row store) store)) :
    Yields (fun after _ ↦ outcome after)
      (rows.map (fun row ↦ Statement.insert condition (violates row) (put row)) ++ rest) changes
      store := by
  induction rows generalizing store changes with
  | nil => exact h changes
  | cons row rows ih =>
    exact yields_insert hcondition (ih ((hkeeps row store).trans hcondition) h)

theorem yields_skips (hcondition : condition store = false)
    (h : ∀ changes, Yields (fun after _ ↦ outcome after) rest changes store) :
    Yields (fun after _ ↦ outcome after)
      (rows.map (fun row ↦ Statement.insert condition (violates row) (put row)) ++ rest) changes
      store := by
  induction rows generalizing changes with
  | nil => exact h changes
  | cons row rows ih =>
    exact yields_skip hcondition ih

end Rows

end Yields

/-! ## What every statement keeps -/

/-- What a statement leaves has the property when what it meets has it. -/
def Statement.Keeps (P : Store → Prop) (statement : Statement Store) : Prop :=
  ∀ changes store next counts, P store → statement changes store = some (next, counts) → P next

section Keeps

variable {P : Store → Prop} {statement : Statement Store} {statements : List (Statement Store)}
  {store : Store}

theorem Statement.Keeps.afterChange (h : statement.Keeps P) : statement.afterChange.Keeps P := by
  intro changes store next counts hstore hnext
  rw [Statement.afterChange] at hnext
  split at hnext
  · exact h changes store next counts hstore hnext
  · obtain ⟨rfl, -⟩ := Prod.mk.inj (Option.some.inj hnext)
    exact hstore

theorem Statement.keeps_insert {condition violates : Store → Bool} {put : Store → Store}
    (h : ∀ store, P store → P (put store)) : (Statement.insert condition violates put).Keeps P := by
  intro changes store next counts hstore hnext
  rw [Statement.insert] at hnext
  split at hnext
  · obtain ⟨rfl, -⟩ := Prod.mk.inj (Option.some.inj hnext)
    exact hstore
  · split at hnext
    · cases hnext
    · obtain ⟨rfl, -⟩ := Prod.mk.inj (Option.some.inj hnext)
      exact h store hstore

theorem yields_of_keeps (h : ∀ statement ∈ statements, statement.Keeps P) {changes : ℕ}
    (hstore : P store) : Yields (fun after _ ↦ P after) statements changes store := by
  induction statements generalizing changes store with
  | nil => exact yields_nil hstore
  | cons statement rest ih =>
    obtain ⟨hfirst, hrest⟩ := List.forall_mem_cons.mp h
    apply yields_cons
    intro next counts hnext
    exact ih hrest (hfirst changes store next counts hstore hnext)

theorem perform_keeps (h : ∀ statement ∈ statements, statement.Keeps P) (hstore : P store) :
    P (perform statements store).1 := by
  rw [perform]
  cases hperform : performFrom statements 0 store with
  | none => exact hstore
  | some result => exact yields_of_keeps h hstore result.1 result.2 hperform

end Keeps

/-! ## Batches that are performed -/

/-- The statements are performed, and leave such a store with such results. -/
def Performed (post : Store → List Counts → Prop) (statements : List (Statement Store))
    (changes : ℕ) (store : Store) : Prop :=
  ∃ after results, performFrom statements changes store = some (after, results) ∧
    post after results

section Performed

variable {post : Store → List Counts → Prop} {rest : List (Statement Store)}
  {statement : Statement Store} {changes : ℕ} {store next : Store} {counts : Counts}

theorem performed_nil (h : post store []) : Performed post [] changes store :=
  ⟨store, [], rfl, h⟩

theorem performed_cons (hfirst : statement changes store = some (next, counts))
    (h : Performed (fun after results ↦ post after (counts :: results)) rest counts.direct next) :
    Performed post (statement :: rest) changes store := by
  obtain ⟨after, results, hrest, hpost⟩ := h
  refine ⟨after, counts :: results, ?_, hpost⟩
  rw [performFrom, hfirst, Option.bind_some, hrest]
  rfl

theorem performed_noChange (hchanges : changes ≠ 1)
    (h : Performed (fun after results ↦ post after (⟨0, 0⟩ :: results)) rest 0 store) :
    Performed post (statement.afterChange :: rest) changes store :=
  performed_cons (if_neg hchanges) h

end Performed

end AlphaPing.Library.CascadingBatches
