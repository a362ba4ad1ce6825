import AlphaPing.Library.Runs
import Mathlib.Data.Set.Finite.Lattice
import Mathlib.Data.Set.Finite.Lemmas

/-!
# Registers that join their updates

A register holds a value of a join-semilattice, or nothing yet, and an update joins its value to
what the register of its key holds. After every run a register holds the least upper bound of the
values that were brought to it: neither the order of the updates nor their number is seen.
-/

namespace AlphaPing.Library.Joins

open Runs

/-- A value for each key, or nothing yet. -/
abbrev Registers (Key Value : Type*) := Key → WithBot Value

section Join

variable {Key Value Update : Type*} [DecidableEq Key] [SemilatticeSup Value]
  (keyOf : Update → Key) (valueOf : Update → Value)

/-- An update joins its value to what its key holds. -/
def join (registers : Registers Key Value) (update : Update) : Registers Key Value :=
  Function.update registers (keyOf update) (registers (keyOf update) ⊔ valueOf update)

/-- The updates that come to a key. -/
def broughtTo (key : Key) (updates : List Update) : Set Update :=
  {update | update ∈ updates ∧ keyOf update = key}

variable {keyOf valueOf} {registers : Registers Key Value} {updates : List Update} {key : Key}

omit [DecidableEq Key] in
theorem finite_broughtTo (key : Key) (updates : List Update) :
    (broughtTo keyOf key updates).Finite :=
  updates.finite_toSet.subset fun _ h ↦ h.1

theorem join_self (update : Update) :
    join keyOf valueOf registers update (keyOf update) =
      registers (keyOf update) ⊔ valueOf update :=
  Function.update_self _ _ _

theorem join_other {update : Update} (h : keyOf update ≠ key) :
    join keyOf valueOf registers update key = registers key :=
  Function.update_of_ne h.symm _ _

/-- What bounds the register after a run bounds what it held and each value brought to it. -/
theorem run_join_le_iff {bound : WithBot Value} :
    run (join keyOf valueOf) registers updates key ≤ bound ↔
      registers key ≤ bound ∧ ∀ update ∈ broughtTo keyOf key updates, valueOf update ≤ bound := by
  induction updates generalizing registers with
  | nil => simp [broughtTo]
  | cons update rest ih =>
    rw [run_cons, ih]
    simp only [broughtTo, Set.mem_ofPred_eq, List.mem_cons] at *
    by_cases h : keyOf update = key
    · subst h
      rw [join_self, sup_le_iff, and_assoc]
      apply and_congr_right
      intro _
      constructor
      · rintro ⟨hfirst, hrest⟩ other ⟨rfl | hother, hkey⟩
        · exact hfirst
        · exact hrest other ⟨hother, hkey⟩
      · intro hall
        exact ⟨hall update ⟨.inl rfl, rfl⟩, fun other hother ↦ hall other ⟨.inr hother.1, hother.2⟩⟩
    · rw [join_other h]
      apply and_congr_right
      intro _
      constructor
      · rintro hrest other ⟨rfl | hother, hkey⟩
        · exact absurd hkey h
        · exact hrest other ⟨hother, hkey⟩
      · intro hall other hother
        exact hall other ⟨.inr hother.1, hother.2⟩

/-- A register that was empty holds the least upper bound of what was brought to it. -/
theorem isLUB_of_run_join (hempty : registers key = ⊥) {value : Value}
    (hvalue : run (join keyOf valueOf) registers updates key = value) :
    IsLUB (valueOf '' broughtTo keyOf key updates) value := by
  rw [isLUB_iff_le_iff]
  intro bound
  rw [← WithBot.coe_le_coe, ← hvalue, run_join_le_iff, hempty]
  simp [mem_upperBounds, WithBot.coe_le_coe]

end Join

/-- A least upper bound of finitely many elements of a chain is one of them. -/
theorem isGreatest_of_isLUB {Value : Type*} [LinearOrder Value] {values : Set Value}
    {value : Value} (hfinite : values.Finite) (hnonempty : values.Nonempty)
    (h : IsLUB values value) : IsGreatest values value := by
  obtain ⟨greatest, hmem, hgreatest⟩ := Set.exists_max_image values id hfinite hnonempty
  have heq : value = greatest := h.unique (IsGreatest.isLUB ⟨hmem, hgreatest⟩)
  rw [heq]
  exact ⟨hmem, hgreatest⟩

end AlphaPing.Library.Joins
