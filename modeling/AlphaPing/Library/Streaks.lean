import Mathlib.Data.List.Induction

/-!
# Streaks

The streak of a history is how many of its last entries satisfy a condition in a row. A counter
that is raised by an entry that satisfies the condition and reset by any other counts it.
-/

namespace AlphaPing.Library.Streaks

variable {Entry : Type*} (condition : Entry → Bool)

/-- How many entries at the end of the history satisfy the condition in a row. -/
def streak (history : List Entry) : ℕ :=
  (history.reverse.takeWhile condition).length

/-- The history has so many entries, and the last ones all satisfy the condition. -/
def LastAll (count : ℕ) (history : List Entry) : Prop :=
  count ≤ history.length ∧
    ∀ entry ∈ history.drop (history.length - count), condition entry = true

@[simp] theorem streak_nil : streak condition [] = 0 := rfl

theorem streak_append_singleton (history : List Entry) (entry : Entry) :
    streak condition (history ++ [entry]) =
      if condition entry = true then streak condition history + 1 else 0 := by
  rw [streak, List.reverse_append, List.reverse_singleton, List.singleton_append,
    List.takeWhile_cons]
  split
  · rw [List.length_cons, streak]
  · rfl

theorem lastAll_append_singleton {count : ℕ} (history : List Entry) (entry : Entry) :
    LastAll condition (count + 1) (history ++ [entry]) ↔
      condition entry = true ∧ LastAll condition count history := by
  have hlength : (history ++ [entry]).length = history.length + 1 := by simp
  rw [LastAll, LastAll, hlength, Nat.add_sub_add_right, Nat.add_le_add_iff_right]
  rw [List.drop_append_of_le_length (Nat.sub_le _ _)]
  constructor
  · rintro ⟨hcount, hall⟩
    exact ⟨hall entry (by simp), hcount,
      fun other hother ↦ hall other (List.mem_append_left _ hother)⟩
  · rintro ⟨hentry, hcount, hall⟩
    refine ⟨hcount, fun other hother ↦ ?_⟩
    rcases List.mem_append.mp hother with hother | hother
    · exact hall other hother
    · exact List.mem_singleton.mp hother ▸ hentry

/-- The last entries satisfy the condition when the streak is long enough. -/
theorem lastAll_iff {count : ℕ} (history : List Entry) :
    LastAll condition count history ↔ count ≤ streak condition history := by
  induction history using List.reverseRecOn generalizing count with
  | nil =>
    rw [LastAll, streak_nil, List.length_nil]
    exact and_iff_left fun entry hentry ↦ absurd hentry (by simp)
  | append_singleton history entry ih =>
    cases count with
    | zero =>
      rw [LastAll, Nat.sub_zero, List.drop_length]
      exact iff_of_true ⟨Nat.zero_le _, fun entry hentry ↦ absurd hentry (by simp)⟩
        (Nat.zero_le _)
    | succ count =>
      rw [lastAll_append_singleton, streak_append_singleton, ih]
      split
      · next hentry => rw [and_iff_right hentry, Nat.add_le_add_iff_right]
      · next hentry =>
        exact iff_of_false (fun h ↦ hentry h.1) (Nat.not_succ_le_zero _)

end AlphaPing.Library.Streaks
