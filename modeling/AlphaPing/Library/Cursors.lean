import Mathlib.Tactic.Common

/-!
# Loops over a position

A loop goes on while its position is below a length. A turn leaves another position and another
state, or it fails, and the loop with it.
-/

namespace AlphaPing.Library.Cursors

/-- What a turn leaves at a position and with a state. -/
abbrev Turn (σ : Type) := ℕ → σ → Option (ℕ × σ)

variable {σ : Type} {length : ℕ} {turn : Turn σ} {position turns : ℕ} {state : σ}
  {outcome : Option σ}

/-- A loop that ends, with the number of its turns and what it leaves. -/
inductive Runs (length : ℕ) (turn : Turn σ) : ℕ → σ → ℕ → Option σ → Prop
  | done {position : ℕ} {state : σ} : length ≤ position →
      Runs length turn position state 0 (some state)
  | failed {position : ℕ} {state : σ} : position < length → turn position state = none →
      Runs length turn position state 1 none
  | again {position next turns : ℕ} {state after : σ} {outcome : Option σ} : position < length →
      turn position state = some (next, after) → Runs length turn next after turns outcome →
      Runs length turn position state (turns + 1) outcome

/-- The loop, with fuel. -/
def loop (length : ℕ) (turn : Turn σ) : ℕ → ℕ → σ → Option σ
  | fuel, position, state =>
    if length ≤ position then some state
    else match fuel with
      | 0 => none
      | fuel + 1 => do
        let moved ← turn position state
        loop length turn fuel moved.1 moved.2

/-- Every turn that does not fail goes on behind its position. -/
def Advances (turn : Turn σ) : Prop :=
  ∀ position state next after, turn position state = some (next, after) → position < next

/-- A loop whose turns advance ends, with at most one turn for each position that is left. -/
theorem Advances.exists_runs (h : Advances turn) (length position : ℕ) (state : σ) :
    ∃ turns outcome, Runs length turn position state turns outcome ∧
      turns ≤ length - position := by
  induction hleft : length - position using Nat.strongRecOn generalizing position state with
  | _ left ih =>
    rcases Nat.lt_or_ge position length with hlt | hle
    · cases hturn : turn position state with
      | none => exact ⟨1, none, .failed hlt hturn, by omega⟩
      | some moved =>
        have hnext := h _ _ _ _ hturn
        obtain ⟨turns, outcome, hruns, hturns⟩ := ih _ (by omega) moved.1 moved.2 rfl
        exact ⟨turns + 1, outcome, .again hlt hturn hruns, by omega⟩
    · exact ⟨0, some state, .done hle, Nat.zero_le left⟩

theorem Runs.loop_eq (h : Runs length turn position state turns outcome) {fuel : ℕ}
    (hfuel : turns ≤ fuel) : loop length turn fuel position state = outcome := by
  induction h generalizing fuel with
  | done hle =>
    unfold loop
    exact if_pos hle
  | failed hlt hturn =>
    obtain ⟨fuel, rfl⟩ := Nat.exists_eq_add_of_le' hfuel
    unfold loop
    rw [if_neg (Nat.not_le_of_lt hlt)]
    dsimp only
    rw [hturn]
    rfl
  | again hlt hturn _ ih =>
    obtain ⟨fuel, rfl⟩ := Nat.exists_eq_add_of_le' (Nat.le_of_add_left_le hfuel)
    unfold loop
    rw [if_neg (Nat.not_le_of_lt hlt)]
    dsimp only
    rw [hturn]
    exact ih (Nat.le_of_succ_le_succ hfuel)

theorem Runs.unique (first : Runs length turn position state turns outcome) {turns' : ℕ}
    {outcome' : Option σ} (second : Runs length turn position state turns' outcome') :
    turns = turns' ∧ outcome = outcome' := by
  refine ⟨?_, (first.loop_eq (Nat.le_max_left turns turns')).symm.trans
    (second.loop_eq (Nat.le_max_right turns turns'))⟩
  induction first generalizing turns' outcome' with
  | done hle =>
    cases second with
    | done => rfl
    | failed hlt | again hlt => omega
  | failed hlt hturn =>
    cases second with
    | done => omega
    | failed => rfl
    | again _ hmoved => cases hturn.symm.trans hmoved
  | again hlt hturn _ ih =>
    cases second with
    | done => omega
    | failed _ hfailed => cases hturn.symm.trans hfailed
    | again _ hmoved hruns =>
      cases hturn.symm.trans hmoved
      rw [ih hruns]

end AlphaPing.Library.Cursors
