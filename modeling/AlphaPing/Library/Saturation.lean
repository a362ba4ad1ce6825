import Mathlib.Algebra.Order.BigOperators.Group.List
import Mathlib.Algebra.GroupWithZero.Nat

/-!
# Sums that saturate

A total that is cut off at a limit after every addition is the whole sum, cut off once: what was
lost on the way would have been cut off in the end.
-/

namespace AlphaPing.Library.Saturation

variable {Item : Type} (limit : ℕ)

theorem min_add_min (first second : ℕ) :
    min (first + min second limit) limit = min (first + second) limit := by
  omega

theorem min_min_add (first second : ℕ) :
    min (min first limit + second) limit = min (first + second) limit := by
  omega

theorem foldl_min (amount : Item → ℕ) (items : List Item) (start : ℕ) :
    min (items.foldl (fun total item ↦ min (total + min (amount item) limit) limit) start) limit =
      min (start + (items.map amount).sum) limit := by
  induction items generalizing start with
  | nil => simp
  | cons item rest ih =>
    calc
      _ = min (min (start + min (amount item) limit) limit + (rest.map amount).sum) limit := by
        rw [List.foldl_cons, ih]
      _ = min (start + min (amount item) limit + (rest.map amount).sum) limit :=
        min_min_add limit _ _
      _ = min (start + (rest.map amount).sum + min (amount item) limit) limit := by
        rw [Nat.add_right_comm]
      _ = min (start + (rest.map amount).sum + amount item) limit := min_add_min limit _ _
      _ = _ := by rw [List.map_cons, List.sum_cons, Nat.add_assoc, Nat.add_comm (amount item)]

theorem foldl_min_le (amount : Item → ℕ) (items : List Item) {start : ℕ} (h : start ≤ limit) :
    items.foldl (fun total item ↦ min (total + min (amount item) limit) limit) start ≤ limit := by
  induction items generalizing start with
  | nil => exact h
  | cons item rest ih =>
    rw [List.foldl_cons]
    exact ih (min_le_right _ _)

theorem foldl_min_eq (amount : Item → ℕ) (items : List Item) {start : ℕ} (h : start ≤ limit) :
    items.foldl (fun total item ↦ min (total + min (amount item) limit) limit) start =
      min (start + (items.map amount).sum) limit := by
  rw [← foldl_min, Nat.min_eq_left (foldl_min_le limit amount items h)]

/-- Two multiples of one number that are cut off at a limit are equal if the factors are, if the
number is zero, or if both are cut off. -/
theorem min_mul_eq_iff {first second number : ℕ} :
    min (first * number) limit = min (second * number) limit ↔
      first = second ∨ number = 0 ∨ (limit ≤ first * number ∧ limit ≤ second * number) := by
  constructor
  · intro h
    by_cases hfirst : limit ≤ first * number
    · have hsecond : limit ≤ second * number := by omega
      exact .inr (.inr ⟨hfirst, hsecond⟩)
    · have hequal : first * number = second * number := by omega
      rcases Nat.eq_zero_or_pos number with hzero | hpos
      · exact .inr (.inl hzero)
      · exact .inl (Nat.eq_of_mul_eq_mul_right hpos hequal)
  · rintro (rfl | rfl | ⟨hfirst, hsecond⟩)
    · rfl
    · simp
    · rw [Nat.min_eq_right hfirst, Nat.min_eq_right hsecond]

end AlphaPing.Library.Saturation
