import Mathlib.Data.Nat.Bitwise
import Mathlib.Order.Bounds.Basic

/-!
# Sliding windows over accepted numbers

A receiver that must accept every number at most once, without keeping all of them, keeps the
highest accepted number and one bit for each of the `width` numbers from it downwards. A number
further below is refused although it may never have been seen.

`Admits` is the decision in terms of the set of accepted numbers. `Represents` links that set to
the pair of numbers that is stored, and the theorems below say how the pair has to move when a
number is accepted. The module knows nothing about where the pair is stored or how wide an
integer of the store is.
-/

namespace AlphaPing.Library.SlidingWindow

/-- A number is admitted if it is new and lies above every accepted number or less than `width`
below the highest one. -/
def Admits (width : ℕ) (accepted : Set ℕ) (number : ℕ) : Prop :=
  number ∉ accepted ∧ ((∀ other ∈ accepted, other < number) ∨
    ∃ highest, IsGreatest accepted highest ∧ number < highest ∧ highest - number < width)

/-- Bit `i` of `bits` tells whether the number `i` below `highest` was accepted. -/
structure Represents (width : ℕ) (accepted : Set ℕ) (highest bits : ℕ) : Prop where
  greatest : IsGreatest accepted highest
  testBit_iff : ∀ i < width, bits.testBit i = true ↔ i ≤ highest ∧ highest - i ∈ accepted
  lt_two_pow : bits < 2 ^ width

/-- The bits after the highest number moved up by `distance`. -/
def advance (width bits distance : ℕ) : ℕ :=
  if width ≤ distance then 1 else (bits <<< distance ||| 1) % 2 ^ width

/-- The bits after a number `distance` below the highest one was accepted. -/
def mark (bits distance : ℕ) : ℕ :=
  bits ||| 1 <<< distance

variable {width highest bits number : ℕ} {accepted : Set ℕ}

theorem testBit_singleBit (i distance : ℕ) :
    (1 <<< distance).testBit i = decide (i = distance) := by
  rw [Nat.one_shiftLeft, Nat.testBit_two_pow]
  exact decide_eq_decide.mpr eq_comm

theorem testBit_mark (i distance : ℕ) :
    (mark bits distance).testBit i = (bits.testBit i || decide (i = distance)) := by
  rw [mark, Nat.testBit_or, testBit_singleBit]

theorem testBit_advance {i distance : ℕ} (hi : i < width) :
    (advance width bits distance).testBit i =
      (decide (i = 0) || (decide (distance ≤ i) && bits.testBit (i - distance))) := by
  have hone : Nat.testBit 1 i = decide (i = 0) := testBit_singleBit i 0
  unfold advance
  split_ifs with hjump
  · have hfar : ¬ distance ≤ i := by omega
    simp [hone, hfar]
  · rw [Nat.testBit_mod_two_pow, Nat.testBit_or, Nat.testBit_shiftLeft]
    simp [hi, hone, Bool.or_comm]

theorem mark_lt_two_pow {distance : ℕ} (hbits : bits < 2 ^ width) (hdistance : distance < width) :
    mark bits distance < 2 ^ width := by
  refine Nat.or_lt_two_pow hbits ?_
  rw [Nat.one_shiftLeft]
  exact Nat.pow_lt_pow_right Nat.one_lt_two hdistance

theorem advance_lt_two_pow {distance : ℕ} (hwidth : 0 < width) :
    advance width bits distance < 2 ^ width := by
  unfold advance
  split_ifs
  · exact Nat.one_lt_two_pow hwidth.ne'
  · exact Nat.mod_lt _ (Nat.two_pow_pos width)

/-! ## The decision -/

theorem Represents.lt_iff (h : Represents width accepted highest bits) :
    (∀ other ∈ accepted, other < number) ↔ highest < number := by
  constructor
  · intro hall
    exact hall highest h.greatest.1
  · intro hlt other hother
    exact lt_of_le_of_lt (h.greatest.2 hother) hlt

/-- The stored pair decides exactly the numbers that are admitted. -/
theorem Represents.admits_iff (h : Represents width accepted highest bits) :
    Admits width accepted number ↔ highest < number ∨
      number < highest ∧ highest - number < width ∧ bits.testBit (highest - number) = false := by
  constructor
  · rintro ⟨hnew, habove | ⟨top, htop, hlt, hnear⟩⟩
    · exact .inl (h.lt_iff.mp habove)
    · obtain rfl := htop.unique h.greatest
      refine .inr ⟨hlt, hnear, ?_⟩
      rw [Bool.eq_false_iff, ne_eq, h.testBit_iff _ hnear]
      rintro ⟨-, hmem⟩
      rw [Nat.sub_sub_self hlt.le] at hmem
      exact hnew hmem
  · rintro (habove | ⟨hlt, hnear, hclear⟩)
    · exact ⟨fun hmem ↦ absurd (h.greatest.2 hmem) (by omega), .inl (h.lt_iff.mpr habove)⟩
    · refine ⟨fun hmem ↦ ?_, .inr ⟨highest, h.greatest, hlt, hnear⟩⟩
      have hset : bits.testBit (highest - number) = true := by
        rw [h.testBit_iff _ hnear, Nat.sub_sub_self hlt.le]
        exact ⟨Nat.sub_le _ _, hmem⟩
      exact absurd hset (by simp [hclear])

theorem admits_empty : Admits width ∅ number :=
  ⟨Set.notMem_empty number, .inl fun _ h ↦ absurd h (Set.notMem_empty _)⟩

/-! ## Accepting a number -/

theorem represents_first (hwidth : 0 < width) : Represents width {number} number 1 where
  greatest := isGreatest_singleton
  testBit_iff i hi := by
    have hone : Nat.testBit 1 i = decide (i = 0) := testBit_singleBit i 0
    rw [hone, decide_eq_true_iff, Set.mem_singleton_iff]
    omega
  lt_two_pow := Nat.one_lt_two_pow hwidth.ne'

theorem Represents.advance (h : Represents width accepted highest bits) (hwidth : 0 < width)
    (habove : highest < number) :
    Represents width (insert number accepted) number
      (advance width bits (number - highest)) where
  greatest := by
    refine ⟨Set.mem_insert number accepted, ?_⟩
    rintro other (rfl | hother)
    · exact le_rfl
    · exact (h.lt_iff.mpr habove other hother).le
  testBit_iff i hi := by
    have hold (j : ℕ) (hj : j ∈ accepted) : j ≤ highest := h.greatest.2 hj
    simp only [testBit_advance hi, Bool.or_eq_true, Bool.and_eq_true, decide_eq_true_eq,
      Set.mem_insert_iff]
    constructor
    · rintro (rfl | ⟨hfar, hset⟩)
      · simp
      · obtain ⟨hle, hmem⟩ := (h.testBit_iff _ (by omega)).mp hset
        refine ⟨by omega, .inr ?_⟩
        rwa [show number - i = highest - (i - (number - highest)) by omega]
    · rintro ⟨hle, heq | hmem⟩
      · exact .inl (by omega)
      · have := hold _ hmem
        refine .inr ⟨by omega, (h.testBit_iff _ (by omega)).mpr ⟨by omega, ?_⟩⟩
        rwa [show highest - (i - (number - highest)) = number - i by omega]
  lt_two_pow := advance_lt_two_pow hwidth

theorem Represents.mark (h : Represents width accepted highest bits)
    (hbelow : number < highest) (hnear : highest - number < width) :
    Represents width (insert number accepted) highest (mark bits (highest - number)) where
  greatest := by
    refine ⟨Set.mem_insert_of_mem _ h.greatest.1, ?_⟩
    rintro other (rfl | hother)
    · exact hbelow.le
    · exact h.greatest.2 hother
  testBit_iff i hi := by
    rw [testBit_mark, Bool.or_eq_true, h.testBit_iff i hi, decide_eq_true_iff,
      Set.mem_insert_iff]
    constructor
    · rintro (⟨hle, hmem⟩ | rfl)
      · exact ⟨hle, .inr hmem⟩
      · exact ⟨Nat.sub_le _ _, .inl (Nat.sub_sub_self hbelow.le)⟩
    · rintro ⟨hle, heq | hmem⟩
      · exact .inr (by omega)
      · exact .inl ⟨hle, hmem⟩
  lt_two_pow := mark_lt_two_pow h.lt_two_pow hnear

/-- The bit of the highest number is set, so the stored bits are never zero. -/
theorem Represents.bits_pos (h : Represents width accepted highest bits) (hwidth : 0 < width) :
    0 < bits := by
  have hset : bits.testBit 0 = true :=
    (h.testBit_iff 0 hwidth).mpr ⟨Nat.zero_le _, h.greatest.1⟩
  rcases Nat.eq_zero_or_pos bits with rfl | hpos
  · simp at hset
  · exact hpos

end AlphaPing.Library.SlidingWindow
