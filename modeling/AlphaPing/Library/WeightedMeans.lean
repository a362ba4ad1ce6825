import Mathlib.Algebra.Order.BigOperators.Group.List
import Mathlib.Algebra.Order.Field.Basic
import Mathlib.Tactic.FieldSimp
import Mathlib.Tactic.Linarith
import Mathlib.Tactic.LinearCombination
import Mathlib.Tactic.Ring

/-!
# Means that are put together from the means of parts

Each part has some observations, and the mean of all observations is wanted. What is put together
instead gives each part a weight of its own and an amount that stands for the weight times its
mean. The two agree, up to the error of the amounts, when the weights are in proportion to the
numbers of observations; when they are not, one part with large observations drives them apart.
-/

namespace AlphaPing.Library.WeightedMeans

structure Part where
  weight : ℕ
  amount : ℕ
  count : ℕ
  sum : ℕ

def total (column : Part → ℕ) (parts : List Part) : ℕ :=
  (parts.map column).sum

/-- The mean that is put together. -/
def usedMean (parts : List Part) : ℚ :=
  total Part.amount parts / total Part.weight parts

/-- The mean of all observations. -/
def exactMean (parts : List Part) : ℚ :=
  total Part.sum parts / total Part.count parts

/-- The weights are in proportion to the numbers of observations. -/
def Proportional (parts : List Part) : Prop :=
  ∀ part ∈ parts, part.weight * total Part.count parts = part.count * total Part.weight parts

instance (parts : List Part) : Decidable (Proportional parts) :=
  inferInstanceAs (Decidable (∀ part ∈ parts, _ = _))

/-- The amount of a part is its weight times its mean, up to an error. -/
structure Part.Near (bound : ℚ) (part : Part) : Prop where
  near : |(part.amount * part.count - part.sum * part.weight : ℚ)| ≤
    bound * (part.weight * part.count)
  empty : part.count = 0 → part.amount = 0 ∧ part.sum = 0

variable (column : Part → ℕ) {parts : List Part}

@[simp] theorem total_nil : total column [] = 0 := rfl

@[simp] theorem total_cons (part : Part) (rest : List Part) :
    total column (part :: rest) = column part + total column rest :=
  List.sum_cons

@[simp] theorem total_append (first second : List Part) :
    total column (first ++ second) = total column first + total column second := by
  rw [total, List.map_append, List.sum_append, total, total]

theorem total_eq_zero_iff {column : Part → ℕ} :
    total column parts = 0 ↔ ∀ part ∈ parts, column part = 0 := by
  simp [total, List.sum_eq_zero_iff]

/-- What of the parts does not depend on the observations. -/
def weights (parts : List Part) : List (ℕ × ℕ) :=
  parts.map fun part ↦ (part.weight, part.count)

theorem totals_congr {first second : List Part} (h : weights first = weights second) :
    total Part.weight first = total Part.weight second ∧
      total Part.count first = total Part.count second := by
  have hrule : ∀ parts : List Part, total Part.weight parts = ((weights parts).map Prod.fst).sum ∧
      total Part.count parts = ((weights parts).map Prod.snd).sum := by
    intro parts
    rw [weights, List.map_map, List.map_map]
    exact ⟨rfl, rfl⟩
  rw [(hrule first).1, (hrule first).2, (hrule second).1, (hrule second).2, h]
  exact ⟨rfl, rfl⟩

theorem proportional_congr {first second : List Part} (h : weights first = weights second) :
    Proportional first ↔ Proportional second := by
  obtain ⟨hweight, hcount⟩ := totals_congr h
  have hrule : ∀ (parts : List Part) (weight count : ℕ),
      (∀ part ∈ parts, part.weight * count = part.count * weight) ↔
        ∀ pair ∈ weights parts, pair.1 * count = pair.2 * weight := by
    intro parts weight count
    rw [weights, List.forall_mem_map]
  rw [Proportional, Proportional, hrule, hrule, hweight, hcount, h]

/-- The part when all of its observations have one value. -/
def Part.constant (value : ℕ) (part : Part) : Part where
  weight := part.weight
  amount := value * part.weight
  count := part.count
  sum := value * part.count

/-- A part under proportional weights: its amount is off by its weight times the error. -/
theorem Part.Near.scaled {bound : ℚ} {part : Part} (h : part.Near bound) {weights counts : ℕ}
    (hprop : part.weight * counts = part.count * weights) :
    |(part.amount * counts - part.sum * weights : ℚ)| ≤ bound * part.weight * counts := by
  rcases Nat.eq_zero_or_pos part.count with hcount | hcount
  · obtain ⟨hamount, hsum⟩ := h.empty hcount
    have hzero : (part.weight : ℚ) * counts = 0 := by
      exact_mod_cast hprop.trans (by rw [hcount, Nat.zero_mul])
    rw [hamount, hsum, mul_assoc, hzero]
    simp
  · have hpos : (0 : ℚ) < part.count := by exact_mod_cast hcount
    have hcast : (part.weight : ℚ) * counts = part.count * weights := by exact_mod_cast hprop
    have hscale : (part.count : ℚ) * (part.amount * counts - part.sum * weights) =
        counts * (part.amount * part.count - part.sum * part.weight) := by
      linear_combination (part.sum : ℚ) * hcast
    have hnear := mul_le_mul_of_nonneg_left h.near (Nat.cast_nonneg (α := ℚ) counts)
    rw [← abs_of_nonneg (Nat.cast_nonneg (α := ℚ) counts), ← abs_mul, ← hscale, abs_mul,
      abs_of_pos hpos, abs_of_nonneg (Nat.cast_nonneg (α := ℚ) counts)] at hnear
    apply le_of_mul_le_mul_left _ hpos
    linarith

theorem abs_totals_le {bound : ℚ} {weights counts : ℕ}
    (h : ∀ part ∈ parts, part.Near bound ∧ part.weight * counts = part.count * weights) :
    |(total Part.amount parts * counts - total Part.sum parts * weights : ℚ)| ≤
      bound * total Part.weight parts * counts := by
  induction parts with
  | nil => simp
  | cons part rest ih =>
    obtain ⟨⟨hnear, hprop⟩, hrest⟩ := List.forall_mem_cons.mp h
    have hpart := hnear.scaled hprop
    have hothers := ih hrest
    simp only [total_cons, Nat.cast_add]
    calc |((part.amount + total Part.amount rest : ℚ) * counts -
          (part.sum + total Part.sum rest) * weights)|
        = |((part.amount * counts - part.sum * weights : ℚ) +
          (total Part.amount rest * counts - total Part.sum rest * weights))| := by
          congr 1
          ring
      _ ≤ _ := abs_add_le _ _
      _ ≤ bound * part.weight * counts + bound * total Part.weight rest * counts :=
          add_le_add hpart hothers
      _ = bound * (part.weight + total Part.weight rest) * counts := by ring

/-- With proportional weights the mean is off by no more than the parts are. -/
theorem abs_usedMean_sub_le {bound : ℚ} (hprop : Proportional parts)
    (hnear : ∀ part ∈ parts, part.Near bound) (hweight : total Part.weight parts ≠ 0)
    (hcount : total Part.count parts ≠ 0) :
    |usedMean parts - exactMean parts| ≤ bound := by
  have hw : (0 : ℚ) < total Part.weight parts := by exact_mod_cast Nat.pos_of_ne_zero hweight
  have hc : (0 : ℚ) < total Part.count parts := by exact_mod_cast Nat.pos_of_ne_zero hcount
  have htotals := abs_totals_le fun part hpart ↦ ⟨hnear part hpart, hprop part hpart⟩
  rw [usedMean, exactMean, div_sub_div _ _ hw.ne' hc.ne', abs_div, abs_of_pos (mul_pos hw hc),
    div_le_iff₀ (mul_pos hw hc)]
  calc _ = |(total Part.amount parts * total Part.count parts -
        total Part.sum parts * total Part.weight parts : ℚ)| := by
        congr 1
        ring
    _ ≤ _ := htotals
    _ = _ := by ring

/-- One part has all that is observed: how far its weight drives the means apart. -/
theorem abs_usedMean_sub_of_spike {before after : List Part} {part : Part} {value : ℕ}
    (hothers : ∀ other ∈ before ++ after, other.amount = 0 ∧ other.sum = 0)
    (hpart : part = part.constant value)
    (hweight : total Part.weight (before ++ part :: after) ≠ 0)
    (hcount : total Part.count (before ++ part :: after) ≠ 0)
    (hprop : part.weight * total Part.count (before ++ part :: after) ≠
      part.count * total Part.weight (before ++ part :: after)) :
    (value : ℚ) / (total Part.weight (before ++ part :: after) *
        total Part.count (before ++ part :: after)) ≤
      |usedMean (before ++ part :: after) - exactMean (before ++ part :: after)| := by
  have hamount : part.amount = value * part.weight := congrArg Part.amount hpart
  have hsum : part.sum = value * part.count := congrArg Part.sum hpart
  have hzero : ∀ column : Part → ℕ, (∀ other ∈ before ++ after, column other = 0) →
      total column (before ++ part :: after) = column part := by
    intro column hcolumn
    have hnone := total_eq_zero_iff.mpr hcolumn
    rw [total_append] at hnone
    rw [total_append, total_cons]
    omega
  rw [usedMean, exactMean, hzero _ fun other hother ↦ (hothers other hother).1,
    hzero _ fun other hother ↦ (hothers other hother).2, hamount, hsum]
  generalize total Part.weight (before ++ part :: after) = weights at *
  generalize total Part.count (before ++ part :: after) = counts at *
  have hw : (0 : ℚ) < weights := by exact_mod_cast Nat.pos_of_ne_zero hweight
  have hc : (0 : ℚ) < counts := by exact_mod_cast Nat.pos_of_ne_zero hcount
  have hgap : (1 : ℚ) ≤ |(part.weight * counts - part.count * weights : ℚ)| := by
    have hint : (part.weight * counts - part.count * weights : ℤ) ≠ 0 :=
      sub_ne_zero.mpr (by exact_mod_cast hprop)
    exact_mod_cast Int.one_le_abs hint
  rw [div_sub_div _ _ hw.ne' hc.ne', abs_div, abs_of_pos (mul_pos hw hc)]
  apply div_le_div_of_nonneg_right _ (mul_pos hw hc).le
  have hfactor :
      ((value * part.weight : ℕ) : ℚ) * counts - weights * ((value * part.count : ℕ) : ℚ) =
        value * (part.weight * counts - part.count * weights) := by
    push_cast
    ring
  rw [hfactor, abs_mul, abs_of_nonneg (Nat.cast_nonneg (α := ℚ) value)]
  exact le_mul_of_one_le_right (Nat.cast_nonneg value) hgap

end AlphaPing.Library.WeightedMeans
