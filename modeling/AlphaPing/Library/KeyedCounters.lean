import Mathlib.Data.List.Nodup

/-!
# A counter that forgets its earlier keys

The counter remembers one key. A number is issued for a key: it continues the count when the key
is the remembered one, and starts again at one otherwise. No pair of a key and a number is issued
twice exactly if no key comes back after another one.
-/

namespace AlphaPing.Library.KeyedCounters

variable {Key : Type*} [DecidableEq Key]

/-- The remembered key with the last number issued for it. -/
structure Counter (Key : Type*) where
  key : Option Key
  count : ℕ

def Counter.fresh : Counter Key := ⟨none, 0⟩

/-- The number that a key gets next, before the limit is looked at. -/
def Counter.next (counter : Counter Key) (key : Key) : ℕ :=
  if counter.key = some key then counter.count + 1 else 1

/-- The pairs issued for a list of keys; at the limit nothing is issued and nothing changes. -/
def issued (limit : ℕ) (counter : Counter Key) : List Key → List (Key × ℕ)
  | [] => []
  | key :: keys =>
    if limit < counter.next key then issued limit counter keys
    else (key, counter.next key) :: issued limit ⟨some key, counter.next key⟩ keys

/-- Equal keys stand next to each other: no key comes back after another one. -/
def Unbroken : List Key → Prop
  | [] => True
  | [_] => True
  | first :: second :: keys =>
    (first = second ∨ first ∉ second :: keys) ∧ Unbroken (second :: keys)

instance decidableUnbroken : (keys : List Key) → Decidable (Unbroken keys)
  | [] => .isTrue trivial
  | [_] => .isTrue trivial
  | _ :: second :: keys =>
    have := decidableUnbroken (second :: keys)
    inferInstanceAs (Decidable (_ ∧ _))

variable {limit : ℕ} {counter : Counter Key} {key : Key} {keys : List Key}

theorem Counter.next_same (count : ℕ) : (Counter.mk (some key) count).next key = count + 1 :=
  if_pos rfl

theorem Counter.next_other (h : counter.key ≠ some key) : counter.next key = 1 := if_neg h

theorem mem_of_issued {pair : Key × ℕ} (h : pair ∈ issued limit counter keys) : pair.1 ∈ keys := by
  induction keys generalizing counter with
  | nil => cases h
  | cons key keys ih =>
    unfold issued at h
    split at h
    · exact List.mem_cons_of_mem key (ih h)
    · cases h with
      | head => exact List.mem_cons_self
      | tail _ h => exact List.mem_cons_of_mem key (ih h)

theorem le_limit_of_issued {pair : Key × ℕ} (h : pair ∈ issued limit counter keys) :
    pair.2 ≤ limit := by
  induction keys generalizing counter with
  | nil => cases h
  | cons key keys ih =>
    unfold issued at h
    split at h
    next => exact ih h
    next hlimit =>
      cases h with
      | head => exact Nat.le_of_not_lt hlimit
      | tail _ h => exact ih h

/-- While its key stays, a counter issues ever larger numbers for it. -/
theorem lt_of_issued {count number : ℕ} (hunbroken : Unbroken (key :: keys))
    (h : (key, number) ∈ issued limit ⟨some key, count⟩ keys) : count < number := by
  induction keys generalizing count with
  | nil => cases h
  | cons second keys ih =>
    obtain ⟨rfl | hnotMem, htail⟩ := hunbroken
    · unfold issued at h
      rw [Counter.next_same] at h
      split at h
      · exact ih htail h
      · cases h with
        | head => exact Nat.lt_succ_self count
        | tail _ h => exact Nat.lt_of_succ_lt (ih htail h)
    · exact absurd (mem_of_issued h) hnotMem

theorem nodup_issued_of_unbroken {count : ℕ} (hlimit : 1 ≤ limit) (h : Unbroken (key :: keys)) :
    (issued limit ⟨some key, count⟩ keys).Nodup := by
  induction keys generalizing key count with
  | nil => exact List.nodup_nil
  | cons second keys ih =>
    unfold issued
    obtain ⟨rfl | hnotMem, htail⟩ := h
    · split
      · exact ih htail
      · apply List.nodup_cons.mpr
        apply And.intro
        · intro hmem
          exact Nat.lt_irrefl _ (lt_of_issued htail hmem)
        · exact ih htail
    · have hother : (Counter.mk (some key) count).key ≠ some second := by
        intro hsame
        cases hsame
        exact hnotMem List.mem_cons_self
      rw [Counter.next_other hother, if_neg (Nat.not_lt.mpr hlimit)]
      apply List.nodup_cons.mpr
      apply And.intro
      · intro hmem
        exact Nat.lt_irrefl _ (lt_of_issued htail hmem)
      · exact ih htail

theorem one_mem_issued (hlimit : 1 ≤ limit) (hother : counter.key ≠ some key)
    (h : key ∈ keys) : (key, 1) ∈ issued limit counter keys := by
  induction keys generalizing counter with
  | nil => cases h
  | cons first keys ih =>
    unfold issued
    by_cases hfirst : first = key
    · subst hfirst
      rw [Counter.next_other hother, if_neg (Nat.not_lt.mpr hlimit)]
      exact List.mem_cons_self
    · have hrest : key ∈ keys := by
        cases h with
        | head => exact absurd rfl hfirst
        | tail _ h => exact h
      split
      · exact ih hother hrest
      · apply List.mem_cons_of_mem
        apply ih _ hrest
        simpa using hfirst

theorem unbroken_of_nodup {count : ℕ} (hlimit : 1 ≤ limit)
    (hnodup : (issued limit ⟨some key, count⟩ keys).Nodup)
    (hone : (key, 1) ∉ issued limit ⟨some key, count⟩ keys) : Unbroken (key :: keys) := by
  induction keys generalizing key count with
  | nil => trivial
  | cons second keys ih =>
    unfold issued at hnodup hone
    by_cases hsame : key = second
    · subst hsame
      apply And.intro (.inl rfl)
      split at hnodup
      next hfull =>
        rw [if_pos hfull] at hone
        exact ih hnodup hone
      next hfree =>
        rw [if_neg hfree, Counter.next_same] at hone
        rw [Counter.next_same] at hnodup
        exact ih hnodup.of_cons fun hmem ↦ hone (List.mem_cons_of_mem _ hmem)
    · have hother : (Counter.mk (some key) count).key ≠ some second := by simpa using hsame
      rw [Counter.next_other hother, if_neg (Nat.not_lt.mpr hlimit)] at hnodup hone
      obtain ⟨hsecond, htail⟩ := List.nodup_cons.mp hnodup
      apply And.intro
      · refine .inr fun hmem ↦ ?_
        have hrest : key ∈ keys := by
          cases hmem with
          | head => exact absurd rfl hsame
          | tail _ h => exact h
        apply hone
        apply List.mem_cons_of_mem
        apply one_mem_issued hlimit _ hrest
        simpa using Ne.symm hsame
      · exact ih htail hsecond

/-- No pair is issued twice exactly if no key comes back after another one. -/
theorem nodup_issued_iff (hlimit : 1 ≤ limit) :
    (issued limit .fresh keys).Nodup ↔ Unbroken keys := by
  cases keys with
  | nil => exact ⟨fun _ ↦ trivial, fun _ ↦ List.nodup_nil⟩
  | cons key keys =>
    have hother : (Counter.fresh : Counter Key).key ≠ some key := nofun
    unfold issued
    rw [Counter.next_other hother, if_neg (Nat.not_lt.mpr hlimit), List.nodup_cons]
    constructor
    · intro h
      exact unbroken_of_nodup hlimit h.2 h.1
    · intro h
      apply And.intro
      · intro hmem
        exact Nat.lt_irrefl _ (lt_of_issued h hmem)
      · exact nodup_issued_of_unbroken hlimit h

end AlphaPing.Library.KeyedCounters
