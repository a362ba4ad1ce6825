import Mathlib.Data.List.Basic

/-!
# Leases

A lease is stored as the time until which it is held. It is taken when that time has come, for a
fixed duration, and given back by storing zero, but only by a holder that finds its own time
stored: the time is the token of the holder. A holder that does not come back leaves the lease to
expire.

Times are counted from zero, so a token is never zero.
-/

namespace AlphaPing.Library.Leases

/-- A holder and the time until which it holds the lease. -/
structure Holder where
  until_ : ℕ
  released : Bool

/-- The clock, the stored time and all holders, in the order in which they took the lease. -/
structure Lease where
  clock : ℕ
  stored : ℕ
  holders : List Holder

variable (duration : ℕ)

def tick (elapsed : ℕ) (lease : Lease) : Lease := { lease with clock := lease.clock + elapsed }

def acquire (lease : Lease) : Lease :=
  if lease.stored ≤ lease.clock then
    { lease with
      stored := lease.clock + duration
      holders := lease.holders ++ [⟨lease.clock + duration, false⟩] }
  else lease

/-- A holder gives back the lease; its time decides whether it is still its own. -/
def release (index : ℕ) (lease : Lease) : Lease :=
  match lease.holders[index]? with
  | none => lease
  | some holder =>
    if holder.released then lease
    else
      { lease with
        stored := if lease.stored = holder.until_ then 0 else lease.stored
        holders := lease.holders.set index { holder with released := true } }

/-- The holder has not given back its lease. -/
def Holding (lease : Lease) (index : ℕ) (holder : Holder) : Prop :=
  lease.holders[index]? = some holder ∧ holder.released = false

/-- The holder finds its own time stored. -/
def Owns (lease : Lease) (index : ℕ) : Prop :=
  ∃ holder, Holding lease index holder ∧ lease.stored = holder.until_

/-- What the times of a lease say about its holders. -/
structure Sound (lease : Lease) : Prop where
  /-- Somebody who came later found the lease expired. -/
  expired : ∀ index holder, Holding lease index holder → index + 1 < lease.holders.length →
    holder.until_ ≤ lease.clock
  latest : ∀ index holder, Holding lease index holder → index + 1 = lease.holders.length →
    lease.stored = holder.until_
  ordered : ∀ first second holder later, Holding lease first holder →
    lease.holders[second]? = some later → first < second → holder.until_ < later.until_
  positive : ∀ holder ∈ lease.holders, 0 < holder.until_
  stored : lease.stored = 0 ∨ ∃ holder, lease.holders.getLast? = some holder ∧
    lease.stored = holder.until_

theorem sound_start : Sound ⟨0, 0, []⟩ where
  expired _ _ h := by simp [Holding] at h
  latest _ _ h := by simp [Holding] at h
  ordered _ _ _ _ h := by simp [Holding] at h
  positive _ h := absurd h List.not_mem_nil
  stored := .inl rfl

variable {duration} {lease : Lease}

theorem Holding.lt {index : ℕ} {holder : Holder} (h : Holding lease index holder) :
    index < lease.holders.length :=
  (List.getElem?_eq_some_iff.mp h.1).1

theorem Sound.tick (h : Sound lease) (elapsed : ℕ) : Sound (tick elapsed lease) where
  expired index holder hholding hlater :=
    Nat.le_add_right_of_le (h.expired index holder hholding hlater)
  latest := h.latest
  ordered := h.ordered
  positive := h.positive
  stored := h.stored

/-- Everybody before a new holder has given back the lease or let it expire. -/
theorem Sound.expired_of_free (h : Sound lease) (hfree : lease.stored ≤ lease.clock) {index : ℕ}
    {holder : Holder} (hholding : Holding lease index holder) : holder.until_ ≤ lease.clock := by
  rcases Nat.lt_or_ge (index + 1) lease.holders.length with hlater | hlast
  · exact h.expired index holder hholding hlater
  · have hindex := hholding.lt
    rw [← h.latest index holder hholding (by omega)]
    exact hfree

theorem Sound.acquire (h : Sound lease) (hduration : 0 < duration) :
    Sound (acquire duration lease) := by
  unfold Leases.acquire
  split
  · next hfree =>
    have hold : ∀ {index : ℕ} {holder : Holder}, index < lease.holders.length →
        Holding { lease with
          stored := lease.clock + duration
          holders := lease.holders ++ [⟨lease.clock + duration, false⟩] } index holder →
        Holding lease index holder := by
      intro index holder hindex hholding
      exact ⟨by rw [← hholding.1, List.getElem?_append_left hindex], hholding.2⟩
    constructor
    · intro index holder hholding hlater
      rw [List.length_append, List.length_singleton] at hlater
      exact h.expired_of_free hfree (hold (by omega) hholding)
    · intro index holder hholding hlast
      rw [List.length_append, List.length_singleton, Nat.add_right_cancel_iff] at hlast
      have hnew := hholding.1
      rw [hlast, List.getElem?_concat_length] at hnew
      rw [← Option.some.inj hnew]
    · intro first second holder later hholding hlater hlt
      have hsecond := (List.getElem?_eq_some_iff.mp hlater).1
      rw [List.length_append, List.length_singleton] at hsecond
      have hfirst := hold (by omega) hholding
      rcases Nat.lt_or_ge second lease.holders.length with hin | hout
      · rw [List.getElem?_append_left hin] at hlater
        exact h.ordered first second holder later hfirst hlater hlt
      · obtain rfl : second = lease.holders.length := by omega
        rw [List.getElem?_concat_length] at hlater
        rw [← Option.some.inj hlater]
        exact Nat.lt_of_le_of_lt (h.expired_of_free hfree hfirst) (Nat.lt_add_of_pos_right hduration)
    · intro holder hmem
      rcases List.mem_append.mp hmem with hmem | hmem
      · exact h.positive holder hmem
      · rw [List.mem_singleton.mp hmem]
        exact Nat.add_pos_right _ hduration
    · exact .inr ⟨_, List.getLast?_concat, rfl⟩
  · exact h

/-- A holder that is not the last one does not find its time stored. -/
theorem Sound.stored_ne_of_later (h : Sound lease) {index : ℕ} {holder : Holder}
    (hholding : Holding lease index holder) (hlater : index + 1 < lease.holders.length) :
    lease.stored ≠ holder.until_ := by
  rcases h.stored with hzero | ⟨last, hlast, hstored⟩
  · have hpositive := h.positive holder (List.mem_of_getElem? hholding.1)
    omega
  · rw [List.getLast?_eq_getElem?] at hlast
    have hordered := h.ordered index _ holder last hholding hlast (by omega)
    omega

theorem Owns.last (h : Sound lease) {index : ℕ} (howns : Owns lease index) :
    index + 1 = lease.holders.length := by
  obtain ⟨holder, hholding, hstored⟩ := howns
  rcases Nat.lt_or_ge (index + 1) lease.holders.length with hlater | hlast
  · exact absurd hstored (h.stored_ne_of_later hholding hlater)
  · have hindex := hholding.lt
    omega

theorem Sound.unique (h : Sound lease) {first second : ℕ} {holder holder' : Holder}
    (hfirst : Holding lease first holder) (hsecond : Holding lease second holder')
    (hclock : lease.clock < holder.until_) (hclock' : lease.clock < holder'.until_) :
    first = second := by
  have hlast : ∀ {index : ℕ} {holder : Holder}, Holding lease index holder →
      lease.clock < holder.until_ → index + 1 = lease.holders.length := by
    intro index holder hholding hclock
    rcases Nat.lt_or_ge (index + 1) lease.holders.length with hlater | hlast
    · have hexpired := h.expired index holder hholding hlater
      omega
    · have hindex := hholding.lt
      omega
  have hfirst_last := hlast hfirst hclock
  have hsecond_last := hlast hsecond hclock'
  omega

theorem Sound.release (h : Sound lease) (index : ℕ) : Sound (release index lease) := by
  unfold Leases.release
  cases hholder : lease.holders[index]? with
  | none => exact h
  | some holder =>
    dsimp only
    split
    · exact h
    next hreleased =>
    have hnot : holder.released = false := by simpa using hreleased
    have hindex : index < lease.holders.length := (List.getElem?_eq_some_iff.mp hholder).1
    -- the other holders stay, and the time of the one that leaves stays as well
    have hother : ∀ {other : ℕ} {found : Holder},
        Holding { lease with
          stored := if lease.stored = holder.until_ then 0 else lease.stored
          holders := lease.holders.set index { holder with released := true } } other found →
        Holding lease other found ∧ other ≠ index := by
      intro other found hholding
      obtain ⟨hget, hfound⟩ := hholding
      dsimp only at hget
      by_cases hsame : index = other
      · rw [← hsame, List.getElem?_set_self hindex] at hget
        obtain rfl := Option.some.inj hget
        cases hfound
      · rw [List.getElem?_set_ne hsame] at hget
        exact ⟨⟨hget, hfound⟩, fun heq ↦ hsame heq.symm⟩
    have htime : ∀ {other : ℕ} {found : Holder},
        (lease.holders.set index { holder with released := true })[other]? = some found →
          ∃ old, lease.holders[other]? = some old ∧ old.until_ = found.until_ := by
      intro other found hget
      by_cases hsame : index = other
      · rw [← hsame, List.getElem?_set_self hindex] at hget
        obtain rfl := Option.some.inj hget
        exact ⟨holder, by rw [← hsame, hholder], rfl⟩
      · rw [List.getElem?_set_ne hsame] at hget
        exact ⟨found, hget, rfl⟩
    constructor
    · intro other found hholding hlater
      rw [List.length_set] at hlater
      exact h.expired other found (hother hholding).1 hlater
    · intro other found hholding hlast
      rw [List.length_set] at hlast
      obtain ⟨hold, hne⟩ := hother hholding
      have hstale : index + 1 < lease.holders.length := by omega
      dsimp only
      rw [if_neg (h.stored_ne_of_later ⟨hholder, hnot⟩ hstale)]
      exact h.latest other found hold hlast
    · intro first second found later hholding hlater hlt
      obtain ⟨old, hold, htimes⟩ := htime hlater
      rw [← htimes]
      exact h.ordered first second found old (hother hholding).1 hold hlt
    · intro found hmem
      obtain ⟨other, hget⟩ := List.mem_iff_getElem?.mp hmem
      obtain ⟨old, hold, htimes⟩ := htime hget
      rw [← htimes]
      exact h.positive old (List.mem_of_getElem? hold)
    · dsimp only
      split
      · exact .inl rfl
      next hne =>
      rcases h.stored with hzero | ⟨last, hlast, hstored⟩
      · exact .inl hzero
      rw [List.getLast?_eq_getElem?] at hlast ⊢
      rw [List.length_set]
      by_cases hsame : index = lease.holders.length - 1
      · rw [← hsame, hholder] at hlast
        obtain rfl := Option.some.inj hlast
        exact absurd hstored hne
      · rw [List.getElem?_set_ne hsame]
        exact .inr ⟨last, hlast, hstored⟩

theorem Owns.of_release (h : Sound lease) {index other : ℕ} (howns : Owns (release index lease) other)
    (hne : other ≠ index) : Owns lease other := by
  unfold Leases.release at howns
  split at howns
  · exact howns
  next holder hholder =>
  split at howns
  · exact howns
  obtain ⟨found, ⟨hget, hfound⟩, hstored⟩ := howns
  dsimp only at hget hstored
  rw [List.getElem?_set_ne fun hsame ↦ hne hsame.symm] at hget
  refine ⟨found, ⟨hget, hfound⟩, ?_⟩
  split at hstored
  · have hpositive := h.positive found (List.mem_of_getElem? hget)
    omega
  · exact hstored

end AlphaPing.Library.Leases
