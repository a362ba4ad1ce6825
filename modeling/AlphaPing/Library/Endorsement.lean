import Mathlib.Data.Finset.Card

/-!
# Endorsement by a threshold of trusted parties

A message counts when enough distinct trusted parties have endorsed it. If the parties that an
attacker controls are fewer than the threshold, one of the endorsements comes from a party that
the attacker does not control.
-/

namespace AlphaPing.Library.Endorsement

variable {Party Message : Type*}

/-- Who is trusted, and how many of them have to agree. -/
structure Policy (Party : Type*) where
  trusted : List Party
  threshold : ℕ

/-- Enough distinct trusted parties stand behind the message. -/
def Policy.Endorsed (policy : Policy Party) (endorses : Party → Message → Prop)
    (message : Message) : Prop :=
  ∃ parties : Finset Party, policy.threshold ≤ parties.card ∧
    ∀ party ∈ parties, party ∈ policy.trusted ∧ endorses party message

/-- The attacker controls too few of the trusted parties to endorse a message alone. -/
def Policy.Resists (policy : Policy Party) (controlled : Finset Party) : Prop :=
  ∀ parties ⊆ controlled, (∀ party ∈ parties, party ∈ policy.trusted) →
    parties.card < policy.threshold

variable {policy : Policy Party} {endorses : Party → Message → Prop} {message : Message}

/-- An endorsement that an attacker cannot produce alone has an honest party behind it. -/
theorem Policy.Endorsed.exists_honest [DecidableEq Party] {controlled : Finset Party}
    (h : policy.Endorsed (fun party message ↦ party ∈ controlled ∨ endorses party message) message)
    (hresists : policy.Resists controlled) :
    ∃ party ∈ policy.trusted, party ∉ controlled ∧ endorses party message := by
  obtain ⟨parties, hcard, hparties⟩ := h
  have houtside : ¬parties ⊆ controlled := fun hsubset ↦
    absurd (hresists parties hsubset fun party hparty ↦ (hparties party hparty).1) hcard.not_gt
  obtain ⟨party, hparty, hhonest⟩ := Finset.not_subset.mp houtside
  obtain ⟨htrusted, hendorsed⟩ := hparties party hparty
  exact ⟨party, htrusted, hhonest, hendorsed.resolve_left hhonest⟩

end AlphaPing.Library.Endorsement
