import Mathlib.Data.List.Chain

/-!
# Chains of requests

A client that follows redirects sends a chain of requests. Of each one an observer sees the
origin, whether the transport is secure, and whether a body and secrets come with it. A hop is
careful if it takes a body or a secret along only to the same origin, and never to a transport
that is less secure. Careful hops make a chain whose body and secrets stay at the first origin.
-/

namespace AlphaPing.Library.Hops

variable {Origin : Type*}

structure Visit (Origin : Type*) where
  origin : Origin
  secure : Bool
  carriesBody : Bool
  carriesSecret : Bool

/-- What a careful hop takes along. -/
structure Careful (earlier later : Visit Origin) : Prop where
  body : later.carriesBody = true → earlier.carriesBody = true ∧ later.origin = earlier.origin
  secret : later.carriesSecret = true →
    earlier.carriesSecret = true ∧ later.origin = earlier.origin
  secure : earlier.secure = true → later.secure = true

/-- A chain that keeps its body and its secrets at the configured origin. Once the chain has left
it, no secret is sent again, also not on its return. -/
structure SafeChain (configured : Origin) (visits : List (Visit Origin)) : Prop where
  body : ∀ visit ∈ visits, visit.carriesBody = true → visit.origin = configured
  secret : ∀ visit ∈ visits, visit.carriesSecret = true → visit.origin = configured
  left : visits.Pairwise fun earlier later ↦
    earlier.origin ≠ configured → later.carriesSecret = false
  downgrade : visits.Pairwise fun earlier later ↦ earlier.secure = true → later.secure = true

variable {configured : Origin} {first second third : Visit Origin} {visits : List (Visit Origin)}

theorem Careful.refl (visit : Visit Origin) : Careful visit visit where
  body h := ⟨h, rfl⟩
  secret h := ⟨h, rfl⟩
  secure := id

theorem Careful.trans (h : Careful first second) (h' : Careful second third) :
    Careful first third where
  body hthird := by
    obtain ⟨hsecond, horigin⟩ := h'.body hthird
    obtain ⟨hfirst, hsame⟩ := h.body hsecond
    exact ⟨hfirst, horigin.trans hsame⟩
  secret hthird := by
    obtain ⟨hsecond, horigin⟩ := h'.secret hthird
    obtain ⟨hfirst, hsame⟩ := h.secret hsecond
    exact ⟨hfirst, horigin.trans hsame⟩
  secure hfirst := h'.secure (h.secure hfirst)

instance : IsTrans (Visit Origin) Careful := ⟨fun _ _ _ ↦ Careful.trans⟩

theorem safeChain_nil : SafeChain configured ([] : List (Visit Origin)) where
  body _ h := absurd h List.not_mem_nil
  secret _ h := absurd h List.not_mem_nil
  left := .nil
  downgrade := .nil

/-- A chain of careful hops that starts at the configured origin is safe. -/
theorem safeChain_of_careful (h : (first :: visits).IsChain Careful)
    (hfirst : first.origin = configured) : SafeChain configured (first :: visits) := by
  have hpairwise : (first :: visits).Pairwise Careful := List.isChain_iff_pairwise.mp h
  have hcareful : ∀ visit ∈ first :: visits, Careful first visit := by
    intro visit hvisit
    cases hvisit with
    | head => exact .refl first
    | tail _ hvisit => exact List.rel_of_pairwise_cons hpairwise hvisit
  have hsecret : ∀ visit ∈ first :: visits, visit.carriesSecret = true →
      visit.origin = configured := by
    intro visit hvisit hcarries
    exact ((hcareful visit hvisit).secret hcarries).2.trans hfirst
  constructor
  case body =>
    intro visit hvisit hcarries
    exact ((hcareful visit hvisit).body hcarries).2.trans hfirst
  case secret => exact hsecret
  case left =>
    apply hpairwise.imp_of_mem
    intro earlier later hearlier _ hhop hleft
    apply Bool.eq_false_iff.mpr
    intro hcarries
    exact hleft (hsecret earlier hearlier (hhop.secret hcarries).1)
  case downgrade => exact hpairwise.imp Careful.secure

/-! ## Chains that a loop issues -/

/-- What a loop with a number of iterations left issues, once it carries the first visit. -/
structure Issued (first : Visit Origin) (left : ℕ) (visits : List (Visit Origin)) : Prop where
  length : visits.length ≤ left
  head : ∀ visit ∈ visits.head?, visit = first
  careful : visits.IsChain Careful

theorem issued_nil (first : Visit Origin) (left : ℕ) : Issued first left [] where
  length := Nat.zero_le left
  head _ h := nomatch h
  careful := .nil

theorem issued_singleton (first : Visit Origin) (left : ℕ) : Issued first (left + 1) [first] where
  length := Nat.le_add_left 1 left
  head _ h := (Option.some.inj h).symm
  careful := .singleton first

theorem Issued.cons {left : ℕ} (h : Issued second left visits) (hhop : Careful first second) :
    Issued first (left + 1) (first :: visits) where
  length := Nat.succ_le_succ h.length
  head _ hvisit := (Option.some.inj hvisit).symm
  careful := by
    cases visits with
    | nil => exact .singleton first
    | cons visit visits =>
      obtain rfl : visit = second := h.head visit rfl
      exact List.isChain_cons_cons.mpr ⟨hhop, h.careful⟩

theorem Issued.safe {left : ℕ} (h : Issued first left visits) (hfirst : first.origin = configured) :
    SafeChain configured visits := by
  cases visits with
  | nil => exact safeChain_nil
  | cons visit visits =>
    apply safeChain_of_careful h.careful
    rw [h.head visit rfl, hfirst]

end AlphaPing.Library.Hops
