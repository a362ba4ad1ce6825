import Mathlib.Data.Nat.Bitwise

/-!
# What the ingest worker's SQL statements compute with

SQLite integers are signed 64-bit numbers. The operators below are the ones the worker's
statements use on integers whose width matters; counters that stay far below the width (row
counts, sequences up to `2^53 - 1`, timestamps) are unbounded numbers elsewhere in the model.
-/

namespace AlphaPing.Ingest.Database

/-- The errors a handler can answer with. -/
inductive IngestError where
  | badRequest
  | unsupportedMediaType
  | rateLimited
  | unauthorized
  | conflict
  | internal
  deriving DecidableEq

/-- The HTTP status of `error_response`; an internal error is handed to the platform. -/
def IngestError.status : IngestError → Option ℕ
  | badRequest => some 400
  | unsupportedMediaType => some 415
  | rateLimited => some 429
  | unauthorized => some 404
  | conflict => some 409
  | internal => none

/-- SQLite's `<<`: bits leave at the top, and a negative count shifts to the right. -/
def shiftLeft (value : BitVec 64) (count : ℤ) : BitVec 64 :=
  if count < 0 then value.sshiftRight (-count).toNat else value <<< count.toNat

variable (value : BitVec 64)

theorem shiftLeft_natCast (count : ℕ) : shiftLeft value count = value <<< count := by
  have h : ¬ (count : ℤ) < 0 := by omega
  rw [shiftLeft, if_neg h, Int.toNat_natCast]

theorem shiftLeft_natSub {low high : ℕ} (h : low ≤ high) :
    shiftLeft value ((high : ℤ) - low) = value <<< (high - low) := by
  have hcast : (high : ℤ) - low = ((high - low : ℕ) : ℤ) := by omega
  rw [hcast, shiftLeft_natCast]

theorem toNat_one_shiftLeft {count : ℕ} (h : count < 64) :
    (1#64 <<< count).toNat = 1 <<< count := by
  have hone : (1#64).toNat = 1 := by decide
  rw [BitVec.toNat_shiftLeft, hone]
  refine Nat.mod_eq_of_lt ?_
  rw [Nat.one_shiftLeft]
  exact Nat.pow_lt_pow_right Nat.one_lt_two h

theorem and_one_shiftLeft_eq_zero {count : ℕ} (h : count < 64) :
    value &&& (1#64 <<< count) = 0#64 ↔ value.toNat.testBit count = false := by
  have htwo : 1#64 <<< count = BitVec.twoPow 64 count := rfl
  have hne : BitVec.twoPow 64 count ≠ 0#64 := by
    intro hzero
    have hbit := congrArg (fun bits ↦ bits.getLsbD count) hzero
    simp [h] at hbit
  rw [htwo, BitVec.and_twoPow, ← BitVec.getLsbD]
  cases value.getLsbD count <;> simp [hne]

/-- Keeping the low 63 bits of a shifted window loses exactly what lies above them, also when
the shift itself left the 64-bit range. -/
theorem toNat_shifted_and_mask (count : ℕ) :
    ((value <<< count ||| 1#64) &&& 9223372036854775807#64).toNat =
      (value.toNat <<< count ||| 1) % 2 ^ 63 := by
  have hmask : (9223372036854775807#64).toNat = 2 ^ 63 - 1 := by decide
  have hone : (1#64).toNat = 1 := by decide
  rw [BitVec.toNat_and, hmask, Nat.and_two_pow_sub_one_eq_mod, BitVec.toNat_or, hone,
    BitVec.toNat_shiftLeft]
  refine Nat.eq_of_testBit_eq fun i ↦ ?_
  simp only [Nat.testBit_mod_two_pow, Nat.testBit_or]
  by_cases hi : i < 63
  · have hi64 : i < 64 := by omega
    simp [hi, hi64]
  · simp [hi]

end AlphaPing.Ingest.Database
