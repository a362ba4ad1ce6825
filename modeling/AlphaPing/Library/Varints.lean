import Mathlib.Tactic.IntervalCases
import Mathlib.Tactic.Ring

/-!
# Integers to the base 128

An unsigned integer below `2 ^ 64` is written in groups of seven bits, the lowest ones first; all
bytes but the last one have the highest bit set. A reader stops after ten bytes, and the tenth one
holds a single bit.
-/

namespace AlphaPing.Library.Varints

/-- The bytes of an integer, at most as many as there is fuel. -/
def encodeWith : ℕ → ℕ → List UInt8
  | 0, _ => []
  | fuel + 1, value =>
    if value < 128 then [UInt8.ofNat value]
    else UInt8.ofNat (value % 128 + 128) :: encodeWith fuel (value / 128)

/-- The bytes of an integer below `2 ^ 64`. -/
def encode (value : ℕ) : List UInt8 :=
  encodeWith 10 value

/-- Reads on after some bytes; returns the value and the number of bytes that were read. The bits
of a byte are above those that have been read. -/
def decodeFrom : List UInt8 → ℕ → ℕ → Option (ℕ × ℕ)
  | [], _, _ => none
  | current :: rest, read, value =>
    if 10 ≤ read then none
    else if read = 9 ∧ 1 < current.toNat then none
    else
      let next := value + current.toNat % 128 * 128 ^ read
      if current.toNat < 128 then some (next, read + 1) else decodeFrom rest (read + 1) next

def decode (bytes : List UInt8) : Option (ℕ × ℕ) :=
  decodeFrom bytes 0 0

theorem length_encodeWith_le (fuel value : ℕ) : (encodeWith fuel value).length ≤ fuel := by
  induction fuel generalizing value with
  | zero => exact le_rfl
  | succ fuel ih =>
    unfold encodeWith
    split
    · exact Nat.le_add_left 1 fuel
    · exact Nat.succ_le_succ (ih (value / 128))

theorem length_encode_le (value : ℕ) : (encode value).length ≤ 10 :=
  length_encodeWith_le 10 value

theorem length_encode_pos (value : ℕ) : 0 < (encode value).length := by
  unfold encode encodeWith
  split <;> exact Nat.succ_pos _

theorem lt_of_decodeFrom {bytes : List UInt8} {read value next count : ℕ}
    (h : decodeFrom bytes read value = some (next, count)) :
    read < count ∧ count ≤ read + bytes.length := by
  induction bytes generalizing read value with
  | nil => cases h
  | cons current rest ih =>
    unfold decodeFrom at h
    split at h
    · cases h
    · split at h
      · cases h
      · dsimp only at h
        rw [List.length_cons]
        split at h
        · obtain ⟨-, rfl⟩ := Prod.mk.inj (Option.some.inj h)
          omega
        · have hrest := ih h
          omega

theorem decodeFrom_encodeWith {fuel read value : ℕ} (hfuel : read + fuel = 10)
    (hvalue : value * 128 ^ read < 2 ^ 64) (hread : 0 < fuel) (before : ℕ) (rest : List UInt8) :
    decodeFrom (encodeWith fuel value ++ rest) read before =
      some (before + value * 128 ^ read, read + (encodeWith fuel value).length) := by
  induction fuel generalizing read value before with
  | zero => exact absurd hread (Nat.lt_irrefl 0)
  | succ fuel ih =>
    unfold encodeWith
    by_cases hlast : value < 128
    · -- the last byte; the tenth one is a single bit
      have hnat : (UInt8.ofNat value).toNat = value := by
        rw [UInt8.toNat_ofNat']
        exact Nat.mod_eq_of_lt (hlast.trans (by decide))
      have htenth : ¬(read = 9 ∧ 1 < value) := by
        rintro ⟨rfl, hone⟩
        omega
      rw [if_pos hlast, List.cons_append, List.nil_append]
      unfold decodeFrom
      rw [hnat, if_neg (by omega), if_neg htenth, Nat.mod_eq_of_lt hlast]
      dsimp only
      rw [if_pos hlast]
      rfl
    · have hsplit := Nat.div_add_mod' value 128
      have hnat : (UInt8.ofNat (value % 128 + 128)).toNat = value % 128 + 128 := by
        rw [UInt8.toNat_ofNat']
        exact Nat.mod_eq_of_lt (by omega)
      have hpow : 128 ^ (read + 1) = 128 ^ read * 128 := pow_succ 128 read
      have hquotient : value / 128 * 128 ^ (read + 1) ≤ value * 128 ^ read := by
        rw [hpow, ← Nat.mul_assoc, Nat.mul_right_comm]
        exact Nat.mul_le_mul_right _ (by omega)
      have hnotLast : read < 9 := by
        by_contra hnine
        have hpowers : 128 ^ 9 ≤ 128 ^ read := Nat.pow_le_pow_right (by decide) (by omega)
        have hproduct := Nat.mul_le_mul (Nat.le_of_not_lt hlast) hpowers
        omega
      have hrest := ih (by omega : read + 1 + fuel = 10)
        (hquotient.trans_lt hvalue) (by omega) (before + value % 128 * 128 ^ read)
      rw [if_neg hlast, List.cons_append]
      unfold decodeFrom
      rw [hnat, if_neg (by omega), if_neg (by omega), Nat.add_mod_right, Nat.mod_mod]
      dsimp only
      rw [if_neg (by omega), hrest, List.length_cons]
      have hvalue' : value % 128 * 128 ^ read + value / 128 * 128 ^ (read + 1) =
          value * 128 ^ read := by
        rw [hpow]
        conv_rhs => rw [← hsplit]
        ring
      rw [Nat.add_assoc before, hvalue']
      congr 2
      omega

/-- An integer is read back, whatever follows it. -/
theorem decode_encode {value : ℕ} (h : value < 2 ^ 64) (rest : List UInt8) :
    decode (encode value ++ rest) = some (value, (encode value).length) := by
  have hread := decodeFrom_encodeWith (rfl : 0 + 10 = 10)
    (by rwa [pow_zero, Nat.mul_one]) (by decide) 0 rest
  rwa [pow_zero, Nat.mul_one, Nat.zero_add, Nat.zero_add] at hread

/-! ## All encodings -/

/-- The value of groups of seven bits. -/
def valueOf : List UInt8 → ℕ
  | [] => 0
  | current :: rest => current.toNat % 128 + 128 * valueOf rest

/-- All bytes but the last one have the highest bit set. -/
structure Terminated (front : List UInt8) (last : UInt8) : Prop where
  continues : ∀ byte ∈ front, 128 ≤ byte.toNat
  ends : last.toNat < 128

/-- An encoding is read exactly if it has at most ten bytes and its value is below `2 ^ 64`. -/
theorem decodeFrom_terminated {front : List UInt8} {last : UInt8} (h : Terminated front last)
    (rest : List UInt8) (read before : ℕ) :
    decodeFrom (front ++ last :: rest) read before =
      if read + front.length < 10 ∧ valueOf (front ++ [last]) * 128 ^ read < 2 ^ 64 then
        some (before + valueOf (front ++ [last]) * 128 ^ read, read + front.length + 1)
      else none := by
  induction front generalizing read before with
  | nil =>
    have hends := h.ends
    have hvalue : valueOf ([] ++ [last]) = last.toNat := by
      rw [List.nil_append, valueOf, valueOf, Nat.mod_eq_of_lt hends]
      rfl
    rw [hvalue, List.nil_append, decodeFrom, Nat.mod_eq_of_lt hends]
    dsimp only [List.length_nil]
    by_cases hread : 10 ≤ read
    · rw [if_pos hread, if_neg (by omega)]
    · have htenth : last.toNat * 128 ^ read < 2 ^ 64 ↔ ¬(read = 9 ∧ 1 < last.toNat) := by
        have hlt : read < 10 := by omega
        interval_cases read <;> omega
      rw [if_neg hread, if_pos hends]
      by_cases hlast : read = 9 ∧ 1 < last.toNat
      · rw [if_pos hlast, if_neg fun hboth ↦ htenth.mp hboth.2 hlast]
      · rw [if_neg hlast, if_pos ⟨by omega, htenth.mpr hlast⟩]
  | cons current front ih =>
    have hcurrent := h.continues current List.mem_cons_self
    have hrest : Terminated front last :=
      ⟨fun byte hbyte ↦ h.continues byte (List.mem_cons_of_mem _ hbyte), h.ends⟩
    rw [List.cons_append, decodeFrom, List.length_cons]
    by_cases hread : 9 ≤ read
    · -- the tenth byte would go on
      rw [if_neg (by omega : ¬(read + (front.length + 1) < 10 ∧ _))]
      split
      · rfl
      · rw [if_pos (by omega)]
    · rw [if_neg (by omega), if_neg (by omega)]
      dsimp only
      rw [if_neg (by omega), ih hrest, List.cons_append, valueOf]
      generalize valueOf (front ++ [last]) = value
      generalize hbits : current.toNat % 128 = bits
      have hsum : (bits + 128 * value) * 128 ^ read =
          bits * 128 ^ read + value * 128 ^ (read + 1) := by ring
      have hfits : value * 128 ^ (read + 1) < 2 ^ 64 ↔
          bits * 128 ^ read + value * 128 ^ (read + 1) < 2 ^ 64 := by
        have hlt : read < 9 := by omega
        interval_cases read <;> omega
      simp only [hsum, hfits, Nat.add_assoc, Nat.add_comm 1 front.length]

theorem decodeFrom_unterminated {bytes : List UInt8} (h : ∀ byte ∈ bytes, 128 ≤ byte.toNat)
    (read before : ℕ) : decodeFrom bytes read before = none := by
  induction bytes generalizing read before with
  | nil => rfl
  | cons current rest ih =>
    have hcurrent := h current List.mem_cons_self
    unfold decodeFrom
    split
    · rfl
    · split
      · rfl
      · dsimp only
        rw [if_neg (by omega)]
        exact ih (fun byte hbyte ↦ h byte (List.mem_cons_of_mem _ hbyte)) _ _

/-- Bytes go on to their end, or an encoding stands before the rest. -/
theorem terminated_or_unterminated (bytes : List UInt8) :
    (∀ byte ∈ bytes, 128 ≤ byte.toNat) ∨
      ∃ front last rest, bytes = front ++ last :: rest ∧ Terminated front last := by
  induction bytes with
  | nil => exact .inl fun byte hbyte ↦ absurd hbyte List.not_mem_nil
  | cons current rest ih =>
    by_cases hcurrent : 128 ≤ current.toNat
    · rcases ih with hall | ⟨front, last, after, rfl, hterminated⟩
      · exact .inl (List.forall_mem_cons.mpr ⟨hcurrent, hall⟩)
      · exact .inr ⟨current :: front, last, after, rfl,
          List.forall_mem_cons.mpr ⟨hcurrent, hterminated.continues⟩, hterminated.ends⟩
    · exact .inr ⟨[], current, rest, rfl, fun byte hbyte ↦ absurd hbyte List.not_mem_nil,
        Nat.lt_of_not_le hcurrent⟩

theorem lt_of_decode {bytes : List UInt8} {value count : ℕ}
    (h : decode bytes = some (value, count)) : value < 2 ^ 64 := by
  rcases terminated_or_unterminated bytes with hall | ⟨front, last, rest, rfl, hterminated⟩
  · rw [decode, decodeFrom_unterminated hall] at h
    cases h
  · rw [decode, decodeFrom_terminated hterminated] at h
    split at h
    · next hlimit =>
      obtain ⟨rfl, -⟩ := Prod.mk.inj (Option.some.inj h)
      omega
    · cases h

/-- A canonical encoding has no zeros above its highest bits. -/
structure Canonical (bytes : List UInt8) (value : ℕ) : Prop where
  terminated : ∃ front last, bytes = front ++ [last] ∧ Terminated front last ∧
    (last = 0 → front = [])
  value : valueOf bytes = value

theorem canonical_singleton {value : ℕ} (h : value < 128) :
    Canonical [UInt8.ofNat value] value := by
  have hnat : (UInt8.ofNat value).toNat = value := by
    rw [UInt8.toNat_ofNat']
    exact Nat.mod_eq_of_lt (h.trans (by decide))
  refine ⟨⟨[], UInt8.ofNat value, rfl, ⟨fun byte hbyte ↦ absurd hbyte List.not_mem_nil, ?_⟩,
    fun _ ↦ rfl⟩, ?_⟩
  · rwa [hnat]
  · rw [valueOf, valueOf, hnat, Nat.mod_eq_of_lt h]
    rfl

theorem canonical_encodeWith {fuel value : ℕ} (hvalue : value < 128 ^ (fuel + 1)) :
    Canonical (encodeWith (fuel + 1) value) value := by
  induction fuel generalizing value with
  | zero =>
    rw [encodeWith, if_pos (by omega)]
    exact canonical_singleton (by omega)
  | succ fuel ih =>
    rw [encodeWith]
    split
    · next hlt => exact canonical_singleton hlt
    · next hlt =>
      have hnat : (UInt8.ofNat (value % 128 + 128)).toNat = value % 128 + 128 := by
        rw [UInt8.toNat_ofNat']
        exact Nat.mod_eq_of_lt (by omega)
      have hrest := ih (Nat.div_lt_of_lt_mul (by rwa [pow_succ, Nat.mul_comm] at hvalue))
      obtain ⟨front, last, hbytes, hterminated, hlast⟩ := hrest.terminated
      refine ⟨⟨_ :: front, last, by rw [hbytes]; rfl, ⟨?_, hterminated.ends⟩, fun hzero ↦ ?_⟩, ?_⟩
      · exact List.forall_mem_cons.mpr ⟨by omega, hterminated.continues⟩
      · -- the rest would be zero
        have hquotient := hrest.value
        rw [hbytes, hlast hzero, hzero] at hquotient
        have : valueOf ([] ++ [(0 : UInt8)]) = 0 := rfl
        omega
      · rw [valueOf, hrest.value, hnat]
        omega

/-- The encoding of an integer below `2 ^ 64` is canonical. -/
theorem canonical_encode {value : ℕ} (h : value < 2 ^ 64) : Canonical (encode value) value :=
  canonical_encodeWith (h.trans (by decide))

end AlphaPing.Library.Varints
