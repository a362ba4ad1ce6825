import Mathlib.Data.Nat.Digits.Defs

/-!
# Lengths of texts

A text has a length in characters, one in UTF-8 bytes and one in UTF-16 code units. Of one text
the first is the least and the second the greatest.
-/

namespace AlphaPing.Library.Texts

/-- The UTF-16 code units of a character. -/
def codeUnits (character : Char) : ℕ :=
  if character.toNat < 0x10000 then 1 else 2

theorem utf8ByteSize_ofList (characters : List Char) :
    (String.ofList characters).utf8ByteSize = (characters.map Char.utf8Size).sum := by
  induction characters with
  | nil => simp
  | cons character rest ih => simp [← ih]

theorem length_le_utf8ByteSize (text : String) : text.toList.length ≤ text.utf8ByteSize := by
  have hsum : ∀ characters : List Char,
      characters.length ≤ (characters.map Char.utf8Size).sum := by
    intro characters
    induction characters with
    | nil => simp
    | cons character rest ih =>
      have hpos := character.utf8Size_pos
      simp only [List.length_cons, List.map_cons, List.sum_cons]
      omega
  calc
    _ ≤ (text.toList.map Char.utf8Size).sum := hsum _
    _ = text.utf8ByteSize := by rw [← utf8ByteSize_ofList, String.ofList_toList]

theorem codeUnits_le_utf8Size (character : Char) : codeUnits character ≤ character.utf8Size := by
  have hpos := character.utf8Size_pos
  unfold codeUnits
  split
  · exact hpos
  · next hlarge =>
    -- only the characters of four bytes lie above the basic plane
    have hbound : ∀ limit : UInt32, limit.toNat < 0x10000 → ¬ character.val ≤ limit :=
      fun limit hlimit hle ↦ hlarge (Nat.lt_of_le_of_lt (UInt32.le_iff_toNat_le.mp hle) hlimit)
    have hbytes : character.utf8Size = 4 := by
      rw [Char.utf8Size, if_neg (hbound _ (by decide)), if_neg (hbound _ (by decide)),
        if_neg (hbound _ (by decide))]
    omega

/-- A text has at most as many UTF-16 code units as UTF-8 bytes. -/
theorem sum_codeUnits_le_utf8ByteSize (text : String) :
    (text.toList.map codeUnits).sum ≤ text.utf8ByteSize := by
  have hsum : ∀ characters : List Char,
      (characters.map codeUnits).sum ≤ (characters.map Char.utf8Size).sum := by
    intro characters
    induction characters with
    | nil => exact Nat.le_refl 0
    | cons character rest ih =>
      rw [List.map_cons, List.sum_cons, List.map_cons, List.sum_cons]
      exact Nat.add_le_add (codeUnits_le_utf8Size character) ih
  calc
    _ ≤ (text.toList.map Char.utf8Size).sum := hsum _
    _ = text.utf8ByteSize := by rw [← utf8ByteSize_ofList, String.ofList_toList]

theorem utf8Size_of_isDigit {character : Char} (h : character.isDigit = true) :
    character.utf8Size = 1 := by
  simp only [Char.isDigit, Bool.and_eq_true, decide_eq_true_eq] at h
  have hnine : (57 : UInt32) ≤ 0x7f := by decide
  have hascii : character.val ≤ 0x7f := UInt32.le_trans h.2 hnine
  simp [Char.utf8Size, hascii]

theorem sum_utf8Size_of_isDigit {characters : List Char}
    (h : ∀ character ∈ characters, character.isDigit = true) :
    (characters.map Char.utf8Size).sum = characters.length := by
  induction characters with
  | nil => rfl
  | cons character rest ih =>
    rw [List.map_cons, List.sum_cons, List.length_cons,
      utf8Size_of_isDigit (h character List.mem_cons_self),
      ih fun other hother ↦ h other (List.mem_cons_of_mem _ hother), Nat.add_comm]

theorem utf8ByteSize_repr_le {number digits : ℕ} (hdigits : 0 < digits)
    (h : number < 10 ^ digits) : number.repr.utf8ByteSize ≤ digits := by
  have hdigit : ∀ character ∈ Nat.toDigits 10 number, character.isDigit = true :=
    fun _ hmem ↦ Nat.isDigit_of_mem_toDigits (by decide) (by decide) hmem
  rw [Nat.repr_eq_ofList_toDigits, utf8ByteSize_ofList, sum_utf8Size_of_isDigit hdigit]
  exact (Nat.length_toDigits_le_iff (by decide) hdigits).mpr h

theorem utf8ByteSize_repr_uint32 (value : UInt32) : value.toNat.repr.utf8ByteSize ≤ 10 :=
  utf8ByteSize_repr_le (by decide) (value.toNat_lt.trans (by decide))

theorem utf8ByteSize_repr_uint16 (value : UInt16) : value.toNat.repr.utf8ByteSize ≤ 5 :=
  utf8ByteSize_repr_le (by decide) (value.toNat_lt.trans (by decide))

end AlphaPing.Library.Texts
