import Mathlib.Data.String.Basic

/-!
# Orders of texts

A text is encoded character by character, and encodings are compared position by position. When
the codes of two characters part before either ends, the encodings are ordered as the texts are.

This is so for UTF-8 octets, and for the hexadecimal digits of such octets. UTF-16 code units
order texts so that stay in the basic plane.
-/

namespace AlphaPing.Library.Collations

/-- Two codes part at a position that both have, and the first has the smaller number there. -/
def Before : List ℕ → List ℕ → Prop
  | first :: rest, second :: others => first < second ∨ first = second ∧ Before rest others
  | _, _ => False

section Codes

variable {Symbol : Type*} [LinearOrder Symbol] {code : Symbol → List ℕ}

theorem Before.append {first second : List ℕ} (h : Before first second) (rest others : List ℕ) :
    first ++ rest < second ++ others := by
  induction first generalizing second with
  | nil => exact h.elim
  | cons number first ih =>
    cases second with
    | nil => exact h.elim
    | cons other second =>
      rw [List.cons_append, List.cons_append, List.cons_lt_cons_iff]
      rcases h with hlt | ⟨heq, hrest⟩
      · exact .inl hlt
      · exact .inr ⟨heq, ih hrest⟩

theorem flatMap_lt_iff (hcode : ∀ first second, first < second → Before (code first) (code second))
    (hsome : ∀ symbol, code symbol ≠ []) (first second : List Symbol) :
    first.flatMap code < second.flatMap code ↔ first < second := by
  have hmono : ∀ first second : List Symbol, first < second →
      first.flatMap code < second.flatMap code := by
    intro first
    induction first with
    | nil =>
      intro second hlt
      cases second with
      | nil => exact absurd hlt (lt_irrefl _)
      | cons symbol second =>
        rw [List.flatMap_cons, List.flatMap_nil]
        cases hsymbol : code symbol with
        | nil => exact absurd hsymbol (hsome symbol)
        | cons number rest => exact List.nil_lt_cons _ _
    | cons symbol first ih =>
      intro second hlt
      cases second with
      | nil => exact absurd hlt (List.not_lt_nil _)
      | cons other second =>
        rw [List.flatMap_cons, List.flatMap_cons]
        rcases List.cons_lt_cons_iff.mp hlt with hbefore | ⟨rfl, hrest⟩
        · exact (hcode symbol other hbefore).append _ _
        · exact List.append_left_lt (ih second hrest)
  exact StrictMono.lt_iff_lt fun first second hlt ↦ hmono first second hlt

end Codes

/-! ## UTF-8 -/

/-- The octets of a character. -/
def octets (character : Char) : List ℕ :=
  (String.utf8EncodeChar character).map UInt8.toNat

/-- What the binary collation compares. -/
def binaryText (text : String) : List ℕ :=
  text.toList.flatMap octets

/-- The octets of a character by its number. -/
def octetsOf (value : ℕ) : List ℕ :=
  if value ≤ 0x7f then [value]
  else if value ≤ 0x7ff then [value / 64 + 0xc0, value % 64 + 0x80]
  else if value ≤ 0xffff then [value / 4096 + 0xe0, value / 64 % 64 + 0x80, value % 64 + 0x80]
  else [value / 262144 + 0xf0, value / 4096 % 64 + 0x80, value / 64 % 64 + 0x80, value % 64 + 0x80]

theorem octets_eq (character : Char) : octets character = octetsOf character.toNat := by
  have hvalue : character.toNat < 0x110000 :=
    character.valid.elim (fun h ↦ Nat.lt_trans h (by decide)) And.right
  have hnumber : character.val.toNat = character.toNat := rfl
  unfold octets String.utf8EncodeChar octetsOf
  simp only [hnumber]
  split_ifs <;> simp only [List.map_cons, List.map_nil, UInt8.toNat_ofNat', List.cons.injEq,
    and_true] <;> omega

theorem octetsOf_before {first second : ℕ} (h : first < second) (hsecond : second < 0x110000) :
    Before (octetsOf first) (octetsOf second) := by
  unfold octetsOf
  split_ifs <;> simp only [Before, or_false, and_false] <;> omega

theorem octets_ne_nil (character : Char) : octets character ≠ [] := by
  rw [octets_eq, octetsOf]
  split_ifs <;> exact List.cons_ne_nil _ _

variable (first second : String)

theorem binaryText_lt_iff : binaryText first < binaryText second ↔ first < second := by
  rw [String.lt_iff_toList_lt]
  apply flatMap_lt_iff
  · intro first second hlt
    rw [octets_eq, octets_eq]
    exact octetsOf_before hlt (second.valid.elim (fun h ↦ Nat.lt_trans h (by decide)) And.right)
  · exact octets_ne_nil

theorem binaryText_le_iff : binaryText first ≤ binaryText second ↔ first ≤ second := by
  rw [← not_lt, ← not_lt, binaryText_lt_iff]

/-! ## Hexadecimal digits -/

/-- The code of a hexadecimal digit. -/
def hexDigit (digit : ℕ) : ℕ :=
  if digit < 10 then digit + 48 else digit + 55

/-- `hex`. -/
def hexText (text : String) : List ℕ :=
  (binaryText text).flatMap fun octet ↦ [hexDigit (octet / 16), hexDigit (octet % 16)]

theorem hexDigit_lt {first second : ℕ} (h : first < second) : hexDigit first < hexDigit second := by
  unfold hexDigit
  split_ifs <;> omega

theorem hexText_lt_iff : hexText first < hexText second ↔ first < second := by
  rw [← binaryText_lt_iff]
  apply flatMap_lt_iff
  · intro first second hlt
    by_cases hhigh : first / 16 < second / 16
    · exact .inl (hexDigit_lt hhigh)
    · have hsame : first / 16 = second / 16 := by omega
      exact .inr ⟨congrArg hexDigit hsame, .inl (hexDigit_lt (by omega))⟩
  · exact fun octet ↦ List.cons_ne_nil _ _

theorem hexText_le_iff : hexText first ≤ hexText second ↔ first ≤ second := by
  rw [← not_lt, ← not_lt, hexText_lt_iff]

/-! ## UTF-16 -/

/-- The code units of a character. -/
def units (character : Char) : List ℕ :=
  if character.toNat < 0x10000 then [character.toNat]
  else [0xd800 + (character.toNat - 0x10000) / 0x400, 0xdc00 + (character.toNat - 0x10000) % 0x400]

/-- What a comparison of strings in the language of the source compares. -/
def unitText (text : String) : List ℕ :=
  text.toList.flatMap units

/-- Every character is in the basic plane. -/
def Basic (text : String) : Prop :=
  ∀ character ∈ text.toList, character.toNat < 0x10000

theorem unitText_of_basic {text : String} (h : Basic text) :
    unitText text = text.toList.map Char.toNat := by
  rw [unitText, List.map_eq_flatMap]
  apply List.flatMap_congr
  intro character hcharacter
  rw [units, if_pos (h character hcharacter)]

/-- Code units order texts of the basic plane by their characters. -/
theorem unitText_lt_iff {first second : String} (hfirst : Basic first) (hsecond : Basic second) :
    unitText first < unitText second ↔ first < second := by
  rw [unitText_of_basic hfirst, unitText_of_basic hsecond, String.lt_iff_toList_lt,
    List.map_eq_flatMap, List.map_eq_flatMap]
  apply flatMap_lt_iff
  · exact fun first second hlt ↦ .inl hlt
  · exact fun character ↦ List.cons_ne_nil _ _

theorem unitText_le_iff {first second : String} (hfirst : Basic first) (hsecond : Basic second) :
    unitText first ≤ unitText second ↔ first ≤ second := by
  rw [← not_lt, ← not_lt, unitText_lt_iff hsecond hfirst]

end AlphaPing.Library.Collations
