import Mathlib.Tactic.Common

/-!
# Octets

Byte strings are searched for separators, compared without regard to the case of letters and read
as text.
-/

namespace AlphaPing.Library.Octets

/-! ## Searching -/

section Searching

variable {Symbol : Type} [DecidableEq Symbol]

/-- The index of the first window of a list that equals `needle`. -/
def position (needle : List Symbol) : List Symbol → Option ℕ
  | [] => if needle = [] then some 0 else none
  | symbol :: rest =>
    if needle <+: symbol :: rest then some 0 else (position needle rest).map Nat.succ

theorem position_of_prefix {needle list : List Symbol} (h : needle <+: list) :
    position needle list = some 0 := by
  cases list with
  | nil => rw [position, if_pos (List.prefix_nil.mp h)]
  | cons symbol rest => rw [position, if_pos h]

theorem position_cons {needle rest : List Symbol} {symbol : Symbol}
    (h : ¬ needle <+: symbol :: rest) :
    position needle (symbol :: rest) = (position needle rest).map Nat.succ := by
  rw [position, if_neg h]

theorem prefix_of_position {needle list : List Symbol} {index : ℕ}
    (h : position needle list = some index) :
    index ≤ list.length ∧ needle <+: list.drop index := by
  induction list generalizing index with
  | nil =>
    rw [position] at h
    split at h
    · next hempty =>
      obtain rfl := Option.some.inj h
      exact ⟨Nat.le_refl 0, by rw [hempty]; exact List.nil_prefix⟩
    · cases h
  | cons symbol rest ih =>
    rw [position] at h
    split at h
    · next hfront =>
      obtain rfl := Option.some.inj h
      exact ⟨Nat.zero_le _, hfront⟩
    · obtain ⟨before, hbefore, rfl⟩ := Option.map_eq_some_iff.mp h
      obtain ⟨hle, hfront⟩ := ih hbefore
      exact ⟨Nat.succ_le_succ hle, hfront⟩

/-- The list is what stands before the needle, the needle and what stands behind it. -/
theorem append_of_position {needle list : List Symbol} {index : ℕ}
    (h : position needle list = some index) :
    list = list.take index ++ needle ++ list.drop (index + needle.length) := by
  obtain ⟨-, rest, hrest⟩ := prefix_of_position h
  have hdrop : list.drop (index + needle.length) = rest := by
    rw [← List.drop_drop, ← hrest, List.drop_left]
  rw [hdrop, List.append_assoc, hrest, List.take_append_drop]

theorem not_infix_take_of_position {needle list : List Symbol} {index : ℕ}
    (hneedle : needle ≠ []) (h : position needle list = some index) :
    ¬ needle <:+: list.take index := by
  induction list generalizing index with
  | nil => simpa using hneedle
  | cons symbol rest ih =>
    rw [position] at h
    split at h
    · obtain rfl := Option.some.inj h
      simpa using hneedle
    · next hfront =>
      obtain ⟨before, hbefore, rfl⟩ := Option.map_eq_some_iff.mp h
      intro hinside
      rw [Nat.succ_eq_add_one, List.take_succ_cons, List.infix_cons_iff] at hinside
      rcases hinside with hfirst | hlater
      · exact hfront (hfirst.trans (by
          rw [← List.take_succ_cons]
          exact List.take_prefix _ _))
      · exact ih hbefore hlater

variable {first second : Symbol} {needle : List Symbol}

/-- What does not contain the first symbol of the needle is passed over. -/
theorem position_append_of_not_mem {before : List Symbol} (rest : List Symbol)
    (h : first ∉ before) :
    position (first :: needle) (before ++ rest) =
      (position (first :: needle) rest).map (before.length + ·) := by
  induction before with
  | nil => simp
  | cons symbol before ih =>
    have hfront : ¬ first :: needle <+: symbol :: (before ++ rest) := by
      rw [List.cons_prefix_cons]
      rintro ⟨rfl, -⟩
      exact h List.mem_cons_self
    rw [List.cons_append, position_cons hfront, ih (List.not_mem_of_not_mem_cons h),
      Option.map_map, List.length_cons]
    congr 1
    funext index
    simp only [Function.comp_apply]
    omega

/-- A separator of two symbols is found behind a line that does not contain it. -/
theorem position_line (hne : first ≠ second) {line : List Symbol} (rest : List Symbol)
    (h : ¬ [first, second] <:+: line) :
    position [first, second] (line ++ [first, second] ++ rest) = some line.length := by
  induction line with
  | nil => exact position_of_prefix ⟨rest, rfl⟩
  | cons symbol line ih =>
    have hfront : ¬ [first, second] <+: symbol :: (line ++ [first, second] ++ rest) := by
      intro hfront
      cases line with
      | nil =>
        rw [List.nil_append, List.cons_append, List.cons_prefix_cons,
          List.cons_prefix_cons] at hfront
        exact hne hfront.2.1.symm
      | cons next line =>
        rw [List.cons_append, List.cons_append, List.cons_prefix_cons,
          List.cons_prefix_cons] at hfront
        obtain ⟨rfl, rfl, -⟩ := hfront
        exact h ⟨[], line, rfl⟩
    have hline : ¬ [first, second] <:+: line := fun hinside ↦ h (List.infix_cons hinside)
    rw [List.cons_append, List.cons_append, position_cons hfront, ih hline]
    rfl

/-- The separator of lines, twice, is found behind the last line. -/
theorem position_lines (hne : first ≠ second) {lines : List (List Symbol)} {line : List Symbol}
    (rest : List Symbol) (hline : first ∉ line)
    (hlines : ∀ other ∈ lines, first ∉ other ∧ other ≠ []) :
    position [first, second, first, second]
        (line ++ lines.flatMap ([first, second] ++ ·) ++ [first, second, first, second] ++ rest) =
      some (line ++ lines.flatMap ([first, second] ++ ·)).length := by
  induction lines generalizing line with
  | nil =>
    rw [List.flatMap_nil, List.append_nil, List.append_assoc, position_append_of_not_mem _ hline,
      position_of_prefix ⟨rest, rfl⟩]
    rfl
  | cons next lines ih =>
    obtain ⟨hnext, hfilled⟩ := hlines next List.mem_cons_self
    have hlater := ih hnext fun other hother ↦ hlines other (List.mem_cons_of_mem _ hother)
    -- the separator behind the line is followed by the line that comes next
    have hseparator : ¬ [first, second, first, second] <+: first :: second ::
        (next ++ lines.flatMap ([first, second] ++ ·) ++ [first, second, first, second] ++
          rest) := by
      obtain ⟨symbol, others, rfl⟩ := List.exists_cons_of_ne_nil hfilled
      intro hfront
      rw [List.cons_prefix_cons, List.cons_prefix_cons] at hfront
      obtain ⟨-, -, hfront⟩ := hfront
      rw [List.cons_append, List.cons_append, List.cons_append, List.cons_prefix_cons] at hfront
      exact hnext (hfront.1 ▸ List.mem_cons_self)
    have hsecond : ¬ [first, second, first, second] <+: second ::
        (next ++ lines.flatMap ([first, second] ++ ·) ++ [first, second, first, second] ++
          rest) := by
      intro hfront
      rw [List.cons_prefix_cons] at hfront
      exact hne hfront.1
    calc
      _ = position [first, second, first, second] (line ++ first :: second ::
            (next ++ lines.flatMap ([first, second] ++ ·) ++ [first, second, first, second] ++
              rest)) := by simp
      _ = some (line.length +
            ((next ++ lines.flatMap ([first, second] ++ ·)).length + 1 + 1)) := by
        rw [position_append_of_not_mem _ hline, position_cons hseparator, position_cons hsecond,
          hlater]
        rfl
      _ = _ := by
        simp only [List.flatMap_cons, List.length_append, List.length_cons, List.length_nil]
        congr 1
        omega

end Searching

/-! ## Text -/

/-- `to_ascii_lowercase`. -/
def lowerOctet (octet : UInt8) : UInt8 :=
  if 65 ≤ octet ∧ octet ≤ 90 then octet + 32 else octet

def eqIgnoreAsciiCase (left right : List UInt8) : Bool :=
  left.map lowerOctet == right.map lowerOctet

/-- Characters of ASCII as octets. -/
def ascii (text : String) : List UInt8 := text.toList.map fun character ↦ UInt8.ofNat character.toNat

def fromUtf8 (octets : List UInt8) : Option (List Char) :=
  octets.toByteArray.utf8Decode?.map Array.toList

theorem fromUtf8_nil : fromUtf8 [] = some [] := by
  simp [fromUtf8]

theorem utf8EncodeChar_ascii :
    ∀ code : Fin 128, String.utf8EncodeChar (Char.ofNat code) = [UInt8.ofNat code] := by
  decide

theorem fromUtf8_cons {octet : UInt8} (rest : List UInt8) (h : octet < 128) :
    fromUtf8 (octet :: rest) = (fromUtf8 rest).map (Char.ofNat octet.toNat :: ·) := by
  have hencoded : [Char.ofNat octet.toNat].utf8Encode = [octet].toByteArray := by
    have hchar := utf8EncodeChar_ascii ⟨octet.toNat, h⟩
    rw [UInt8.ofNat_toNat] at hchar
    rw [List.utf8Encode_singleton, hchar]
  have hsplit : (octet :: rest).toByteArray =
      [Char.ofNat octet.toNat].utf8Encode ++ rest.toByteArray := by
    rw [hencoded, ← List.toByteArray_append, List.singleton_append]
  rw [fromUtf8, hsplit, ByteArray.utf8Decode?_utf8Encode_singleton_append, fromUtf8,
    Option.map_map, Option.map_map]
  congr 1
  funext characters
  simp

theorem fromUtf8_append {octets : List UInt8} (rest : List UInt8)
    (h : ∀ octet ∈ octets, octet < 128) :
    fromUtf8 (octets ++ rest) =
      (fromUtf8 rest).map ((octets.map fun octet ↦ Char.ofNat octet.toNat) ++ ·) := by
  induction octets with
  | nil => simp
  | cons octet octets ih =>
    have hrest := ih fun other hother ↦ h other (List.mem_cons_of_mem _ hother)
    rw [List.cons_append, fromUtf8_cons _ (h octet List.mem_cons_self), hrest, Option.map_map]
    rfl

end AlphaPing.Library.Octets
