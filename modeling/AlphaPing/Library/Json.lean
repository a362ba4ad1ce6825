import Mathlib.Algebra.Order.BigOperators.Group.List
import Mathlib.Data.Int.NatAbs

/-!
# JSON documents

A document is a tree. The compact text of a tree is what a writer sends; a reader that parses it
has the tree again, and takes from the text itself nothing but its length. Texts are therefore
kept as trees here, and a text is rendered only to be measured.

Numbers are integers. A reader that keeps them as doubles sees the same integer up to `2 ^ 53`,
and sees some number from `2 ^ 53` on for every larger one.
-/

namespace AlphaPing.Library.Json

inductive Json where
  | null
  | boolean (value : Bool)
  | number (value : ℤ)
  | string (value : String)
  | array (items : List Json)
  | object (members : List (String × Json))

/-! ## Reading -/

/-- The members of an object; no other value has members. -/
def Json.record : Json → Option (List (String × Json))
  | .object members => some members
  | _ => none

/-- The items of an array. -/
def Json.items : Json → Option (List Json)
  | .array items => some items
  | _ => none

/-- A member by its name: of several with one name, a parser keeps the last. -/
def member (name : String) (members : List (String × Json)) : Option Json :=
  members.reverse.lookup name

/-! ## Writing -/

/-- A character inside a quoted text. -/
def escape (character : Char) : List Char :=
  if character.toNat = 0x22 ∨ character.toNat = 0x5C then [Char.ofNat 0x5C, character]
  else if character.toNat = 0x08 then [Char.ofNat 0x5C, 'b']
  else if character.toNat = 0x09 then [Char.ofNat 0x5C, 't']
  else if character.toNat = 0x0A then [Char.ofNat 0x5C, 'n']
  else if character.toNat = 0x0C then [Char.ofNat 0x5C, 'f']
  else if character.toNat = 0x0D then [Char.ofNat 0x5C, 'r']
  else if character.toNat < 0x20 then
    [Char.ofNat 0x5C, 'u', '0', '0', Nat.digitChar (character.toNat / 16),
      Nat.digitChar (character.toNat % 16)]
  else [character]

def quote (text : String) : List Char :=
  Char.ofNat 0x22 :: text.toList.flatMap escape ++ [Char.ofNat 0x22]

mutual

/-- The compact text of a document. -/
def Json.render : Json → List Char
  | .null => "null".toList
  | .boolean true => "true".toList
  | .boolean false => "false".toList
  | .number value => (toString value).toList
  | .string value => quote value
  | .array [] => ['[', ']']
  | .array (item :: rest) => '[' :: item.render ++ renderItems rest ++ [']']
  | .object [] => [Char.ofNat 0x7B, Char.ofNat 0x7D]
  | .object ((name, value) :: rest) =>
    Char.ofNat 0x7B :: quote name ++ [':'] ++ value.render ++ renderMembers rest ++
      [Char.ofNat 0x7D]

/-- The items after the first. -/
def renderItems : List Json → List Char
  | [] => []
  | item :: rest => ',' :: item.render ++ renderItems rest

/-- The members after the first. -/
def renderMembers : List (String × Json) → List Char
  | [] => []
  | (name, value) :: rest => ',' :: quote name ++ [':'] ++ value.render ++ renderMembers rest

end

/-! ## The size of a text -/

section

variable (weight : Char → ℕ)

/-- The size of a text whose characters have sizes. -/
def size (characters : List Char) : ℕ :=
  (characters.map weight).sum

@[simp] theorem size_nil : size weight [] = 0 := rfl

@[simp] theorem size_cons (character : Char) (rest : List Char) :
    size weight (character :: rest) = weight character + size weight rest := by
  simp [size]

@[simp] theorem size_append (first second : List Char) :
    size weight (first ++ second) = size weight first + size weight second := by
  simp [size]

/-- The size of a quoted text without its quotes. -/
def escapedSize (text : String) : ℕ :=
  (text.toList.map fun character ↦ size weight (escape character)).sum

theorem size_quote (text : String) :
    size weight (quote text) = 2 * weight (Char.ofNat 0x22) + escapedSize weight text := by
  have hescape : ∀ characters : List Char,
      size weight (characters.flatMap escape) =
        (characters.map fun character ↦ size weight (escape character)).sum := by
    intro characters
    induction characters with
    | nil => rfl
    | cons character rest ih => simp [ih]
  simp only [quote, List.cons_append, size_cons, size_append, size_nil, hescape, escapedSize]
  omega

theorem size_renderItems (items : List Json) :
    size weight (renderItems items) =
      (items.map fun item ↦ size weight item.render).sum + items.length * weight ',' := by
  induction items with
  | nil => simp [renderItems]
  | cons item rest ih =>
    simp only [renderItems, List.cons_append, size_cons, size_append, ih, List.map_cons,
      List.sum_cons, List.length_cons, Nat.succ_mul]
    omega

/-- An array is its items, a separator between each two, and its brackets. -/
theorem size_render_array (items : List Json) :
    size weight (Json.array items).render =
      (items.map fun item ↦ size weight item.render).sum + (items.length - 1) * weight ',' +
        (weight '[' + weight ']') := by
  cases items with
  | nil => simp [Json.render]
  | cons item rest =>
    simp only [Json.render, List.cons_append, List.append_assoc, size_cons, size_append, size_nil,
      size_renderItems, List.map_cons, List.sum_cons, List.length_cons, Nat.add_sub_cancel]
    omega

/-- An object is its names, its values, a colon for each and a comma between each two, and its
braces. -/
theorem size_render_object (members : List (String × Json)) :
    size weight (Json.object members).render =
      ((members.map Prod.fst).map fun name ↦ size weight (quote name)).sum +
        ((members.map Prod.snd).map fun value ↦ size weight value.render).sum +
        members.length * weight ':' + (members.length - 1) * weight ',' +
        (weight (Char.ofNat 0x7B) + weight (Char.ofNat 0x7D)) := by
  have hrest : ∀ rest : List (String × Json), size weight (renderMembers rest) =
      ((rest.map Prod.fst).map fun name ↦ size weight (quote name)).sum +
        ((rest.map Prod.snd).map fun value ↦ size weight value.render).sum +
        rest.length * weight ':' + rest.length * weight ',' := by
    intro rest
    induction rest with
    | nil => simp [renderMembers]
    | cons pair rest ih =>
      simp only [renderMembers, List.cons_append, List.append_assoc, List.nil_append, size_cons,
        size_append, ih, List.map_cons, List.sum_cons, List.length_cons, Nat.succ_mul]
      omega
  cases members with
  | nil => simp [Json.render]
  | cons pair rest =>
    simp only [Json.render, List.cons_append, List.append_assoc, List.nil_append, size_cons,
      size_append, size_nil, hrest, List.map_cons, List.sum_cons, List.length_cons,
      Nat.add_sub_cancel, Nat.succ_mul]
    omega

end

end AlphaPing.Library.Json
