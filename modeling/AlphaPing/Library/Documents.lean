import Mathlib.Data.List.Nodup
import Mathlib.Data.List.Perm.Subperm
import Mathlib.Data.Rat.Defs
import Mathlib.Data.String.Basic

/-!
# Documents over any numbers

A document is a tree whose leaves may be numbers of any kind, so that the trees of two readers
that keep numbers differently are two instances of one type. The members of an object are listed
by their names, each name once: two objects with the same members are then the same tree, and
equality of trees is equality of structure.
-/

namespace AlphaPing.Library.Documents

inductive Content (Number : Type) where
  | null
  | boolean (value : Bool)
  | number (value : Number)
  | string (value : String)
  | array (items : List (Content Number))
  | object (members : List (String × Content Number))

namespace Content

variable {Number Other : Type}

/-- A property of every tree, from the items of an array and from the values of an object. -/
@[elab_as_elim, induction_eliminator]
theorem induction {motive : Content Number → Prop} (null : motive null)
    (boolean : ∀ value, motive (boolean value)) (number : ∀ value, motive (number value))
    (string : ∀ value, motive (string value))
    (array : ∀ items, (∀ item ∈ items, motive item) → motive (array items))
    (object : ∀ members, (∀ member ∈ members, motive member.2) → motive (object members))
    (tree : Content Number) : motive tree := by
  refine @Content.rec Number motive (fun items ↦ ∀ item ∈ items, motive item)
    (fun members ↦ ∀ member ∈ members, motive member.2) (fun member ↦ motive member.2)
    null boolean number string array object ?_ ?_ ?_ ?_ ?_ tree
  · simp
  · intro item rest hitem hrest
    rw [List.forall_mem_cons]
    exact ⟨hitem, hrest⟩
  · simp
  · intro member rest hmember hrest
    rw [List.forall_mem_cons]
    exact ⟨hmember, hrest⟩
  · intro _ _ hvalue
    exact hvalue

mutual

/-- The tree with other numbers. -/
def map (f : Number → Other) : Content Number → Content Other
  | .null => .null
  | .boolean value => .boolean value
  | .number value => .number (f value)
  | .string value => .string value
  | .array items => .array (mapItems f items)
  | .object members => .object (mapMembers f members)

def mapItems (f : Number → Other) : List (Content Number) → List (Content Other)
  | [] => []
  | item :: rest => item.map f :: mapItems f rest

def mapMembers (f : Number → Other) :
    List (String × Content Number) → List (String × Content Other)
  | [] => []
  | (name, value) :: rest => (name, value.map f) :: mapMembers f rest

end

variable (f : Number → Other) {tree : Content Number}

theorem mapItems_eq (items : List (Content Number)) : mapItems f items = items.map (map f) := by
  induction items with
  | nil => rfl
  | cons item rest ih => simp [mapItems, ih]

theorem mapMembers_eq (members : List (String × Content Number)) :
    mapMembers f members = members.map fun member ↦ (member.1, member.2.map f) := by
  induction members with
  | nil => rfl
  | cons member rest ih => simp [mapMembers, ih]

/-- The string in a tree that is one. -/
def text? : Content Number → Option String
  | .string value => some value
  | _ => none

@[simp] theorem text?_string (value : String) :
    (string value : Content Number).text? = some value := rfl

theorem text?_eq_some_iff {text : String} : tree.text? = some text ↔ tree = .string text := by
  cases tree <;> simp [text?]

@[simp] theorem text?_map (tree : Content Number) : (tree.map f).text? = tree.text? := by
  cases tree <;> simp [map, text?]

theorem map_eq_string_iff {f : Number → Other} {text : String} :
    tree.map f = .string text ↔ tree = .string text := by
  rw [← text?_eq_some_iff, ← text?_eq_some_iff, text?_map]

/-! ## Ordered members -/

/-- Every object lists its members by their names. -/
inductive Ordered : Content Number → Prop where
  | null : Ordered .null
  | boolean (value : Bool) : Ordered (.boolean value)
  | number (value : Number) : Ordered (.number value)
  | string (value : String) : Ordered (.string value)
  | array {items : List (Content Number)} (each : ∀ item ∈ items, Ordered item) :
    Ordered (.array items)
  | object {members : List (String × Content Number)}
    (names : (members.map Prod.fst).Pairwise (· < ·))
    (each : ∀ member ∈ members, Ordered member.2) : Ordered (.object members)

theorem Ordered.map (h : tree.Ordered) : (tree.map f).Ordered := by
  induction h with
  | null => exact .null
  | boolean value => exact .boolean value
  | number value => exact .number (f value)
  | string value => exact .string value
  | @array items _ ih =>
    apply Ordered.array
    rw [mapItems_eq, List.forall_mem_map]
    exact ih
  | @object members names _ ih =>
    have hnames : (mapMembers f members).map Prod.fst = members.map Prod.fst := by
      rw [mapMembers_eq, List.map_map]
      rfl
    apply Ordered.object
    · rw [hnames]
      exact names
    · rw [mapMembers_eq, List.forall_mem_map]
      exact ih

/-- No object has a member of a name. -/
inductive Avoids (name : String) : Content Number → Prop where
  | null : Avoids name .null
  | boolean (value : Bool) : Avoids name (.boolean value)
  | number (value : Number) : Avoids name (.number value)
  | string (value : String) : Avoids name (.string value)
  | array {items : List (Content Number)} (each : ∀ item ∈ items, Avoids name item) :
    Avoids name (.array items)
  | object {members : List (String × Content Number)}
    (names : ∀ member ∈ members, member.1 ≠ name)
    (each : ∀ member ∈ members, Avoids name member.2) : Avoids name (.object members)

end Content

/-- A tree whose objects list their members by their names. -/
structure Document (Number : Type) where
  tree : Content Number
  ordered : tree.Ordered

def Document.map {Number Other : Type} (f : Number → Other) (document : Document Number) :
    Document Other where
  tree := document.tree.map f
  ordered := document.ordered.map f

/-! ## Members by name -/

section

variable {Value : Type} {members : List (String × Value)}

theorem nodup_names (h : (members.map Prod.fst).Pairwise (· < ·)) :
    (members.map Prod.fst).Nodup := by
  apply h.imp
  intro first second hlt
  exact ne_of_lt hlt

theorem lookup_of_mem (h : (members.map Prod.fst).Pairwise (· < ·)) {name : String} {value : Value}
    (hmem : (name, value) ∈ members) : members.lookup name = some value := by
  induction members with
  | nil => cases hmem
  | cons member rest ih =>
    rw [List.map_cons, List.pairwise_cons] at h
    rcases List.mem_cons.mp hmem with rfl | hrest
    · simp
    · have hne : name ≠ member.1 :=
        (ne_of_lt (h.1 name (List.mem_map_of_mem hrest))).symm
      rw [List.lookup_cons, beq_false_of_ne hne]
      exact ih h.2 hrest

theorem mem_of_lookup {name : String} {value : Value} (h : members.lookup name = some value) :
    (name, value) ∈ members := by
  induction members with
  | nil => cases h
  | cons member rest ih =>
    rw [List.lookup_cons] at h
    by_cases hname : name = member.1
    · subst hname
      simp only [BEq.rfl, Option.some.injEq] at h
      rw [← h]
      exact List.mem_cons_self
    · rw [beq_false_of_ne hname] at h
      exact List.mem_cons_of_mem member (ih h)

/-- An object whose members are all members of another of the same size is that object. -/
theorem eq_of_subset {others : List (String × Value)}
    (h : (members.map Prod.fst).Pairwise (· < ·)) (hothers : (others.map Prod.fst).Pairwise (· < ·))
    (hlength : members.length = others.length) (hsubset : members ⊆ others) :
    members = others := by
  have hnodup : members.Nodup := List.Nodup.of_map Prod.fst (nodup_names h)
  have hperm : members.Perm others :=
    (List.Nodup.subperm hnodup hsubset).perm_of_length_le hlength.ge
  have hmembers : members.Pairwise fun first second ↦ first.1 < second.1 := List.pairwise_map.mp h
  have hothers' : others.Pairwise fun first second ↦ first.1 < second.1 :=
    List.pairwise_map.mp hothers
  apply hperm.eq_of_pairwise _ hmembers hothers'
  intro first second _ _ hlt hgt
  exact absurd hlt (not_lt_of_gt hgt)

end

/-! ## Doubles -/

/-- A finite double: its value, and the zero that is written with a sign. -/
inductive Double where
  | negativeZero
  | finite (value : ℚ)
  deriving DecidableEq

def Double.value : Double → ℚ
  | .negativeZero => 0
  | .finite value => value

/-- The double nearest to a natural number; between two, the one with the even significand. -/
def nearest (value : ℕ) : ℕ :=
  if value < 2 ^ 53 then value
  else
    let unit := 2 ^ (Nat.log2 value - 52)
    let quotient := value / unit
    let excess := value % unit
    if unit < 2 * excess ∨ (unit = 2 * excess ∧ quotient % 2 = 1) then (quotient + 1) * unit
    else quotient * unit

/-- The double nearest to an integer. -/
def Double.ofInt (value : ℤ) : Double :=
  .finite (value.sign * nearest value.natAbs)

end AlphaPing.Library.Documents
