import Mathlib.Data.List.Basic
import Mathlib.Data.Nat.Cast.Defs

/-!
# Conditions of SQL statements

A condition compares columns of the rows in scope, literals and positional parameters; a nested
`SELECT` brings the rows of one more table into scope, one at a time. Truth has three values: a
comparison with `NULL` is unknown, and a statement acts on the rows for which its condition is
true.

A condition with its binds is a `Query`. It takes as many binds as it has parameters, so queries
compose: the binds of a composition are those of its parts in their order, and its truth is the
one of its parts. `truth_and`, `truth_any` and the others are these facts, and `holds_and` and the
others say when a composition is true.
-/

namespace AlphaPing.Library.Sql

/-! ### Three truth values -/

/-- Equality of two values that may be `NULL`. -/
def sameValue {Value : Type*} [DecidableEq Value] : Option Value → Option Value → Option Bool
  | some left, some right => some (decide (left = right))
  | _, _ => none

def conjunction : Option Bool → Option Bool → Option Bool
  | some false, _ => some false
  | _, some false => some false
  | some true, some true => some true
  | _, _ => none

def disjunction : Option Bool → Option Bool → Option Bool
  | some true, _ => some true
  | _, some true => some true
  | some false, some false => some false
  | _, _ => none

def negation : Option Bool → Option Bool := Option.map not

theorem sameValue_eq_true {Value : Type*} [DecidableEq Value] {left right : Option Value} :
    sameValue left right = some true ↔ ∃ value, left = some value ∧ right = some value := by
  cases left <;> cases right <;> simp [sameValue, eq_comm]

theorem conjunction_eq_true {left right : Option Bool} :
    conjunction left right = some true ↔ left = some true ∧ right = some true := by
  rcases left with _ | _ | _ <;> rcases right with _ | _ | _ <;> decide

theorem disjunction_eq_true {left right : Option Bool} :
    disjunction left right = some true ↔ left = some true ∨ right = some true := by
  rcases left with _ | _ | _ <;> rcases right with _ | _ | _ <;> decide

theorem negation_eq_true {truth : Option Bool} :
    negation truth = some true ↔ truth = some false := by
  rcases truth with _ | _ | _ <;> decide

theorem eq_false_iff {truth : Option Bool} (h : truth ≠ none) :
    truth = some false ↔ truth ≠ some true := by
  rcases truth with _ | _ | _
  · exact absurd rfl h
  · decide
  · decide

/-! ### Conditions -/

variable {Table Column Alias Value : Type}

/-- What a comparison compares. -/
inductive Term (Column Alias Value : Type) where
  | parameter
  | literal (value : Value)
  | column (name : Alias) (field : Column)

inductive Condition (Table Column Alias Value : Type) where
  | equals (left right : Term Column Alias Value)
  | isNull (term : Term Column Alias Value)
  | isIn (term : Term Column Alias Value) (choices : List (Term Column Alias Value))
  | and (left right : Condition Table Column Alias Value)
  | or (left right : Condition Table Column Alias Value)
  | not (condition : Condition Table Column Alias Value)
  /-- `EXISTS (SELECT 1 FROM table name WHERE condition)` -/
  | any (table : Table) (name : Alias) (condition : Condition Table Column Alias Value)
  /-- `(SELECT COUNT(*) FROM table name WHERE condition) = term` -/
  | count (table : Table) (name : Alias) (condition : Condition Table Column Alias Value)
    (term : Term Column Alias Value)

/-- Conditions joined by `AND`. -/
def Condition.all (first : Condition Table Column Alias Value)
    (rest : List (Condition Table Column Alias Value)) : Condition Table Column Alias Value :=
  rest.foldl .and first

abbrev Row (Column Value : Type) := Column → Option Value

abbrev Database (Table Column Value : Type) := Table → List (Row Column Value)

abbrev Scope (Column Alias Value : Type) := Alias → Row Column Value

def Term.parameters : Term Column Alias Value → ℕ
  | .parameter => 1
  | .literal _ => 0
  | .column _ _ => 0

/-- The parameter takes the first bind. -/
def Term.value (scope : Scope Column Alias Value) (binds : List Value) :
    Term Column Alias Value → Option Value
  | .parameter => binds.head?
  | .literal value => some value
  | .column name field => scope name field

def choiceParameters : List (Term Column Alias Value) → ℕ
  | [] => 0
  | choice :: choices => choice.parameters + choiceParameters choices

def choiceValues (scope : Scope Column Alias Value) :
    List (Term Column Alias Value) → List Value → List (Option Value)
  | [], _ => []
  | choice :: choices, binds =>
    choice.value scope binds :: choiceValues scope choices (binds.drop choice.parameters)

def Condition.parameters : Condition Table Column Alias Value → ℕ
  | .equals left right => left.parameters + right.parameters
  | .isNull term => term.parameters
  | .isIn term choices => term.parameters + choiceParameters choices
  | .and left right => left.parameters + right.parameters
  | .or left right => left.parameters + right.parameters
  | .not condition => condition.parameters
  | .any _ _ condition => condition.parameters
  | .count _ _ condition term => condition.parameters + term.parameters

/-- The parameters of a condition take the binds in the order of the text. -/
def Condition.truth [DecidableEq Alias] [DecidableEq Value] [NatCast Value]
    (database : Database Table Column Value) :
    Condition Table Column Alias Value → Scope Column Alias Value → List Value → Option Bool
  | .equals left right, scope, binds =>
    sameValue (left.value scope binds) (right.value scope (binds.drop left.parameters))
  | .isNull term, scope, binds => some (term.value scope binds).isNone
  | .isIn term choices, scope, binds =>
    (choiceValues scope choices (binds.drop term.parameters)).foldr
      (fun choice truth ↦ disjunction (sameValue (term.value scope binds) choice) truth)
      (some false)
  | .and left right, scope, binds =>
    conjunction (left.truth database scope binds)
      (right.truth database scope (binds.drop left.parameters))
  | .or left right, scope, binds =>
    disjunction (left.truth database scope binds)
      (right.truth database scope (binds.drop left.parameters))
  | .not condition, scope, binds => negation (condition.truth database scope binds)
  | .any table name condition, scope, binds =>
    some ((database table).any fun row ↦
      decide (condition.truth database (Function.update scope name row) binds = some true))
  | .count table name condition term, scope, binds =>
    let number : ℕ := (database table).countP fun row ↦
      decide (condition.truth database (Function.update scope name row) binds = some true)
    sameValue (some (number : Value)) (term.value scope (binds.drop condition.parameters))

/-! ### The binds of what follows are not taken -/

variable {binds : List Value}

theorem Term.value_append {term : Term Column Alias Value} (h : term.parameters ≤ binds.length)
    (scope : Scope Column Alias Value) (rest : List Value) :
    term.value scope (binds ++ rest) = term.value scope binds := by
  cases term with
  | parameter =>
    cases binds with
    | nil => exact absurd h (Nat.not_succ_le_zero 0)
    | cons bind binds => rfl
  | literal value => rfl
  | column name column => rfl

theorem choiceValues_append {choices : List (Term Column Alias Value)}
    (h : choiceParameters choices ≤ binds.length) (scope : Scope Column Alias Value)
    (rest : List Value) :
    choiceValues scope choices (binds ++ rest) = choiceValues scope choices binds := by
  induction choices generalizing binds with
  | nil => rfl
  | cons choice choices ih =>
    have hchoice : choice.parameters ≤ binds.length := Nat.le_of_add_right_le h
    have hchoices : choiceParameters choices ≤ (binds.drop choice.parameters).length := by
      rw [List.length_drop]
      exact Nat.le_sub_of_add_le' h
    rw [choiceValues, choiceValues, Term.value_append hchoice,
      List.drop_append_of_le_length hchoice, ih hchoices]

theorem Condition.truth_append [DecidableEq Alias] [DecidableEq Value] [NatCast Value]
    {condition : Condition Table Column Alias Value} (h : condition.parameters ≤ binds.length)
    (database : Database Table Column Value) (scope : Scope Column Alias Value) (rest : List Value)
    : condition.truth database scope (binds ++ rest) = condition.truth database scope binds := by
  have hdrop {first second : ℕ} {binds : List Value} (h : first + second ≤ binds.length) :
      second ≤ (binds.drop first).length := by
    rw [List.length_drop]
    exact Nat.le_sub_of_add_le' h
  induction condition generalizing scope binds with
  | equals left right =>
    have hleft : left.parameters ≤ binds.length := Nat.le_of_add_right_le h
    rw [truth, truth, Term.value_append hleft, List.drop_append_of_le_length hleft,
      Term.value_append (hdrop h)]
  | isNull term => rw [truth, truth, Term.value_append h]
  | isIn term choices =>
    have hterm : term.parameters ≤ binds.length := Nat.le_of_add_right_le h
    rw [truth, truth, Term.value_append hterm, List.drop_append_of_le_length hterm,
      Library.Sql.choiceValues_append (hdrop h)]
  | and left right ihleft ihright =>
    have hleft : left.parameters ≤ binds.length := Nat.le_of_add_right_le h
    rw [truth, truth, ihleft hleft, List.drop_append_of_le_length hleft, ihright (hdrop h)]
  | or left right ihleft ihright =>
    have hleft : left.parameters ≤ binds.length := Nat.le_of_add_right_le h
    rw [truth, truth, ihleft hleft, List.drop_append_of_le_length hleft, ihright (hdrop h)]
  | not condition ih => rw [truth, truth, ih h]
  | any table name condition ih => simp only [truth, ih h]
  | count table name condition term ih =>
    have hcondition : condition.parameters ≤ binds.length := Nat.le_of_add_right_le h
    simp only [truth, ih hcondition]
    rw [List.drop_append_of_le_length hcondition, Term.value_append (hdrop h)]

/-! ### Terms and conditions with their binds -/

/-- A term with a bind for its parameter. -/
@[ext]
structure Operand (Column Alias Value : Type) where
  term : Term Column Alias Value
  binds : List Value
  filled : term.parameters = binds.length

/-- A condition with a bind for each parameter. -/
@[ext]
structure Query (Table Column Alias Value : Type) where
  sql : Condition Table Column Alias Value
  binds : List Value
  filled : sql.parameters = binds.length

namespace Operand

def parameter (value : Value) : Operand Column Alias Value := ⟨.parameter, [value], rfl⟩

def literal (value : Value) : Operand Column Alias Value := ⟨.literal value, [], rfl⟩

def column (name : Alias) (field : Column) : Operand Column Alias Value :=
  ⟨.column name field, [], rfl⟩

def value (scope : Scope Column Alias Value) (operand : Operand Column Alias Value) :
    Option Value :=
  operand.term.value scope operand.binds

variable (scope : Scope Column Alias Value)

@[simp] theorem value_parameter (value : Value) :
    (parameter value : Operand Column Alias Value).value scope = some value := rfl

@[simp] theorem value_literal (value : Value) :
    (literal value : Operand Column Alias Value).value scope = some value := rfl

variable (name : Alias)

@[simp] theorem value_column (field : Column) :
    (column name field : Operand Column Alias Value).value scope = scope name field := rfl

theorem value_self [DecidableEq Alias] (field : Column) (row : Row Column Value) :
    (column name field : Operand Column Alias Value).value (Function.update scope name row) =
      row field := by
  rw [value_column, Function.update_self]

/-- The operand does not speak of a name. -/
def Free [DecidableEq Alias] (name : Alias) (operand : Operand Column Alias Value) : Prop :=
  ∀ (scope : Scope Column Alias Value) (row : Row Column Value),
    operand.value (Function.update scope name row) = operand.value scope

theorem free_parameter [DecidableEq Alias] (bind : Value) :
    Free name (parameter bind : Operand Column Alias Value) := fun _ _ ↦ rfl

theorem free_literal [DecidableEq Alias] (constant : Value) :
    Free name (literal constant : Operand Column Alias Value) := fun _ _ ↦ rfl

theorem free_column [DecidableEq Alias] {name other : Alias} (h : other ≠ name) (field : Column) :
    Free name (column other field : Operand Column Alias Value) := by
  intro scope row
  rw [value_column, value_column, Function.update_of_ne h]

theorem value_append (operand : Operand Column Alias Value) (rest : List Value) :
    operand.term.value scope (operand.binds ++ rest) = operand.value scope :=
  Term.value_append (Nat.le_of_eq operand.filled) scope rest

theorem drop_append (operand : Operand Column Alias Value) (rest : List Value) :
    (operand.binds ++ rest).drop operand.term.parameters = rest :=
  List.drop_left' operand.filled.symm

end Operand

def choiceBinds (choices : List (Operand Column Alias Value)) : List Value :=
  choices.flatMap Operand.binds

theorem choiceParameters_map (choices : List (Operand Column Alias Value)) :
    choiceParameters (choices.map Operand.term) = (choiceBinds choices).length := by
  induction choices with
  | nil => rfl
  | cons choice choices ih =>
    rw [choiceBinds, List.flatMap_cons, List.length_append, ← choice.filled]
    exact congrArg _ ih

theorem choiceValues_map (scope : Scope Column Alias Value)
    (choices : List (Operand Column Alias Value)) :
    choiceValues scope (choices.map Operand.term) (choiceBinds choices) =
      choices.map (Operand.value scope) := by
  induction choices with
  | nil => rfl
  | cons choice choices ih =>
    rw [List.map_cons, choiceValues, choiceBinds, List.flatMap_cons, choice.value_append,
      choice.drop_append]
    exact congrArg _ ih

namespace Query

def equals (left right : Operand Column Alias Value) : Query Table Column Alias Value where
  sql := .equals left.term right.term
  binds := left.binds ++ right.binds
  filled := by rw [Condition.parameters, left.filled, right.filled, List.length_append]

def isNull (operand : Operand Column Alias Value) : Query Table Column Alias Value where
  sql := .isNull operand.term
  binds := operand.binds
  filled := operand.filled

def isIn (operand : Operand Column Alias Value) (choices : List (Operand Column Alias Value)) :
    Query Table Column Alias Value where
  sql := .isIn operand.term (choices.map Operand.term)
  binds := operand.binds ++ choiceBinds choices
  filled := by
    rw [Condition.parameters, operand.filled, choiceParameters_map, List.length_append]

def and (left right : Query Table Column Alias Value) : Query Table Column Alias Value where
  sql := .and left.sql right.sql
  binds := left.binds ++ right.binds
  filled := by rw [Condition.parameters, left.filled, right.filled, List.length_append]

def all (first : Query Table Column Alias Value) (rest : List (Query Table Column Alias Value)) :
    Query Table Column Alias Value :=
  rest.foldl and first

def or (left right : Query Table Column Alias Value) : Query Table Column Alias Value where
  sql := .or left.sql right.sql
  binds := left.binds ++ right.binds
  filled := by rw [Condition.parameters, left.filled, right.filled, List.length_append]

def not (query : Query Table Column Alias Value) : Query Table Column Alias Value where
  sql := .not query.sql
  binds := query.binds
  filled := query.filled

def any (table : Table) (name : Alias) (query : Query Table Column Alias Value) :
    Query Table Column Alias Value where
  sql := .any table name query.sql
  binds := query.binds
  filled := query.filled

def count (table : Table) (name : Alias) (query : Query Table Column Alias Value)
    (operand : Operand Column Alias Value) : Query Table Column Alias Value where
  sql := .count table name query.sql operand.term
  binds := query.binds ++ operand.binds
  filled := by rw [Condition.parameters, query.filled, operand.filled, List.length_append]

theorem drop_append (query : Query Table Column Alias Value) (rest : List Value) :
    (query.binds ++ rest).drop query.sql.parameters = rest :=
  List.drop_left' query.filled.symm

variable [DecidableEq Alias] [DecidableEq Value] [NatCast Value]
variable (database : Database Table Column Value) (scope : Scope Column Alias Value)

def truth (query : Query Table Column Alias Value) : Option Bool :=
  query.sql.truth database scope query.binds

/-- A statement with this condition acts. -/
def Holds (query : Query Table Column Alias Value) : Prop :=
  query.truth database scope = some true

instance (query : Query Table Column Alias Value) : Decidable (query.Holds database scope) :=
  inferInstanceAs (Decidable (_ = _))

theorem truth_append (query : Query Table Column Alias Value) (rest : List Value) :
    query.sql.truth database scope (query.binds ++ rest) = query.truth database scope :=
  Condition.truth_append (Nat.le_of_eq query.filled) database scope rest

section Truth

variable (left right query : Query Table Column Alias Value)
  (first second operand : Operand Column Alias Value)
  (choices : List (Operand Column Alias Value)) (table : Table) (name : Alias)

theorem truth_equals : (equals first second : Query Table Column Alias Value).truth database scope =
    sameValue (first.value scope) (second.value scope) := by
  show sameValue (first.term.value scope (first.binds ++ second.binds)) _ = _
  rw [first.value_append]
  show sameValue _ (second.term.value scope ((first.binds ++ second.binds).drop _)) = _
  rw [first.drop_append]
  rfl

theorem truth_and : (left.and right).truth database scope =
    conjunction (left.truth database scope) (right.truth database scope) := by
  show conjunction (left.sql.truth database scope (left.binds ++ right.binds))
    (right.sql.truth database scope ((left.binds ++ right.binds).drop _)) = _
  rw [left.truth_append, left.drop_append]
  rfl

theorem truth_or : (left.or right).truth database scope =
    disjunction (left.truth database scope) (right.truth database scope) := by
  show disjunction (left.sql.truth database scope (left.binds ++ right.binds))
    (right.sql.truth database scope ((left.binds ++ right.binds).drop _)) = _
  rw [left.truth_append, left.drop_append]
  rfl

theorem truth_not : query.not.truth database scope = negation (query.truth database scope) := rfl

theorem truth_any : (query.any table name).truth database scope =
    some ((database table).any fun row ↦
      decide (query.Holds database (Function.update scope name row))) := rfl

theorem truth_isIn :
    (isIn operand choices : Query Table Column Alias Value).truth database scope =
      (choices.map (Operand.value scope)).foldr
        (fun choice truth ↦ disjunction (sameValue (operand.value scope) choice) truth)
        (some false) := by
  show (choiceValues scope (choices.map Operand.term)
    ((operand.binds ++ choiceBinds choices).drop operand.term.parameters)).foldr
      (fun choice truth ↦ disjunction (sameValue
        (operand.term.value scope (operand.binds ++ choiceBinds choices)) choice) truth) _ = _
  rw [operand.drop_append, operand.value_append, choiceValues_map]

end Truth

/-! ### When a condition is true -/

section Holds

variable {database scope} {left right query : Query Table Column Alias Value}
  {first second operand : Operand Column Alias Value}
  {choices : List (Operand Column Alias Value)} {table : Table} {name : Alias}

theorem holds_equals :
    (equals first second : Query Table Column Alias Value).Holds database scope ↔
      ∃ value, first.value scope = some value ∧ second.value scope = some value := by
  rw [Holds, truth_equals, sameValue_eq_true]

theorem holds_isNull : (isNull operand : Query Table Column Alias Value).Holds database scope ↔
    operand.value scope = none := by
  show some (operand.value scope).isNone = some true ↔ _
  rw [Option.some_inj, Option.isNone_iff_eq_none]

theorem holds_isIn :
    (isIn operand choices : Query Table Column Alias Value).Holds database scope ↔
      ∃ choice ∈ choices, ∃ value,
        operand.value scope = some value ∧ choice.value scope = some value := by
  rw [Holds, truth_isIn]
  induction choices with
  | nil => simp
  | cons choice choices ih =>
    rw [List.map_cons, List.foldr_cons, disjunction_eq_true, sameValue_eq_true,
      List.exists_mem_cons_iff]
    exact or_congr_right ih

theorem holds_and : (left.and right).Holds database scope ↔
    left.Holds database scope ∧ right.Holds database scope := by
  rw [Holds, truth_and, conjunction_eq_true, Holds, Holds]

theorem holds_all {first : Query Table Column Alias Value}
    {rest : List (Query Table Column Alias Value)} : (all first rest).Holds database scope ↔
    first.Holds database scope ∧ ∀ next ∈ rest, next.Holds database scope := by
  induction rest generalizing first with
  | nil => simp [all]
  | cons next rest ih =>
    rw [all, List.foldl_cons, ← all, ih, holds_and, List.forall_mem_cons, and_assoc]

theorem holds_or : (left.or right).Holds database scope ↔
    left.Holds database scope ∨ right.Holds database scope := by
  rw [Holds, truth_or, disjunction_eq_true, Holds, Holds]

theorem holds_any : (query.any table name).Holds database scope ↔
    ∃ row ∈ database table, query.Holds database (Function.update scope name row) := by
  rw [Holds, truth_any, Option.some_inj, List.any_eq_true]
  simp only [decide_eq_true_iff]

theorem holds_count : (query.count table name operand).Holds database scope ↔
    operand.value scope = some (((database table).countP fun row ↦
      decide (query.Holds database (Function.update scope name row)) : ℕ) : Value) := by
  have htruth : (query.count table name operand).truth database scope =
      sameValue (some (((database table).countP fun row ↦
        decide (query.Holds database (Function.update scope name row)) : ℕ) : Value))
        (operand.value scope) := by
    show sameValue (some (((database table).countP fun row ↦ decide
      (query.sql.truth database (Function.update scope name row) (query.binds ++ operand.binds) =
        some true) : ℕ) : Value))
      (operand.term.value scope ((query.binds ++ operand.binds).drop query.sql.parameters)) = _
    simp only [query.truth_append, query.drop_append]
    rfl
  rw [Holds, htruth, sameValue_eq_true]
  simp

/-! ### Negation -/

/-- The condition is true or false. -/
def Definite (database : Database Table Column Value) (scope : Scope Column Alias Value)
    (query : Query Table Column Alias Value) : Prop :=
  query.truth database scope ≠ none

theorem definite_any : (query.any table name).Definite database scope :=
  Option.some_ne_none _

theorem definite_not (h : query.Definite database scope) : query.not.Definite database scope := by
  rw [Definite, truth_not, negation]
  exact fun hnone ↦ h (Option.map_eq_none_iff.mp hnone)

theorem definite_and (hleft : left.Definite database scope)
    (hright : right.Definite database scope) : (left.and right).Definite database scope := by
  rw [Definite, truth_and]
  cases hfirst : left.truth database scope with
  | none => exact absurd hfirst hleft
  | some first =>
    cases hsecond : right.truth database scope with
    | none => exact absurd hsecond hright
    | some second => cases first <;> cases second <;> decide

theorem holds_not (h : query.Definite database scope) :
    query.not.Holds database scope ↔ ¬ query.Holds database scope := by
  rw [Holds, truth_not, negation_eq_true, eq_false_iff h, Holds]

end Holds

end Query

end AlphaPing.Library.Sql
