import AlphaPing.Agent.Probes.Redirects
import AlphaPing.Library.Documents
import Mathlib.Data.List.Infix

/-!
# The assertions of an HTTP probe

`assertions::evaluate` of the agent: the values that an assertion looks at, the comparison of a
value with the expected one, and the verdict on one assertion. `Executors.evaluate` goes over the
verdicts. The JSON reader, the JSON path and the regular expressions are libraries.

A number is kept as `serde_json` keeps it: an integer that fits 64 bits is one, and any other
number is a double.
-/

namespace AlphaPing.Agent.Probes.Assertions

open Protocol Library.Documents Executors
open Redirects (lowerCase)

/-! ## Values -/

/-- `serde_json::Number`. -/
inductive Number where
  | posInt (value : UInt64)
  | negInt (value : Int64)
  | float (value : Double)

/-- `Number::as_f64`. -/
def Number.asF64 : Number → Double
  | .posInt value => .ofInt value.toNat
  | .negInt value => .ofInt value.toInt
  | .float value => value

/-- The equality of numbers, in which an integer is no double. -/
def Number.eq : Number → Number → Bool
  | .posInt left, .posInt right => left == right
  | .negInt left, .negInt right => left == right
  | .float left, .float right => decide (left.value = right.value)
  | _, _ => false

abbrev Value := Document Number

mutual

/-- The equality of values. -/
def valueEq : Content Number → Content Number → Bool
  | .null, .null => true
  | .boolean left, .boolean right => left == right
  | .number left, .number right => left.eq right
  | .string left, .string right => left == right
  | .array left, .array right => itemsEq left right
  | .object left, .object right => membersEq left right
  | _, _ => false

def itemsEq : List (Content Number) → List (Content Number) → Bool
  | [], [] => true
  | left :: lefts, right :: rights => valueEq left right && itemsEq lefts rights
  | _, _ => false

def membersEq : List (String × Content Number) → List (String × Content Number) → Bool
  | [], [] => true
  | (name, left) :: lefts, (other, right) :: rights =>
    name == other && valueEq left right && membersEq lefts rights
  | _, _ => false

end

def valueType {Number : Type} : Content Number → String
  | .null => "null"
  | .boolean _ => "boolean"
  | .number _ => "number"
  | .string _ => "string"
  | .array _ => "array"
  | .object _ => "object"

/-- `numeric`, as the value of the double. -/
def numeric : Content Number → Option ℚ
  | .number value => some value.asF64.value
  | _ => none

/-- `str::contains`. -/
def includes (text part : String) : Bool := decide (part.toList <:+: text.toList)

/-! ## Answers -/

/-- What the assertions look at: the headers in the order received, their names in lower case,
and the bytes of the body. -/
structure Answer where
  headers : List (String × Bytes)
  body : Bytes

/-- A character of a header name. -/
def isTokenCharacter (character : Char) : Bool :=
  character.isAlphanum || character ∈ "!#$%&'*+-.^_|~".toList || character.toNat = 0x60

def isToken (name : String) : Bool := name != "" && name.toList.all isTokenCharacter

/-- The values of a header. -/
def Answer.values (answer : Answer) (name : String) : List Bytes :=
  (answer.headers.filter fun header ↦ header.1 == lowerCase name).map Prod.snd

/-- `HeaderValue::to_str`. -/
def toStr (value : Bytes) : Option String :=
  if value.all fun byte ↦ byte = 9 || (32 ≤ byte && byte < 127) then
    some (String.ofList (value.map fun byte ↦ Char.ofNat byte.toNat))
  else none

/-- `HeaderMap::get` of a selector, as a text. -/
def headerText (answer : Answer) (selector : String) : Option String :=
  if isToken selector then (answer.values selector).head?.bind toStr else none

/-- `str::from_utf8`, with the empty text for a body that is none. -/
def bodyText (body : Bytes) : String :=
  (String.fromUTF8? ⟨body.toArray⟩).getD ""

/-! ## Verdicts -/

/-- What the evaluation calls: `serde_json::from_slice`, `JsonPath::query`, and `Regex::new`, whose
result is what `is_match` answers. -/
structure Libraries where
  fromSlice : Bytes → Option Value
  query : String → Value → Option (List Value)
  regex : String → Option (String → Bool)

def stringValue (text : String) : Value where
  tree := .string text
  ordered := .string text

variable (libraries : Libraries)

/-- The values an assertion is about; an error if there is no document or no such path. -/
def candidates (answer : Answer) (assertion : ProbeAssertion) : Except Unit (List Value) :=
  if assertion.source = "header" then
    .ok ((headerText answer assertion.selector).toList.map stringValue)
  else if assertion.source = "body" then .ok [stringValue (bodyText answer.body)]
  else if assertion.source = "jsonpath" then
    match libraries.fromSlice answer.body with
    | none => .error ()
    | some document =>
      match libraries.query assertion.selector document with
      | none => .error ()
      | some values => .ok values
  else .error ()

/-- The closure of `assertion_matches`. -/
def valueMatches (operator : String) (expected value : Content Number) : Bool :=
  match operator with
  | "equals" => valueEq value expected || value.text? == expected.text?
  | "contains" =>
    match value, expected with
    | .string value, .string expected => includes value expected
    | .array values, expected => values.any fun item ↦ valueEq item expected
    | _, _ => false
  | "matches" =>
    match value.text?, expected.text? with
    | some value, some pattern => (libraries.regex pattern).any fun isMatch ↦ isMatch value
    | _, _ => false
  | "type" => expected.text?.any fun expected ↦ valueType value == expected
  | "greater_than" =>
    match numeric value, numeric expected with
    | some left, some right => decide (right < left)
    | _, _ => false
  | "less_than" =>
    match numeric value, numeric expected with
    | some left, some right => decide (left < right)
    | _, _ => false
  | _ => false

def assertionMatches (values : List Value) (operator : String) (expected : Value) : Bool :=
  if operator = "exists" then !values.isEmpty
  else values.any fun value ↦ valueMatches libraries operator expected.tree value.tree

/-- The part of the loop of `evaluate` before the severity is looked at. -/
def matched (answer : Answer) (assertion : ProbeAssertion) : Except Unit Bool :=
  match libraries.fromSlice assertion.expectedJson with
  | none => .error ()
  | some expected =>
    match candidates libraries answer assertion with
    | .error () => .error ()
    | .ok values => .ok (assertionMatches libraries values assertion.operator expected)

/-- `assertions::evaluate`. -/
def evaluate (assertions : List ProbeAssertion) (answer : Answer) :
    Except Unit (Option AssertionFailure) :=
  Executors.evaluate (fun index ↦ (assertions[index]?).elim (.error ()) (matched libraries answer))
    assertions

/-! ## Comparing values -/

theorem equals_iff {expected value : Content Number} :
    valueMatches libraries "equals" expected value = true ↔ value.text? = expected.text? := by
  have hequal : valueEq value expected = true → value.text? = expected.text? := by
    intro h
    cases value <;> cases expected <;> simp_all [valueEq, Content.text?]
  simp only [valueMatches, Bool.or_eq_true, beq_iff_eq, or_iff_right_iff_imp]
  exact hequal

@[simp] theorem valueType_map {Other : Type} (f : Number → Other) (tree : Content Number) :
    valueType (tree.map f) = valueType tree := by
  cases tree <;> simp [Content.map, valueType]

end AlphaPing.Agent.Probes.Assertions
