import AlphaPing.Checks.Assertions
import AlphaPing.System.HttpProbes

/-!
# Response assertions in the two executors

An HTTP check is executed by an agent or by the checks worker, and its assertions are evaluated in
Rust or in TypeScript. The ingest worker compiles an assertion for the agent, the checks worker
parses it. Both look at one answer.

The two agree on every list of some assertions, and judge the equality of JSON values by their
structure, exactly if each assertion of the lists is one that the two judge alike. `equals` is not
such an assertion where a value that is no string is compared with another one: the agent takes
any two of them for equal.
-/

namespace AlphaPing.System.Assertions

open Protocol Library.Documents Agent.Probes
open Agent.Probes.Executors (AssertionFailure)
open Agent.Probes.Assertions (Number Value Answer Libraries valueEq valueMatches
  assertionMatches matched stringValue includes bodyText toStr isToken)
open Checks (ExecutedState)
open Checks.Executor (Thrown AssertionEvaluation)
open Checks.Assertions (CheckAssertion RawAssertion AssertionOperator Severity Runtime
  structurallyEqual parseAssertion parseAssertions parsedJson failureOf evaluateAssertions)
open HttpProbes (executedState worst)

/-! ## One assertion, twice -/

/-- An assertion in the request of a check, as the ingest worker reads it. -/
structure AssertionConfig where
  source : String
  operator : String
  selector : Option String
  expected : Value
  severity : String

/-- The document as a reader sees it that keeps numbers as doubles. -/
def view (value : Value) : Document Double := value.map Number.asF64

@[simp] theorem view_tree (value : Value) : (view value).tree = value.tree.map Number.asF64 := rfl

/-- The assertion as the checks worker reads it. -/
def AssertionConfig.raw (config : AssertionConfig) : RawAssertion where
  source := config.source
  operator := config.operator
  selector := config.selector
  expected := view config.expected
  severity := config.severity

/-- What the two executors run on; `toVec` is `serde_json::to_vec`. -/
structure Platform where
  toVec : Value → Bytes
  libraries : Libraries
  runtime : Runtime

variable (platform : Platform) (answer : Answer)

/-- The assertion that `compile_http` sends to the agent. -/
def compileAssertion (config : AssertionConfig) : ProbeAssertion where
  source := config.source
  operator := config.operator
  selector := config.selector.getD ""
  expectedJson := platform.toVec config.expected
  severity := config.severity

def agentEvaluation (configs : List AssertionConfig) : Except Unit (Option AssertionFailure) :=
  Assertions.evaluate platform.libraries (configs.map (compileAssertion platform)) answer

def workerEvaluation (assertions : List CheckAssertion) : Except Thrown AssertionEvaluation :=
  evaluateAssertions platform.runtime assertions answer (platform.runtime.decode answer.body)

/-! ## What the evaluators should do -/

/-- The overall state of an evaluation of the agent. -/
def agentState : Option AssertionFailure → ExecutedState
  | none => .healthy
  | some failure => executedState failure.state

def severityState : Severity → ExecutedState
  | .degraded => .degraded
  | .down => .down

/-- The values that the path of an assertion selects in the body. -/
def selected (config : AssertionConfig) : List Value :=
  match platform.libraries.fromSlice answer.body with
  | none => []
  | some document => (platform.libraries.query (config.selector.getD "") document).getD []

/-- Two values are the same tree of members, items and leaves; a number is its double. -/
def SameStructure (value expected : Value) : Prop := (view value).tree = (view expected).tree

/-- A selected value is structurally equal to the expected one. -/
def EqualsExpected (config : AssertionConfig) : Prop :=
  ∃ value ∈ selected platform answer config, SameStructure value config.expected

/-- The agent cannot evaluate the assertion: there is no JSON document, the path cannot be
queried, or the header is missing. -/
def AgentUnevaluable (config : AssertionConfig) : Prop :=
  (config.source = "jsonpath" ∧
    ∀ document, platform.libraries.fromSlice answer.body = some document →
      platform.libraries.query (config.selector.getD "") document = none) ∨
  (config.source = "header" ∧ answer.values (config.selector.getD "") = [])

def WorkerUnevaluable (assertion : CheckAssertion) : Prop :=
  (assertion.source = .jsonpath ∧
    ∀ document, platform.runtime.parse (platform.runtime.decode answer.body) = some document →
      platform.runtime.jsonPath (assertion.selector.getD "") document = none) ∨
  (assertion.source = .header ∧ answer.values (assertion.selector.getD "") = [])

/-- What the agent finds of the assertion at a place of the list. -/
def agentFailure (index : ℕ) (config : AssertionConfig) :
    Except Unit (Option AssertionFailure) :=
  Executors.evaluateOne (compileAssertion platform config) index
    (matched platform.libraries answer (compileAssertion platform config))

def workerFailure (assertions : List CheckAssertion) (assertion : CheckAssertion) :
    Except Thrown (Option Checks.Assertions.Failure) :=
  let body := platform.runtime.decode answer.body
  failureOf platform.runtime answer body (parsedJson platform.runtime assertions body) assertion

/-- A list of assertions is evaluated as it should be: `equals` on a path compares structure, an
assertion that cannot be evaluated fails with its own severity, and the two evaluators come to the
same state. -/
structure Agreed (configs : List AssertionConfig) (assertions : List CheckAssertion) : Prop where
  equals : ∀ index config assertion, configs[index]? = some config →
    assertions[index]? = some assertion → assertion.source = .jsonpath →
    assertion.operator = .equals →
      (agentFailure platform answer index config = .ok none ↔
        EqualsExpected platform answer config) ∧
      (workerFailure platform answer assertions assertion = .ok none ↔
        EqualsExpected platform answer config)
  unevaluable : ∀ index config assertion, configs[index]? = some config →
    assertions[index]? = some assertion →
      (AgentUnevaluable platform answer config →
        ∃ failure, agentFailure platform answer index config = .ok (some failure) ∧
          executedState failure.state = severityState assertion.severity) ∧
      (WorkerUnevaluable platform answer assertion →
        ∃ failure, workerFailure platform answer assertions assertion = .ok (some failure) ∧
          failure.severity = assertion.severity)
  state : ∃ agent worker, agentEvaluation platform answer configs = .ok agent ∧
    workerEvaluation platform answer assertions = .ok worker ∧ worker.state = agentState agent

/-- The libraries of the two executors agree on an answer and on some assertions. -/
structure LibrariesAgree (pool : List AssertionConfig) : Prop where
  roundTrip : ∀ config ∈ pool,
    platform.libraries.fromSlice (platform.toVec config.expected) = some config.expected
  parse : ∀ document, platform.libraries.fromSlice answer.body = some document →
    platform.runtime.parse (platform.runtime.decode answer.body) = some (view document)
  jsonPath : ∀ document, platform.libraries.fromSlice answer.body = some document →
    ∀ config ∈ pool, ∀ selector, config.selector = some selector →
      platform.runtime.jsonPath selector (view document) =
        (platform.libraries.query selector document).map (List.map view)
  regex : ∀ pattern, platform.runtime.compile pattern = platform.libraries.regex pattern

/-! ## When they do -/

def textMatches (operator : AssertionOperator) (expected : Content Number) (text : String) : Bool :=
  match operator with
  | .existing => true
  | .equals => expected.text? == some text
  | .contains => expected.text?.any fun part ↦ includes text part
  | .matching =>
    expected.text?.any fun pattern ↦
      (platform.libraries.regex pattern).any fun isMatch ↦ isMatch text
  | .type => expected.text? == some "string"
  | .greaterThan | .lessThan => false

/-- The selected value is an array with an item of some kind. -/
def hasItem (test : Content Number → Bool) (value : Value) : Bool :=
  match value.tree with
  | .array items => items.any test
  | _ => false

/-- The header has a name that a header can have. If it is missing, no `type` assertion expects
that; otherwise the operator says the same of the first value, if it is plain ASCII, and of all
values joined. -/
def HeaderAlike (config : AssertionConfig) (assertion : CheckAssertion) : Prop :=
  isToken (config.selector.getD "") = true ∧
    match answer.values (config.selector.getD "") with
    | [] => ¬ (assertion.operator = .type ∧ config.expected.tree.text? = some "undefined")
    | first :: rest =>
      (toStr first).any (textMatches platform assertion.operator config.expected.tree) =
        textMatches platform assertion.operator config.expected.tree
          (", ".intercalate ((first :: rest).map platform.runtime.headerValue))

/-- The operator says the same of the body as the two executors decode it. -/
def BodyAlike (config : AssertionConfig) (assertion : CheckAssertion) : Prop :=
  textMatches platform assertion.operator config.expected.tree (bodyText answer.body) =
    textMatches platform assertion.operator config.expected.tree
      (platform.runtime.decode answer.body)

/-- The body is JSON to the agent and the path can be queried. `equals` expects a string, or only
strings are selected, or one of the selected values has the structure of the expected one.
`contains` does not depend on how a number is written or on the prototype of an object. -/
def PathAlike (config : AssertionConfig) (assertion : CheckAssertion) : Prop :=
  ∃ document values, platform.libraries.fromSlice answer.body = some document ∧
    platform.libraries.query (config.selector.getD "") document = some values ∧
    (assertion.operator = .equals →
      config.expected.tree.text?.isSome ∨ (∀ value ∈ values, value.tree.text?.isSome) ∨
        ∃ value ∈ values, SameStructure value config.expected) ∧
    (assertion.operator = .contains →
      values.any (hasItem fun item ↦ valueEq item config.expected.tree) =
        values.any (hasItem fun item ↦
          structurallyEqual (item.map Number.asF64) (config.expected.tree.map Number.asF64)))

/-- The two evaluators judge the assertion alike. -/
def Alike (config : AssertionConfig) (assertion : CheckAssertion) : Prop :=
  match assertion.source with
  | .header => HeaderAlike platform answer config assertion
  | .body => BodyAlike platform answer config assertion
  | .jsonpath => PathAlike platform answer config assertion

/-! ## The assertion that both read -/

def severityName : Severity → String
  | .degraded => "degraded"
  | .down => "down"

structure Parsed (config : AssertionConfig) (assertion : CheckAssertion) : Prop where
  source : config.source = Checks.Assertions.AssertionSource.name assertion.source
  operator : config.operator = assertion.operator.name
  severity : config.severity = severityName assertion.severity
  selector : assertion.selector = config.selector
  expected : assertion.expected = view config.expected
  given : assertion.source ≠ .body → ∃ selector, config.selector = some selector

theorem Parsed.expected_tree {config : AssertionConfig} {assertion : CheckAssertion}
    (h : Parsed config assertion) :
    assertion.expected.tree = config.expected.tree.map Number.asF64 := by
  rw [h.expected]
  rfl

theorem source_of_lookup {text : String} {source : Checks.Executor.AssertionSource}
    (h : Checks.Assertions.assertionSources.lookup text = some source) :
    text = Checks.Assertions.AssertionSource.name source := by
  have hmem := mem_of_lookup h
  simp only [Checks.Assertions.assertionSources, List.mem_cons, List.not_mem_nil, or_false,
    Prod.mk.injEq] at hmem
  rcases hmem with ⟨rfl, rfl⟩ | ⟨rfl, rfl⟩ | ⟨rfl, rfl⟩ <;> rfl

theorem operator_of_lookup {text : String} {operator : AssertionOperator}
    (h : Checks.Assertions.assertionOperators.lookup text = some operator) :
    text = operator.name := by
  have hmem := mem_of_lookup h
  simp only [Checks.Assertions.assertionOperators, List.mem_cons, List.not_mem_nil, or_false,
    Prod.mk.injEq] at hmem
  rcases hmem with ⟨rfl, rfl⟩ | ⟨rfl, rfl⟩ | ⟨rfl, rfl⟩ | ⟨rfl, rfl⟩ | ⟨rfl, rfl⟩ | ⟨rfl, rfl⟩ |
    ⟨rfl, rfl⟩ <;> rfl

theorem severity_of_lookup {text : String} {severity : Severity}
    (h : Checks.Assertions.severities.lookup text = some severity) :
    text = severityName severity := by
  have hmem := mem_of_lookup h
  simp only [Checks.Assertions.severities, List.mem_cons, List.not_mem_nil, or_false,
    Prod.mk.injEq] at hmem
  rcases hmem with ⟨rfl, rfl⟩ | ⟨rfl, rfl⟩ <;> rfl

theorem parsed_of_parseAssertion {config : AssertionConfig} {assertion : CheckAssertion}
    (h : parseAssertion config.raw = .ok assertion) : Parsed config assertion := by
  unfold parseAssertion at h
  split at h
  next source operator severity hsource hoperator hseverity =>
    split_ifs at h with _ hheader hpath
    obtain rfl := Except.ok.inj h
    exact
      { source := source_of_lookup hsource
        operator := operator_of_lookup hoperator
        severity := severity_of_lookup hseverity
        selector := rfl
        expected := rfl
        given := by
          intro hbody
          rw [← Option.ne_none_iff_exists']
          intro hnone
          have hraw : config.raw.selector = none := hnone
          cases source with
          | header => exact hheader ⟨rfl, hraw⟩
          | jsonpath =>
            apply hpath
            rw [hraw]
            exact ⟨rfl, by simp⟩
          | body => exact hbody rfl }
  next => cases h

/-! ## What an operator says of a text -/

section

variable {platform}

theorem assertionMatches_text (operator : AssertionOperator) (expected : Value) (text : String) :
    assertionMatches platform.libraries [stringValue text] operator.name expected =
      textMatches platform operator expected.tree text := by
  cases operator with
  | existing => rfl
  | equals =>
    rw [Bool.eq_iff_iff]
    simp only [assertionMatches, AssertionOperator.name, textMatches, stringValue, List.any_cons,
      List.any_nil, Bool.or_false, String.reduceEq, if_false, Assertions.equals_iff,
      Content.text?_string, beq_iff_eq]
    exact eq_comm
  | contains =>
    cases hexpected : expected.tree <;>
      simp [assertionMatches, AssertionOperator.name, textMatches, stringValue, valueMatches,
        Content.text?, hexpected]
  | matching =>
    cases hexpected : expected.tree.text? <;>
      simp [assertionMatches, AssertionOperator.name, textMatches, stringValue, valueMatches,
        hexpected]
  | type =>
    rw [Bool.eq_iff_iff]
    cases hexpected : expected.tree.text? <;>
      simp [assertionMatches, AssertionOperator.name, textMatches, stringValue, valueMatches,
        Assertions.valueType, hexpected, eq_comm (a := "string")]
  | greaterThan =>
    simp [assertionMatches, AssertionOperator.name, textMatches, stringValue, valueMatches,
      Assertions.numeric]
  | lessThan =>
    simp [assertionMatches, AssertionOperator.name, textMatches, stringValue, valueMatches,
      Assertions.numeric]

variable {config : AssertionConfig} {assertion : CheckAssertion}

theorem structurallyEqual_text (text : String) (expected : Content Double) :
    structurallyEqual (.string text) expected = (expected.text? == some text) := by
  rw [Bool.eq_iff_iff]
  cases expected <;> simp [structurallyEqual, Content.text?, eq_comm (a := text)]

theorem passed_text
    (hregex : ∀ pattern, platform.runtime.compile pattern = platform.libraries.regex pattern)
    (hparsed : Parsed config assertion) (text : String) :
    Checks.Assertions.passed platform.runtime assertion [some (.string text)] =
      textMatches platform assertion.operator config.expected.tree text := by
  rw [Checks.Assertions.passed_eq_any, List.any_cons, List.any_nil, Bool.or_false]
  unfold Checks.Assertions.compare
  rw [hparsed.expected_tree]
  cases assertion.operator with
  | existing => simp [textMatches]
  | equals => simp [textMatches, structurallyEqual_text]
  | contains =>
    cases config.expected.tree <;> simp [textMatches, Content.map, Content.text?]
  | matching =>
    cases hpattern : config.expected.tree.text? with
    | none => simp [textMatches, hpattern]
    | some pattern =>
      cases hcompile : platform.libraries.regex pattern <;>
        simp [textMatches, hpattern, hregex, hcompile]
  | type =>
    rw [Bool.eq_iff_iff]
    cases hcontent : config.expected.tree.text? <;>
      simp [textMatches, hcontent, Checks.Assertions.typeOf, Assertions.valueType,
        eq_comm (a := "string")]
  | greaterThan => simp [textMatches, Checks.Assertions.number?]
  | lessThan => simp [textMatches, Checks.Assertions.number?]

theorem passed_missing (hparsed : Parsed config assertion) :
    Checks.Assertions.passed platform.runtime assertion [none] = true ↔
      assertion.operator = .type ∧ config.expected.tree.text? = some "undefined" := by
  rw [Checks.Assertions.passed_eq_any, List.any_cons, List.any_nil, Bool.or_false]
  unfold Checks.Assertions.compare
  rw [hparsed.expected_tree]
  cases assertion.operator with
  | type =>
    cases hcontent : config.expected.tree.text? <;>
      simp [hcontent, Checks.Assertions.typeOf, eq_comm (a := "undefined")]
  | contains =>
    apply iff_of_false Bool.false_ne_true
    intro h
    cases h.1
  | _ => simp

/-! ## What an operator says of selected values -/

theorem valueEq_string (item : Content Number) (text : String) :
    valueEq item (.string text) = (item.text? == some text) := by
  rw [Bool.eq_iff_iff]
  cases item <;> simp [valueEq, Content.text?]

theorem structurallyEqual_string (item : Content Double) (text : String) :
    structurallyEqual item (.string text) = (item.text? == some text) := by
  rw [Bool.eq_iff_iff]
  cases item <;> simp [structurallyEqual, Content.text?]

theorem number?_map (tree : Content Number) :
    Checks.Assertions.number? (tree.map Number.asF64) = Assertions.numeric tree := by
  cases tree <;> rfl

def pathCandidates (values : List Value) : List Checks.Assertions.Candidate :=
  (values.map view).map fun value ↦ some value.tree

theorem passed_path (values : List Value) :
    Checks.Assertions.passed platform.runtime assertion (pathCandidates values) =
      values.any fun value ↦
        Checks.Assertions.compare platform.runtime (some (value.tree.map Number.asF64)) assertion ==
          some true := by
  rw [Checks.Assertions.passed_eq_any, pathCandidates, List.any_map, List.any_map]
  rfl

theorem valueMatches_eq
    (hregex : ∀ pattern, platform.runtime.compile pattern = platform.libraries.regex pattern)
    (hparsed : Parsed config assertion) (hexisting : assertion.operator ≠ .existing)
    (hequals : assertion.operator ≠ .equals) (hcontains : assertion.operator ≠ .contains)
    (value : Content Number) :
    valueMatches platform.libraries assertion.operator.name config.expected.tree value =
      (Checks.Assertions.compare platform.runtime (some (value.map Number.asF64)) assertion ==
        some true) := by
  unfold Checks.Assertions.compare
  rw [hparsed.expected_tree]
  cases hoperator : assertion.operator with
  | existing => exact absurd hoperator hexisting
  | equals => exact absurd hoperator hequals
  | contains => exact absurd hoperator hcontains
  | matching =>
    cases hpattern : config.expected.tree.text? with
    | none =>
      cases htext : value.text? <;>
        simp [valueMatches, AssertionOperator.name, hpattern, htext]
    | some pattern =>
      cases hcompile : platform.libraries.regex pattern <;> cases htext : value.text? <;>
        simp [valueMatches, AssertionOperator.name, hpattern, hregex, hcompile, htext]
  | type =>
    cases hcontent : config.expected.tree.text? <;>
      simp [valueMatches, AssertionOperator.name, hcontent, Checks.Assertions.typeOf]
  | greaterThan =>
    cases hleft : Assertions.numeric value <;>
      cases hright : Assertions.numeric config.expected.tree <;>
        simp [valueMatches, AssertionOperator.name, number?_map, hleft, hright]
  | lessThan =>
    cases hleft : Assertions.numeric value <;>
      cases hright : Assertions.numeric config.expected.tree <;>
        simp [valueMatches, AssertionOperator.name, number?_map, hleft, hright]

theorem assertionMatches_path
    (hregex : ∀ pattern, platform.runtime.compile pattern = platform.libraries.regex pattern)
    (hparsed : Parsed config assertion) (hequals : assertion.operator ≠ .equals)
    (hcontains : assertion.operator ≠ .contains) (values : List Value) :
    assertionMatches platform.libraries values assertion.operator.name config.expected =
      Checks.Assertions.passed platform.runtime assertion (pathCandidates values) := by
  rw [passed_path]
  by_cases hexisting : assertion.operator = .existing
  · unfold Checks.Assertions.compare
    rw [hexisting]
    cases values <;> simp [assertionMatches, AssertionOperator.name]
  · have hname : assertion.operator.name ≠ "exists" := by
      cases hoperator : assertion.operator with
      | existing => exact absurd hoperator hexisting
      | _ => decide
    rw [assertionMatches, if_neg hname]
    apply congrArg values.any
    funext value
    exact valueMatches_eq hregex hparsed hexisting hequals hcontains value.tree

theorem agent_equals (values : List Value) :
    assertionMatches platform.libraries values "equals" config.expected = true ↔
      ∃ value ∈ values, value.tree.text? = config.expected.tree.text? := by
  simp [assertionMatches, Assertions.equals_iff]

theorem worker_equals (hparsed : Parsed config assertion) (hoperator : assertion.operator = .equals)
    (values : List Value) :
    Checks.Assertions.passed platform.runtime assertion (pathCandidates values) = true ↔
      ∃ value ∈ values, structurallyEqual (view value).tree (view config.expected).tree = true := by
  rw [passed_path]
  unfold Checks.Assertions.compare
  rw [hoperator, hparsed.expected]
  simp

variable {value expected : Value}

theorem text?_of_same (h : SameStructure value expected) :
    value.tree.text? = expected.tree.text? := by
  rw [← Content.text?_map Number.asF64 value.tree, ← Content.text?_map Number.asF64 expected.tree]
  exact congrArg Content.text? h

theorem structurallyEqual_of_same (h : SameStructure value expected) :
    structurallyEqual (view value).tree (view expected).tree = true := by
  rw [SameStructure] at h
  rw [h]
  exact Checks.Assertions.structurallyEqual_self (view expected).ordered

/-- Where the expected value is a string, all three notions of equality are one. -/
theorem same_iff_of_string {text : String} (h : expected.tree.text? = some text) :
    (SameStructure value expected ↔ value.tree.text? = expected.tree.text?) ∧
      (structurallyEqual (view value).tree (view expected).tree = true ↔
        value.tree.text? = expected.tree.text?) := by
  have htree : expected.tree = .string text := Content.text?_eq_some_iff.mp h
  have hview : (view expected).tree = .string text := by
    rw [view_tree, htree]
    rfl
  constructor
  · rw [SameStructure, hview, h, Content.text?_eq_some_iff]
    exact Content.map_eq_string_iff
  · rw [hview, structurallyEqual_string, beq_iff_eq, h, view_tree, Content.text?_map]

/-- The agent and the checks worker decide `equals` by structure exactly if a string is expected,
or only strings are selected, or the structure is found. -/
theorem equals_settled_iff (hparsed : Parsed config assertion)
    (hoperator : assertion.operator = .equals) (values : List Value) :
    ((assertionMatches platform.libraries values "equals" config.expected = true ↔
        ∃ value ∈ values, SameStructure value config.expected) ∧
      (Checks.Assertions.passed platform.runtime assertion (pathCandidates values) = true ↔
        ∃ value ∈ values, SameStructure value config.expected)) ↔
      config.expected.tree.text?.isSome ∨ (∀ value ∈ values, value.tree.text?.isSome) ∨
        ∃ value ∈ values, SameStructure value config.expected := by
  rw [agent_equals, worker_equals hparsed hoperator]
  cases htext : config.expected.tree.text? with
  | some text =>
    rw [← htext]
    have hsame (value : Value) := @same_iff_of_string value config.expected text htext
    simp only [hsame]
    simp [htext]
  | none =>
    constructor
    · rintro ⟨hagent, -⟩
      by_cases hall : ∀ value ∈ values, value.tree.text?.isSome
      · exact .inr (.inl hall)
      · push Not at hall
        obtain ⟨value, hvalue, hnone⟩ := hall
        rw [ne_eq, Option.not_isSome_iff_eq_none] at hnone
        exact .inr (.inr (hagent.mp ⟨value, hvalue, hnone⟩))
    · rintro (h | hall | ⟨value, hvalue, hsame⟩)
      · cases h
      · have hnone (value : Value) (hvalue : value ∈ values) : value.tree.text? ≠ none :=
          Option.isSome_iff_ne_none.mp (hall value hvalue)
        have hsame : ¬ ∃ value ∈ values, SameStructure value config.expected := by
          rintro ⟨value, hvalue, hsame⟩
          exact hnone value hvalue ((text?_of_same hsame).trans htext)
        constructor
        · apply iff_of_false _ hsame
          rintro ⟨value, hvalue, hequal⟩
          exact hnone value hvalue hequal
        · apply iff_of_false _ hsame
          rintro ⟨value, hvalue, hequal⟩
          obtain ⟨text, hstring⟩ := Option.isSome_iff_exists.mp (hall value hvalue)
          have hview : (view value).tree = .string text :=
            Content.map_eq_string_iff.mpr (Content.text?_eq_some_iff.mp hstring)
          rw [hview, structurallyEqual_text, beq_iff_eq, view_tree, Content.text?_map,
            htext] at hequal
          cases hequal
      · have hfound : ∃ value ∈ values, SameStructure value config.expected :=
          ⟨value, hvalue, hsame⟩
        exact ⟨iff_of_true ⟨value, hvalue, (text?_of_same hsame).trans htext⟩ hfound,
          iff_of_true ⟨value, hvalue, structurallyEqual_of_same hsame⟩ hfound⟩

/-- The agent and the checks worker say the same about `contains` exactly if they find the expected
value in the same way among the items of the selected arrays. -/
theorem contains_settled_iff (hparsed : Parsed config assertion)
    (hoperator : assertion.operator = .contains) (values : List Value) :
    assertionMatches platform.libraries values "contains" config.expected =
        Checks.Assertions.passed platform.runtime assertion (pathCandidates values) ↔
      values.any (hasItem fun item ↦ valueEq item config.expected.tree) =
        values.any (hasItem fun item ↦
          structurallyEqual (item.map Number.asF64) (config.expected.tree.map Number.asF64)) := by
  rw [passed_path, assertionMatches, if_neg (by decide)]
  cases htext : config.expected.tree.text? with
  | some text =>
    have htree : config.expected.tree = .string text := Content.text?_eq_some_iff.mp htext
    have hexpected := hparsed.expected_tree
    rw [htree] at hexpected ⊢
    apply iff_of_true
    · apply congrArg values.any
      funext value
      unfold Checks.Assertions.compare
      rw [hoperator, hexpected]
      cases value.tree <;>
        simp [valueMatches, Content.map, Content.mapItems_eq, valueEq_string,
          structurallyEqual_string, Function.comp_def]
    · apply congrArg values.any
      funext value
      rw [hasItem, hasItem]
      cases value.tree <;>
        simp [Content.map, valueEq_string, structurallyEqual_string]
  | none =>
    have hagent : (fun value : Value ↦
        valueMatches platform.libraries "contains" config.expected.tree value.tree) =
        hasItem fun item ↦ valueEq item config.expected.tree := by
      funext value
      rw [hasItem]
      cases value.tree <;> cases hcontent : config.expected.tree <;>
        simp_all [valueMatches, Content.text?]
    have hworker : (fun value : Value ↦ Checks.Assertions.compare platform.runtime
          (some (value.tree.map Number.asF64)) assertion == some true) =
        hasItem fun item ↦
          structurallyEqual (item.map Number.asF64) (config.expected.tree.map Number.asF64) := by
      funext value
      unfold hasItem Checks.Assertions.compare
      rw [hoperator, hparsed.expected_tree]
      cases value.tree <;> cases hcontent : config.expected.tree <;>
        simp_all [Content.map, Content.text?, Content.mapItems_eq, Function.comp_def]
    rw [hagent]
    exact iff_of_eq (congrArg _ (congrArg values.any hworker))

end

/-! ## Verdicts on one assertion -/

def agentVerdict (config : AssertionConfig) : Except Unit Bool :=
  matched platform.libraries answer (compileAssertion platform config)

def workerVerdict (assertion : CheckAssertion) : Except Thrown Bool :=
  let body := platform.runtime.decode answer.body
  (Checks.Assertions.candidates platform.runtime answer body (platform.runtime.parse body)
    assertion).map (Checks.Assertions.passed platform.runtime assertion)

/-- Both evaluators reach a verdict, the same one, and for `equals` on a path it is the one about
structure. -/
def Settled (config : AssertionConfig) (assertion : CheckAssertion) : Prop :=
  ∃ verdict, agentVerdict platform answer config = .ok verdict ∧
    workerVerdict platform answer assertion = .ok verdict ∧
    (assertion.source = .jsonpath → assertion.operator = .equals →
      (verdict = true ↔ EqualsExpected platform answer config))

section

variable {platform} {answer} {pool : List AssertionConfig} {config : AssertionConfig}
  {assertion : CheckAssertion}

theorem agentVerdict_eq (hagree : LibrariesAgree platform answer pool) (hmem : config ∈ pool)
    (hparsed : Parsed config assertion) :
    agentVerdict platform answer config =
      (Assertions.candidates platform.libraries answer (compileAssertion platform config)).map
        fun values ↦ assertionMatches platform.libraries values assertion.operator.name
          config.expected := by
  rw [agentVerdict, matched]
  have hround := hagree.roundTrip config hmem
  simp only [compileAssertion, hround, hparsed.operator]
  split
  next h => rw [h]; rfl
  next h => rw [h]; rfl

theorem settled_iff_of_ne (hsource : assertion.source ≠ .jsonpath) :
    Settled platform answer config assertion ↔
      ∃ verdict, agentVerdict platform answer config = .ok verdict ∧
        workerVerdict platform answer assertion = .ok verdict := by
  apply exists_congr
  intro verdict
  simp [hsource]

theorem settled_body (hagree : LibrariesAgree platform answer pool) (hmem : config ∈ pool)
    (hparsed : Parsed config assertion) (hsource : assertion.source = .body) :
    Settled platform answer config assertion ↔ BodyAlike platform answer config assertion := by
  have hname : config.source = "body" := by
    rw [hparsed.source, hsource]
    rfl
  have hagent : agentVerdict platform answer config =
      .ok (textMatches platform assertion.operator config.expected.tree
        (bodyText answer.body)) := by
    rw [agentVerdict_eq hagree hmem hparsed, ← assertionMatches_text]
    simp [Assertions.candidates, compileAssertion, hname, Except.map]
  have hworker : workerVerdict platform answer assertion =
      .ok (textMatches platform assertion.operator config.expected.tree
        (platform.runtime.decode answer.body)) := by
    rw [← passed_text hagree.regex hparsed]
    simp [workerVerdict, Checks.Assertions.candidates, Checks.Assertions.bodyCandidates, hsource,
      Except.map]
  rw [settled_iff_of_ne (by rw [hsource]; decide), hagent, hworker, BodyAlike]
  simp [eq_comm]

theorem settled_header (hagree : LibrariesAgree platform answer pool) (hmem : config ∈ pool)
    (hparsed : Parsed config assertion) (hsource : assertion.source = .header) :
    Settled platform answer config assertion ↔ HeaderAlike platform answer config assertion := by
  have hname : config.source = "header" := by
    rw [hparsed.source, hsource]
    rfl
  obtain ⟨selector, hselector⟩ := hparsed.given (by rw [hsource]; decide)
  have hagent : agentVerdict platform answer config =
      .ok ((Assertions.headerText answer selector).any
        (textMatches platform assertion.operator config.expected.tree)) := by
    rw [agentVerdict_eq hagree hmem hparsed]
    simp only [Assertions.candidates, compileAssertion, hname, hselector, Option.getD_some, if_true,
      Except.map]
    cases Assertions.headerText answer selector with
    | none => cases assertion.operator <;> rfl
    | some text => exact congrArg Except.ok (assertionMatches_text _ _ _)
  have hworker : workerVerdict platform answer assertion =
      (Checks.Assertions.get platform.runtime answer selector).map fun value ↦
        Checks.Assertions.passed platform.runtime assertion [value.map .string] := by
    rw [workerVerdict, Checks.Assertions.candidates, if_pos hsource, hparsed.selector, hselector]
    dsimp only
    cases Checks.Assertions.get platform.runtime answer selector <;> rfl
  rw [settled_iff_of_ne (by rw [hsource]; decide), hagent, hworker, HeaderAlike, hselector,
    Option.getD_some]
  unfold Assertions.headerText Checks.Assertions.get
  cases htoken : isToken selector with
  | false => simp [Except.map]
  | true =>
    rw [if_pos rfl, if_pos rfl]
    cases hvalues : answer.values selector with
    | nil =>
      rw [← @passed_missing platform config assertion hparsed]
      simp [Except.map]
    | cons first rest =>
      have htext := passed_text hagree.regex hparsed
        (", ".intercalate ((first :: rest).map platform.runtime.headerValue))
      dsimp only
      rw [← htext]
      simp [Except.map, eq_comm]

theorem verdicts_path (hagree : LibrariesAgree platform answer pool) (hmem : config ∈ pool)
    (hparsed : Parsed config assertion) (hsource : assertion.source = .jsonpath) {document : Value}
    {values : List Value} (hdocument : platform.libraries.fromSlice answer.body = some document)
    (hvalues : platform.libraries.query (config.selector.getD "") document = some values) :
    agentVerdict platform answer config =
        .ok (assertionMatches platform.libraries values assertion.operator.name config.expected) ∧
      workerVerdict platform answer assertion =
        .ok (Checks.Assertions.passed platform.runtime assertion (pathCandidates values)) := by
  have hname : config.source = "jsonpath" := by
    rw [hparsed.source, hsource]
    rfl
  obtain ⟨selector, hselector⟩ := hparsed.given (by rw [hsource]; decide)
  rw [hselector, Option.getD_some] at hvalues
  constructor
  · rw [agentVerdict_eq hagree hmem hparsed]
    simp [Assertions.candidates, compileAssertion, hname, hselector, hdocument, hvalues, Except.map]
  · have hparse := hagree.parse document hdocument
    have hselected := hagree.jsonPath document hdocument config hmem selector hselector
    rw [hvalues] at hselected
    simp [workerVerdict, Checks.Assertions.candidates, Checks.Assertions.bodyCandidates, hsource,
      hparsed.selector, hselector, hparse, hselected, pathCandidates, Except.map]

theorem settled_path (hagree : LibrariesAgree platform answer pool) (hmem : config ∈ pool)
    (hparsed : Parsed config assertion) (hsource : assertion.source = .jsonpath) :
    Settled platform answer config assertion ↔ PathAlike platform answer config assertion := by
  have hname : config.source = "jsonpath" := by
    rw [hparsed.source, hsource]
    rfl
  have hselected {document : Value} {values : List Value}
      (hdocument : platform.libraries.fromSlice answer.body = some document)
      (hvalues : platform.libraries.query (config.selector.getD "") document = some values) :
      selected platform answer config = values := by
    simp [selected, hdocument, hvalues]
  constructor
  · rintro ⟨verdict, hagent, hworker, hequals⟩
    have hcandidates := agentVerdict_eq hagree hmem hparsed
    rw [hagent, Assertions.candidates] at hcandidates
    simp only [compileAssertion, hname, String.reduceEq, if_false, if_true] at hcandidates
    cases hdocument : platform.libraries.fromSlice answer.body with
    | none =>
      rw [hdocument] at hcandidates
      cases hcandidates
    | some document =>
      cases hvalues : platform.libraries.query (config.selector.getD "") document with
      | none =>
        simp only [hdocument, hvalues] at hcandidates
        cases hcandidates
      | some values =>
        have hverdicts := verdicts_path hagree hmem hparsed hsource hdocument hvalues
        rw [hagent, hworker] at hverdicts
        have hagentEq := Except.ok.inj hverdicts.1
        have hworkerEq := Except.ok.inj hverdicts.2
        refine ⟨document, values, hdocument, hvalues, fun hoperator ↦ ?_, fun hoperator ↦ ?_⟩
        · have hsettled := hequals hsource hoperator
          rw [EqualsExpected, hselected hdocument hvalues] at hsettled
          rw [hoperator] at hagentEq
          apply (equals_settled_iff hparsed hoperator values).mp
          exact ⟨hagentEq ▸ hsettled, hworkerEq ▸ hsettled⟩
        · rw [hoperator] at hagentEq
          apply (contains_settled_iff hparsed hoperator values).mp
          exact hagentEq.symm.trans hworkerEq
  · rintro ⟨document, values, hdocument, hvalues, hequals, hcontains⟩
    have hverdicts := verdicts_path hagree hmem hparsed hsource hdocument hvalues
    refine ⟨_, hverdicts.1, ?_, fun _ hoperator ↦ ?_⟩
    · rw [hverdicts.2]
      apply congrArg Except.ok
      by_cases hoperator : assertion.operator = .equals
      · have hsettled := (@equals_settled_iff platform config assertion hparsed hoperator
          values).mpr (hequals hoperator)
        rw [hoperator, Bool.eq_iff_iff]
        exact hsettled.2.trans hsettled.1.symm
      · by_cases hcontain : assertion.operator = .contains
        · have hsettled := (@contains_settled_iff platform config assertion hparsed hcontain
            values).mpr (hcontains hcontain)
          rw [hcontain]
          exact hsettled.symm
        · exact (assertionMatches_path hagree.regex hparsed hoperator hcontain values).symm
    · rw [EqualsExpected, hselected hdocument hvalues, hoperator]
      exact ((equals_settled_iff hparsed hoperator values).mpr (hequals hoperator)).1

theorem settled_iff (hagree : LibrariesAgree platform answer pool) (hmem : config ∈ pool)
    (hparsed : Parsed config assertion) :
    Settled platform answer config assertion ↔ Alike platform answer config assertion := by
  rw [Alike]
  cases hsource : assertion.source with
  | header => exact settled_header hagree hmem hparsed hsource
  | jsonpath => exact settled_path hagree hmem hparsed hsource
  | body => exact settled_body hagree hmem hparsed hsource

end

end AlphaPing.System.Assertions
