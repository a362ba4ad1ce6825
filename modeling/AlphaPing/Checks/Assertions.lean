import AlphaPing.Agent.Probes.Assertions
import AlphaPing.Checks.Executor
import AlphaPing.Monitoring.Handlers

/-!
# The assertions of the checks worker

`evaluateAssertions` is the counterpart in TypeScript of the agent's evaluation. Numbers are
doubles here, a value that is missing is `undefined`, and a member that an object does not have of
its own is looked up in the prototype of all objects.
-/

namespace AlphaPing.Checks.Assertions

open Protocol Library.Documents
open Agent.Probes.Assertions (Answer includes isToken valueType)
open Monitoring.Handlers (utf16Length)
open Executor (AssertionSource AssertionEvaluation Thrown)

/-! ## Assertions of a request -/

inductive AssertionOperator where
  | existing
  | equals
  | contains
  | matching
  | type
  | greaterThan
  | lessThan
  deriving DecidableEq

inductive Severity where
  | degraded
  | down
  deriving DecidableEq

structure CheckAssertion where
  source : AssertionSource
  operator : AssertionOperator
  selector : Option String
  expected : Document Double
  severity : Severity

/-- An assertion in the text of a request. -/
structure RawAssertion where
  source : String
  operator : String
  selector : Option String
  expected : Document Double
  severity : String

def assertionSources : List (String × AssertionSource) :=
  [("header", .header), ("jsonpath", .jsonpath), ("body", .body)]

def assertionOperators : List (String × AssertionOperator) :=
  [("exists", .existing), ("equals", .equals), ("contains", .contains), ("matches", .matching),
    ("type", .type), ("greater_than", .greaterThan), ("less_than", .lessThan)]

def severities : List (String × Severity) := [("degraded", .degraded), ("down", .down)]

/-- A path that cannot run code. -/
def safePath (selector : String) : Bool :=
  selector.toList.head? == some '$' && '(' ∉ selector.toList

/-- The closure of `parseAssertions`. -/
def parseAssertion (raw : RawAssertion) : Except String CheckAssertion :=
  match assertionSources.lookup raw.source, assertionOperators.lookup raw.operator,
    severities.lookup raw.severity with
  | some source, some operator, some severity =>
    if raw.selector.any fun selector ↦ selector = "" || 512 < utf16Length selector then
      .error "invalid_assertion_selector"
    else if source = .header ∧ raw.selector = none then .error "missing_header_selector"
    else if source = .jsonpath ∧ ¬ raw.selector.any safePath then .error "unsafe_jsonpath_selector"
    else if operator = .matching ∧ raw.expected.tree.text? = none then
      .error "invalid_regex_assertion"
    else if operator = .matching ∧
        raw.expected.tree.text?.any (fun text ↦ 256 < utf16Length text) then
      .error "regex_assertion_too_large"
    else if raw.expected.tree.text?.any fun text ↦ 2048 < utf16Length text then
      .error "assertion_expected_too_large"
    else .ok ⟨source, operator, raw.selector, raw.expected, severity⟩
  | _, _, _ => .error "invalid_assertion"

def parseAssertions (raws : List RawAssertion) : Except String (List CheckAssertion) :=
  if 20 < raws.length then .error "invalid_assertions" else raws.mapM parseAssertion

/-! ## Comparing values -/

mutual

/-- `structurallyEqual`. An object has the member `__proto__` even where it has none of its own:
the prototype, an object without entries. -/
def structurallyEqual : Content Double → Content Double → Bool
  | .null, .null => true
  | .boolean left, .boolean right => left == right
  | .number left, .number right => left == right
  | .string left, .string right => left == right
  | .array left, .array right => left.length == right.length && everyItem left right
  | .object left, .object right => left.length == right.length && everyEntry left right
  | _, _ => false

def everyItem : List (Content Double) → List (Content Double) → Bool
  | [], _ => true
  | value :: rest, other :: others => structurallyEqual value other && everyItem rest others
  | _ :: _, [] => false

def everyEntry : List (String × Content Double) → List (String × Content Double) → Bool
  | [], _ => true
  | (key, value) :: rest, right =>
    (match right.lookup key with
      | some other => structurallyEqual value other
      | none => key == "__proto__" && structurallyEqual value (.object [])) &&
      everyEntry rest right

end

/-- What an assertion looks at; `none` is `undefined`. -/
abbrev Candidate := Option (Content Double)

/-- `valueType` of the worker. -/
def typeOf : Candidate → String
  | none => "undefined"
  | some value => valueType value

def number? : Content Double → Option ℚ
  | .number value => some value.value
  | _ => none

/-- What the evaluation calls: `TextDecoder`, `Headers`, `JSON.parse`, `JSONPath`, and
`RE2JS.compile`, whose result is what `find` answers; `none` stands for an exception. -/
structure Runtime where
  decode : Bytes → String
  headerValue : Bytes → String
  parse : String → Option (Document Double)
  jsonPath : String → Document Double → Option (List (Document Double))
  compile : String → Option (String → Bool)

variable (runtime : Runtime)

def compare (candidate : Candidate) (assertion : CheckAssertion) : Option Bool :=
  let expected := assertion.expected.tree
  match assertion.operator with
  | .existing => some candidate.isSome
  | .equals => some (candidate.any fun value ↦ structurallyEqual value expected)
  | .contains =>
    match candidate, expected with
    | some (.string value), .string expected => some (includes value expected)
    | some (.array items), expected => some (items.any fun item ↦ structurallyEqual item expected)
    | _, _ => some false
  | .matching =>
    match candidate.bind Content.text?, expected.text? with
    | some value, some pattern => (runtime.compile pattern).map fun find ↦ find value
    | _, _ => some false
  | .type => some (expected.text?.any fun expected ↦ typeOf candidate == expected)
  | .greaterThan =>
    match candidate.bind number?, number? expected with
    | some left, some right => some (decide (right < left))
    | _, _ => some false
  | .lessThan =>
    match candidate.bind number?, number? expected with
    | some left, some right => some (decide (left < right))
    | _, _ => some false

/-- `Array.prototype.some` of a test that may throw. -/
def someCandidate (test : Candidate → Option Bool) : List Candidate → Option Bool
  | [] => some false
  | candidate :: rest =>
    match test candidate with
    | none => none
    | some true => some true
    | some false => someCandidate test rest

/-! ## Evaluation -/

/-- `Headers.get`. -/
def get (answer : Answer) (name : String) : Except Thrown (Option String) :=
  if isToken name then
    match answer.values name with
    | [] => .ok none
    | values => .ok (some (", ".intercalate (values.map runtime.headerValue)))
  else .error .other

def bodyCandidates (assertion : CheckAssertion) (body : String)
    (parsedJson : Option (Document Double)) : List Candidate :=
  if assertion.source = .body then [some (.string body)]
  else if assertion.source = .jsonpath then
    match assertion.selector, parsedJson with
    | some selector, some json =>
      match runtime.jsonPath selector json with
      | some selected => selected.map fun value ↦ some value.tree
      | none => []
    | _, _ => []
  else []

def candidates (answer : Answer) (body : String) (parsedJson : Option (Document Double))
    (assertion : CheckAssertion) : Except Thrown (List Candidate) :=
  if assertion.source = .header then
    match assertion.selector with
    | none => .ok [none]
    | some selector =>
      match get runtime answer selector with
      | .error thrown => .error thrown
      | .ok value => .ok [value.map .string]
  else .ok (bodyCandidates runtime assertion body parsedJson)

def passed (assertion : CheckAssertion) (candidates : List Candidate) : Bool :=
  if assertion.operator = .existing then !candidates.isEmpty && candidates.any Option.isSome
  else (someCandidate (fun candidate ↦ compare runtime candidate assertion) candidates).getD false

structure Failure where
  severity : Severity
  summary : String

def AssertionSource.name : AssertionSource → String
  | .header => "header"
  | .jsonpath => "jsonpath"
  | .body => "body"

def AssertionOperator.name : AssertionOperator → String
  | .existing => "exists"
  | .equals => "equals"
  | .contains => "contains"
  | .matching => "matches"
  | .type => "type"
  | .greaterThan => "greater_than"
  | .lessThan => "less_than"

/-- What one turn of the loop adds to the failures. -/
def failureOf (answer : Answer) (body : String) (parsedJson : Option (Document Double))
    (assertion : CheckAssertion) : Except Thrown (Option Failure) :=
  match candidates runtime answer body parsedJson assertion with
  | .error thrown => .error thrown
  | .ok candidates =>
    if passed runtime assertion candidates then .ok none
    else
      .ok (some
        { severity := assertion.severity
          summary := AssertionSource.name assertion.source ++ ":" ++ assertion.operator.name })

def parsedJson (assertions : List CheckAssertion) (body : String) : Option (Document Double) :=
  if assertions.any fun assertion ↦ assertion.source == .jsonpath then runtime.parse body else none

/-- The result of `evaluateAssertions`. -/
def evaluation (failures : List Failure) : AssertionEvaluation :=
  if failures.isEmpty then ⟨.healthy, none, none⟩
  else
    { state := if failures.any fun failure ↦ failure.severity == .down then .down else .degraded
      failureCode := some "assertion_failed"
      failureSummary := some (",".intercalate ((failures.take 3).map Failure.summary)) }

def evaluateAssertions (assertions : List CheckAssertion) (answer : Answer) (body : String) :
    Except Thrown AssertionEvaluation := do
  let failures ← assertions.mapM
    (failureOf runtime answer body (parsedJson runtime assertions body))
  .ok (evaluation failures.reduceOption)

/-! ## Candidates -/

/-- A test that throws on some candidate and holds for none then fails as a whole; any other test
holds if it does for one candidate. -/
theorem someCandidate_getD {test : Candidate → Option Bool} {candidates : List Candidate}
    (h : ∀ first ∈ candidates, test first = none → ∀ second ∈ candidates, test second ≠ some true) :
    (someCandidate test candidates).getD false =
      candidates.any fun candidate ↦ test candidate == some true := by
  induction candidates with
  | nil => rfl
  | cons candidate rest ih =>
    have hrest : (someCandidate test rest).getD false =
        rest.any fun candidate ↦ test candidate == some true := by
      apply ih
      intro first hfirst hnone second hsecond
      exact h first (List.mem_cons_of_mem candidate hfirst) hnone second
        (List.mem_cons_of_mem candidate hsecond)
    rw [someCandidate, List.any_cons]
    cases htest : test candidate with
    | none =>
      have hall : ∀ second ∈ rest, ¬ (test second == some true) = true := by
        intro second hsecond
        rw [beq_iff_eq]
        exact h candidate List.mem_cons_self htest second (List.mem_cons_of_mem candidate hsecond)
      rw [List.any_eq_false.mpr hall]
      rfl
    | some holds =>
      cases holds with
      | true => rfl
      | false => simpa using hrest

/-- Only a pattern that does not compile throws, and then no candidate matches. -/
theorem compare_ne_true_of_none {runtime : Runtime} {assertion : CheckAssertion}
    {first second : Candidate} (h : compare runtime first assertion = none) :
    compare runtime second assertion ≠ some true := by
  unfold compare at h ⊢
  cases hoperator : assertion.operator with
  | matching =>
    rw [hoperator] at h
    cases hpattern : assertion.expected.tree.text? with
    | none => simp [hpattern] at h
    | some pattern =>
      cases hfirst : first.bind Content.text? with
      | none => simp [hfirst] at h
      | some value =>
        have hcompile : runtime.compile pattern = none := by simpa [hpattern, hfirst] using h
        cases hsecond : second.bind Content.text? <;> simp [hpattern, hcompile]
  | contains =>
    rw [hoperator] at h
    dsimp only at h
    split at h <;> cases h
  | greaterThan =>
    rw [hoperator] at h
    dsimp only at h
    split at h <;> cases h
  | lessThan =>
    rw [hoperator] at h
    dsimp only at h
    split at h <;> cases h
  | _ => simp [hoperator] at h

theorem passed_eq_any (runtime : Runtime) (assertion : CheckAssertion)
    (candidates : List Candidate) :
    passed runtime assertion candidates =
      candidates.any fun candidate ↦ compare runtime candidate assertion == some true := by
  unfold passed
  split
  next hexists =>
    have hcompare (candidate : Candidate) :
        compare runtime candidate assertion = some candidate.isSome := by
      simp [compare, hexists]
    cases candidates <;> simp [hcompare]
  next =>
    apply someCandidate_getD
    intro first _ hnone second _
    exact compare_ne_true_of_none hnone

/-! ## Structural equality -/

theorem everyItem_iff {left right : List (Content Double)} (h : left.length = right.length) :
    everyItem left right = true ↔
      List.Forall₂ (fun value other ↦ structurallyEqual value other = true) left right := by
  induction left generalizing right with
  | nil =>
    rw [List.length_nil, eq_comm, List.length_eq_zero_iff] at h
    rw [h]
    simp [everyItem]
  | cons value rest ih =>
    cases right with
    | nil => simp at h
    | cons other others =>
      have hrest : rest.length = others.length := by simpa using h
      rw [everyItem, Bool.and_eq_true, List.forall₂_cons, ih hrest]

theorem everyEntry_iff {left right : List (String × Content Double)} :
    everyEntry left right = true ↔ ∀ entry ∈ left,
      (∃ other, right.lookup entry.1 = some other ∧ structurallyEqual entry.2 other = true) ∨
        (right.lookup entry.1 = none ∧ entry.1 = "__proto__" ∧
          structurallyEqual entry.2 (.object []) = true) := by
  induction left with
  | nil => simp [everyEntry]
  | cons entry rest ih =>
    rw [List.forall_mem_cons, ← ih, everyEntry, Bool.and_eq_true]
    apply and_congr_left
    intro _
    cases right.lookup entry.1 <;> simp

theorem structurallyEqual_self {value : Content Double} (h : value.Ordered) :
    structurallyEqual value value = true := by
  induction h with
  | null => rfl
  | boolean value => simp [structurallyEqual]
  | number value => simp [structurallyEqual]
  | string value => simp [structurallyEqual]
  | @array items _ ih =>
    have hevery : everyItem items items = true := by
      rw [everyItem_iff rfl, List.forall₂_same]
      exact ih
    simp [structurallyEqual, hevery]
  | @object members names _ ih =>
    have hevery : everyEntry members members = true := by
      rw [everyEntry_iff]
      intro entry hentry
      exact .inl ⟨entry.2, lookup_of_mem names hentry, ih entry hentry⟩
    simp [structurallyEqual, hevery]

/-- Two values that are found equal are the same, but for what the prototype of an object adds. -/
theorem eq_of_structurallyEqual {left right : Content Double} (hleft : left.Ordered)
    (hright : right.Ordered) (hplain : left.Avoids "__proto__")
    (h : structurallyEqual left right = true) : left = right := by
  induction left generalizing right with
  | null => cases right <;> simp_all [structurallyEqual]
  | boolean value => cases right <;> simp_all [structurallyEqual]
  | number value => cases right <;> simp_all [structurallyEqual]
  | string value => cases right <;> simp_all [structurallyEqual]
  | array items ih =>
    cases right with
    | array others =>
      cases hleft with | array hitems =>
      cases hright with | array hothers =>
      cases hplain with | array hplain =>
      rw [structurallyEqual, Bool.and_eq_true, beq_iff_eq] at h
      have hevery := (everyItem_iff h.1).mp h.2
      have heq : List.Forall₂ Eq items others := by
        rw [List.forall₂_iff_get] at hevery ⊢
        refine ⟨h.1, fun index hindex hother ↦ ?_⟩
        have hitem := List.get_mem items ⟨index, hindex⟩
        exact ih _ hitem (hitems _ hitem) (hothers _ (List.get_mem others ⟨index, hother⟩))
          (hplain _ hitem) (hevery.2 index hindex hother)
      rw [List.forall₂_eq_eq_eq] at heq
      rw [heq]
    | _ => simp [structurallyEqual] at h
  | object members ih =>
    cases right with
    | object others =>
      cases hleft with | object hnames hmembers =>
      cases hright with | object hothers heach =>
      cases hplain with | object hplain hinner =>
      rw [structurallyEqual, Bool.and_eq_true, beq_iff_eq] at h
      have hevery := everyEntry_iff.mp h.2
      have hsubset : members ⊆ others := by
        intro entry hentry
        rcases hevery entry hentry with ⟨other, hlookup, hequal⟩ | ⟨-, hproto, -⟩
        · have hother := mem_of_lookup hlookup
          have heq : entry.2 = other :=
            ih entry hentry (hmembers entry hentry) (heach _ hother) (hinner entry hentry) hequal
          rw [← heq] at hother
          exact hother
        · exact absurd hproto (hplain entry hentry)
      rw [eq_of_subset hnames hothers h.1 hsubset]
    | _ => simp [structurallyEqual] at h

/-- Documents without the name `__proto__` are found equal exactly if they are. -/
theorem structurallyEqual_iff {left right : Content Double} (hleft : left.Ordered)
    (hright : right.Ordered) (hplain : left.Avoids "__proto__") :
    structurallyEqual left right = true ↔ left = right := by
  constructor
  · exact eq_of_structurallyEqual hleft hright hplain
  · intro h
    rw [h]
    exact structurallyEqual_self hright

theorem structurallyEqual_iff_member :
    structurallyEqual (.object [("a", .null)]) (.object [("a", .boolean true)]) = true ↔
      (.object [("a", .null)] : Content Double) = .object [("a", .boolean true)] :=
  structurallyEqual_iff
    (.object (List.pairwise_singleton _ _) (List.forall_mem_singleton.mpr .null))
    (.object (List.pairwise_singleton _ _) (List.forall_mem_singleton.mpr (.boolean true)))
    (.object (List.forall_mem_singleton.mpr (by decide)) (List.forall_mem_singleton.mpr .null))

end AlphaPing.Checks.Assertions
