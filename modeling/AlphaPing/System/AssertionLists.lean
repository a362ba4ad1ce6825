import AlphaPing.System.Assertions

/-!
# Lists of response assertions

The two evaluators go over a list of assertions: the agent keeps the first failure of the highest
severity, the checks worker collects all failures. Over settled assertions both come to the worst
severity of those that fail.
-/

namespace AlphaPing.System.AssertionLists

open Protocol Library.Documents Agent.Probes
open Agent.Probes.Executors (AssertionFailure)
open Agent.Probes.Assertions (Number Value Answer includes matched)
open Checks (ExecutedState)
open Checks.Assertions (CheckAssertion Severity parseAssertion parseAssertions parsedJson
  failureOf evaluateAssertions)
open HttpProbes (executedState worst)
open System.Assertions

variable (platform : Platform) (answer : Answer)

/-! ## The state of a list -/

/-- The state that failures of some severities come to. -/
def overall : List Severity → ExecutedState
  | [] => .healthy
  | severity :: rest => worst (severityState severity) (overall rest)

def failing (assertions : List CheckAssertion) : List Severity :=
  (assertions.filter fun assertion ↦
    (workerVerdict platform answer assertion).toOption == some false).map CheckAssertion.severity

theorem worst_assoc (first second third : ExecutedState) :
    worst (worst first second) third = worst first (worst second third) := by
  cases first <;> cases second <;> cases third <;> rfl

theorem overall_eq (severities : List Severity) :
    overall severities =
      if severities = [] then .healthy
      else if Severity.down ∈ severities then .down else .degraded := by
  induction severities with
  | nil => rfl
  | cons severity rest ih =>
    rw [overall, ih, if_neg (List.cons_ne_nil severity rest)]
    by_cases hrest : rest = []
    · rw [hrest]
      cases severity <;> rfl
    · rw [if_neg hrest]
      by_cases hdown : Severity.down ∈ rest
      · rw [if_pos hdown, if_pos (List.mem_cons_of_mem severity hdown)]
        cases severity <;> rfl
      · rw [if_neg hdown]
        cases severity <;> simp [hdown, severityState, worst, HttpProbes.rank]

theorem evaluation_state (failures : List Checks.Assertions.Failure) :
    (Checks.Assertions.evaluation failures).state =
      overall (failures.map Checks.Assertions.Failure.severity) := by
  rw [overall_eq]
  cases failures with
  | nil => rfl
  | cons failure rest =>
    rw [Checks.Assertions.evaluation, List.isEmpty_cons, if_neg Bool.false_ne_true,
      List.map_cons, if_neg (List.cons_ne_nil _ _), ← List.map_cons]
    simp only [List.any_eq_true, beq_iff_eq, List.mem_map]

section

variable {platform} {answer} {config : AssertionConfig} {assertion : CheckAssertion}

theorem evaluateOne_ok (hparsed : Parsed config assertion) (index : ℕ) (verdict : Bool) :
    ∃ outcome, Executors.evaluateOne (compileAssertion platform config) index (.ok verdict) =
        .ok outcome ∧
      (outcome = none ↔ verdict = true) ∧
      ∀ failure ∈ outcome, executedState failure.state = severityState assertion.severity ∧
        (failure.state = .degraded ∨ failure.state = .down) := by
  have hsource : config.source ∈ ["header", "body", "jsonpath"] := by
    rw [hparsed.source]
    cases assertion.source <;> decide
  unfold Executors.evaluateOne
  simp only [compileAssertion, hsource, if_true, hparsed.severity]
  cases verdict with
  | true => exact ⟨none, rfl, by simp, by simp⟩
  | false =>
    cases assertion.severity with
    | degraded => exact ⟨_, rfl, by simp, by simp [severityName, executedState, severityState]⟩
    | down => exact ⟨_, rfl, by simp, by simp [severityName, executedState, severityState]⟩

theorem agentFailure_of_verdict {verdict : Except Unit Bool}
    (h : agentVerdict platform answer config = verdict) (index : ℕ) :
    agentFailure platform answer index config =
      Executors.evaluateOne (compileAssertion platform config) index verdict := by
  rw [← h]
  rfl

theorem agentState_kept {start : Option AssertionFailure} {failure : AssertionFailure}
    (hstart : ∀ current ∈ start, current.state = .degraded ∨ current.state = .down)
    (hfailure : failure.state = .degraded ∨ failure.state = .down) :
    agentState (if start.all fun current ↦ current.state.toNat < failure.state.toNat then
        some failure else start) =
      worst (agentState start) (executedState failure.state) := by
  cases start with
  | none =>
    rcases hfailure with h | h <;> simp [agentState, h, executedState, worst, HttpProbes.rank]
  | some current =>
    rcases hstart current rfl with hcurrent | hcurrent <;> rcases hfailure with h | h <;>
      simp [agentState, hcurrent, h, executedState, worst, HttpProbes.rank, ProbeState.toNat]

variable {configs : List AssertionConfig}

variable {assertions : List CheckAssertion}

theorem evaluateFrom_overall (h : List.Forall₂ (fun config assertion ↦ Parsed config assertion ∧
      Settled platform answer config assertion) configs assertions) {found : ℕ → Except Unit Bool}
    {index : ℕ} {start : Option AssertionFailure}
    (hstart : ∀ current ∈ start, current.state = .degraded ∨ current.state = .down)
    (hfound : ∀ offset config, configs[offset]? = some config →
      found (index + offset) = agentVerdict platform answer config) :
    ∃ result, Executors.evaluateFrom found (configs.map (compileAssertion platform)) index start =
        .ok result ∧
      agentState result =
        worst (agentState start) (overall (failing platform answer assertions)) := by
  induction h generalizing index start with
  | nil =>
    refine ⟨start, rfl, ?_⟩
    cases agentState start <;> rfl
  | @cons config assertion configs assertions hpair _ ih =>
    obtain ⟨hparsed, verdict, hagent, hworker, -⟩ := hpair
    have hhead : found index = .ok verdict := by
      rw [← hagent]
      exact hfound 0 config rfl
    have hrest : ∀ offset config, configs[offset]? = some config →
        found (index + 1 + offset) = agentVerdict platform answer config := by
      intro offset other hother
      rw [Nat.add_assoc, Nat.add_comm 1]
      exact hfound (offset + 1) other hother
    obtain ⟨outcome, houtcome, hnone, hfailure⟩ :=
      @evaluateOne_ok platform config assertion hparsed index verdict
    rw [List.map_cons, Executors.evaluateFrom, hhead, houtcome, failing, List.filter_cons, hworker]
    cases outcome with
    | none =>
      rw [hnone.mp rfl]
      exact ih hstart hrest
    | some failure =>
      have hverdict : verdict = false := by
        cases verdict
        · rfl
        · cases hnone.mpr rfl
      obtain ⟨hstate, hbad⟩ := hfailure failure rfl
      have hkept : ∀ current ∈ (if start.all fun current ↦
            current.state.toNat < failure.state.toNat then some failure else start),
          current.state = .degraded ∨ current.state = .down := by
        intro current hcurrent
        split at hcurrent
        · obtain rfl := Option.some.inj hcurrent
          exact hbad
        · exact hstart current hcurrent
      obtain ⟨result, hresult, hworst⟩ := ih hkept hrest
      refine ⟨result, hresult, ?_⟩
      rw [hworst, agentState_kept hstart hbad, hstate, worst_assoc, hverdict]
      rfl

/-- The document is parsed for an assertion that needs it, whatever else is on the list. -/
theorem workerFailure_eq (hmem : assertion ∈ assertions) :
    workerFailure platform answer assertions assertion =
      (workerVerdict platform answer assertion).map fun passed ↦
        if passed then none
        else some
          { severity := assertion.severity
            summary := Checks.Assertions.AssertionSource.name assertion.source ++ ":" ++
              assertion.operator.name } := by
  have hcandidates : Checks.Assertions.candidates platform.runtime answer
        (platform.runtime.decode answer.body)
        (parsedJson platform.runtime assertions (platform.runtime.decode answer.body)) assertion =
      Checks.Assertions.candidates platform.runtime answer (platform.runtime.decode answer.body)
        (platform.runtime.parse (platform.runtime.decode answer.body)) assertion := by
    cases hsource : assertion.source with
    | header => simp [Checks.Assertions.candidates, hsource]
    | body =>
      simp [Checks.Assertions.candidates, Checks.Assertions.bodyCandidates, hsource]
    | jsonpath =>
      have hany : (assertions.any fun assertion ↦ assertion.source == .jsonpath) = true := by
        rw [List.any_eq_true]
        exact ⟨assertion, hmem, beq_iff_eq.mpr hsource⟩
      rw [parsedJson, if_pos hany]
  rw [workerFailure, workerVerdict, failureOf, hcandidates]
  cases Checks.Assertions.candidates platform.runtime answer (platform.runtime.decode answer.body)
    (platform.runtime.parse (platform.runtime.decode answer.body)) assertion with
  | error thrown => rfl
  | ok candidates =>
    dsimp only [Except.map]
    split <;> rfl

theorem mapM_workerFailure {assertions all : List CheckAssertion} (hsubset : assertions ⊆ all)
    (h : ∀ assertion ∈ assertions, ∃ verdict, workerVerdict platform answer assertion = .ok verdict)
    :
    ∃ failures, assertions.mapM (workerFailure platform answer all) = .ok failures ∧
      failures.reduceOption.map Checks.Assertions.Failure.severity =
        failing platform answer assertions := by
  induction assertions with
  | nil => exact ⟨[], rfl, rfl⟩
  | cons assertion rest ih =>
    rw [List.forall_mem_cons] at h
    obtain ⟨verdict, hverdict⟩ := h.1
    obtain ⟨failures, hfailures, hfailing⟩ := ih (List.subset_of_cons_subset hsubset) h.2
    have hone := @workerFailure_eq platform answer assertion all (hsubset List.mem_cons_self)
    rw [hverdict] at hone
    refine ⟨(if verdict then none else some
          { severity := assertion.severity
            summary := Checks.Assertions.AssertionSource.name assertion.source ++ ":" ++
              assertion.operator.name }) :: failures, ?_, ?_⟩
    · rw [List.mapM_cons, hone, hfailures]
      rfl
    · rw [failing, List.filter_cons, hverdict]
      cases verdict with
      | true => exact hfailing
      | false =>
        apply congrArg (List.cons assertion.severity)
        exact hfailing

theorem forall₂_parseAssertion
    (h : parseAssertions (configs.map AssertionConfig.raw) = .ok assertions) :
    List.Forall₂ (fun config assertion ↦ parseAssertion config.raw = .ok assertion) configs
      assertions := by
  rw [parseAssertions] at h
  split at h
  · cases h
  · clear * - h
    induction configs generalizing assertions with
    | nil =>
      obtain rfl := Except.ok.inj h
      exact .nil
    | cons config rest ih =>
      rw [List.map_cons, List.mapM_cons] at h
      cases hone : parseAssertion config.raw with
      | error text =>
        rw [hone] at h
        cases h
      | ok assertion =>
        cases hrest : (rest.map AssertionConfig.raw).mapM parseAssertion with
        | error text =>
          rw [hone, hrest] at h
          cases h
        | ok others =>
          rw [hone, hrest] at h
          obtain rfl := Except.ok.inj h
          exact .cons hone (ih hrest)

/-! ## Lists of settled assertions -/

variable {pool : List AssertionConfig}

theorem agentVerdict_of_unevaluable (hagree : LibrariesAgree platform answer pool)
    (hmem : config ∈ pool) (hparsed : Parsed config assertion) {verdict : Bool}
    (hverdict : agentVerdict platform answer config = .ok verdict)
    (h : AgentUnevaluable platform answer config) : verdict = false := by
  rw [agentVerdict_eq hagree hmem hparsed, Assertions.candidates] at hverdict
  rcases h with ⟨hsource, hnone⟩ | ⟨hsource, hvalues⟩
  · simp only [compileAssertion, hsource, String.reduceEq, if_false, if_true] at hverdict
    cases hdocument : platform.libraries.fromSlice answer.body with
    | none =>
      rw [hdocument] at hverdict
      cases hverdict
    | some document =>
      simp only [hdocument, hnone document hdocument] at hverdict
      cases hverdict
  · have hheader : Assertions.headerText answer (config.selector.getD "") = none := by
      rw [Assertions.headerText, hvalues]
      split <;> rfl
    simp only [compileAssertion, hsource, if_true, hheader, Option.toList_none,
      List.map_nil] at hverdict
    rw [← Except.ok.inj hverdict]
    cases assertion.operator <;> rfl

theorem workerVerdict_of_no_path (hsource : assertion.source = .jsonpath)
    (h : ∀ document, platform.runtime.parse (platform.runtime.decode answer.body) = some document →
      platform.runtime.jsonPath (assertion.selector.getD "") document = none) :
    workerVerdict platform answer assertion = .ok false := by
  have hcandidates : Checks.Assertions.bodyCandidates platform.runtime assertion
      (platform.runtime.decode answer.body)
      (platform.runtime.parse (platform.runtime.decode answer.body)) = [] := by
    unfold Checks.Assertions.bodyCandidates
    rw [hsource, if_neg (by decide), if_pos rfl]
    cases hselector : assertion.selector with
    | none => rfl
    | some selector =>
      rw [hselector, Option.getD_some] at h
      cases hdocument : platform.runtime.parse (platform.runtime.decode answer.body) with
      | none => rfl
      | some document => simp [h document hdocument]
  rw [workerVerdict, Checks.Assertions.candidates, hsource, if_neg (by decide), hcandidates,
    Except.map, Checks.Assertions.passed_eq_any, List.any_nil]

theorem agentEvaluation_overall (h : List.Forall₂ (fun config assertion ↦ Parsed config assertion ∧
      Settled platform answer config assertion) configs assertions) :
    ∃ agent, agentEvaluation platform answer configs = .ok agent ∧
      agentState agent = overall (failing platform answer assertions) := by
  have hfound : ∀ offset config, configs[offset]? = some config →
      ((configs.map (compileAssertion platform))[0 + offset]?).elim (.error ())
        (matched platform.libraries answer) = agentVerdict platform answer config := by
    intro offset config hconfig
    rw [Nat.zero_add, List.getElem?_map, hconfig]
    rfl
  obtain ⟨agent, hagent, hstate⟩ := @evaluateFrom_overall platform answer configs assertions h
    (fun index ↦ ((configs.map (compileAssertion platform))[index]?).elim (.error ())
      (matched platform.libraries answer)) 0 none
    (fun _ hcurrent ↦ absurd hcurrent (Option.not_mem_none _)) hfound
  refine ⟨agent, hagent, ?_⟩
  rw [hstate, agentState]
  cases overall (failing platform answer assertions) <;> rfl

theorem workerEvaluation_overall
    (h : ∀ assertion ∈ assertions, ∃ verdict, workerVerdict platform answer assertion = .ok verdict)
    : ∃ worker, workerEvaluation platform answer assertions = .ok worker ∧
      worker.state = overall (failing platform answer assertions) := by
  obtain ⟨failures, hfailures, hfailing⟩ := mapM_workerFailure (List.Subset.refl assertions) h
  refine ⟨Checks.Assertions.evaluation failures.reduceOption, ?_, ?_⟩
  · have hmapM : assertions.mapM (failureOf platform.runtime answer
          (platform.runtime.decode answer.body)
          (parsedJson platform.runtime assertions (platform.runtime.decode answer.body))) =
        .ok failures := hfailures
    rw [workerEvaluation, evaluateAssertions, hmapM]
    rfl
  · rw [evaluation_state, hfailing]

theorem agreed_of_settled (hagree : LibrariesAgree platform answer pool) (hsubset : configs ⊆ pool)
    (h : List.Forall₂ (fun config assertion ↦ Parsed config assertion ∧
      Settled platform answer config assertion) configs assertions) :
    Agreed platform answer configs assertions := by
  have hpair {index : ℕ} {config : AssertionConfig} {assertion : CheckAssertion}
      (hconfig : configs[index]? = some config) (hassertion : assertions[index]? = some assertion) :
      (config ∈ pool ∧ assertion ∈ assertions) ∧ Parsed config assertion ∧
        Settled platform answer config assertion := by
    obtain ⟨hlength, hlt⟩ := List.getElem?_eq_some_iff.mp hconfig
    obtain ⟨hother, hget⟩ := List.getElem?_eq_some_iff.mp hassertion
    rw [← hlt, ← hget]
    exact ⟨⟨hsubset (List.getElem_mem hlength), List.getElem_mem hother⟩, h.get hlength hother⟩
  constructor
  · intro index config assertion hconfig hassertion hsource hoperator
    obtain ⟨⟨-, hmem⟩, hparsed, verdict, hagent, hworker, hequals⟩ := hpair hconfig hassertion
    rw [← hequals hsource hoperator]
    constructor
    · obtain ⟨outcome, houtcome, hnone, -⟩ := evaluateOne_ok hparsed index verdict
      rw [agentFailure_of_verdict hagent, houtcome, ← hnone]
      simp
    · rw [workerFailure_eq hmem, hworker]
      cases verdict <;> simp [Except.map]
  · intro index config assertion hconfig hassertion
    obtain ⟨⟨hconfigMem, hmem⟩, hparsed, verdict, hagent, hworker, -⟩ := hpair hconfig hassertion
    have hfalse : AgentUnevaluable platform answer config → verdict = false :=
      agentVerdict_of_unevaluable hagree hconfigMem hparsed hagent
    constructor
    · intro hunevaluable
      obtain ⟨outcome, houtcome, hnone, hfailure⟩ := evaluateOne_ok hparsed index verdict
      rw [hfalse hunevaluable] at hagent hnone houtcome
      cases outcome with
      | none => cases hnone.mp rfl
      | some failure =>
        refine ⟨failure, ?_, (hfailure failure rfl).1⟩
        rw [agentFailure_of_verdict hagent, houtcome]
    · intro hunevaluable
      have hverdict : workerVerdict platform answer assertion = .ok false := by
        rcases hunevaluable with ⟨hsource, hnone⟩ | ⟨hsource, hvalues⟩
        · exact workerVerdict_of_no_path hsource hnone
        · rw [hworker]
          apply congrArg Except.ok
          apply hfalse
          refine .inr ⟨?_, ?_⟩
          · rw [hparsed.source, hsource]
            rfl
          · rw [← hparsed.selector]
            exact hvalues
      rw [workerFailure_eq hmem, hverdict]
      exact ⟨_, rfl, rfl⟩
  · obtain ⟨agent, hagent, hagentState⟩ := agentEvaluation_overall h
    have hverdicts : ∀ assertion ∈ assertions, ∃ verdict,
        workerVerdict platform answer assertion = .ok verdict := by
      intro assertion hassertion
      obtain ⟨index, hindex, hget⟩ := List.getElem_of_mem hassertion
      have hsettled := (h.get (h.length_eq ▸ hindex) hindex).2
      rw [List.get_eq_getElem, List.get_eq_getElem, hget] at hsettled
      obtain ⟨verdict, -, hworker, -⟩ := hsettled
      exact ⟨verdict, hworker⟩
    obtain ⟨worker, hworker, hworkerState⟩ := workerEvaluation_overall hverdicts
    exact ⟨agent, worker, hagent, hworker, hworkerState.trans hagentState.symm⟩

theorem settled_of_agreed (hparsed : Parsed config assertion)
    (h : Agreed platform answer [config] [assertion]) :
    Settled platform answer config assertion := by
  obtain ⟨agent, worker, hagent, hworker, hstate⟩ := h.state
  have hrun : agentEvaluation platform answer [config] = agentFailure platform answer 0 config := by
    rw [agentEvaluation, Assertions.evaluate, Executors.evaluate, List.map_singleton,
      Executors.evaluateFrom]
    change _ = Executors.evaluateOne _ 0 _
    split <;> simp_all [Executors.evaluateFrom]
  cases hverdict : agentVerdict platform answer config with
  | error nothing =>
    have hfailure : agentFailure platform answer 0 config = .error () := by
      rw [agentFailure_of_verdict hverdict, Executors.evaluateOne]
      split <;> rfl
    rw [hrun, hfailure] at hagent
    cases hagent
  | ok verdict =>
    cases hother : workerVerdict platform answer assertion with
    | error thrown =>
      have hone : workerFailure platform answer [assertion] assertion = .error thrown := by
        rw [workerFailure_eq List.mem_cons_self, hother]
        rfl
      have hmapM : [assertion].mapM (failureOf platform.runtime answer
            (platform.runtime.decode answer.body)
            (parsedJson platform.runtime [assertion] (platform.runtime.decode answer.body))) =
          .error thrown := by
        rw [List.mapM_cons, show failureOf _ _ _ _ assertion = .error thrown from hone]
        rfl
      rw [workerEvaluation, evaluateAssertions, hmapM] at hworker
      cases hworker
    | ok other =>
      obtain ⟨outcome, houtcome, hnone, hfailure⟩ :=
        @evaluateOne_ok platform config assertion hparsed 0 verdict
      have hone : agentFailure platform answer 0 config = .ok outcome := by
        rw [agentFailure_of_verdict hverdict, houtcome]
      rw [hrun, hone] at hagent
      obtain rfl := Except.ok.inj hagent
      have hall : ∀ known ∈ [assertion], ∃ verdict,
          workerVerdict platform answer known = .ok verdict := by
        intro known hknown
        rw [List.mem_singleton.mp hknown]
        exact ⟨other, hother⟩
      obtain ⟨found, hfound, hoverall⟩ := workerEvaluation_overall hall
      rw [hworker] at hfound
      obtain rfl := Except.ok.inj hfound
      have hsame : verdict = other := by
        rw [hoverall, failing, List.filter_cons, hother] at hstate
        cases verdict with
        | true =>
          rw [hnone.mpr rfl] at hstate
          cases other with
          | true => rfl
          | false => cases hseverity : assertion.severity <;>
              simp [Except.toOption, overall, severityState, worst, HttpProbes.rank, agentState,
                hseverity] at hstate
        | false =>
          cases outcome with
          | none => cases hnone.mp rfl
          | some failure =>
            rw [agentState, (hfailure failure rfl).1] at hstate
            cases other with
            | false => rfl
            | true => cases hseverity : assertion.severity <;>
                simp [Except.toOption, overall, severityState, hseverity] at hstate
      refine ⟨verdict, hverdict, hother.trans (congrArg Except.ok hsame.symm),
        fun hsource hoperator ↦ ?_⟩
      have hequals := (h.equals 0 config assertion rfl rfl hsource hoperator).1
      rw [hone] at hequals
      rw [← hequals, ← hnone]
      simp

/-- Over an answer, whatever list is made of some assertions is evaluated as it should be, exactly
if the evaluators judge each of the assertions alike. -/
theorem agreed_iff (hagree : LibrariesAgree platform answer pool) :
    (∀ configs ⊆ pool, ∀ assertions,
      parseAssertions (configs.map AssertionConfig.raw) = .ok assertions →
        Agreed platform answer configs assertions) ↔
      ∀ config ∈ pool, ∀ assertion, parseAssertion config.raw = .ok assertion →
        Alike platform answer config assertion := by
  constructor
  · intro h config hmem assertion hassertion
    have hparsed := parsed_of_parseAssertion hassertion
    rw [← settled_iff hagree hmem hparsed]
    apply settled_of_agreed hparsed
    apply h [config] (by simpa using hmem)
    rw [parseAssertions, if_neg (by simp), List.map_singleton, List.mapM_cons, hassertion]
    rfl
  · intro h configs hsubset assertions hassertions
    apply agreed_of_settled hagree hsubset
    have hparse := forall₂_parseAssertion hassertions
    rw [List.forall₂_iff_get] at hparse ⊢
    refine ⟨hparse.1, fun index hconfig hassertion ↦ ?_⟩
    have hmem := hsubset (List.get_mem configs ⟨index, hconfig⟩)
    have hone := hparse.2 index hconfig hassertion
    have hparsed := parsed_of_parseAssertion hone
    exact ⟨hparsed, (settled_iff hagree hmem hparsed).mpr (h _ hmem _ hone)⟩

end

/-! ## A number in the body -/

def naturalValue (value : UInt64) : Value where
  tree := .number (.posInt value)
  ordered := .number _

/-- The body of an answer whose only member is a number. -/
def countedText : String := "\x7b\"n\":1\x7d"

def countedDocument : Value where
  tree := .object [("n", .number (.posInt 1))]
  ordered := by
    apply Content.Ordered.object
    · simp
    · intro member hmember
      rw [List.mem_singleton.mp hmember]
      exact .number _

def ascii (text : String) : Bytes := text.toList.map fun character ↦ UInt8.ofNat character.toNat

def asciiText (bytes : Bytes) : String :=
  String.ofList (bytes.map fun byte ↦ Char.ofNat byte.toNat)

/-- The libraries, as far as this body, digits and the path of the member go. -/
def countingPlatform : Platform where
  toVec value :=
    match value.tree with
    | .number (.posInt value) => ascii value.toNat.repr
    | _ => []
  libraries :=
    { fromSlice := fun bytes ↦
        if bytes = ascii countedText then some countedDocument
        else
          match bytes with
          | [byte] =>
            if 0x30 ≤ byte ∧ byte ≤ 0x39 then some (naturalValue (byte - 0x30).toUInt64) else none
          | _ => none
      query := fun selector document ↦
        if selector = "$.n" then
          match document.tree with
          | .object [("n", .number value)] => some [⟨.number value, .number value⟩]
          | _ => some []
        else none
      regex := fun pattern ↦ some fun text ↦ includes text pattern }
  runtime :=
    { decode := asciiText
      headerValue := asciiText
      parse := fun text ↦ if text = countedText then some (view countedDocument) else none
      jsonPath := fun selector document ↦
        if selector = "$.n" then
          match document.tree with
          | .object [("n", .number value)] => some [⟨.number value, .number value⟩]
          | _ => some []
        else none
      compile := fun pattern ↦ some fun text ↦ includes text pattern }

def countedAnswer : Answer where
  headers := []
  body := ascii countedText

/-- The member is expected to be a number. -/
def countConfig (expected : UInt64) : AssertionConfig where
  source := "jsonpath"
  operator := "equals"
  selector := some "$.n"
  expected := naturalValue expected
  severity := "down"

theorem fromSlice_countedAnswer :
    countingPlatform.libraries.fromSlice countedAnswer.body = some countedDocument := by
  simp [countingPlatform, countedAnswer]

theorem countingPlatform_agrees (expected : UInt64)
    (hdigit :
      countingPlatform.libraries.fromSlice (countingPlatform.toVec (naturalValue expected)) =
        some (naturalValue expected)) :
    LibrariesAgree countingPlatform countedAnswer [countConfig expected] where
  roundTrip config hconfig := by
    rw [List.mem_singleton.mp hconfig]
    exact hdigit
  parse document hdocument := by
    rw [fromSlice_countedAnswer] at hdocument
    obtain rfl := Option.some.inj hdocument
    have htext : asciiText (ascii countedText) = countedText := by decide
    simp [countingPlatform, countedAnswer, htext]
  jsonPath document hdocument config hconfig selector hselector := by
    rw [fromSlice_countedAnswer] at hdocument
    obtain rfl := Option.some.inj hdocument
    rw [List.mem_singleton.mp hconfig] at hselector
    obtain rfl := Option.some.inj hselector
    rfl
  regex _ := rfl

/-- A body with the number 1 is healthy to the agent where 2 is expected, and down to the checks
worker. -/
theorem numbers_taken_for_equal :
    LibrariesAgree countingPlatform countedAnswer [countConfig 2] ∧
      ¬ ∀ configs ⊆ [countConfig 2], ∀ assertions,
        parseAssertions (configs.map AssertionConfig.raw) = .ok assertions →
          Agreed countingPlatform countedAnswer configs assertions := by
  refine ⟨countingPlatform_agrees 2 (by rfl), fun h ↦ ?_⟩
  have hagreed := h [countConfig 2] (List.Subset.refl _)
    [⟨.jsonpath, .equals, some "$.n", view (naturalValue 2), .down⟩] (by rfl)
  have hequals := (hagreed.equals 0 _ _ rfl rfl rfl rfl).1
  have hpassed : agentFailure countingPlatform countedAnswer 0 (countConfig 2) = .ok none := by rfl
  obtain ⟨value, hvalue, hsame⟩ := hequals.mp hpassed
  have hone : value = naturalValue 1 := List.mem_singleton.mp hvalue
  rw [hone] at hsame
  injection hsame with hnumber
  exact absurd hnumber (by decide +kernel)

/-- Where 1 is expected, the two agree. -/
theorem agreed_iff_counted :
    Agreed countingPlatform countedAnswer [countConfig 1]
      [⟨.jsonpath, .equals, some "$.n", view (naturalValue 1), .down⟩] := by
  have halike : ∀ config ∈ [countConfig 1], ∀ assertion,
      parseAssertion config.raw = .ok assertion →
        Alike countingPlatform countedAnswer config assertion := by
    intro config hconfig assertion hassertion
    rw [List.mem_singleton.mp hconfig] at hassertion ⊢
    obtain rfl := Except.ok.inj hassertion
    refine ⟨countedDocument, [naturalValue 1], fromSlice_countedAnswer, rfl, fun _ ↦ ?_, ?_⟩
    · exact .inr (.inr ⟨naturalValue 1, List.mem_singleton_self _, rfl⟩)
    · intro hoperator
      cases hoperator
  apply (agreed_iff (countingPlatform_agrees 1 (by rfl))).mpr halike
  · exact List.Subset.refl _
  · rfl

end AlphaPing.System.AssertionLists
