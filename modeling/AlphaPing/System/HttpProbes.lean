import AlphaPing.Checks.Executor

/-!
# HTTP probes of the two executors

A service check over HTTP is executed by an agent or by the checks worker. Both are given the
same configuration, in which a latency limit can be absent. The agent receives zero for an absent
limit, returns the failure of an assertion before it looks at the latency, and takes a limit of
zero for an absent one; the checks worker reports the worst of both.
-/

namespace AlphaPing.System.HttpProbes

open Protocol Agent.Probes Checks
open Library.Hops (SafeChain)
open Executors (AssertionFailure HttpResponse HttpRun ProbeOutcome)
open Executor (HttpCheckRequest ResolvedCheckSecrets applyHttpSecrets)

/-! ## Configurations -/

/-- A latency limit that is `null` or absent, or `boundedInteger` with its bounds. -/
def parseLimit : Option ℤ → Except String (Option ℕ)
  | none => .ok none
  | some value => if value < 0 ∨ 30000 < value then .error "invalid_integer" else .ok value.toNat

/-- The latency limits as `parseHttpRequest` reads them. -/
def parseLimits (degraded down : Option ℤ) : Except String (Option ℕ × Option ℕ) := do
  let degradedAfterMs ← parseLimit degraded
  let downAfterMs ← parseLimit down
  if degradedAfterMs.any fun degraded ↦ downAfterMs.any fun down ↦ down < degraded then
    .error "invalid_latency_thresholds"
  else .ok (degradedAfterMs, downAfterMs)

/-- The latency limits of an accepted configuration. -/
structure LatencyLimits where
  degradedAfterMs : Option ℕ
  downAfterMs : Option ℕ
  accepted : ∃ degraded down, parseLimits degraded down = .ok (degradedAfterMs, downAfterMs)

theorem parseLimit_le {value : Option ℤ} {limit : Option ℕ} (h : parseLimit value = .ok limit) :
    limit.getD 0 ≤ 30000 := by
  cases value with
  | none =>
    cases h
    exact Nat.zero_le _
  | some value =>
    by_cases hrange : value < 0 ∨ 30000 < value
    · rw [parseLimit, if_pos hrange] at h
      cases h
    · rw [parseLimit, if_neg hrange] at h
      cases h
      show value.toNat ≤ 30000
      omega

theorem LatencyLimits.le (limits : LatencyLimits) :
    limits.degradedAfterMs.getD 0 ≤ 30000 ∧ limits.downAfterMs.getD 0 ≤ 30000 := by
  obtain ⟨degraded, down, haccepted⟩ := limits.accepted
  unfold parseLimits at haccepted
  cases hdegraded : parseLimit degraded with
  | error message =>
    rw [hdegraded] at haccepted
    cases haccepted
  | ok degradedAfterMs =>
    cases hdown : parseLimit down with
    | error message =>
      rw [hdegraded, hdown] at haccepted
      cases haccepted
    | ok downAfterMs =>
      rw [hdegraded, hdown] at haccepted
      simp only [bind, Except.bind] at haccepted
      split at haccepted
      · cases haccepted
      · obtain ⟨rfl, rfl⟩ := Prod.mk.inj (Except.ok.inj haccepted)
        exact ⟨parseLimit_le hdegraded, parseLimit_le hdown⟩

/-- What both executors read of the configuration of a check to classify an answer. -/
structure Configuration where
  expectedStatus : List ℕ
  limits : LatencyLimits
  assertions : List ProbeAssertion

/-- The fields that `compile_http` gives the agent. -/
def Configuration.agent (config : Configuration) (request : HttpProbeRequest) : HttpProbeRequest :=
  { request with
    expectedStatus := config.expectedStatus
    degradedAfterMs := UInt32.ofNat (config.limits.degradedAfterMs.getD 0)
    downAfterMs := UInt32.ofNat (config.limits.downAfterMs.getD 0)
    assertions := config.assertions }

/-- The source of an assertion as the checks worker knows it. -/
def source (assertion : ProbeAssertion) : Executor.AssertionSource :=
  if assertion.source = "body" then .body
  else if assertion.source = "jsonpath" then .jsonpath
  else .header

/-- The fields that `parseHttpRequest` gives the checks worker. -/
def Configuration.checks (config : Configuration) (request : HttpCheckRequest) :
    HttpCheckRequest :=
  { request with
    expectedStatus := config.expectedStatus.map Int.ofNat
    degradedAfterMs := config.limits.degradedAfterMs
    downAfterMs := config.limits.downAfterMs
    assertions := config.assertions.map source }

/-! ## Outcomes -/

def executedState : ProbeState → ExecutedState
  | .down => .down
  | .degraded => .degraded
  | .healthy | .unspecified => .healthy

def rank : ExecutedState → ℕ
  | .healthy => 0
  | .degraded => 1
  | .down => 2

/-- The more severe of two states. -/
def worst (first second : ExecutedState) : ExecutedState :=
  if rank first < rank second then second else first

/-- The state that the assertions come to; if they cannot be evaluated, the probe is down. -/
def assertionState : Except Unit (Option AssertionFailure) → ExecutedState
  | .error () => .down
  | .ok none => .healthy
  | .ok (some failure) => executedState failure.state

/-- A limit is present, and the latency is not below it. -/
def reached (limit : Option ℕ) (latencyMs : ℕ) : Bool := limit.any fun limit ↦ limit ≤ latencyMs

def latencyState (limits : LatencyLimits) (latencyMs : ℕ) : ExecutedState :=
  if reached limits.downAfterMs latencyMs then .down
  else if reached limits.degradedAfterMs latencyMs then .degraded
  else .healthy

/-- What the assertions of an answer come to in the agent. -/
def assertions (config : Configuration) (response : HttpResponse) :
    Except Unit (Option AssertionFailure) :=
  Executors.evaluate response.matched config.assertions

def needsBody (config : Configuration) : Bool :=
  config.assertions.any fun assertion ↦
    assertion.source == "body" || assertion.source == "jsonpath"

/-- The answer has an expected status, and its body could be read if an assertion needs it. -/
def readable (config : Configuration) (response : HttpResponse) : Bool :=
  response.status.toNat ∈ config.expectedStatus &&
    (!needsBody config || response.body.toBool)

/-- The worst of the assertions and of the latency; an answer that does not get so far is down. -/
def worstState (config : Configuration) (response : HttpResponse) : ExecutedState :=
  if readable config response then
    worst (assertionState (assertions config response))
      (latencyState config.limits response.bodyLatencyMs.toNat)
  else .down

/-- The same answer as the checks worker gets it. The texts of its failures are its own. -/
def checksResponse (config : Configuration) (response : HttpResponse)
    (thrown : Executor.Thrown) (failureCode failureSummary : Option String) : Executor.Response where
  status := response.status.toNat
  hasLocation := response.hasLocation
  next := none
  headerLatencyMs := response.headerLatencyMs.toNat
  body := response.body.mapError fun
    | .responseTooLarge => .responseTooLarge
    | .network => .other
  bodyLatencyMs := response.bodyLatencyMs.toNat
  evaluation :=
    match assertions config response with
    | .error () => .error thrown
    | result => .ok ⟨assertionState result, failureCode, failureSummary⟩

def agentState (config : Configuration) (request : HttpProbeRequest) (response : HttpResponse) :
    ExecutedState :=
  executedState (Executors.finishHttp (config.agent request) response).state

/-- The condition under which the agent reports the worst state: a failure that only degrades
does not come with a latency for which the service is down, and no limit of zero decides. -/
def AgentMeets (config : Configuration) (response : HttpResponse) : Prop :=
  readable config response = true →
    match assertionState (assertions config response) with
    | .down => True
    | .degraded => reached config.limits.downAfterMs response.bodyLatencyMs.toNat = false
    | .healthy =>
      config.limits.downAfterMs ≠ some 0 ∧
        (config.limits.degradedAfterMs = some 0 →
          reached config.limits.downAfterMs response.bodyLatencyMs.toNat = true)

variable {config : Configuration} {response : HttpResponse}

/-! ## The checks worker -/

theorem source_needsBody (assertion : ProbeAssertion) :
    (source assertion == Executor.AssertionSource.body ||
      source assertion == Executor.AssertionSource.jsonpath) =
      (assertion.source == "body" || assertion.source == "jsonpath") := by
  by_cases hbody : assertion.source = "body"
  · simp [source, hbody]
  · by_cases hjson : assertion.source = "jsonpath"
    · simp [source, hjson]
    · have hbody' : (assertion.source == "body") = false := beq_eq_false_iff_ne.mpr hbody
      have hjson' : (assertion.source == "jsonpath") = false := beq_eq_false_iff_ne.mpr hjson
      rw [source, if_neg hbody, if_neg hjson, hbody', hjson']
      rfl

theorem needsBody_checks (request : HttpCheckRequest) :
    Executor.needsBody (config.checks request) = needsBody config := by
  unfold Executor.needsBody needsBody
  rw [Configuration.checks, List.any_map]
  congr 1
  funext assertion
  exact source_needsBody assertion

theorem expected_checks (request : HttpCheckRequest) :
    (response.status.toNat : ℤ) ∈ (config.checks request).expectedStatus ↔
      response.status.toNat ∈ config.expectedStatus := by
  simp [Configuration.checks]

theorem classify_worst (request : HttpCheckRequest) (latencyMs : ℕ)
    (assertions : Executor.AssertionEvaluation) :
    (Executor.classify (config.checks request) latencyMs assertions).state =
      worst assertions.state (latencyState config.limits latencyMs) := by
  obtain ⟨state, failureCode, failureSummary⟩ := assertions
  cases hdown : Option.any (fun limit ↦ decide (limit ≤ latencyMs)) config.limits.downAfterMs <;>
    cases hdegraded : Option.any (fun limit ↦ decide (limit ≤ latencyMs))
      config.limits.degradedAfterMs <;>
    cases state <;>
    simp [Executor.classify, Configuration.checks, latencyState, reached, hdown, hdegraded, worst,
      rank]

theorem caught_state (thrown : Executor.Thrown) : (Executor.caught thrown).state = .down := by
  cases thrown <;> rfl

theorem worst_down (state : ExecutedState) : worst .down state = .down := by
  cases state <;> rfl

/-- The end of `Executor.finish`. -/
def evaluatedCheck (config : Configuration) (request : HttpCheckRequest) (response : HttpResponse) :
    Except Executor.Thrown Executor.AssertionEvaluation → ExecutedCheck
  | .error thrown => Executor.caught thrown
  | .ok assertions =>
    Executor.classify (config.checks request) response.bodyLatencyMs.toNat assertions

theorem finish_worst (request : HttpCheckRequest) (thrown : Executor.Thrown)
    (failureCode failureSummary : Option String) :
    (Executor.finish (config.checks request)
      (checksResponse config response thrown failureCode failureSummary)).state =
      worstState config response := by
  unfold Executor.finish worstState readable
  rw [needsBody_checks]
  by_cases hstatus : response.status.toNat ∈ config.expectedStatus
  · have hexpected : (checksResponse config response thrown failureCode failureSummary).status ∈
        (config.checks request).expectedStatus := (expected_checks request).mpr hstatus
    rw [if_neg (not_not.mpr hexpected), decide_eq_true hstatus, Bool.true_and]
    have hevaluated :
        (evaluatedCheck config request response
          (checksResponse config response thrown failureCode failureSummary).evaluation).state =
          worst (assertionState (assertions config response))
            (latencyState config.limits response.bodyLatencyMs.toNat) := by
      dsimp only [checksResponse]
      cases assertions config response with
      | error _ => exact (caught_state thrown).trans (worst_down _).symm
      | ok failure => exact classify_worst request _ _
    cases needsBody config with
    | false => exact hevaluated
    | true =>
      cases hbody : response.body with
      | ok _ =>
        simp only [checksResponse, hbody]
        exact hevaluated
      | error error =>
        simp only [checksResponse, hbody]
        exact caught_state _
  · have hexpected : (checksResponse config response thrown failureCode failureSummary).status ∉
        (config.checks request).expectedStatus := mt (expected_checks request).mp hstatus
    rw [if_pos hexpected, decide_eq_false hstatus]
    rfl

/-! ## The agent -/

variable {failure : AssertionFailure}

theorem state_of_evaluateOne {assertion : ProbeAssertion} {index : ℕ} {matched : Except Unit Bool}
    (h : Executors.evaluateOne assertion index matched = .ok (some failure)) :
    failure.state = .degraded ∨ failure.state = .down := by
  unfold Executors.evaluateOne at h
  split at h
  next =>
    split at h
    · cases h
    · cases h
    · split at h
      · obtain rfl := Option.some.inj (Except.ok.inj h)
        dsimp only
        split
        · exact .inl rfl
        · exact .inr rfl
      · cases h
  next => cases h

theorem state_of_evaluateFrom {matched : ℕ → Except Unit Bool} {assertions : List ProbeAssertion}
    {index : ℕ} {start : Option AssertionFailure}
    (hstart : ∀ current ∈ start, current.state = .degraded ∨ current.state = .down)
    (h : Executors.evaluateFrom matched assertions index start = .ok (some failure)) :
    failure.state = .degraded ∨ failure.state = .down := by
  induction assertions generalizing index start with
  | nil => exact hstart failure (Except.ok.inj h)
  | cons assertion rest ih =>
    unfold Executors.evaluateFrom at h
    cases hone : Executors.evaluateOne assertion index (matched index) with
    | error _ =>
      rw [hone] at h
      cases h
    | ok candidate =>
      rw [hone] at h
      cases candidate with
      | none => exact ih hstart h
      | some candidate =>
        apply ih _ h
        intro current hcurrent
        split at hcurrent
        · obtain rfl := Option.some.inj hcurrent
          exact state_of_evaluateOne hone
        · exact hstart current hcurrent

theorem state_of_assertions (h : assertions config response = .ok (some failure)) :
    failure.state = .degraded ∨ failure.state = .down :=
  state_of_evaluateFrom (fun _ hcurrent ↦ absurd hcurrent (Option.not_mem_none _)) h

variable (request : HttpProbeRequest)

/-- The end of `finishHttp`. -/
def evaluatedProbe (response : HttpResponse) :
    Except Unit (Option AssertionFailure) → ProbeOutcome
  | .error () => .failed "invalid_config"
  | .ok (some failure) =>
    { state := failure.state
      latencyMs := some response.bodyLatencyMs
      failureCode := failure.code
      failureSummary := failure.summary }
  | .ok none =>
    Executors.thresholdOutcome response.bodyLatencyMs request.degradedAfterMs request.downAfterMs

theorem agentState_readable (h : readable config response = true) :
    agentState config request response =
      match assertionState (assertions config response) with
      | .down => .down
      | .degraded => .degraded
      | .healthy =>
        executedState (Executors.thresholdOutcome response.bodyLatencyMs
          (config.agent request).degradedAfterMs (config.agent request).downAfterMs).state := by
  obtain ⟨hstatus, hbody⟩ := Bool.and_eq_true_iff.mp h
  have hexpected : response.status.toNat ∈ (config.agent request).expectedStatus :=
    of_decide_eq_true hstatus
  have hevaluated :
      executedState (evaluatedProbe (config.agent request) response
        (Executors.evaluate response.matched (config.agent request).assertions)).state =
        match assertionState (assertions config response) with
        | .down => .down
        | .degraded => .degraded
        | .healthy => executedState (Executors.thresholdOutcome response.bodyLatencyMs
            (config.agent request).degradedAfterMs (config.agent request).downAfterMs).state := by
    have hsame : Executors.evaluate response.matched (config.agent request).assertions =
        assertions config response := rfl
    rw [hsame]
    cases hassertions : assertions config response with
    | error _ => rfl
    | ok failure =>
      cases failure with
      | none => rfl
      | some failure =>
        dsimp only [assertionState, evaluatedProbe]
        obtain hstate | hstate := state_of_assertions hassertions <;> rw [hstate] <;> rfl
  unfold agentState Executors.finishHttp
  rw [if_neg (not_not.mpr hexpected)]
  rw [needsBody] at hbody
  cases hneeds : config.assertions.any fun assertion ↦
      assertion.source == "body" || assertion.source == "jsonpath" with
  | false =>
    simp only [show (config.agent request).assertions = config.assertions from rfl, hneeds]
    exact hevaluated
  | true =>
    rw [hneeds] at hbody
    simp only [show (config.agent request).assertions = config.assertions from rfl, hneeds]
    cases hread : response.body with
    | ok _ => exact hevaluated
    | error _ =>
      rw [hread] at hbody
      cases hbody

theorem agentState_unreadable (h : readable config response = false) :
    agentState config request response = .down := by
  unfold agentState Executors.finishHttp
  by_cases hstatus : response.status.toNat ∈ config.expectedStatus
  · have hexpected : response.status.toNat ∈ (config.agent request).expectedStatus := hstatus
    rw [readable, decide_eq_true hstatus, Bool.true_and, needsBody] at h
    rw [if_neg (not_not.mpr hexpected)]
    cases hneeds : config.assertions.any fun assertion ↦
        assertion.source == "body" || assertion.source == "jsonpath" with
    | false =>
      rw [hneeds] at h
      cases h
    | true =>
      rw [hneeds] at h
      simp only [show (config.agent request).assertions = config.assertions from rfl, hneeds]
      cases hread : response.body with
      | ok _ =>
        rw [hread] at h
        cases h
      | error _ => rfl
  · have hexpected : response.status.toNat ∉ (config.agent request).expectedStatus := hstatus
    rw [if_pos hexpected]
    rfl

theorem agent_limit (limit : Option ℕ) (hlimit : limit.getD 0 ≤ 30000) (latencyMs : UInt32) :
    0 < UInt32.ofNat (limit.getD 0) ∧ UInt32.ofNat (limit.getD 0) ≤ latencyMs ↔
      limit ≠ some 0 ∧ reached limit latencyMs.toNat = true := by
  have hsize : limit.getD 0 % 2 ^ 32 = limit.getD 0 := Nat.mod_eq_of_lt (by omega)
  rw [UInt32.lt_iff_toNat_lt, UInt32.le_iff_toNat_le, UInt32.toNat_ofNat', hsize]
  cases limit with
  | none => simp [reached]
  | some limit =>
    simp only [Option.getD_some, reached, Option.any_some, decide_eq_true_eq, ne_eq,
      Option.some.injEq]
    exact and_congr_left fun _ ↦ Nat.pos_iff_ne_zero

theorem thresholdOutcome_state (latencyMs : UInt32) :
    executedState (Executors.thresholdOutcome latencyMs
      (config.agent request).degradedAfterMs (config.agent request).downAfterMs).state =
      if config.limits.downAfterMs ≠ some 0 ∧
          reached config.limits.downAfterMs latencyMs.toNat = true then .down
      else if config.limits.degradedAfterMs ≠ some 0 ∧
          reached config.limits.degradedAfterMs latencyMs.toNat = true then .degraded
      else .healthy := by
  have hdown := agent_limit config.limits.downAfterMs config.limits.le.2 latencyMs
  have hdegraded := agent_limit config.limits.degradedAfterMs config.limits.le.1 latencyMs
  unfold Executors.thresholdOutcome
  dsimp only [Configuration.agent]
  simp only [hdown, hdegraded]
  split_ifs <;> rfl

/-- Where the limits alone decide, the agent agrees unless a limit of zero does. -/
theorem thresholdOutcome_eq_iff (latencyMs : UInt32) :
    executedState (Executors.thresholdOutcome latencyMs
      (config.agent request).degradedAfterMs (config.agent request).downAfterMs).state =
        latencyState config.limits latencyMs.toNat ↔
      config.limits.downAfterMs ≠ some 0 ∧
        (config.limits.degradedAfterMs = some 0 →
          reached config.limits.downAfterMs latencyMs.toNat = true) := by
  rw [thresholdOutcome_state]
  unfold latencyState
  have hdown : config.limits.downAfterMs = some 0 →
      reached config.limits.downAfterMs latencyMs.toNat = true := by
    intro hzero
    simp [hzero, reached]
  have hdegraded : config.limits.degradedAfterMs = some 0 →
      reached config.limits.degradedAfterMs latencyMs.toNat = true := by
    intro hzero
    simp [hzero, reached]
  by_cases hzero : config.limits.downAfterMs = some 0
  · -- The latency takes the service down, but the agent does not look at the limit.
    rw [if_neg (fun h ↦ h.1 hzero), if_pos (hdown hzero)]
    apply iff_of_false
    · split_ifs <;> simp
    · exact fun h ↦ h.1 hzero
  · cases hreached : reached config.limits.downAfterMs latencyMs.toNat with
    | true => simp [hzero]
    | false =>
      by_cases hfree : config.limits.degradedAfterMs = some 0
      · rw [hdegraded hfree]
        simp [hfree]
      · simp [hzero, hfree]

theorem agentState_eq_worst_iff :
    agentState config request response = worstState config response ↔
      AgentMeets config response := by
  unfold AgentMeets worstState
  cases hreadable : readable config response with
  | false => simp [agentState_unreadable request hreadable]
  | true =>
    rw [agentState_readable request hreadable, if_pos rfl]
    simp only [forall_const]
    cases assertionState (assertions config response) with
    | down => simp [worst_down]
    | degraded =>
      unfold latencyState
      cases hreached : reached config.limits.downAfterMs response.bodyLatencyMs.toNat with
      | true => simp [worst, rank]
      | false =>
        apply iff_of_true _ rfl
        dsimp only
        split_ifs <;> first | contradiction | rfl
    | healthy =>
      have hworst (state : ExecutedState) : worst .healthy state = state := by
        cases state <;> rfl
      rw [hworst]
      exact thresholdOutcome_eq_iff request response.bodyLatencyMs

/-! ## Classification -/

/-- The checks worker reports the worst of the assertions and of the latency. The agent reports
the same state exactly under its condition. -/
theorem classification (config : Configuration) (response : HttpResponse)
    (agentRequest : HttpProbeRequest) (checksRequest : HttpCheckRequest)
    (thrown : Executor.Thrown) (failureCode failureSummary : Option String) :
    (Executor.finish (config.checks checksRequest)
        (checksResponse config response thrown failureCode failureSummary)).state =
        worstState config response ∧
      (agentState config agentRequest response = worstState config response ↔
        AgentMeets config response) ∧
      (agentState config agentRequest response =
          (Executor.finish (config.checks checksRequest)
            (checksResponse config response thrown failureCode failureSummary)).state ↔
        AgentMeets config response) := by
  have hchecks := @finish_worst config response checksRequest thrown failureCode failureSummary
  have hagent := @agentState_eq_worst_iff config response agentRequest
  apply And.intro hchecks
  apply And.intro hagent
  rw [hchecks]
  exact hagent

/-- A limit of five seconds, and an assertion on a header that only degrades. -/
def slowConfiguration : Configuration where
  expectedStatus := [200]
  limits := ⟨none, some 5000, none, some 5000, rfl⟩
  assertions := [⟨"header", "exists", "x-ready", [], "degraded"⟩]

/-- An answer after six seconds without the header. -/
def slowAnswer : HttpResponse where
  status := 200
  hasLocation := false
  next := none
  headerLatencyMs := 6000
  body := .ok ()
  bodyLatencyMs := 6000
  matched _ := .ok false

def anyRequest : HttpProbeRequest :=
  ⟨"https://example.test/", "GET", [], [], [], 0, 0, 3, 65536, [], none⟩

def anyCheck : HttpCheckRequest :=
  ⟨"https://example.test/", "GET", [], [], none, [], none, none, 3, 65536, []⟩

/-- The agent reports a degraded service, the checks worker one that is down. -/
theorem slow_answer_degraded :
    agentState slowConfiguration anyRequest slowAnswer = .degraded ∧
      (Executor.finish (slowConfiguration.checks anyCheck)
        (checksResponse slowConfiguration slowAnswer .other none none)).state = .down ∧
      worstState slowConfiguration slowAnswer = .down ∧
      agentState slowConfiguration anyRequest slowAnswer ≠
        worstState slowConfiguration slowAnswer := by
  decide

/-! ## Redirects -/

/-- Both executors send at most one request more than the configured redirects, keep the body and
the sensitive headers at the configured origin, and never go from `https` to `http`. -/
theorem redirects_safe :
    (∀ (request : HttpProbeRequest) (run : HttpRun),
      let sent := (Redirects.execute request run).1
      sent.length ≤ request.maxRedirects + 1 ∧
        ∀ target, run.target = some target →
          SafeChain target.origin (Redirects.visits request sent)) ∧
    (∀ (config : HttpCheckRequest) (secrets : ResolvedCheckSecrets) (run : Executor.Run),
      let config := applyHttpSecrets config secrets
      let sent := (Executor.executeHttp config run).1
      sent.length ≤ config.maxRedirects + 1 ∧
        ∀ target, run.target = some target →
          SafeChain target.origin (Executor.visits config sent)) :=
  ⟨fun request run ↦ Redirects.execute_safe request run,
    fun config secrets run ↦ Executor.executeHttp_safe (applyHttpSecrets config secrets) run⟩

end AlphaPing.System.HttpProbes
