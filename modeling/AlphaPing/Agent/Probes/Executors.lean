import AlphaPing.Library.Texts
import AlphaPing.Protocol.Messages

/-!
# What a probe execution can report

The three executors turn what happens on the network into a `ProbeOutcome`. The network itself,
the HTTP, TLS and ICMP libraries and the evaluation of a single assertion are inputs here: each
executor receives what these answered and takes the same decisions as the code, in the same
order.

Every outcome has a state, and its code and summary are short ASCII texts that the agent makes
up itself. No text from a server reaches an outcome.
-/

namespace AlphaPing.Agent.Probes.Executors

open Protocol Library.Texts

structure ProbeOutcome where
  state : ProbeState
  latencyMs : Option UInt32
  failureCode : String
  failureSummary : String

/-- `ProbeOutcome::healthy`. -/
def ProbeOutcome.healthy (latencyMs : UInt32) : ProbeOutcome where
  state := .healthy
  latencyMs := some latencyMs
  failureCode := ""
  failureSummary := ""

/-- `ProbeOutcome::failed`. -/
def ProbeOutcome.failed (code : String) : ProbeOutcome where
  state := .down
  latencyMs := none
  failureCode := code
  failureSummary := ""

def thresholdOutcome (latencyMs degradedAfterMs downAfterMs : UInt32) : ProbeOutcome :=
  if 0 < downAfterMs ∧ downAfterMs ≤ latencyMs then
    { state := .down
      latencyMs := some latencyMs
      failureCode := "latency_threshold"
      failureSummary := "latency>=" ++ downAfterMs.toNat.repr ++ "ms" }
  else if 0 < degradedAfterMs ∧ degradedAfterMs ≤ latencyMs then
    { state := .degraded
      latencyMs := some latencyMs
      failureCode := "latency_threshold"
      failureSummary := "latency>=" ++ degradedAfterMs.toNat.repr ++ "ms" }
  else .healthy latencyMs

/-! ## Assertions -/

structure AssertionFailure where
  state : ProbeState
  code : String
  summary : String

/-- One assertion of `evaluate`; `matched` is the answer of `assertion_matches`, or an error if
the expected value, the document or the selector could not be read. -/
def evaluateOne (assertion : ProbeAssertion) (index : ℕ) (matched : Except Unit Bool) :
    Except Unit (Option AssertionFailure) :=
  if assertion.source ∈ ["header", "body", "jsonpath"] then
    match matched with
    | .error () => .error ()
    | .ok true => .ok none
    | .ok false =>
      if assertion.severity = "degraded" ∨ assertion.severity = "down" then
        .ok (some
          { state := if assertion.severity = "degraded" then .degraded else .down
            code := "assertion_" ++ assertion.source ++ "_failed"
            summary := "assertion:" ++ index.repr })
      else .error ()
  else .error ()

/-- `assertions::evaluate`: the first failure of the highest severity. -/
def evaluateFrom (matched : ℕ → Except Unit Bool) :
    List ProbeAssertion → ℕ → Option AssertionFailure → Except Unit (Option AssertionFailure)
  | [], _, failure => .ok failure
  | assertion :: rest, index, failure =>
    match evaluateOne assertion index (matched index) with
    | .error () => .error ()
    | .ok none => evaluateFrom matched rest (index + 1) failure
    | .ok (some candidate) =>
      evaluateFrom matched rest (index + 1)
        (if failure.all fun current ↦ current.state.toNat < candidate.state.toNat then
          some candidate
        else failure)

def evaluate (matched : ℕ → Except Unit Bool) (assertions : List ProbeAssertion) :
    Except Unit (Option AssertionFailure) :=
  evaluateFrom matched assertions 0 none

/-! ## HTTP -/

/-- What the redirect rules read of a URL. -/
structure Url where
  scheme : String
  hasCredentials : Bool
  origin : String

/-- How `read_bounded` fails. -/
inductive ReadError where
  | responseTooLarge
  | network

def ReadError.code : ReadError → String
  | responseTooLarge => "response_too_large"
  | network => "network"

/-- An answered request: `next` is the resolved `location`, `body` the bounded read of the body
and `matched` what the assertions found. -/
structure HttpResponse where
  status : UInt16
  hasLocation : Bool
  next : Option Url
  headerLatencyMs : UInt32
  body : Except ReadError Unit
  bodyLatencyMs : UInt32
  matched : ℕ → Except Unit Bool

/-- What `send` returned for one request. -/
inductive HttpReply where
  | timedOut
  | failed
  | answered (response : HttpResponse)

/-- What happens around one HTTP execution: the parsed parts of the request, and for each
redirect whether time is left and what came back. -/
structure HttpRun where
  clientReady : Bool
  methodValid : Bool
  target : Option Url
  headersValid : Bool
  timeLeft : ℕ → Bool
  reply : ℕ → HttpReply

def isRedirect (status : UInt16) : Bool :=
  status ∈ [301, 302, 303, 307, 308]

/-- The redirect drops the body and turns the method into `GET`. -/
def becomesGet (status : UInt16) (method : String) : Bool :=
  (status ∈ [301, 302] && method == "POST") || (status == 303 && method != "HEAD")

/-- The part of `http::execute` after a response that is no redirect. -/
def finishHttp (request : HttpProbeRequest) (response : HttpResponse) : ProbeOutcome :=
  if response.status.toNat ∉ request.expectedStatus then
    { state := .down
      latencyMs := some response.headerLatencyMs
      failureCode := "unexpected_status"
      failureSummary := "status:" ++ response.status.toNat.repr }
  else
    let needsBody := request.assertions.any fun assertion ↦
      assertion.source == "body" || assertion.source == "jsonpath"
    match needsBody, response.body with
    | true, .error error => .failed error.code
    | _, _ =>
      match evaluate response.matched request.assertions with
      | .error () => .failed "invalid_config"
      | .ok (some failure) =>
        { state := failure.state
          latencyMs := some response.bodyLatencyMs
          failureCode := failure.code
          failureSummary := failure.summary }
      | .ok none =>
        thresholdOutcome response.bodyLatencyMs request.degradedAfterMs request.downAfterMs

/-- The redirect loop; the first argument counts the iterations left of `0..=max_redirects`. -/
def followRedirects (request : HttpProbeRequest) (run : HttpRun) :
    ℕ → ℕ → Url → String → Bool → ProbeOutcome
  | 0, _, _, _, _ => .failed "redirect_limit"
  | left + 1, redirect, target, method, sendBody =>
    if ¬ run.timeLeft redirect then .failed "timeout"
    else
      match run.reply redirect with
      | .timedOut => .failed "timeout"
      | .failed => .failed "network"
      | .answered response =>
        if ¬ isRedirect response.status then finishHttp request response
        else if ¬ response.hasLocation then .failed "redirect_location"
        else if redirect = request.maxRedirects then .failed "redirect_limit"
        else
          match response.next with
          | none => .failed "redirect_target"
          | some next =>
            if next.scheme ∉ ["http", "https"] ∨ next.hasCredentials then
              .failed "redirect_target"
            else if target.scheme = "https" ∧ next.scheme ≠ "https" then
              .failed "redirect_downgrade"
            else
              let get := becomesGet response.status method
              let sendBody := sendBody && !get
              if sendBody ∧ target.origin ≠ next.origin then .failed "redirect_body_blocked"
              else
                followRedirects request run left (redirect + 1) next
                  (if get then "GET" else method) sendBody

/-- `http::execute`. -/
def executeHttp (request : HttpProbeRequest) (run : HttpRun) : ProbeOutcome :=
  if ¬ run.clientReady ∨ ¬ run.methodValid then .failed "invalid_config"
  else
    match run.target with
    | none => .failed "invalid_config"
    | some target =>
      if ¬ run.headersValid then .failed "invalid_config"
      else
        followRedirects request run (request.maxRedirects + 1) 0 target request.method
          (request.method != "GET" && request.method != "HEAD" && !request.body.isEmpty)

/-! ## TCP and ICMP -/

/-- The result of an operation under a timeout. -/
inductive Timed (Value : Type) where
  | timedOut
  | failed
  | done (value : Value)

/-- What happens around one TCP execution. -/
structure TcpRun where
  connected : Timed Unit
  tlsReady : Bool
  serverNameValid : Bool
  tlsConnected : Timed Unit
  exchangeTimedOut : Bool
  written : Bool
  received : Option Bytes
  elapsedMs : UInt32

/-- `tcp::exchange`. -/
def exchange (request : TcpProbeRequest) (run : TcpRun) : Except String Unit :=
  if ¬ request.payload.isEmpty ∧ ¬ run.written then .error "network"
  else if request.responsePrefix.isEmpty then .ok ()
  else
    match run.received with
    | none => .error "network"
    | some received =>
      if received ≠ request.responsePrefix then .error "prefix_mismatch" else .ok ()

/-- The end of `tcp::execute`, with the latency of the whole attempt. -/
def finishTcp (run : TcpRun) : Except String Unit → ProbeOutcome
  | .ok () => .healthy run.elapsedMs
  | .error code => { ProbeOutcome.failed code with latencyMs := some run.elapsedMs }

/-- `tcp::execute`. Only the plain exchange runs under the attempt's timeout; after a TLS
handshake the exchange waits for as long as the peer lets it. -/
def executeTcp (request : TcpProbeRequest) (run : TcpRun) : ProbeOutcome :=
  if request.hostname.isEmpty then .failed "invalid_config"
  else
    match run.connected with
    | .failed => .failed "network"
    | .timedOut => .failed "timeout"
    | .done () =>
      if request.useTls then
        if ¬ run.tlsReady then .failed "tls"
        else if ¬ run.serverNameValid then .failed "invalid_config"
        else
          match run.tlsConnected with
          | .done () => finishTcp run (exchange request run)
          | .failed => finishTcp run (.error "tls")
          | .timedOut => finishTcp run (.error "timeout")
      else if run.exchangeTimedOut then finishTcp run (.error "timeout")
      else finishTcp run (exchange request run)

/-- What happens around one ICMP execution. -/
structure IcmpRun where
  resolved : Timed Bool
  pinged : Timed UInt32
  elapsedMs : UInt32

/-- `icmp::execute`. -/
def executeIcmp (request : IcmpProbeRequest) (run : IcmpRun) : ProbeOutcome :=
  match run.resolved with
  | .failed => .failed "dns"
  | .timedOut => .failed "timeout"
  | .done false => .failed "dns"
  | .done true =>
    match run.pinged with
    | .done latencyMs => thresholdOutcome latencyMs request.degradedAfterMs request.downAfterMs
    | .failed => .failed "icmp"
    | .timedOut => { ProbeOutcome.failed "timeout" with latencyMs := some run.elapsedMs }

/-! ## Every outcome fits a report -/

/-- The bounds that the ingest worker puts on the outcome's part of a probe result. -/
structure Sendable (outcome : ProbeOutcome) : Prop where
  state : outcome.state ≠ .unspecified
  code : outcome.failureCode.utf8ByteSize ≤ 64
  summary : outcome.failureSummary.utf8ByteSize ≤ 160

theorem sendable_healthy (latencyMs : UInt32) : Sendable (.healthy latencyMs) where
  state := by simp [ProbeOutcome.healthy]
  code := by simp [ProbeOutcome.healthy]
  summary := by simp [ProbeOutcome.healthy]

theorem sendable_failed {code : String} (h : code.utf8ByteSize ≤ 64) :
    Sendable (.failed code) where
  state := by simp [ProbeOutcome.failed]
  code := h
  summary := by simp [ProbeOutcome.failed]

theorem sendable_thresholdOutcome (latencyMs degradedAfterMs downAfterMs : UInt32) :
    Sendable (thresholdOutcome latencyMs degradedAfterMs downAfterMs) := by
  have hcode : "latency_threshold".utf8ByteSize ≤ 64 := by decide
  have hsummary (value : UInt32) :
      ("latency>=" ++ value.toNat.repr ++ "ms").utf8ByteSize ≤ 160 := by
    have hdigits := utf8ByteSize_repr_uint32 value
    have hfront : "latency>=".utf8ByteSize = 9 := by decide
    have hsuffix : "ms".utf8ByteSize = 2 := by decide
    rw [String.utf8ByteSize_append, String.utf8ByteSize_append, hfront, hsuffix]
    omega
  unfold thresholdOutcome
  split_ifs
  · exact ⟨by simp, hcode, hsummary _⟩
  · exact ⟨by simp, hcode, hsummary _⟩
  · exact sendable_healthy latencyMs

/-! ### Assertions -/

/-- The bounds of a failed assertion among at most twenty. -/
structure FailureSendable (failure : AssertionFailure) : Prop where
  state : failure.state ≠ .unspecified
  code : failure.code.utf8ByteSize ≤ 64
  summary : failure.summary.utf8ByteSize ≤ 160

theorem failureSendable_evaluateOne {assertion : ProbeAssertion} {index : ℕ}
    {matched : Except Unit Bool} {failure : AssertionFailure} (hindex : index < 100)
    (h : evaluateOne assertion index matched = .ok (some failure)) : FailureSendable failure := by
  unfold evaluateOne at h
  by_cases hsource : assertion.source ∈ ["header", "body", "jsonpath"]
  · rw [if_pos hsource] at h
    cases matched with
    | error _ => cases h
    | ok value =>
      cases value with
      | true => cases h
      | false =>
        by_cases hseverity : assertion.severity = "degraded" ∨ assertion.severity = "down"
        · dsimp only at h
          rw [if_pos hseverity] at h
          obtain rfl := Option.some.inj (Except.ok.inj h)
          refine ⟨?_, ?_, ?_⟩
          · dsimp only
            split_ifs <;> simp
          · simp only [List.mem_cons, List.not_mem_nil, or_false] at hsource
            dsimp only
            rcases hsource with hsource | hsource | hsource <;> rw [hsource] <;> decide
          · have hdigits : index.repr.utf8ByteSize ≤ 2 :=
              utf8ByteSize_repr_le (by decide) hindex
            have hfront : "assertion:".utf8ByteSize = 10 := by decide
            dsimp only
            rw [String.utf8ByteSize_append, hfront]
            omega
        · dsimp only at h
          rw [if_neg hseverity] at h
          cases h
  · rw [if_neg hsource] at h
    cases h

theorem failureSendable_evaluateFrom {matched : ℕ → Except Unit Bool}
    {assertions : List ProbeAssertion} {index : ℕ} {start : Option AssertionFailure}
    {failure : AssertionFailure} (hindex : index + assertions.length ≤ 100)
    (hstart : ∀ current, start = some current → FailureSendable current)
    (h : evaluateFrom matched assertions index start = .ok (some failure)) :
    FailureSendable failure := by
  induction assertions generalizing index start with
  | nil => exact hstart failure (Except.ok.inj h)
  | cons assertion rest ih =>
    rw [List.length_cons] at hindex
    unfold evaluateFrom at h
    cases hone : evaluateOne assertion index (matched index) with
    | error _ =>
      rw [hone] at h
      cases h
    | ok candidate =>
      rw [hone] at h
      cases candidate with
      | none => exact ih (by omega) hstart h
      | some candidate =>
        refine ih (by omega) (fun current hcurrent ↦ ?_) h
        split_ifs at hcurrent
        · obtain rfl := Option.some.inj hcurrent
          exact failureSendable_evaluateOne (by omega) hone
        · exact hstart current hcurrent

/-! ### Executors -/

variable {request : HttpProbeRequest}

theorem sendable_finishHttp (response : HttpResponse) (hassertions : request.assertions.length ≤ 20)
    : Sendable (finishHttp request response) := by
  unfold finishHttp
  split
  · have hcode : "unexpected_status".utf8ByteSize ≤ 64 := by decide
    refine ⟨by simp, hcode, ?_⟩
    have hdigits := utf8ByteSize_repr_uint16 response.status
    have hfront : "status:".utf8ByteSize = 7 := by decide
    dsimp only
    rw [String.utf8ByteSize_append, hfront]
    omega
  · dsimp only
    split
    · rename_i error _ _
      exact sendable_failed (by cases error <;> decide)
    · split
      · exact sendable_failed (by decide)
      · rename_i failure hfailure
        have hsendable := failureSendable_evaluateFrom (by omega) (by simp) hfailure
        exact ⟨hsendable.state, hsendable.code, hsendable.summary⟩
      · exact sendable_thresholdOutcome _ _ _

theorem sendable_followRedirects (run : HttpRun) (hassertions : request.assertions.length ≤ 20)
    (left redirect : ℕ) (target : Url) (method : String) (sendBody : Bool) :
    Sendable (followRedirects request run left redirect target method sendBody) := by
  induction left generalizing redirect target method sendBody with
  | zero => exact sendable_failed (by decide)
  | succ left ih =>
    unfold followRedirects
    split
    · exact sendable_failed (by decide)
    · split
      · exact sendable_failed (by decide)
      · exact sendable_failed (by decide)
      · rename_i response _
        split
        · exact sendable_finishHttp response hassertions
        · split
          · exact sendable_failed (by decide)
          · split
            · exact sendable_failed (by decide)
            · split
              · exact sendable_failed (by decide)
              · split
                · exact sendable_failed (by decide)
                · split
                  · exact sendable_failed (by decide)
                  · dsimp only
                    split
                    · exact sendable_failed (by decide)
                    · exact ih _ _ _ _

theorem sendable_executeHttp (run : HttpRun) (hassertions : request.assertions.length ≤ 20) :
    Sendable (executeHttp request run) := by
  unfold executeHttp
  split
  · exact sendable_failed (by decide)
  · split
    · exact sendable_failed (by decide)
    · split
      · exact sendable_failed (by decide)
      · exact sendable_followRedirects run hassertions _ _ _ _ _

theorem exchange_code {request : TcpProbeRequest} {run : TcpRun} {code : String}
    (h : exchange request run = .error code) : code.utf8ByteSize ≤ 64 := by
  unfold exchange at h
  split at h
  · obtain rfl := Except.error.inj h
    decide
  · split at h
    · cases h
    · split at h
      · obtain rfl := Except.error.inj h
        decide
      · split at h
        · obtain rfl := Except.error.inj h
          decide
        · cases h

theorem sendable_finishTcp {run : TcpRun} {result : Except String Unit}
    (h : ∀ code, result = .error code → code.utf8ByteSize ≤ 64) :
    Sendable (finishTcp run result) := by
  cases result with
  | ok _ => exact sendable_healthy run.elapsedMs
  | error code => exact ⟨by simp [finishTcp, ProbeOutcome.failed], h code rfl, by
      simp [finishTcp, ProbeOutcome.failed]⟩

theorem sendable_executeTcp (request : TcpProbeRequest) (run : TcpRun) :
    Sendable (executeTcp request run) := by
  have hexchange : Sendable (finishTcp run (exchange request run)) :=
    sendable_finishTcp fun _ ↦ exchange_code
  have hcode (code : String) (h : code.utf8ByteSize ≤ 64) :
      Sendable (finishTcp run (.error code)) :=
    sendable_finishTcp fun other hother ↦ Except.error.inj hother ▸ h
  unfold executeTcp
  split
  · exact sendable_failed (by decide)
  · split
    · exact sendable_failed (by decide)
    · exact sendable_failed (by decide)
    · split
      · split
        · exact sendable_failed (by decide)
        · split
          · exact sendable_failed (by decide)
          · split
            · exact hexchange
            · exact hcode _ (by decide)
            · exact hcode _ (by decide)
      · split
        · exact hcode _ (by decide)
        · exact hexchange

theorem sendable_executeIcmp (request : IcmpProbeRequest) (run : IcmpRun) :
    Sendable (executeIcmp request run) := by
  unfold executeIcmp
  split
  · exact sendable_failed (by decide)
  · exact sendable_failed (by decide)
  · exact sendable_failed (by decide)
  · split
    · exact sendable_thresholdOutcome _ _ _
    · exact sendable_failed (by decide)
    · have hfailed : Sendable (.failed "timeout") := sendable_failed (by decide)
      exact ⟨hfailed.state, hfailed.code, hfailed.summary⟩

end AlphaPing.Agent.Probes.Executors
