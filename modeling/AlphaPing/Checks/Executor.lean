import AlphaPing.Agent.Probes.Redirects
import AlphaPing.Checks.Confirmation

/-!
# The HTTP executor of the checks worker

`executeHttp` is the counterpart in TypeScript of the HTTP probe of the agent. It follows
redirects itself, reads the body under a bound, and turns the answer, its latency and the result
of the assertions into an `ExecutedCheck`. What `fetch` answers, the parsing of URLs and the
verdict on a host name are inputs.
-/

namespace AlphaPing.Checks.Executor

open Library.Hops Agent.Probes
open Redirects (lowerCase redirectSensitiveHeaders bodyHeaders)

abbrev Headers := List (String × String)

/-- `Headers.append`, which a record of headers is turned into a `Headers` with. -/
def append (headers : Headers) (name value : String) : Headers :=
  let name := lowerCase name
  if headers.any fun header ↦ header.1 == name then
    headers.map fun header ↦ if header.1 = name then (name, header.2 ++ ", " ++ value) else header
  else headers ++ [(name, value)]

/-- `new Headers(record)`, once every name and value is accepted. -/
def newHeaders (record : List (String × String)) : Headers :=
  record.foldl (fun headers entry ↦ append headers entry.1 entry.2) []

/-- An entry of an object spread: a key keeps its place and gets the later value. -/
def assign (record : List (String × String)) (entry : String × String) : List (String × String) :=
  if record.any fun known ↦ known.1 == entry.1 then
    record.map fun known ↦ if known.1 = entry.1 then entry else known
  else record ++ [entry]

/-! ## Requests -/

/-- What the assertions of a request ask of the body. -/
inductive AssertionSource where
  | header
  | jsonpath
  | body
  deriving DecidableEq

structure HttpCheckRequest where
  url : String
  method : String
  headers : List (String × String)
  sensitiveHeaders : List String
  body : Option String
  expectedStatus : List ℤ
  degradedAfterMs : Option ℕ
  downAfterMs : Option ℕ
  maxRedirects : ℕ
  maxResponseBytes : ℕ
  /-- The sources of the assertions. -/
  assertions : List AssertionSource

structure ResolvedCheckSecrets where
  headers : List (String × String)
  body : Option String

def applyHttpSecrets (config : HttpCheckRequest) (secrets : ResolvedCheckSecrets) :
    HttpCheckRequest :=
  { config with
    headers := secrets.headers.foldl assign config.headers
    sensitiveHeaders := secrets.headers.map fun header ↦ lowerCase header.1
    body := secrets.body.or config.body }

/-! ## Answers -/

/-- What the executor reads of a `URL`. -/
structure Url where
  protocol : String
  hasCredentials : Bool
  hostname : String
  origin : String

structure AssertionEvaluation where
  state : ExecutedState
  failureCode : Option String
  failureSummary : Option String

/-- What a `catch` sees of an exception. -/
inductive Thrown where
  | responseTooLarge
  | timeout
  | other
  deriving DecidableEq

/-- An answer of `fetch`: `next` is the resolved `location`, `body` the bounded read of the body,
`evaluation` what the assertions came to. -/
structure Response where
  status : ℤ
  hasLocation : Bool
  next : Option Url
  headerLatencyMs : ℕ
  body : Except Thrown Unit
  bodyLatencyMs : ℕ
  evaluation : Except Thrown AssertionEvaluation

/-- What happens around one execution. -/
structure Run where
  target : Option Url
  headersValid : Bool
  /-- `assertPublicHostname` returns. -/
  publicHostname : String → Bool
  reply : ℕ → Except Thrown Response

def assertPublicUrl (run : Run) (url : Url) : Bool :=
  (url.protocol == "http:" || url.protocol == "https:") && !url.hasCredentials &&
    run.publicHostname url.hostname

def down (latencyMs : Option ℕ) (failureCode : String) (failureSummary : Option String) :
    ExecutedCheck :=
  ⟨.down, latencyMs, some failureCode, failureSummary⟩

/-- The `catch` of `executeHttp`. -/
def caught : Thrown → ExecutedCheck
  | .responseTooLarge => down none "response_too_large" none
  | .timeout => down none "timeout" none
  | .other => down none "network" none

def needsBody (config : HttpCheckRequest) : Bool :=
  config.assertions.any fun source ↦
    source == AssertionSource.body || source == AssertionSource.jsonpath

/-- The end of `executeHttp`, once the assertions are evaluated. -/
def classify (config : HttpCheckRequest) (latencyMs : ℕ) (assertions : AssertionEvaluation) :
    ExecutedCheck :=
  let reached (limit : Option ℕ) : Bool := limit.any fun limit ↦ limit ≤ latencyMs
  let threshold (limit : Option ℕ) : Option String :=
    limit.map fun limit ↦ "latency>=" ++ limit.repr ++ "ms"
  if reached config.downAfterMs then
    ⟨.down, some latencyMs, some "latency_threshold", threshold config.downAfterMs⟩
  else if assertions.state = .down then
    ⟨.down, some latencyMs, assertions.failureCode, assertions.failureSummary⟩
  else if reached config.degradedAfterMs then
    ⟨.degraded, some latencyMs, some "latency_threshold", threshold config.degradedAfterMs⟩
  else ⟨assertions.state, some latencyMs, assertions.failureCode, assertions.failureSummary⟩

/-- The part of `executeHttp` after an answer that is no redirect. -/
def finish (config : HttpCheckRequest) (response : Response) : ExecutedCheck :=
  if response.status ∉ config.expectedStatus then
    down (some response.headerLatencyMs) "unexpected_status"
      (some ("status:" ++ toString response.status))
  else
    match needsBody config, response.body with
    | true, .error thrown => caught thrown
    | _, _ =>
      match response.evaluation with
      | .error thrown => caught thrown
      | .ok assertions => classify config response.bodyLatencyMs assertions

/-! ## The loop -/

structure SentRequest where
  method : String
  target : Url
  headers : Headers
  body : Option String

/-- A header that does not leave its origin. -/
def isSensitive (sensitiveHeaders : List String) (name : String) : Bool :=
  let normalized := lowerCase name
  normalized ∈ redirectSensitiveHeaders || normalized ∈ sensitiveHeaders

def redirectHeaders (configured : Headers) (from_ to_ : Url) (sensitiveHeaders : List String) :
    Headers :=
  if from_.origin ≠ to_.origin then
    configured.filter fun header ↦ !isSensitive sensitiveHeaders header.1
  else configured

/-- The part of the loop that follows a redirect, from the resolved `location` on. The loop
carries the next request. -/
def redirectTo (config : HttpCheckRequest) (run : Run) (sent : SentRequest) (status : ℤ) :
    Option Url → Except ExecutedCheck SentRequest
  | none => .error (caught .other)
  | some next =>
    if ¬ assertPublicUrl run next then .error (caught .other)
    else if sent.target.protocol = "https:" ∧ next.protocol ≠ "https:" then
      .error (down none "redirect_downgrade" none)
    else
      let get := (status ∈ [301, 302] && sent.method == "POST") ||
        (status == 303 && sent.method != "HEAD")
      let headers :=
        if get then sent.headers.filter fun header ↦ header.1 ∉ bodyHeaders else sent.headers
      let body := if get then none else sent.body
      if body.any (fun body ↦ body != "") ∧ sent.target.origin ≠ next.origin then
        .error (down none "redirect_body_blocked" none)
      else
        .ok
          { method := if get then "GET" else sent.method
            target := next
            headers := redirectHeaders headers sent.target next config.sensitiveHeaders
            body := body }

def sendRequests (config : HttpCheckRequest) (run : Run) :
    ℕ → ℕ → SentRequest → List SentRequest × ExecutedCheck
  | 0, _, _ => ([], down none "internal" none)
  | left + 1, redirect, sent =>
    if ¬ assertPublicUrl run sent.target then ([], caught .other)
    else
      match run.reply redirect with
      | .error thrown => ([sent], caught thrown)
      | .ok response =>
        if response.status ∉ ([301, 302, 303, 307, 308] : List ℤ) then
          ([sent], finish config response)
        else if ¬ response.hasLocation ∨ redirect = config.maxRedirects then
          ([sent], down none "redirect_limit" none)
        else
          match redirectTo config run sent response.status response.next with
          | .error outcome => ([sent], outcome)
          | .ok next =>
            let later := sendRequests config run left (redirect + 1) next
            (sent :: later.1, later.2)

/-- `executeHttp` with the requests that it issues. What is thrown before the `try` is not
caught here, and no request is issued. -/
def executeHttp (config : HttpCheckRequest) (run : Run) : List SentRequest × Option ExecutedCheck :=
  match run.target with
  | none => ([], none)
  | some target =>
    if ¬ run.headersValid then ([], none)
    else
      let result := sendRequests config run (config.maxRedirects + 1) 0
        { method := config.method
          target := target
          headers := newHeaders config.headers
          body := if config.method = "GET" ∨ config.method = "HEAD" then none else config.body }
      (result.1, some result.2)

variable {config : HttpCheckRequest} {run : Run}

/-! ## Safe chains -/

/-- What an observer sees of a request. -/
def SentRequest.visit (sensitiveHeaders : List String) (sent : SentRequest) : Visit String where
  origin := sent.target.origin
  secure := sent.target.protocol == "https:"
  carriesBody := sent.body.any fun body ↦ body != ""
  carriesSecret := sent.headers.any fun header ↦ isSensitive sensitiveHeaders header.1

/-- What an observer sees of the requests of a list. -/
def visits (config : HttpCheckRequest) (sent : List SentRequest) : List (Visit String) :=
  sent.map (SentRequest.visit config.sensitiveHeaders)

theorem careful_redirectTo {sent next : SentRequest} {status : ℤ} {location : Option Url}
    (h : redirectTo config run sent status location = .ok next) :
    Careful (sent.visit config.sensitiveHeaders) (next.visit config.sensitiveHeaders) := by
  cases location with
  | none => cases h
  | some target =>
    unfold redirectTo at h
    dsimp only at h
    generalize (decide (status ∈ ([301, 302] : List ℤ)) && sent.method == "POST" ||
      status == 303 && sent.method != "HEAD") = get at h
    generalize hkept : (if get = true then
      sent.headers.filter fun header ↦ header.1 ∉ bodyHeaders else sent.headers) = kept at h
    generalize hleft : (if get = true then none else sent.body) = body at h
    have hheaders : ∀ header ∈ kept, header ∈ sent.headers := by
      intro header hheader
      rw [← hkept] at hheader
      split at hheader
      · exact List.mem_of_mem_filter hheader
      · exact hheader
    have hbody : ∀ text ∈ body, text ∈ sent.body := by
      intro text htext
      rw [← hleft] at htext
      split at htext
      · cases htext
      · exact htext
    split at h
    · cases h
    split at h
    · cases h
    next hdowngrade =>
    split at h
    · cases h
    next hblocked =>
    cases h
    constructor
    case body =>
      intro hcarries
      obtain ⟨text, htext, hfull⟩ := (Option.any_eq_true _ _).mp hcarries
      apply And.intro
      · exact (Option.any_eq_true _ _).mpr ⟨text, hbody text htext, hfull⟩
      · by_contra hother
        exact hblocked ⟨hcarries, Ne.symm hother⟩
    case secret =>
      intro hsecret
      obtain ⟨header, hheader, hsensitive⟩ := List.any_eq_true.mp hsecret
      unfold redirectHeaders at hheader
      dsimp only at hheader
      split at hheader
      · rw [List.mem_filter, hsensitive] at hheader
        cases hheader.2
      next hsame =>
        apply And.intro
        · exact List.any_eq_true.mpr ⟨header, hheaders header hheader, hsensitive⟩
        · exact (not_not.mp hsame).symm
    case secure =>
      intro hsecure
      by_contra hplain
      exact hdowngrade ⟨eq_of_beq hsecure, fun hscheme ↦ hplain (beq_iff_eq.mpr hscheme)⟩

theorem issued_sendRequests (left redirect : ℕ) (sent : SentRequest) :
    Issued (sent.visit config.sensitiveHeaders) left
      (visits config (sendRequests config run left redirect sent).1) := by
  induction left generalizing redirect sent with
  | zero => exact issued_nil _ 0
  | succ left ih =>
    have hsingle := issued_singleton (sent.visit config.sensitiveHeaders) left
    unfold sendRequests
    split
    · exact issued_nil _ _
    · cases run.reply redirect with
      | error thrown => exact hsingle
      | ok response =>
        dsimp only
        split
        · exact hsingle
        split
        · exact hsingle
        cases hnext : redirectTo config run sent response.status response.next with
        | error outcome => exact hsingle
        | ok next => exact (ih (redirect + 1) next).cons (careful_redirectTo hnext)

/-- The requests of a check are at most one more than its redirects, and what an observer sees of
them is a safe chain from the configured origin. -/
theorem executeHttp_safe (config : HttpCheckRequest) (run : Run) :
    (executeHttp config run).1.length ≤ config.maxRedirects + 1 ∧
      ∀ target, run.target = some target →
        SafeChain target.origin (visits config (executeHttp config run).1) := by
  unfold executeHttp
  cases run.target with
  | none => exact ⟨Nat.zero_le _, nofun⟩
  | some target =>
    dsimp only
    split
    · exact ⟨Nat.zero_le _, fun _ _ ↦ safeChain_nil⟩
    have hissued : Issued _ _ (visits config (sendRequests config run _ 0 _).1) :=
      issued_sendRequests (config.maxRedirects + 1) 0
        { method := config.method
          target := target
          headers := newHeaders config.headers
          body := if config.method = "GET" ∨ config.method = "HEAD" then none else config.body }
    apply And.intro
    · have hlength := hissued.length
      rwa [visits, List.length_map] at hlength
    · intro configured hconfigured
      exact hissued.safe (congrArg Url.origin (Option.some.inj hconfigured))

end AlphaPing.Checks.Executor
