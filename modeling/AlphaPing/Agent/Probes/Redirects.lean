import AlphaPing.Agent.Probes.Executors
import AlphaPing.Library.Hops

/-!
# The requests of an HTTP probe

`execute` follows redirects itself. The loop carries a target, a method, the headers and whether
the body is sent; the model of it here also keeps the requests that were issued. A redirect to
another origin is refused while there is a body to send, and takes every sensitive header away
for the rest of the chain.
-/

namespace AlphaPing.Agent.Probes.Redirects

open Protocol Executors Library.Hops

abbrev HeaderMap := List (String × String)

def lowerCase (name : String) : String := name.map Char.toLower

/-- `HeaderMap::insert`. -/
def insertHeader (headers : HeaderMap) (name value : String) : HeaderMap :=
  headers.filter (fun header ↦ header.1 != name) ++ [(name, value)]

/-- `request_headers`, once every name and value is accepted; a header name is lower case. -/
def requestHeaders (request : HttpProbeRequest) : HeaderMap :=
  request.headers.foldl
    (fun headers header ↦ insertHeader headers (lowerCase header.name) header.value) []

def redirectSensitiveHeaders : List String :=
  ["authorization", "cookie", "proxy-authorization", "x-api-key"]

def bodyHeaders : List String :=
  ["content-type", "content-length", "content-encoding", "content-language", "content-location"]

/-- The names of the headers that are marked as sensitive. -/
def sensitiveNames (request : HttpProbeRequest) : List String :=
  (request.headers.filter ProbeHeader.sensitive).map fun header ↦ lowerCase header.name

/-- A header that does not leave its origin. -/
def isSensitive (request : HttpProbeRequest) (name : String) : Bool :=
  name ∈ redirectSensitiveHeaders || name ∈ sensitiveNames request

structure SentRequest where
  method : String
  target : Url
  headers : HeaderMap
  body : Option Bytes

/-- What the loop carries from one request to the next. -/
structure Hop where
  target : Url
  method : String
  headers : HeaderMap
  sendBody : Bool

def Hop.request (hop : Hop) (request : HttpProbeRequest) : SentRequest where
  method := hop.method
  target := hop.target
  headers := hop.headers
  body := if hop.sendBody then some request.body else none

/-- The part of the loop that follows a redirect, from the resolved `location` on. -/
def redirectTo (request : HttpProbeRequest) (hop : Hop) (status : UInt16) :
    Option Url → Except String Hop
  | none => .error "redirect_target"
  | some next =>
    if next.scheme ∉ ["http", "https"] ∨ next.hasCredentials then .error "redirect_target"
    else if hop.target.scheme = "https" ∧ next.scheme ≠ "https" then .error "redirect_downgrade"
    else
      let get := becomesGet status hop.method
      let headers :=
        if get then hop.headers.filter fun header ↦ header.1 ∉ bodyHeaders else hop.headers
      let sendBody := hop.sendBody && !get
      if sendBody ∧ hop.target.origin ≠ next.origin then .error "redirect_body_blocked"
      else
        .ok
          { target := next
            method := if get then "GET" else hop.method
            headers :=
              if hop.target.origin ≠ next.origin then
                headers.filter fun header ↦ !isSensitive request header.1
              else headers
            sendBody := sendBody }

/-- The redirect loop with the requests that it issues. -/
def sendRequests (request : HttpProbeRequest) (run : HttpRun) :
    ℕ → ℕ → Hop → List SentRequest × ProbeOutcome
  | 0, _, _ => ([], .failed "redirect_limit")
  | left + 1, redirect, hop =>
    if ¬ run.timeLeft redirect then ([], .failed "timeout")
    else
      match run.reply redirect with
      | .timedOut => ([hop.request request], .failed "timeout")
      | .failed => ([hop.request request], .failed "network")
      | .answered response =>
        if ¬ isRedirect response.status then ([hop.request request], finishHttp request response)
        else if ¬ response.hasLocation then
          ([hop.request request], .failed "redirect_location")
        else if redirect = request.maxRedirects then
          ([hop.request request], .failed "redirect_limit")
        else
          match redirectTo request hop response.status response.next with
          | .error code => ([hop.request request], .failed code)
          | .ok next =>
            let later := sendRequests request run left (redirect + 1) next
            (hop.request request :: later.1, later.2)

/-- What the loop starts with. -/
def firstHop (request : HttpProbeRequest) (target : Url) : Hop where
  target := target
  method := request.method
  headers := requestHeaders request
  sendBody := request.method != "GET" && request.method != "HEAD" && !request.body.isEmpty

/-- `execute` with the requests that it issues. -/
def execute (request : HttpProbeRequest) (run : HttpRun) : List SentRequest × ProbeOutcome :=
  if ¬ run.clientReady ∨ ¬ run.methodValid then ([], .failed "invalid_config")
  else
    match run.target with
    | none => ([], .failed "invalid_config")
    | some target =>
      if ¬ run.headersValid then ([], .failed "invalid_config")
      else sendRequests request run (request.maxRedirects + 1) 0 (firstHop request target)

variable {request : HttpProbeRequest} {run : HttpRun}

/-! ## The outcome does not depend on the record -/

theorem sendRequests_outcome (left redirect : ℕ) (hop : Hop) :
    (sendRequests request run left redirect hop).2 =
      followRedirects request run left redirect hop.target hop.method hop.sendBody := by
  induction left generalizing redirect hop with
  | zero => rfl
  | succ left ih =>
    unfold sendRequests followRedirects
    by_cases htime : run.timeLeft redirect = true
    · rw [if_neg (not_not.mpr htime), if_neg (not_not.mpr htime)]
      cases run.reply redirect with
      | timedOut => rfl
      | failed => rfl
      | answered response =>
        simp only [redirectTo]
        cases response.next with
        | none => split_ifs <;> rfl
        | some next =>
          dsimp only
          split_ifs <;> first | rfl | exact ih _ _
    · rw [if_pos htime, if_pos htime]

theorem execute_outcome : (execute request run).2 = executeHttp request run := by
  unfold execute executeHttp
  split
  · rfl
  · cases run.target with
    | none => rfl
    | some target =>
      dsimp only
      split
      · rfl
      · exact sendRequests_outcome _ _ _

/-! ## Careful hops -/

/-- What an observer sees of a request. -/
def SentRequest.visit (request : HttpProbeRequest) (sent : SentRequest) : Visit String where
  origin := sent.target.origin
  secure := sent.target.scheme == "https"
  carriesBody := sent.body.any fun body ↦ !body.isEmpty
  carriesSecret := sent.headers.any fun header ↦ isSensitive request header.1

/-- What a redirect that is followed leaves of the hop. -/
structure Follows (request : HttpProbeRequest) (hop next : Hop) : Prop where
  secure : hop.target.scheme = "https" → next.target.scheme = "https"
  body : next.sendBody = true →
    hop.sendBody = true ∧ next.target.origin = hop.target.origin
  headers : ∀ header ∈ next.headers, header ∈ hop.headers ∧
    (next.target.origin ≠ hop.target.origin → isSensitive request header.1 = false)

theorem follows_redirectTo {hop next : Hop} {status : UInt16} {location : Option Url}
    (h : redirectTo request hop status location = .ok next) : Follows request hop next := by
  cases location with
  | none => cases h
  | some target =>
    unfold redirectTo at h
    dsimp only at h
    generalize becomesGet status hop.method = get at h
    split at h
    · cases h
    split at h
    · cases h
    next hdowngrade =>
    split at h
    · cases h
    next hblocked =>
    cases h
    have hkept : ∀ header ∈
        (if get = true then hop.headers.filter fun header ↦ header.1 ∉ bodyHeaders
          else hop.headers), header ∈ hop.headers := by
      intro header hheader
      split at hheader
      · exact List.mem_of_mem_filter hheader
      · exact hheader
    constructor
    case secure =>
      intro hsecure
      by_contra hplain
      exact hdowngrade ⟨hsecure, hplain⟩
    case body =>
      intro hbody
      apply And.intro (Bool.and_eq_true _ _ ▸ hbody).1
      by_contra hother
      exact hblocked ⟨hbody, Ne.symm hother⟩
    case headers =>
      intro header hheader
      dsimp only at hheader
      split at hheader
      · obtain ⟨hmem, hsensitive⟩ := List.mem_filter.mp hheader
        refine ⟨hkept header hmem, fun _ ↦ ?_⟩
        simpa using hsensitive
      next hsame => exact ⟨hkept header hheader, fun hother ↦ absurd (Ne.symm hother) hsame⟩

theorem Follows.careful {hop next : Hop} (h : Follows request hop next) :
    Careful ((hop.request request).visit request) ((next.request request).visit request) where
  body hbody := by
    have hnext : next.sendBody = true := by
      by_contra hnone
      simp [Hop.request, SentRequest.visit, hnone] at hbody
    obtain ⟨hhop, horigin⟩ := h.body hnext
    apply And.intro _ horigin
    simpa [Hop.request, SentRequest.visit, hnext, hhop] using hbody
  secret hsecret := by
    obtain ⟨header, hheader, hsensitive⟩ := List.any_eq_true.mp hsecret
    obtain ⟨hmem, hother⟩ := h.headers header hheader
    apply And.intro
    · exact List.any_eq_true.mpr ⟨header, hmem, hsensitive⟩
    · by_contra hleft
      rw [hother hleft] at hsensitive
      cases hsensitive
  secure hsecure := by
    have hscheme := h.secure (eq_of_beq hsecure)
    exact beq_iff_eq.mpr hscheme

/-! ## Whole chains -/

/-- What an observer sees of the requests of a list. -/
def visits (request : HttpProbeRequest) (sent : List SentRequest) : List (Visit String) :=
  sent.map (SentRequest.visit request)

theorem issued_sendRequests (left redirect : ℕ) (hop : Hop) :
    Issued ((hop.request request).visit request) left
      (visits request (sendRequests request run left redirect hop).1) := by
  induction left generalizing redirect hop with
  | zero => exact issued_nil _ 0
  | succ left ih =>
    have hsingle := issued_singleton ((hop.request request).visit request) left
    unfold sendRequests
    split
    · exact issued_nil _ _
    · cases run.reply redirect with
      | timedOut => exact hsingle
      | failed => exact hsingle
      | answered response =>
        dsimp only
        split
        · exact hsingle
        split
        · exact hsingle
        split
        · exact hsingle
        cases hnext : redirectTo request hop response.status response.next with
        | error code => exact hsingle
        | ok next => exact (ih (redirect + 1) next).cons (follows_redirectTo hnext).careful

/-- The requests of a probe are at most one more than its redirects, and what an observer sees of
them is a safe chain from the configured origin. -/
theorem execute_safe (request : HttpProbeRequest) (run : HttpRun) :
    (execute request run).1.length ≤ request.maxRedirects + 1 ∧
      ∀ target, run.target = some target →
        SafeChain target.origin (visits request (execute request run).1) := by
  unfold execute
  split
  · exact ⟨Nat.zero_le _, fun _ _ ↦ safeChain_nil⟩
  cases run.target with
  | none => exact ⟨Nat.zero_le _, nofun⟩
  | some target =>
    dsimp only
    split
    · exact ⟨Nat.zero_le _, fun _ _ ↦ safeChain_nil⟩
    have hissued : Issued _ _ (visits request (sendRequests request run _ 0 _).1) :=
      issued_sendRequests (request.maxRedirects + 1) 0 (firstHop request target)
    apply And.intro
    · have hlength := hissued.length
      rwa [visits, List.length_map] at hlength
    · intro configured hconfigured
      exact hissued.safe (congrArg Url.origin (Option.some.inj hconfigured))

end AlphaPing.Agent.Probes.Redirects
