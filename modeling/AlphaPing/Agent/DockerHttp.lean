import AlphaPing.Agent.Probes.Config
import AlphaPing.Agent.RuntimeAdapters
import AlphaPing.Library.HttpMessages

/-!
# Responses of a runtime socket

The agent asks the Docker daemon over its socket and takes the response apart itself. It recognises
a body that is sent in chunks by one spelling of the header field, and only when another field
follows it.

Everything that could stop the process is written out: a slice that is out of range, and a sum that
does not fit. An index that was found is at most the length of what was searched, so the sums over
such indices fit.
-/

namespace AlphaPing.Agent.DockerHttp

open Protocol Library.Octets Library.HttpMessages RuntimeAdapters

def responseLimit : ℕ := 2 * 1024 * 1024

/-- `usize::MAX`. -/
def maxUsize : ℕ := 2 ^ 64 - 1

inductive Panic where
  | overflow
  | slice
  deriving DecidableEq

abbrev Outcome := Except Panic (Except DockerError Bytes)

/-- `first + second`; what does not fit is an overflow, whether it is checked or wraps around. -/
def addUsize (first second : ℕ) : Except Panic ℕ :=
  if first + second ≤ maxUsize then .ok (first + second) else .error .overflow

/-- `&input[..stop]`. -/
def sliceTo (input : Bytes) (stop : ℕ) : Except Panic Bytes :=
  if stop ≤ input.length then .ok (input.take stop) else .error .slice

/-- `&input[start..]`. -/
def sliceFrom (input : Bytes) (start : ℕ) : Except Panic Bytes :=
  if start ≤ input.length then .ok (input.drop start) else .error .slice

/-! ## Numbers -/

/-- `value.parse::<u16>()`. -/
def parseU16 (text : List Char) : Option ℕ :=
  let digits := if text.head? = some '+' then text.tail else text
  let value := digits.foldl (fun value character ↦ 10 * value + (character.toNat - 48)) 0
  if digits ≠ [] ∧ digits.all Char.isDigit ∧ value < 2 ^ 16 then some value else none

/-- `usize::from_str_radix(text, 16)`. -/
def fromStrRadix16 (text : List Char) : Option ℕ :=
  let digits := if text.head? = some '+' then text.tail else text
  let value := (digits.map fun character ↦ (hexDigit character).getD 0).foldl
    (fun value digit ↦ 16 * value + digit) 0
  if digits ≠ [] ∧ (digits.all fun character ↦ (hexDigit character).isSome) ∧ value ≤ maxUsize then
    some value
  else none

def statusOf (line : Bytes) : Option ℕ := do
  let text ← fromUtf8 line
  let value ← ((text.splitOnP Probes.Config.isWhitespace).filter fun word ↦ !word.isEmpty)[1]?
  parseU16 value

/-- The size of a chunk stands before the first semicolon. -/
def chunkSize (line : Bytes) : Option ℕ := do
  let text ← fromUtf8 line
  fromStrRadix16 (text.takeWhile (· ≠ ';'))

/-! ## Chunks -/

inductive ChunkStep where
  | failed (error : DockerError)
  | finished
  | next (data rest : Bytes)

/-- One turn of the loop of `decode_chunked`. -/
def nextChunk (input : Bytes) (decoded : ℕ) : Except Panic ChunkStep :=
  match position crlf input with
  | none => .ok (.failed .incompatible)
  | some lineEnd => do
    let line ← sliceTo input lineEnd
    match chunkSize line with
    | none => .ok (.failed .incompatible)
    | some size =>
      let input ← sliceFrom input (lineEnd + 2)
      if size = 0 then .ok .finished
      else
        let needed ← addUsize size 2
        -- the length that is reached is a saturating sum
        if input.length < needed ∨ responseLimit < min (decoded + size) maxUsize then
          .ok (.failed .incompatible)
        else
          let data ← sliceTo input size
          let ending ← sliceFrom input size
          let ending ← sliceTo ending 2
          if ending ≠ crlf then .ok (.failed .incompatible)
          else
            let rest ← sliceFrom input (size + 2)
            .ok (.next data rest)

theorem nextChunk_line {line : Bytes} (rest : Bytes) (decoded : ℕ) (hline : ¬ crlf <:+: line) :
    nextChunk (line ++ crlf ++ rest) decoded =
      match chunkSize line with
      | none => .ok (.failed .incompatible)
      | some size =>
        if size = 0 then .ok .finished
        else if maxUsize < size + 2 then .error .overflow
        else if rest.length < size + 2 ∨ responseLimit < decoded + size then
          .ok (.failed .incompatible)
        else if (rest.drop size).take 2 ≠ crlf then .ok (.failed .incompatible)
        else .ok (.next (rest.take size) (rest.drop (size + 2))) := by
  have hposition : position crlf (line ++ crlf ++ rest) = some line.length :=
    position_line (by decide) rest hline
  have htake : sliceTo (line ++ crlf ++ rest) line.length = .ok line := by
    rw [sliceTo, if_pos (by simp), List.append_assoc, List.take_left]
  have hdrop : sliceFrom (line ++ crlf ++ rest) (line.length + 2) = .ok rest := by
    have hlength : line.length + 2 = (line ++ crlf).length := by simp [crlf]
    rw [sliceFrom, if_pos (by simp [crlf]), hlength, List.drop_left]
  rw [nextChunk, hposition]
  dsimp only
  rw [htake]
  simp only [bind, Except.bind]
  cases hsize : chunkSize line with
  | none => rfl
  | some size =>
    dsimp only
    rw [hdrop]
    dsimp only
    by_cases hzero : size = 0
    · rw [if_pos hzero, if_pos hzero]
    rw [if_neg hzero, if_neg hzero, addUsize]
    by_cases hoverflow : maxUsize < size + 2
    · rw [if_neg (by omega), if_pos hoverflow]
    rw [if_pos (by omega), if_neg hoverflow]
    have hlimit : responseLimit < min (decoded + size) maxUsize ↔
        responseLimit < decoded + size := by
      have hmax : responseLimit < maxUsize := by decide
      omega
    simp only [hlimit]
    by_cases hshort : rest.length < size + 2 ∨ responseLimit < decoded + size
    · rw [if_pos hshort, if_pos hshort]
    have hlength : size + 2 ≤ rest.length := by
      by_contra hless
      exact hshort (.inl (by omega))
    have hending : 2 ≤ (rest.drop size).length := by
      rw [List.length_drop]
      omega
    rw [if_neg hshort, if_neg hshort, sliceTo, if_pos (by omega)]
    dsimp only
    rw [sliceFrom, if_pos (by omega)]
    dsimp only
    rw [sliceTo, if_pos hending]
    dsimp only
    rw [sliceFrom, if_pos hlength]

theorem nextChunk_none {input : Bytes} (decoded : ℕ) (h : position crlf input = none) :
    nextChunk input decoded = .ok (.failed .incompatible) := by
  rw [nextChunk, h]

theorem exists_line {input : Bytes} {lineEnd : ℕ} (h : position crlf input = some lineEnd) :
    ∃ line rest, input = line ++ crlf ++ rest ∧ ¬ crlf <:+: line :=
  ⟨_, _, append_of_position h, not_infix_take_of_position (by decide) h⟩

theorem nextChunk_next {input data rest : Bytes} {decoded : ℕ}
    (h : nextChunk input decoded = .ok (.next data rest)) :
    ∃ line, input = line ++ crlf ++ (data ++ crlf ++ rest) ∧ ¬ crlf <:+: line ∧
      chunkSize line = some data.length ∧ data ≠ [] ∧ decoded + data.length ≤ responseLimit := by
  cases hposition : position crlf input with
  | none =>
    rw [nextChunk_none decoded hposition] at h
    cases h
  | some lineEnd =>
    obtain ⟨line, behind, rfl, hline⟩ := exists_line hposition
    rw [nextChunk_line behind decoded hline] at h
    cases hsize : chunkSize line with
    | none =>
      rw [hsize] at h
      cases h
    | some size =>
      rw [hsize] at h
      dsimp only at h
      split at h
      · cases h
      next hzero =>
      split at h
      · cases h
      split at h
      · cases h
      next hroom =>
      rw [not_or, not_lt, not_lt] at hroom
      split at h
      · cases h
      next hending =>
      rw [not_not] at hending
      obtain ⟨rfl, rfl⟩ : behind.take size = data ∧ behind.drop (size + 2) = rest := by
        simpa using h
      have hlength : (behind.take size).length = size := by
        rw [List.length_take]
        omega
      rw [hlength]
      refine ⟨line, ?_, hline, hsize, ?_, hroom.2⟩
      · rw [← hending, ← List.drop_drop, List.append_assoc (behind.take size),
          List.take_append_drop, List.take_append_drop]
      · intro hempty
        rw [hempty] at hlength
        exact hzero hlength.symm

theorem nextChunk_error {input : Bytes} {decoded : ℕ} {panic : Panic}
    (h : nextChunk input decoded = .error panic) :
    ∃ line rest size, input = line ++ crlf ++ rest ∧ ¬ crlf <:+: line ∧
      chunkSize line = some size ∧ maxUsize < size + 2 := by
  cases hposition : position crlf input with
  | none =>
    rw [nextChunk_none decoded hposition] at h
    cases h
  | some lineEnd =>
    obtain ⟨line, rest, rfl, hline⟩ := exists_line hposition
    rw [nextChunk_line rest decoded hline] at h
    cases hsize : chunkSize line with
    | none =>
      rw [hsize] at h
      cases h
    | some size =>
      rw [hsize] at h
      dsimp only at h
      split at h
      · cases h
      split at h
      · next hoverflow => exact ⟨line, rest, size, rfl, hline, hsize, hoverflow⟩
      split at h
      · cases h
      split at h <;> cases h

theorem nextChunk_taken {line data : Bytes} {decoded : ℕ} (following : Bytes)
    (hline : ¬ crlf <:+: line) (hsize : chunkSize line = some data.length) (hfilled : data ≠ [])
    (hroom : decoded + data.length ≤ responseLimit) :
    nextChunk (line ++ crlf ++ (data ++ (crlf ++ following))) decoded =
      .ok (.next data following) := by
  have hlimit : responseLimit + 2 ≤ maxUsize := by decide
  have htwo : (crlf : Bytes).length = 2 := rfl
  have hzero : data.length ≠ 0 := fun hempty ↦ hfilled (List.length_eq_zero_iff.mp hempty)
  have hlength : ¬ ((data ++ (crlf ++ following)).length < data.length + 2 ∨
      responseLimit < decoded + data.length) := by
    simp only [List.length_append, htwo]
    omega
  rw [nextChunk_line _ _ hline, hsize]
  dsimp only
  rw [if_neg hzero, if_neg (by omega), if_neg hlength, List.drop_left, List.take_left' htwo,
    if_neg (not_not.mpr rfl), List.take_left, ← List.drop_drop, List.drop_left,
    List.drop_left' htwo]

theorem length_lt_of_next {input data rest : Bytes} {decoded : ℕ}
    (h : nextChunk input decoded = .ok (.next data rest)) : rest.length < input.length := by
  obtain ⟨line, rfl, -⟩ := nextChunk_next h
  simp [crlf]
  omega

def decodeChunked (input output : Bytes) : Outcome :=
  match _h : nextChunk input output.length with
  | .error panic => .error panic
  | .ok (.failed error) => .ok (.error error)
  | .ok .finished => .ok (.ok output)
  | .ok (.next data rest) => decodeChunked rest (output ++ data)
termination_by input.length
decreasing_by exact length_lt_of_next _h

theorem decodeChunked_eq (input output : Bytes) :
    decodeChunked input output =
      match nextChunk input output.length with
      | .error panic => .error panic
      | .ok (.failed error) => .ok (.error error)
      | .ok .finished => .ok (.ok output)
      | .ok (.next data rest) => decodeChunked rest (output ++ data) := by
  rw [decodeChunked]
  split <;> next hstep => rw [hstep]

/-! ## Responses -/

/-- A line equals this one if the letters are taken for lower case ones. -/
def isChunked (headers : Bytes) : Bool :=
  (headers.splitOn 10).any fun line ↦
    eqIgnoreAsciiCase line (ascii "transfer-encoding: chunked\r")

/-- The line up to the first separator, or all there is. -/
def firstLine (headers : Bytes) : Bytes :=
  headers.take ((position crlf headers).getD headers.length)

def parseHttpResponse (response : Bytes) : Outcome :=
  match position (crlf ++ crlf) response with
  | none => .ok (.error .incompatible)
  | some separator => do
    let headers ← sliceTo response separator
    let body ← sliceFrom response (separator + 4)
    let firstLine ← sliceTo headers ((position crlf headers).getD headers.length)
    match statusOf firstLine with
    | none => .ok (.error .incompatible)
    | some status =>
      if status = 401 ∨ status = 403 then .ok (.error .permissionDenied)
      else if status < 200 ∨ 300 ≤ status then .ok (.error .unavailable)
      else if isChunked headers then decodeChunked body []
      else .ok (.ok body)

end AlphaPing.Agent.DockerHttp
