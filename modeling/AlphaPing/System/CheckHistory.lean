import AlphaPing.Checks.Rollups
import AlphaPing.System.StoredInventories

/-!
# The history of a check

Two workers write the results of checks as JSON documents: the ingest worker one document for the
results that an agent has of a minute, the checks worker one for a single result. The web
application reads both. It takes at most twelve results, of positive times and latencies of up to
two minutes; the ingest worker bounds none of these as tightly.
-/

namespace AlphaPing.System.CheckHistory

open Protocol Library.Json Library.Texts Ingest.Validation Ingest.CheckResults Checks
  Checks.Persistence StoredInventories
open Ingest.Enrollment (hexEncode)
open Monitoring.Handlers (utf16Length)

/-! ## The documents that are written -/

def stateText : ResultState → String
  | .healthy => "healthy"
  | .degraded => "degraded"
  | .down => "down"
  | .unknown => "unknown"

def optionalNumber : Option ℕ → Json
  | none => .null
  | some value => .number value

def optionalString : Option String → Json
  | none => .null
  | some value => .string value

def observationDocument (observation : StoredObservation) : Json :=
  .object [("executionId", .string (hexEncode observation.executionId)),
    ("nominalSlotMs", .number observation.nominalSlotMs),
    ("observedAtMs", .number observation.observedAtMs),
    ("state", .string (stateText observation.state)),
    ("latencyMs", optionalNumber observation.latencyMs),
    ("failureCode", optionalString observation.failureCode),
    ("failureSummary", optionalString observation.failureSummary)]

/-- What `compile_batch` writes. -/
def batchDocument (batch : StoredBatch) : Json :=
  .object [("v", .number batch.v), ("id", .string (hexEncode batch.id)),
    ("observedAt", .number batch.observedAt), ("state", .string (stateText batch.state)),
    ("latencyMs", optionalNumber batch.latencyMs),
    ("failureCode", optionalString batch.failureCode),
    ("failureSummary", optionalString batch.failureSummary),
    ("executorAgentId", .string batch.executorAgentId),
    ("configRevision", .number batch.configRevision),
    ("samples", .array (batch.samples.map observationDocument))]

/-- What `persistCheckResult` writes. -/
def payloadDocument (payload : CheckPayload) : Json :=
  .object [("v", .number payload.v), ("id", .string (hexEncode payload.id)),
    ("configRevision", .number payload.configRevision),
    ("observedAt", .number payload.observedAt),
    ("state", .string (stateText payload.state.toResultState)),
    ("latencyMs", optionalNumber payload.latencyMs),
    ("failureCode", optionalString payload.failureCode),
    ("failureSummary", optionalString payload.failureSummary)]

/-! ## The reader -/

def maxCheckPayloadBytes : ℕ := 64 * 1024

structure RawCheckHistoryPoint where
  observedAt : ℤ
  state : ResultState
  latencyMs : Option ℤ
  failureCode : Option String
  failureSummary : Option String

/-- `validState`, with the state that a text stands for. -/
def validState : Option Json → Option ResultState
  | some (.string "healthy") => some .healthy
  | some (.string "degraded") => some .degraded
  | some (.string "down") => some .down
  | some (.string "unknown") => some .unknown
  | _ => none

def boundedOptionalString (value : Option Json) (maximum : ℕ) : Option (Option String) :=
  match value with
  | none | some .null => some none
  | some (.string text) => if utf16Length text ≤ maximum then some (some text) else none
  | _ => none

def optionalLatency : Option Json → Option (Option ℤ)
  | none | some .null => some none
  | some (.number value) => if 0 ≤ value ∧ value ≤ 120000 then some (some value) else none
  | _ => none

/-- A time after the beginning of the epoch that a double holds exactly. -/
def observedTime : Option Json → Option ℤ
  | some (.number value) => if 0 < value ∧ value ≤ maxSafeInteger then some value else none
  | _ => none

/-- `rawPoint`, of an object whose time is given apart. -/
def rawPoint (observedAtMs : Option Json) (data : List (String × Json)) :
    Option RawCheckHistoryPoint := do
  let observedAt ← observedTime observedAtMs
  let state ← validState (member "state" data)
  let latencyMs ← optionalLatency (member "latencyMs" data)
  let failureCode ← boundedOptionalString (member "failureCode" data) 64
  let failureSummary ← boundedOptionalString (member "failureSummary" data) 512
  some { observedAt, state, latencyMs, failureCode, failureSummary }

def samplePoint (sample : Json) : Option RawCheckHistoryPoint :=
  sample.record.bind fun data ↦ rawPoint (member "observedAtMs" data) data

def byteLength (document : Json) : ℕ := size Char.utf8Size document.render

/-- `decodeStoredCheckHistoryPayload`; `none` is a `ServiceHistoryDataError`. -/
def decodeStoredCheckHistoryPayload (payload : Json) : Option (List RawCheckHistoryPoint) :=
  if byteLength payload = 0 ∨ maxCheckPayloadBytes < byteLength payload then none
  else
    payload.record.bind fun data ↦
      match member "v" data, member "samples" data with
      | some (.number 1), _ => (rawPoint (member "observedAt" data) data).map fun point ↦ [point]
      | some (.number 2), some (.array samples) =>
        if 12 < samples.length ∨ samples.length = 0 then none else samples.mapM samplePoint
      | _, _ => none

/-! ## What is read of a document -/

/-- What the reader asks of a result. -/
structure ResultReadable (observedAt : ℤ) (latencyMs : Option ℕ)
    (failureCode failureSummary : Option String) : Prop where
  observed : 0 < observedAt ∧ observedAt ≤ maxSafeInteger
  latency : latencyMs.all fun latency ↦ decide (latency ≤ 120000)
  code : failureCode.all fun text ↦ decide (utf16Length text ≤ 64)
  summary : failureSummary.all fun text ↦ decide (utf16Length text ≤ 512)

instance (observedAt : ℤ) (latencyMs : Option ℕ) (failureCode failureSummary : Option String) :
    Decidable (ResultReadable observedAt latencyMs failureCode failureSummary) :=
  decidable_of_iff
    ((0 < observedAt ∧ observedAt ≤ maxSafeInteger) ∧
      (latencyMs.all fun latency ↦ decide (latency ≤ 120000)) ∧
      (failureCode.all fun text ↦ decide (utf16Length text ≤ 64)) ∧
      (failureSummary.all fun text ↦ decide (utf16Length text ≤ 512)))
    ⟨fun h ↦ ⟨h.1, h.2.1, h.2.2.1, h.2.2.2⟩, fun h ↦ ⟨h.observed, h.latency, h.code, h.summary⟩⟩

def shownResult (observedAt : ℤ) (state : ResultState) (latencyMs : Option ℕ)
    (failureCode failureSummary : Option String) : RawCheckHistoryPoint where
  observedAt := observedAt
  state := state
  latencyMs := latencyMs.map Int.ofNat
  failureCode := failureCode
  failureSummary := failureSummary

theorem validState_stateText (state : ResultState) :
    validState (some (.string (stateText state))) = some state := by
  cases state <;> rfl

theorem optionalLatency_number (latencyMs : Option ℕ) :
    optionalLatency (some (optionalNumber latencyMs)) =
      if latencyMs.all fun latency ↦ decide (latency ≤ 120000) then
        some (latencyMs.map Int.ofNat)
      else none := by
  cases latencyMs with
  | none => rfl
  | some latency =>
    simp [optionalNumber, optionalLatency]

theorem boundedOptionalString_string (text : Option String) (maximum : ℕ) :
    boundedOptionalString (some (optionalString text)) maximum =
      if text.all fun text ↦ decide (utf16Length text ≤ maximum) then some text else none := by
  cases text with
  | none => rfl
  | some text => simp [optionalString, boundedOptionalString]

theorem rawPoint_eq {data : List (String × Json)} {observedAt : ℤ} {state : ResultState}
    {latencyMs : Option ℕ} {failureCode failureSummary : Option String}
    (hstate : member "state" data = some (.string (stateText state)))
    (hlatency : member "latencyMs" data = some (optionalNumber latencyMs))
    (hcode : member "failureCode" data = some (optionalString failureCode))
    (hsummary : member "failureSummary" data = some (optionalString failureSummary)) :
    rawPoint (some (.number observedAt)) data =
      if ResultReadable observedAt latencyMs failureCode failureSummary then
        some (shownResult observedAt state latencyMs failureCode failureSummary)
      else none := by
  rw [rawPoint, hstate, hlatency, hcode, hsummary, observedTime, validState_stateText,
    optionalLatency_number, boundedOptionalString_string, boundedOptionalString_string]
  simp only [bind_ite, bind_some]
  by_cases hreadable : ResultReadable observedAt latencyMs failureCode failureSummary
  · rw [if_pos hreadable, if_pos hreadable.observed, if_pos hreadable.latency,
      if_pos hreadable.code, if_pos hreadable.summary]
    rfl
  · rw [if_neg hreadable]
    split
    · next hobserved =>
      split
      · next hlatency =>
        split
        · next hcode =>
          exact if_neg fun hsummary ↦ hreadable ⟨hobserved, hlatency, hcode, hsummary⟩
        · rfl
      · rfl
    · rfl

def ObservationReadable (observation : StoredObservation) : Prop :=
  ResultReadable observation.observedAtMs observation.latencyMs observation.failureCode
    observation.failureSummary

instance : DecidablePred ObservationReadable :=
  fun _ ↦ inferInstanceAs (Decidable (ResultReadable _ _ _ _))

def shownObservation (observation : StoredObservation) : RawCheckHistoryPoint :=
  shownResult observation.observedAtMs observation.state observation.latencyMs
    observation.failureCode observation.failureSummary

theorem samplePoint_document (observation : StoredObservation) :
    samplePoint (observationDocument observation) =
      if ObservationReadable observation then some (shownObservation observation) else none :=
  rawPoint_eq rfl rfl rfl rfl

/-- A batch is read if its text is not too long and each of its results is read. -/
theorem decode_batchDocument {batch : StoredBatch} (hversion : batch.v = 2) :
    decodeStoredCheckHistoryPayload (batchDocument batch) =
      if (0 < byteLength (batchDocument batch) ∧
          byteLength (batchDocument batch) ≤ maxCheckPayloadBytes) ∧
          (0 < batch.samples.length ∧ batch.samples.length ≤ 12) ∧
          ∀ observation ∈ batch.samples, ObservationReadable observation then
        some (batch.samples.map shownObservation)
      else none := by
  have hdata : decodeStoredCheckHistoryPayload (batchDocument batch) =
      if byteLength (batchDocument batch) = 0 ∨
          maxCheckPayloadBytes < byteLength (batchDocument batch) then none
      else if 12 < (batch.samples.map observationDocument).length ∨
          (batch.samples.map observationDocument).length = 0 then none
      else (batch.samples.map observationDocument).mapM samplePoint := by
    obtain ⟨v, id, observedAt, state, latencyMs, failureCode, failureSummary, executorAgentId,
      configRevision, samples⟩ := batch
    obtain rfl : v = 2 := hversion
    rfl
  rw [hdata, mapM_document samplePoint_document, List.length_map]
  by_cases hsize : byteLength (batchDocument batch) = 0 ∨
      maxCheckPayloadBytes < byteLength (batchDocument batch)
  · rw [if_pos hsize, if_neg fun h ↦ by omega]
  rw [if_neg hsize]
  by_cases hcount : 12 < batch.samples.length ∨ batch.samples.length = 0
  · rw [if_pos hcount, if_neg fun h ↦ by omega]
  rw [if_neg hcount]
  by_cases hreadable : ∀ observation ∈ batch.samples, ObservationReadable observation
  · rw [if_pos hreadable, if_pos ⟨by omega, by omega, hreadable⟩]
  · rw [if_neg hreadable, if_neg fun h ↦ hreadable h.2.2]

def PayloadReadable (payload : CheckPayload) : Prop :=
  ResultReadable payload.observedAt payload.latencyMs payload.failureCode payload.failureSummary

instance : DecidablePred PayloadReadable :=
  fun _ ↦ inferInstanceAs (Decidable (ResultReadable _ _ _ _))

def shownPayload (payload : CheckPayload) : RawCheckHistoryPoint :=
  shownResult payload.observedAt payload.state.toResultState payload.latencyMs
    payload.failureCode payload.failureSummary

theorem decode_payloadDocument {payload : CheckPayload} (hversion : payload.v = 1) :
    decodeStoredCheckHistoryPayload (payloadDocument payload) =
      if (0 < byteLength (payloadDocument payload) ∧
          byteLength (payloadDocument payload) ≤ maxCheckPayloadBytes) ∧
          PayloadReadable payload then
        some [shownPayload payload]
      else none := by
  have hdata : decodeStoredCheckHistoryPayload (payloadDocument payload) =
      if byteLength (payloadDocument payload) = 0 ∨
          maxCheckPayloadBytes < byteLength (payloadDocument payload) then none
      else (if PayloadReadable payload then some (shownPayload payload) else none).map
        fun point ↦ [point] := by
    have hpoint := @rawPoint_eq
      [("v", .number payload.v), ("id", .string (hexEncode payload.id)),
        ("configRevision", .number payload.configRevision),
        ("observedAt", .number payload.observedAt),
        ("state", .string (stateText payload.state.toResultState)),
        ("latencyMs", optionalNumber payload.latencyMs),
        ("failureCode", optionalString payload.failureCode),
        ("failureSummary", optionalString payload.failureSummary)]
      payload.observedAt payload.state.toResultState payload.latencyMs payload.failureCode
      payload.failureSummary rfl rfl rfl rfl
    obtain ⟨v, id, configRevision, observedAt, state, latencyMs, failureCode,
      failureSummary⟩ := payload
    obtain rfl : v = 1 := hversion
    exact congrArg (fun point : Option RawCheckHistoryPoint ↦
      if byteLength _ = 0 ∨ maxCheckPayloadBytes < byteLength _ then none
      else point.map fun point ↦ [point]) hpoint
  rw [hdata]
  by_cases hsize : byteLength (payloadDocument payload) = 0 ∨
      maxCheckPayloadBytes < byteLength (payloadDocument payload)
  · rw [if_pos hsize, if_neg fun h ↦ by omega]
  rw [if_neg hsize]
  by_cases hreadable : PayloadReadable payload
  · rw [if_pos hreadable, if_pos ⟨by omega, hreadable⟩]
    rfl
  · rw [if_neg hreadable, if_neg fun h ↦ hreadable h.2]
    rfl

/-! ## The length of a document -/

theorem utf8Size_digitChar : ∀ digit < 16, (Nat.digitChar digit).utf8Size = 1 := by decide

theorem size_escape_le (character : Char) :
    size Char.utf8Size (escape character) ≤ 6 * codeUnits character := by
  have hunits : 1 ≤ codeUnits character := by
    unfold codeUnits
    split <;> decide
  have hfour := character.utf8Size_le_four
  have hslash : (Char.ofNat 0x5C).utf8Size = 1 := by decide
  have hletters : 'b'.utf8Size = 1 ∧ 't'.utf8Size = 1 ∧ 'n'.utf8Size = 1 ∧ 'f'.utf8Size = 1 ∧
      'r'.utf8Size = 1 ∧ 'u'.utf8Size = 1 ∧ '0'.utf8Size = 1 := by decide
  unfold escape
  split
  · simp only [size_cons, size_nil, hslash]
    omega
  split
  · simp only [size_cons, size_nil, hslash, hletters]
    omega
  split
  · simp only [size_cons, size_nil, hslash, hletters]
    omega
  split
  · simp only [size_cons, size_nil, hslash, hletters]
    omega
  split
  · simp only [size_cons, size_nil, hslash, hletters]
    omega
  split
  · simp only [size_cons, size_nil, hslash, hletters]
    omega
  split
  · next hcontrol =>
    simp only [size_cons, size_nil, hslash, hletters,
      utf8Size_digitChar (character.toNat / 16) (by omega),
      utf8Size_digitChar (character.toNat % 16) (by omega)]
    omega
  · simp only [size_cons, size_nil]
    omega

theorem byteLength_string_le {text : String} {units : ℕ} (h : utf16Length text ≤ units) :
    byteLength (.string text) ≤ 2 + 6 * units := by
  have hsum (characters : List Char) :
      (characters.map fun character ↦ size Char.utf8Size (escape character)).sum ≤
        6 * (characters.map codeUnits).sum := by
    induction characters with
    | nil => exact Nat.le_refl 0
    | cons character characters ih =>
      have hcharacter := size_escape_le character
      simp only [List.map_cons, List.sum_cons]
      omega
  have hquote : (Char.ofNat 0x22).utf8Size = 1 := by decide
  have htext := hsum text.toList
  have hunits : utf16Length text = (text.toList.map codeUnits).sum := rfl
  rw [byteLength, Json.render, size_quote, hquote, escapedSize]
  omega

theorem byteLength_optionalString_le {text : Option String} {units : ℕ} (hunits : 1 ≤ units)
    (h : text.all fun text ↦ decide (utf16Length text ≤ units)) :
    byteLength (optionalString text) ≤ 2 + 6 * units := by
  cases text with
  | none =>
    have hnull : byteLength (optionalString none) = 4 := by decide
    omega
  | some text => exact byteLength_string_le (of_decide_eq_true h)

theorem size_le_four_mul (characters : List Char) :
    size Char.utf8Size characters ≤ 4 * characters.length := by
  induction characters with
  | nil => exact Nat.le_refl 0
  | cons character characters ih =>
    have hfour := character.utf8Size_le_four
    rw [size_cons, List.length_cons]
    omega

theorem byteLength_number_le {number : ℤ} (h : number.natAbs < 10 ^ 20) :
    byteLength (.number number) ≤ 84 := by
  have hlength : (toString number).toList.length ≤ 21 := by
    cases number with
    | ofNat value =>
      have hdigits := (Nat.length_repr_le_iff (by decide : 0 < 20)).mpr h
      exact Nat.le_succ_of_le hdigits
    | negSucc value =>
      have hdigits : (Nat.repr (value + 1)).toList.length ≤ 20 :=
        (Nat.length_repr_le_iff (by decide)).mpr h
      change ("-" ++ Nat.repr (value + 1)).toList.length ≤ 21
      rw [String.toList_append, List.length_append]
      have hsign : "-".toList.length = 1 := by decide
      omega
  have hsize := size_le_four_mul (toString number).toList
  rw [byteLength, Json.render]
  omega

theorem byteLength_optionalNumber_le {number : Option ℕ} (h : ∀ value ∈ number, value < 10 ^ 20) :
    byteLength (optionalNumber number) ≤ 84 := by
  cases number with
  | none => decide
  | some value => exact byteLength_number_le (h value rfl)

theorem byteLength_hexEncode_le (bytes : Bytes) :
    byteLength (.string (hexEncode bytes)) ≤ 2 + 24 * bytes.length := by
  have hunits (characters : List Char) : (characters.map codeUnits).sum ≤ 2 * characters.length := by
    induction characters with
    | nil => exact Nat.le_refl 0
    | cons character characters ih =>
      have hcharacter : codeUnits character ≤ 2 := by
        unfold codeUnits
        split <;> decide
      simp only [List.map_cons, List.sum_cons, List.length_cons]
      omega
  have hlength : utf16Length (hexEncode bytes) ≤ 4 * bytes.length := by
    have hle := hunits (hexEncode bytes).toList
    rw [toList_hexEncode, length_hexDigits, ← toList_hexEncode] at hle
    have htext : utf16Length (hexEncode bytes) = ((hexEncode bytes).toList.map codeUnits).sum := rfl
    omega
  have hstring := byteLength_string_le hlength
  omega

theorem byteLength_state_le (state : ResultState) :
    byteLength (.string (stateText state)) ≤ 50 := by
  cases state <;> decide

theorem byteLength_object {members : List (String × Json)} {texts : List String} {names : ℕ}
    (hnames : (texts.map fun name ↦ size Char.utf8Size (quote name)).sum = names)
    (htexts : members.map Prod.fst = texts) :
    byteLength (.object members) =
      names + ((members.map Prod.snd).map byteLength).sum + members.length +
        (members.length - 1) + 2 := by
  have hcolon : ':'.utf8Size = 1 := by decide
  have hcomma : ','.utf8Size = 1 := by decide
  have hbraces : (Char.ofNat 0x7B).utf8Size + (Char.ofNat 0x7D).utf8Size = 2 := by decide
  rw [byteLength, size_render_object, htexts, hnames, hcolon, hcomma, hbraces, Nat.mul_one,
    Nat.mul_one]
  rfl

theorem byteLength_array_le {items : List Json} {bound : ℕ}
    (h : ∀ item ∈ items, byteLength item ≤ bound) :
    byteLength (.array items) ≤ items.length * (bound + 1) + 2 := by
  have hcomma : ','.utf8Size = 1 := by decide
  have hbrackets : '['.utf8Size + ']'.utf8Size = 2 := by decide
  have hsum : (items.map byteLength).sum ≤ items.length * bound := by
    have hle := List.sum_le_card_nsmul (items.map byteLength) bound fun length hlength ↦ by
      obtain ⟨item, hitem, rfl⟩ := List.mem_map.mp hlength
      exact h item hitem
    simpa using hle
  rw [byteLength, size_render_array, hcomma, hbrackets, Nat.mul_one, Nat.mul_succ]
  change (items.map byteLength).sum + _ + _ ≤ _
  omega

theorem ResultReadable.natAbs_lt {observedAt : ℤ} {latencyMs : Option ℕ}
    {failureCode failureSummary : Option String}
    (h : ResultReadable observedAt latencyMs failureCode failureSummary) :
    observedAt.natAbs < 10 ^ 20 := by
  have hobserved := h.observed
  unfold maxSafeInteger at hobserved
  omega

theorem ResultReadable.latency_lt {observedAt : ℤ} {latencyMs : Option ℕ}
    {failureCode failureSummary : Option String}
    (h : ResultReadable observedAt latencyMs failureCode failureSummary) :
    ∀ latency ∈ latencyMs, latency < 10 ^ 20 := by
  rintro latency rfl
  have hlatency := of_decide_eq_true h.latency
  omega

/-- The widths of an observation that the reader does not look at. -/
structure ObservationBounded (observation : StoredObservation) : Prop where
  executionId : observation.executionId.length = 32
  nominalSlotMs : observation.nominalSlotMs.natAbs < 10 ^ 20
  failureSummary : observation.failureSummary.all fun text ↦ decide (utf16Length text ≤ 160)

theorem byteLength_observation_le {observation : StoredObservation}
    (hbounded : ObservationBounded observation) (hreadable : ObservationReadable observation) :
    byteLength (observationDocument observation) ≤ 2524 := by
  have hnames : ((["executionId", "nominalSlotMs", "observedAtMs", "state", "latencyMs",
      "failureCode", "failureSummary"].map fun name ↦
        size Char.utf8Size (quote name)).sum) = 89 := by decide
  have hid := byteLength_hexEncode_le observation.executionId
  have hnominal := byteLength_number_le hbounded.nominalSlotMs
  have hobserved := byteLength_number_le hreadable.natAbs_lt
  have hstate := byteLength_state_le observation.state
  have hlatency := byteLength_optionalNumber_le hreadable.latency_lt
  have hcode := byteLength_optionalString_le (by decide) hreadable.code
  have hsummary := byteLength_optionalString_le (by decide) hbounded.failureSummary
  rw [hbounded.executionId] at hid
  rw [observationDocument, byteLength_object hnames rfl]
  simp only [List.map_cons, List.map_nil, List.sum_cons, List.sum_nil, List.length_cons,
    List.length_nil]
  omega

/-- The widths of a batch that the reader does not look at. -/
structure BatchBounded (batch : StoredBatch) : Prop where
  v : batch.v = 2
  id : batch.id.length = 32
  observedAt : batch.observedAt.natAbs < 10 ^ 20
  latencyMs : ∀ latency ∈ batch.latencyMs, latency < 10 ^ 20
  failureCode : batch.failureCode.all fun text ↦ decide (utf16Length text ≤ 64)
  failureSummary : batch.failureSummary.all fun text ↦ decide (utf16Length text ≤ 160)
  executorAgentId : utf16Length batch.executorAgentId ≤ 36
  configRevision : batch.configRevision < 10 ^ 20
  samples : ∀ observation ∈ batch.samples, ObservationBounded observation

theorem byteLength_batch_le {batch : StoredBatch} (hbounded : BatchBounded batch)
    (hcount : batch.samples.length ≤ 12)
    (hreadable : ∀ observation ∈ batch.samples, ObservationReadable observation) :
    byteLength (batchDocument batch) ≤ maxCheckPayloadBytes := by
  have hnames : ((["v", "id", "observedAt", "state", "latencyMs", "failureCode",
      "failureSummary", "executorAgentId", "configRevision", "samples"].map fun name ↦
        size Char.utf8Size (quote name)).sum) = 108 := by decide
  have hversion : byteLength (.number (2 : ℕ)) = 1 := by decide
  have hid := byteLength_hexEncode_le batch.id
  have hobserved := byteLength_number_le hbounded.observedAt
  have hstate := byteLength_state_le batch.state
  have hlatency := byteLength_optionalNumber_le hbounded.latencyMs
  have hcode := byteLength_optionalString_le (by decide) hbounded.failureCode
  have hsummary := byteLength_optionalString_le (by decide) hbounded.failureSummary
  have hagent := byteLength_string_le hbounded.executorAgentId
  have hrevision := @byteLength_number_le batch.configRevision hbounded.configRevision
  have hsamples := @byteLength_array_le (batch.samples.map observationDocument) 2524
    fun item hitem ↦ by
      obtain ⟨observation, hmem, rfl⟩ := List.mem_map.mp hitem
      exact byteLength_observation_le (hbounded.samples observation hmem)
        (hreadable observation hmem)
  rw [hbounded.id] at hid
  rw [List.length_map] at hsamples
  rw [batchDocument, byteLength_object hnames rfl, hbounded.v]
  simp only [List.map_cons, List.map_nil, List.sum_cons, List.sum_nil, List.length_cons,
    List.length_nil, hversion, maxCheckPayloadBytes]
  omega

theorem byteLength_payload_le {payload : CheckPayload} (hversion : payload.v = 1)
    (hid : payload.id.length = 32) (hrevision : payload.configRevision < 10 ^ 20)
    (hreadable : PayloadReadable payload) :
    byteLength (payloadDocument payload) ≤ maxCheckPayloadBytes := by
  have hnames : ((["v", "id", "configRevision", "observedAt", "state", "latencyMs", "failureCode",
      "failureSummary"].map fun name ↦ size Char.utf8Size (quote name)).sum) = 82 := by decide
  have hone : byteLength (.number (1 : ℕ)) = 1 := by decide
  have hidentifier := byteLength_hexEncode_le payload.id
  have hnumber := @byteLength_number_le payload.configRevision hrevision
  have hobserved := byteLength_number_le hreadable.natAbs_lt
  have hstate := byteLength_state_le payload.state.toResultState
  have hlatency := byteLength_optionalNumber_le hreadable.latency_lt
  have hcode := byteLength_optionalString_le (by decide) hreadable.code
  have hsummary := byteLength_optionalString_le (by decide) hreadable.summary
  rw [hid] at hidentifier
  rw [payloadDocument, byteLength_object hnames rfl, hversion]
  simp only [List.map_cons, List.map_nil, List.sum_cons, List.sum_nil, List.length_cons,
    List.length_nil, hone, maxCheckPayloadBytes]
  omega

theorem byteLength_object_pos (members : List (String × Json)) :
    0 < byteLength (.object members) := by
  rw [byteLength_object rfl rfl]
  omega

/-! ## What the workers store -/

/-- A group of results that the ingest worker compiles to a batch. -/
structure StoredGroup where
  report : MachineReport
  reportId : Bytes
  machinePk : ℕ
  workspacePk : ℕ
  agentId : String
  nowMs : ℤ
  checks : List CheckConfigRow
  groups : List ResultGroup
  group : ResultGroup
  agent : looksLikeUuid agentId
  /-- The last time of a clock in JavaScript. -/
  now_le : nowMs ≤ 8640000000000000
  /-- A `u64`. -/
  revision_lt : report.appliedConfigRevision < 2 ^ 64
  valid : validateReport report reportId machinePk workspacePk agentId nowMs = .ok ()
  grouped : groupResults checks agentId report = .ok groups
  mem_groups : group ∈ groups
  few : group.results.length ≤ maximumResults group.config

/-- A call of `persistCheckResult`; its revision is an integer of the database. -/
structure CentralCall extends CentralResult where
  revision_lt : config.configRevision < 2 ^ 63

/-- The codecs, with the length of a SHA-256 digest. -/
structure HistoryCodec extends CheckCodec where
  length_sha256 : ∀ bytes, (sha256 bytes).length = 32

/-- The results that a minute of an agent's check may have, for its history to be read. -/
def StoredGroup.Readable (stored : StoredGroup) : Prop :=
  stored.group.results.length ≤ 12 ∧ ∀ result ∈ stored.group.results,
    0 < result.observedAtMs ∧ result.latencyMs.all fun latency ↦ decide (latency ≤ 120000)

variable (stored : StoredGroup)

theorem StoredGroup.exists_key :
    ∃ key ∈ groupKeys stored.report, stored.group.results = resultsOf stored.report key ∧
      ∀ result ∈ stored.group.results,
        matchesAssignment result stored.group.config stored.agentId = true := by
  have hgrouped := stored.grouped
  unfold groupResults at hgrouped
  split at hgrouped
  · cases hgrouped
  split at hgrouped
  · cases hgrouped
  split at hgrouped
  · cases hgrouped
  next hassigned =>
  have hmem := stored.mem_groups
  rw [← Except.ok.inj hgrouped] at hmem
  obtain ⟨key, hkey, hgroup⟩ := List.mem_filterMap.mp hmem
  obtain ⟨config, hconfig, hequal⟩ := Option.map_eq_some_iff.mp hgroup
  refine ⟨key, hkey, by rw [← hequal], ?_⟩
  intro result hresult
  rw [← hequal] at hresult ⊢
  obtain ⟨hreport, hcheck⟩ := List.mem_filter.mp hresult
  have hany := List.all_eq_true.mp (not_not.mp hassigned) result hreport
  have hname : result.checkId = key.1 := congrArg Prod.fst (eq_of_beq hcheck)
  rw [resultAssigned, hname, hconfig] at hany
  exact hany

variable {result : ProbeResult}

theorem StoredGroup.mem_report (h : result ∈ stored.group.results) :
    result ∈ stored.report.probeResults := by
  obtain ⟨key, -, hresults, -⟩ := stored.exists_key
  rw [hresults] at h
  exact (List.mem_filter.mp h).1

theorem StoredGroup.results_ne_nil : stored.group.results ≠ [] := by
  obtain ⟨key, hkey, hresults, -⟩ := stored.exists_key
  rw [groupKeys, List.mem_insertionSort, List.mem_dedup] at hkey
  obtain ⟨result, hresult, rfl⟩ := List.mem_map.mp hkey
  rw [hresults]
  exact List.ne_nil_of_mem (List.mem_filter.mpr ⟨hresult, by simp⟩)

/-- What the validation of the report says of a result. -/
structure ResultBounded (stored : StoredGroup) (result : ProbeResult) : Prop where
  executionId : result.executionId.length = 32
  nominalSlot : result.nominalSlotMs ≤ stored.nowMs + 120000
  notBefore : result.nominalSlotMs ≤ result.observedAtMs
  notAfter : result.observedAtMs ≤ result.nominalSlotMs + 60000
  state : 1 ≤ result.state ∧ result.state ≤ 3
  failureCode : result.failureCode.utf8ByteSize ≤ 64
  failureSummary : result.failureSummary.utf8ByteSize ≤ 160
  configRevision : result.configRevision ≤ stored.report.appliedConfigRevision

theorem StoredGroup.bounded (h : result ∈ stored.group.results) : ResultBounded stored result := by
  have hvalid := (probeResults_of_validateReport stored.valid).1 result (stored.mem_report h)
  simp only [probeResultValid, Bool.and_eq_true, decide_eq_true_eq, beq_iff_eq] at hvalid
  obtain ⟨⟨⟨⟨⟨⟨⟨⟨⟨⟨⟨⟨⟨⟨hid, -⟩, -⟩, -⟩, -⟩, -⟩, -⟩, hrevision⟩, -⟩, hnominal⟩, hbefore⟩, hafter⟩,
    hstate⟩, hcode⟩, hsummary⟩ := hvalid
  exact ⟨hid, hnominal, hbefore, hafter, hstate, hcode, hsummary, hrevision⟩

theorem present_text_le {text : String} {units : ℕ} (h : text.utf8ByteSize ≤ units) :
    (presentText text).all fun text ↦ decide (utf16Length text ≤ units) := by
  unfold presentText
  split
  · rfl
  · exact decide_eq_true (Nat.le_trans (utf16Length_le_utf8ByteSize text) h)

theorem isSome_worstState {results : List ProbeResult} (hmem : result ∈ results)
    (hstate : 1 ≤ result.state ∧ result.state ≤ 3) :
    ∃ state, worstState results = some state := by
  obtain ⟨state, hknown⟩ : ∃ state, ResultState.fromProbe result.state = some state := by
    obtain h | h | h : result.state = 1 ∨ result.state = 2 ∨ result.state = 3 := by omega
    · exact ⟨_, by rw [h]; rfl⟩
    · exact ⟨_, by rw [h]; rfl⟩
    · exact ⟨_, by rw [h]; rfl⟩
  unfold worstState
  split
  · next hnone =>
    have hin : state ∈ results.filterMap fun result ↦ ResultState.fromProbe result.state :=
      List.mem_filterMap.mpr ⟨result, hmem, hknown⟩
    rw [hnone] at hin
    cases hin
  · exact ⟨_, rfl⟩

theorem mem_sortedResults {results : List ProbeResult} :
    result ∈ sortedResults results ↔ result ∈ results :=
  (List.perm_insertionSort _ results).mem_iff

theorem utf16Length_agentId : utf16Length stored.agentId ≤ 36 := by
  have hagent := stored.agent
  rw [looksLikeUuid, Bool.and_eq_true, beq_iff_eq] at hagent
  exact hagent.1 ▸ utf16Length_le_utf8ByteSize stored.agentId

theorem StoredGroup.assignmentRevision_lt : stored.group.config.assignmentRevision < 10 ^ 20 := by
  obtain ⟨-, -, -, hmatching⟩ := stored.exists_key
  obtain ⟨result, hresult⟩ := List.exists_mem_of_ne_nil _ stored.results_ne_nil
  have hmatch := hmatching result hresult
  simp only [matchesAssignment, Bool.and_eq_true, beq_iff_eq] at hmatch
  have hrevision := (stored.bounded hresult).configRevision
  have hlimit := stored.revision_lt
  omega

theorem StoredGroup.times (hresult : result ∈ stored.group.results)
    (hpositive : 0 < result.observedAtMs) :
    result.observedAtMs ≤ maxSafeInteger ∧ result.nominalSlotMs.natAbs < 10 ^ 20 := by
  have hbounded := stored.bounded hresult
  have hnominal := hbounded.nominalSlot
  have hbefore := hbounded.notBefore
  have hafter := hbounded.notAfter
  have hnow := stored.now_le
  unfold maxSafeInteger
  omega

theorem StoredGroup.observationBounded (hresult : result ∈ stored.group.results)
    (hpositive : 0 < result.observedAtMs) :
    ObservationBounded (observationOf result) where
  executionId := (stored.bounded hresult).executionId
  nominalSlotMs := (stored.times hresult hpositive).2
  failureSummary := present_text_le (stored.bounded hresult).failureSummary

theorem StoredGroup.exists_batch (codec : ResultCodec) (stored : StoredGroup) :
    ∃ batch, compileBatch codec stored.group.config stored.group.minute stored.agentId
        stored.group.results = some batch ∧ batch.payload.v = 2 ∧
      batch.payload.samples = (sortedResults stored.group.results).map observationOf ∧
      (stored.Readable → BatchBounded batch.payload) := by
  obtain ⟨first, hfirst⟩ := List.exists_mem_of_ne_nil _ stored.results_ne_nil
  have hsorted := mem_sortedResults.mpr hfirst
  obtain ⟨state, hstate⟩ := isSome_worstState hsorted (stored.bounded hfirst).state
  obtain ⟨observedAt, hobserved⟩ := Option.isSome_iff_exists.mp
    (List.isSome_max?_of_mem (List.mem_map_of_mem (f := ProbeResult.observedAtMs) hsorted))
  have hfailure (result : ProbeResult)
      (h : (sortedResults stored.group.results).reverse.find? (fun result ↦
        ResultState.fromProbe result.state == some state) = some result) :
      result ∈ stored.group.results :=
    mem_sortedResults.mp (List.mem_reverse.mp (List.mem_of_find?_eq_some h))
  refine ⟨_, by rw [compileBatch, hobserved, hstate], rfl, rfl, ?_⟩
  intro hreadable
  constructor
  · rfl
  · exact codec.length_hash _
  · obtain ⟨result, hresult, hequal⟩ := List.mem_map.mp (List.max?_mem hobserved)
    have hmember := mem_sortedResults.mp hresult
    have hpositive := (hreadable.2 result hmember).1
    have htimes := stored.times hmember hpositive
    have hlimit : maxSafeInteger < 10 ^ 20 := by decide
    change observedAt.natAbs < 10 ^ 20
    omega
  · intro latency hlatency
    have hle := AlphaPing.Checks.Rollups.meanLatency_le hlatency
    omega
  · dsimp only
    cases hfound : (sortedResults stored.group.results).reverse.find? fun result ↦
        ResultState.fromProbe result.state == some state with
    | none => rfl
    | some result => exact present_text_le (stored.bounded (hfailure result hfound)).failureCode
  · dsimp only
    cases hfound : (sortedResults stored.group.results).reverse.find? fun result ↦
        ResultState.fromProbe result.state == some state with
    | none => rfl
    | some result => exact present_text_le (stored.bounded (hfailure result hfound)).failureSummary
  · exact utf16Length_agentId stored
  · exact stored.assignmentRevision_lt
  · intro observation hobservation
    obtain ⟨result, hresult, rfl⟩ := List.mem_map.mp hobservation
    have hmember := mem_sortedResults.mp hresult
    exact stored.observationBounded hmember (hreadable.2 result hmember).1

theorem StoredGroup.observationReadable_iff (hresult : result ∈ stored.group.results) :
    ObservationReadable (observationOf result) ↔
      0 < result.observedAtMs ∧ result.latencyMs.all fun latency ↦ decide (latency ≤ 120000) := by
  constructor
  · intro h
    exact ⟨h.observed.1, h.latency⟩
  · rintro ⟨hpositive, hlatency⟩
    have hbounded := stored.bounded hresult
    exact ⟨⟨hpositive, (stored.times hresult hpositive).1⟩, hlatency,
      present_text_le hbounded.failureCode,
      present_text_le (Nat.le_trans hbounded.failureSummary (by decide))⟩

theorem decode_group_iff (codec : ResultCodec) (stored : StoredGroup) :
    (∃ batch, compileBatch codec stored.group.config stored.group.minute stored.agentId
        stored.group.results = some batch ∧
      decodeStoredCheckHistoryPayload (batchDocument batch.payload) =
        some (batch.payload.samples.map shownObservation)) ↔ stored.Readable := by
  obtain ⟨batch, hcompiled, hversion, hsamples, hbounded⟩ := stored.exists_batch codec
  have hlength : batch.payload.samples.length = stored.group.results.length := by
    rw [hsamples, List.length_map]
    exact List.length_insertionSort _ _
  have hreadable : (∀ observation ∈ batch.payload.samples, ObservationReadable observation) ↔
      ∀ result ∈ stored.group.results, 0 < result.observedAtMs ∧
        result.latencyMs.all fun latency ↦ decide (latency ≤ 120000) := by
    rw [hsamples, List.forall_mem_map]
    constructor
    · intro h result hresult
      exact (stored.observationReadable_iff hresult).mp (h result (mem_sortedResults.mpr hresult))
    · intro h result hresult
      have hmember := mem_sortedResults.mp hresult
      exact (stored.observationReadable_iff hmember).mpr (h result hmember)
  constructor
  · rintro ⟨other, hother, hdecoded⟩
    obtain rfl := Option.some.inj (hcompiled.symm.trans hother)
    rw [decode_batchDocument hversion] at hdecoded
    split at hdecoded
    · next h => exact ⟨hlength ▸ h.2.1.2, hreadable.mp h.2.2⟩
    · cases hdecoded
  · intro h
    have hread := hreadable.mpr h.2
    have hcount : batch.payload.samples.length ≤ 12 := hlength ▸ h.1
    have hfilled : 0 < batch.payload.samples.length := by
      rw [hlength]
      exact List.length_pos_of_ne_nil stored.results_ne_nil
    refine ⟨batch, hcompiled, ?_⟩
    rw [decode_batchDocument hversion, if_pos]
    exact ⟨⟨byteLength_object_pos _, byteLength_batch_le (hbounded h) hcount hread⟩,
      ⟨hfilled, hcount⟩, hread⟩

theorem decode_central_iff (codec : HistoryCodec) (call : CentralCall) :
    decodeStoredCheckHistoryPayload (payloadDocument (call.payload codec.toCheckCodec)) =
        some [shownPayload (call.payload codec.toCheckCodec)] ↔
      ResultReadable call.observedAt call.result.latencyMs call.result.failureCode
        call.result.failureSummary := by
  have hrevision := call.revision_lt
  rw [decode_payloadDocument rfl]
  constructor
  · intro h
    split at h
    · next hreadable => exact hreadable.2
    · cases h
  · intro h
    rw [if_pos]
    exact ⟨⟨byteLength_object_pos _,
      byteLength_payload_le rfl (codec.length_sha256 _) (Nat.lt_trans hrevision (by decide)) h⟩, h⟩

/-- The history that both workers store is read, result for result in its order, exactly if it is
readable. -/
theorem history_read_iff (codec : HistoryCodec) (stored : StoredGroup) (call : CentralCall) :
    ((∃ batch, compileBatch codec.toResultCodec stored.group.config stored.group.minute
          stored.agentId stored.group.results = some batch ∧
        decodeStoredCheckHistoryPayload (batchDocument batch.payload) =
          some (batch.payload.samples.map shownObservation)) ↔ stored.Readable) ∧
      (decodeStoredCheckHistoryPayload (payloadDocument (call.payload codec.toCheckCodec)) =
          some [shownPayload (call.payload codec.toCheckCodec)] ↔
        ResultReadable call.observedAt call.result.latencyMs call.result.failureCode
          call.result.failureSummary) :=
  ⟨decode_group_iff codec.toResultCodec stored, decode_central_iff codec call⟩

/-! ## Thirteen results in a minute -/

def historyCodec : HistoryCodec where
  toCheckCodec := { sampleCodec with sha256 := fun bytes ↦ (bytes ++ List.replicate 32 0).take 32 }
  length_sha256 bytes := by simp

/-- An agent and its check, which is executed every five seconds. -/
def frequentAgentId : String := "00000000-0000-0000-0000-000000000001"

def frequentCheck : AssignedCheck :=
  { sampleCheck with id := "00000000-0000-0000-0000-000000000002", intervalSeconds := 5 }

/-- A result of the minute; the last slot has two of them. -/
def frequentResult (index : ℕ) : ProbeResult where
  executionId := List.replicate 32 (UInt8.ofNat index)
  checkId := frequentCheck.id
  checkPk := 1
  servicePk := 1
  workspacePk := 1
  executorAgentId := frequentAgentId
  configRevision := 1
  nominalSlotMs := 60000 + 5000 * min index 11
  observedAtMs := 60100 + 5000 * min index 11
  state := 1
  latencyMs := some 20
  failureCode := ""
  failureSummary := ""

def frequentReport : MachineReport where
  reportId := List.replicate 16 1
  machinePk := 1
  workspacePk := 1
  nominalMinuteMs := 60000
  samples := [{ observedAtMs := 60000 }]
  schemaVersion := 4
  containerInventory := none
  probeResults := (List.range 13).map frequentResult
  appliedConfigRevision := 1
  commandResults := []
  agentVersion := "0.1.0"

def frequentRow : CheckConfigRow where
  check := frequentCheck
  executorAgentId := some frequentAgentId
  enabled := true
  serviceDeleted := false
  workspaceDeleted := false
  timeoutMs := 1000
  retryCount := 0
  request := none

def frequentGroup : ResultGroup where
  config := frequentCheck
  minute := 60000
  results := frequentReport.probeResults

def frequentStored : StoredGroup where
  report := frequentReport
  reportId := List.replicate 16 1
  machinePk := 1
  workspacePk := 1
  agentId := frequentAgentId
  nowMs := 120000
  checks := [frequentRow]
  groups := [frequentGroup]
  group := frequentGroup
  agent := by decide
  now_le := by decide
  revision_lt := by decide
  valid := by decide
  grouped := by rfl
  mem_groups := List.mem_singleton_self _
  few := by decide

/-- The ingest worker stores one result more than the web application reads. -/
theorem thirteenth_result_unreadable :
    ¬ ((∀ (codec : HistoryCodec) (stored : StoredGroup), ∃ batch,
        compileBatch codec.toResultCodec stored.group.config stored.group.minute stored.agentId
            stored.group.results = some batch ∧
          decodeStoredCheckHistoryPayload (batchDocument batch.payload) =
            some (batch.payload.samples.map shownObservation)) ∧
      ∀ (codec : HistoryCodec) (call : CentralCall),
        decodeStoredCheckHistoryPayload (payloadDocument (call.payload codec.toCheckCodec)) =
          some [shownPayload (call.payload codec.toCheckCodec)]) := by
  intro h
  have hread := h.1 historyCodec frequentStored
  rw [decode_group_iff] at hread
  exact absurd hread.1 (by decide)

end AlphaPing.System.CheckHistory
