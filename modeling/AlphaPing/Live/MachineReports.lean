import AlphaPing.Library.Cursors
import AlphaPing.Live.Frames

/-!
# Reading protobuf messages to their end

Live frames and machine reports are read by three loops: over the fields of a live sample, over
those of a sample in a report, and over the samples of a report. Their turns are built on
`readProtobufVarint` and `skipProtobufField`, so that every message is read to its end or refused,
with at most one turn for each of its bytes.

A report is a zlib stream; what it inflates to is a parameter.
-/

namespace AlphaPing.Live.MachineReports

open Library.Cursors Library.Varints Frames
open Library.SealedMessages (Bytes)

/-- A turn of the loop of `decodeLiveMetricSample`, which is also that of `decodeMetricSample`. -/
def fieldTurn (bytes : Bytes) : Turn (List (Option ℕ)) := fun offset values ↦ do
  let tag ← readProtobufVarint bytes offset
  let field := tag.1 / 8
  let wireType := tag.1 % 8
  if 1 ≤ field ∧ field ≤ 12 then
    if wireType ≠ 0 then none
    else do
      let decoded ← readProtobufVarint bytes tag.2
      let value ← safeProtobufNumber decoded.1
      some (decoded.2, values.set (field - 1) (some value))
  else do
    let next ← skipProtobufField bytes tag.2 wireType
    some (next, values)

/-- `decodeMetricSample`: unlike a live sample, it is checked against the totals. -/
def decodeMetricSample (bytes : Bytes) : Option LiveMetric := do
  let values ← loop bytes.length (fieldTurn bytes) bytes.length 0 defaultValues
  let metric := metricOf values
  if metric.observedAt ≤ 0 ∨ 1000 < metric.cpuPermille ∨
      (0 < metric.memoryTotalBytes ∧ metric.memoryTotalBytes < metric.memoryUsedBytes) ∨
      (0 < metric.storageTotalBytes ∧ metric.storageTotalBytes < metric.storageUsedBytes) then none
  else some metric

/-- A turn of the loop of `decodeCompressedMachineSamples`. -/
def reportTurn (bytes : Bytes) : Turn (List LiveMetric) := fun offset samples ↦ do
  let tag ← readProtobufVarint bytes offset
  let field := tag.1 / 8
  let wireType := tag.1 % 8
  if field = 5 then
    if wireType ≠ 2 then none
    else do
      let length ← readProtobufVarint bytes tag.2
      let last := length.2 + (← safeProtobufNumber length.1)
      if bytes.length < last then none
      else do
        let sample ← decodeMetricSample ((bytes.take last).drop length.2)
        if 60 < samples.length + 1 then none else some (last, samples ++ [sample])
  else do
    let next ← skipProtobufField bytes tag.2 wireType
    some (next, samples)

def decodeCompressedMachineSamples (inflateZlib : Bytes → Option Bytes) (value : Bytes) :
    Option (List LiveMetric) := do
  let bytes ← inflateZlib value
  let samples ← loop bytes.length (reportTurn bytes) bytes.length 0 []
  if samples.length = 0 then none else some samples

theorem decodeFields_eq_loop (bytes : Bytes) (fuel offset : ℕ) (values : List (Option ℕ)) :
    decodeFields bytes fuel offset values =
      loop bytes.length (fieldTurn bytes) fuel offset values := by
  induction fuel generalizing offset values with
  | zero => rfl
  | succ fuel ih =>
    unfold decodeFields loop
    split
    · rfl
    · simp only [fieldTurn, Option.bind_eq_bind, Option.bind_assoc, ih]
      congr 1
      funext tag
      split
      · split
        · rfl
        · simp only [Option.bind_assoc, Option.bind_some]
      · simp only [Option.bind_assoc, Option.bind_some]

/-! ## Turns that are built on the reader -/

/-- A call of `readProtobufVarint` or `skipProtobufField`, from its offset to the next one. -/
def Call (bytes : Bytes) (offset next : ℕ) : Prop :=
  (∃ value, readProtobufVarint bytes offset = some (value, next)) ∨
    ∃ wireType, skipProtobufField bytes offset wireType = some next

/-- Every turn that does not fail goes on where a chain of calls ended. -/
def BuiltOnReader (bytes : Bytes) {σ : Type} (turn : Turn σ) : Prop :=
  ∀ offset state next after, turn offset state = some (next, after) →
    Relation.TransGen (Call bytes) offset next

variable {bytes : Bytes}

theorem lt_of_call {offset next : ℕ} (h : Call bytes offset next) :
    offset < next ∧ next ≤ bytes.length := by
  rcases h with ⟨value, hread⟩ | ⟨wireType, hskip⟩
  · exact lt_of_readProtobufVarint hread
  · exact lt_of_skipProtobufField hskip

theorem lt_of_calls {offset next : ℕ} (h : Relation.TransGen (Call bytes) offset next) :
    offset < next ∧ next ≤ bytes.length := by
  induction h with
  | single hcall => exact lt_of_call hcall
  | tail _ hcall ih => exact ⟨ih.1.trans (lt_of_call hcall).1, (lt_of_call hcall).2⟩

theorem BuiltOnReader.advances {σ : Type} {turn : Turn σ} (h : BuiltOnReader bytes turn) :
    Advances turn :=
  fun offset state next after hturn ↦ (lt_of_calls (h offset state next after hturn)).1

theorem fieldTurn_builtOnReader (bytes : Bytes) : BuiltOnReader bytes (fieldTurn bytes) := by
  intro offset values next after hturn
  obtain ⟨⟨tag, behind⟩, htag, hturn⟩ := Option.bind_eq_some_iff.mp hturn
  have hfirst : Call bytes offset behind := .inl ⟨tag, htag⟩
  dsimp only at hturn
  split at hturn
  · split at hturn
    · cases hturn
    · obtain ⟨⟨value, place⟩, hvalue, hturn⟩ := Option.bind_eq_some_iff.mp hturn
      obtain ⟨number, -, hturn⟩ := Option.bind_eq_some_iff.mp hturn
      obtain ⟨rfl, -⟩ := Prod.mk.inj (Option.some.inj hturn)
      exact .tail (.single hfirst) (.inl ⟨value, hvalue⟩)
  · obtain ⟨place, hskip, hturn⟩ := Option.bind_eq_some_iff.mp hturn
    obtain ⟨rfl, -⟩ := Prod.mk.inj (Option.some.inj hturn)
    exact .tail (.single hfirst) (.inr ⟨_, hskip⟩)

theorem reportTurn_builtOnReader (bytes : Bytes) : BuiltOnReader bytes (reportTurn bytes) := by
  intro offset samples next after hturn
  obtain ⟨⟨tag, behind⟩, htag, hturn⟩ := Option.bind_eq_some_iff.mp hturn
  have hfirst : Call bytes offset behind := .inl ⟨tag, htag⟩
  dsimp only at hturn
  split at hturn
  · split at hturn
    · cases hturn
    · obtain ⟨⟨length, place⟩, hlength, hturn⟩ := Option.bind_eq_some_iff.mp hturn
      obtain ⟨number, hnumber, hturn⟩ := Option.bind_eq_some_iff.mp hturn
      dsimp only at hturn
      split at hturn
      · cases hturn
      · next hlast =>
        obtain ⟨sample, -, hturn⟩ := Option.bind_eq_some_iff.mp hturn
        split at hturn
        · cases hturn
        · -- the sample is a field of wire type 2
          obtain ⟨rfl, -⟩ := Prod.mk.inj (Option.some.inj hturn)
          refine .tail (.single hfirst) (.inr ⟨2, ?_⟩)
          simpa [skipProtobufField, hlength, hnumber] using hlast
  · obtain ⟨place, hskip, hturn⟩ := Option.bind_eq_some_iff.mp hturn
    obtain ⟨rfl, -⟩ := Prod.mk.inj (Option.some.inj hturn)
    exact .tail (.single hfirst) (.inr ⟨_, hskip⟩)

/-- A loop ends in one way, with at most one turn for each byte that is left, and the model has
fuel for all of them. -/
def Ends (bytes : Bytes) {σ : Type} (turn : Turn σ) : Prop :=
  ∀ offset state, ∃ turns outcome, turns ≤ bytes.length - offset ∧
    Runs bytes.length turn offset state turns outcome ∧
    (∀ turns' outcome', Runs bytes.length turn offset state turns' outcome' →
      turns' = turns ∧ outcome' = outcome) ∧
    loop bytes.length turn bytes.length offset state = outcome

theorem BuiltOnReader.ends {σ : Type} {turn : Turn σ} (h : BuiltOnReader bytes turn) :
    Ends bytes turn := by
  intro offset state
  obtain ⟨turns, outcome, hruns, hturns⟩ := h.advances.exists_runs bytes.length offset state
  exact ⟨turns, outcome, hturns, hruns, fun turns' outcome' hother ↦ hother.unique hruns,
    hruns.loop_eq (by omega)⟩

/-! ## Encodings at any offset -/

theorem readProtobufVarint_append (before : Bytes) (h : bytes ≠ []) :
    readProtobufVarint (before ++ bytes) before.length =
      (decode bytes).map fun read ↦ (read.1, before.length + read.2) := by
  have hlength := List.length_pos_of_ne_nil h
  rw [readProtobufVarint, if_neg (by rw [List.length_append]; omega), List.drop_left]

/-- The reader and the function that skips fields fail or advance within the bytes, so that every
loop that is built on them ends, the three of the code among them; the reader inverts the canonical
encoding of every integer below `2 ^ 64`, admits no other ones, and refuses an encoding of more than
ten bytes or of a greater integer, and bytes without an end. -/
theorem reader_sound_and_total (bytes : Bytes) :
    (∀ offset value next, readProtobufVarint bytes offset = some (value, next) →
      offset < next ∧ next ≤ bytes.length ∧ value < 2 ^ 64) ∧
    (∀ offset wireType next, skipProtobufField bytes offset wireType = some next →
      offset < next ∧ next ≤ bytes.length) ∧
    (∀ (σ : Type) (turn : Turn σ), BuiltOnReader bytes turn → Ends bytes turn) ∧
    BuiltOnReader bytes (fieldTurn bytes) ∧ BuiltOnReader bytes (reportTurn bytes) ∧
    (∀ fuel offset values, decodeFields bytes fuel offset values =
      loop bytes.length (fieldTurn bytes) fuel offset values) ∧
    (∀ value < 2 ^ 64, Canonical (encode value) value ∧ ∀ before rest,
      readProtobufVarint (before ++ (encode value ++ rest)) before.length =
        some (value, before.length + (encode value).length)) ∧
    (∀ before front last rest, Terminated front last →
      readProtobufVarint (before ++ (front ++ last :: rest)) before.length =
        if front.length < 10 ∧ valueOf (front ++ [last]) < 2 ^ 64 then
          some (valueOf (front ++ [last]), before.length + (front.length + 1))
        else none) ∧
    ∀ before unended : Bytes, (∀ byte ∈ unended, 128 ≤ byte.toNat) →
      readProtobufVarint (before ++ unended) before.length = none := by
  refine ⟨fun offset value next hread ↦ ?_, fun offset wireType next ↦ lt_of_skipProtobufField,
    fun σ turn hturn ↦ hturn.ends, fieldTurn_builtOnReader bytes, reportTurn_builtOnReader bytes,
    decodeFields_eq_loop bytes, fun value hvalue ↦ ⟨canonical_encode hvalue, fun before rest ↦ ?_⟩,
    fun before front last rest hterminated ↦ ?_, fun before unended hall ↦ ?_⟩
  · have hbounds := lt_of_readProtobufVarint hread
    refine ⟨hbounds.1, hbounds.2, ?_⟩
    unfold readProtobufVarint at hread
    split at hread
    · cases hread
    · obtain ⟨⟨read, count⟩, hdecode, heq⟩ := Option.map_eq_some_iff.mp hread
      obtain ⟨rfl, -⟩ := Prod.mk.inj heq
      exact lt_of_decode hdecode
  · have hne : encode value ++ rest ≠ [] :=
      List.append_ne_nil_of_left_ne_nil (List.ne_nil_of_length_pos (length_encode_pos value)) rest
    rw [readProtobufVarint_append before hne, decode_encode hvalue]
    rfl
  · rw [readProtobufVarint_append before (List.append_ne_nil_of_right_ne_nil front
      (List.cons_ne_nil last rest)), decode, decodeFrom_terminated hterminated]
    simp only [Nat.zero_add, pow_zero, Nat.mul_one]
    split <;> rfl
  · rcases eq_or_ne unended [] with rfl | hne
    · rw [List.append_nil]
      exact if_pos le_rfl
    · rw [readProtobufVarint_append before hne, decode, decodeFrom_unterminated hall]
      rfl

end AlphaPing.Live.MachineReports
