import AlphaPing.Agent.Live.Sequence
import AlphaPing.Library.SealedMessages
import AlphaPing.Library.Varints

/-!
# Sealing live snapshots

The agent encodes a sample as a protobuf message, encrypts it under the key of the live session,
and puts the header before it that is authenticated with it. The encoder leaves out fields that
have their default; an optional field is left out when it is absent.
-/

namespace AlphaPing.Agent.Live

open Protocol Library.Varints
open Library.SealedMessages (Aead Sealing)

/-! ## Protobuf -/

/-- A field whose default is left out. -/
def present (value : ℕ) : Option ℕ :=
  if value = 0 then none else some value

/-- The fields of a sample in the order of their numbers; a signed one as its bits. -/
def sampleFields (sample : MetricSample) : List (Option ℕ) :=
  [present (sample.observedAtMs % 2 ^ 64).toNat, present sample.cpuPermille,
    present sample.memoryUsedBytes, present sample.memoryTotalBytes,
    present sample.storageUsedBytes, present sample.storageTotalBytes,
    present sample.networkRxBytesPerSecond, present sample.networkTxBytesPerSecond,
    present sample.networkRxBytesTotal, present sample.networkTxBytesTotal,
    sample.load1mMilli, sample.uptimeSeconds]

/-- A field with an integer, of wire type zero. -/
def encodeField (field : ℕ) (value : Option ℕ) : Bytes :=
  match value with
  | none => []
  | some value => encode (8 * field) ++ encode value

/-- The fields from a number on. -/
def encodeFields : ℕ → List (Option ℕ) → Bytes
  | _, [] => []
  | field, value :: rest => encodeField field value ++ encodeFields (field + 1) rest

/-- `encode_message` of a sample. -/
def encodeMessage (sample : MetricSample) : Bytes :=
  encodeFields 1 (sampleFields sample)

/-! ## Frames -/

/-- The fields of `LiveSessionCredential` that sealing reads. -/
structure LiveSessionCredential where
  sessionId : Bytes
  sessionKey : Bytes
  noncePrefix : Bytes

/-- `u32::to_be_bytes`. -/
def toBeBytes32 (value : ℕ) : Bytes :=
  [24, 16, 8, 0].map fun shift ↦ UInt8.ofNat (value / 2 ^ shift)

/-- A call of `seal_live_snapshot`. -/
structure SealCall where
  machinePk : ℕ
  sequence : ℕ
  sample : MetricSample

/-- The header that is authenticated. -/
def SealCall.aad (call : SealCall) (credential : LiveSessionCredential) :
    Bytes :=
  [0x41, 0x50, 0x4c, 0x31] ++ credential.sessionId ++ toBeBytes call.machinePk ++
    toBeBytes call.sequence ++ toBeBytes call.sample.observedAtMs.toNat

/-- What is given to the cipher. -/
def SealCall.sealing (call : SealCall) (credential : LiveSessionCredential) : Sealing where
  nonce := nonce credential.noncePrefix call.sequence
  aad := call.aad credential
  plaintext := encodeMessage call.sample

def sealLiveSnapshot (aead : Aead) (credential : LiveSessionCredential) (call : SealCall) :
    Except String Bytes :=
  if call.sample.observedAtMs ≤ 0 ∨ call.sequence = 0 ∨ 1000000 < call.sequence then
    .error "live snapshot header is invalid"
  else if credential.sessionKey.length ≠ 32 then .error "live session key is invalid"
  else if credential.noncePrefix.length ≠ 4 then .error "live nonce prefix is invalid"
  else
    let aad := call.aad credential
    let ciphertext := aead.ciphertext credential.sessionKey (call.sealing credential)
    if 2 ^ 32 ≤ ciphertext.length then .error "live snapshot is too large"
    else
      let frame := aad ++ toBeBytes32 ciphertext.length ++ ciphertext
      if 16 * 1024 < frame.length then .error "live snapshot exceeds the frame limit"
      else .ok frame

/-! ## What a sealed frame is -/

section Sealed

variable {aead : Aead} {credential : LiveSessionCredential} {call : SealCall}
  {frame : Bytes}

/-- What a call has checked when it returns a frame, and the frame. -/
structure IsSealed (aead : Aead) (credential : LiveSessionCredential) (call : SealCall)
    (frame : Bytes) : Prop where
  observed_pos : 0 < call.sample.observedAtMs
  sequence_pos : 0 < call.sequence
  sequence_le : call.sequence ≤ 1000000
  frame_eq : frame = call.aad credential ++
    toBeBytes32 (aead.ciphertext credential.sessionKey (call.sealing credential)).length ++
      aead.ciphertext credential.sessionKey (call.sealing credential)
  ciphertext_lt : (aead.ciphertext credential.sessionKey (call.sealing credential)).length < 2 ^ 32
  length_le : frame.length ≤ 16 * 1024

theorem isSealed_of_ok (h : sealLiveSnapshot aead credential call = .ok frame) :
    IsSealed aead credential call frame := by
  unfold sealLiveSnapshot at h
  split at h
  · cases h
  · next hheader =>
    split at h
    · cases h
    · split at h
      · cases h
      · dsimp only at h
        split at h
        · cases h
        · next hshort =>
          split at h
          · cases h
          · next hlimit =>
            obtain rfl := Except.ok.inj h
            push Not at hheader
            exact ⟨hheader.1, Nat.pos_of_ne_zero hheader.2.1, hheader.2.2, rfl,
              Nat.lt_of_not_le hshort, Nat.le_of_not_lt hlimit⟩

theorem length_aad (hsession : credential.sessionId.length = 16) :
    (call.aad credential).length = 44 := by
  simp [SealCall.aad, toBeBytes, hsession]

end Sealed

/-! ## The length of a message -/

theorem length_encodeFields_le (field : ℕ) (values : List (Option ℕ)) :
    (encodeFields field values).length ≤ 20 * values.length := by
  induction values generalizing field with
  | nil => exact le_rfl
  | cons value rest ih =>
    have hrest := ih (field + 1)
    unfold encodeFields
    rw [List.length_append, List.length_cons]
    cases value with
    | none =>
      simp only [encodeField, List.length_nil]
      omega
    | some value =>
      have htag := length_encode_le (8 * field)
      have hvalue := length_encode_le value
      simp only [encodeField, List.length_append]
      omega

theorem length_encodeMessage_le (sample : MetricSample) : (encodeMessage sample).length ≤ 240 :=
  length_encodeFields_le 1 (sampleFields sample)

end AlphaPing.Agent.Live
