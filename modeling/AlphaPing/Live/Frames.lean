import AlphaPing.Library.SealedMessages
import AlphaPing.Library.Varints
import AlphaPing.Live.Hub
import AlphaPing.Protocol.Messages

/-!
# Reading live frames

A frame of an agent is a header of 48 bytes and a ciphertext. The first 44 bytes name the session,
the machine, the sequence and the time of the sample, and are authenticated; the last four are the
length of the ciphertext. What is encrypted is a sample as a protobuf message, which is read field
by field: fields that are missing have their defaults, and fields of later versions are skipped.

A call that throws returns nothing. The cipher, HMAC-SHA256 and base64url are those of the
platform.
-/

namespace AlphaPing.Live.Frames

open Library.SealedMessages Library.Varints Hub
open Protocol (toBeBytes)

/-- What the platform brings. -/
structure Platform where
  aead : Aead
  hmacSha256 : Bytes → Bytes → Bytes
  /-- `decodeBase64Url` of a text and the most bytes it may have. -/
  decodeBase64Url : String → ℕ → Option Bytes

/-! ## Protobuf -/

def safeProtobufNumber (value : ℕ) : Option ℕ :=
  if value ≤ 2 ^ 53 - 1 then some value else none

/-- `readProtobufVarint`: the value and the offset after it. -/
def readProtobufVarint (bytes : Bytes) (start : ℕ) : Option (ℕ × ℕ) :=
  if bytes.length ≤ start then none
  else (decode (bytes.drop start)).map fun read ↦ (read.1, start + read.2)

def skipProtobufField (bytes : Bytes) (offset wireType : ℕ) : Option ℕ :=
  if wireType = 0 then (readProtobufVarint bytes offset).map Prod.snd
  else if wireType = 1 then if bytes.length < offset + 8 then none else some (offset + 8)
  else if wireType = 2 then do
    let length ← readProtobufVarint bytes offset
    let next := length.2 + (← safeProtobufNumber length.1)
    if bytes.length < next then none else some next
  else if wireType = 5 then if bytes.length < offset + 4 then none else some (offset + 4)
  else none

/-- The loop of `decodeLiveMetricSample`. Each turn reads at least one byte, so that it ends with
as much fuel as there are bytes. -/
def decodeFields (bytes : Bytes) : ℕ → ℕ → List (Option ℕ) → Option (List (Option ℕ))
  | fuel, offset, values =>
    if bytes.length ≤ offset then some values
    else match fuel with
      | 0 => none
      | fuel + 1 => do
        let tag ← readProtobufVarint bytes offset
        let field := tag.1 / 8
        let wireType := tag.1 % 8
        if 1 ≤ field ∧ field ≤ 12 then
          if wireType ≠ 0 then none
          else do
            let decoded ← readProtobufVarint bytes tag.2
            let value ← safeProtobufNumber decoded.1
            decodeFields bytes fuel decoded.2 (values.set (field - 1) (some value))
        else do
          let next ← skipProtobufField bytes tag.2 wireType
          decodeFields bytes fuel next values

/-- Ten fields are zero when they are missing, the last two are null. -/
def defaultValues : List (Option ℕ) :=
  List.replicate 10 (some 0) ++ List.replicate 2 none

/-- `LiveViewerSnapshot` without its type and topic. -/
structure LiveMetric where
  observedAt : ℕ
  cpuPermille : ℕ
  memoryUsedBytes : ℕ
  memoryTotalBytes : ℕ
  storageUsedBytes : ℕ
  storageTotalBytes : ℕ
  networkRxBps : ℕ
  networkTxBps : ℕ
  networkRxTotal : ℕ
  networkTxTotal : ℕ
  load1mMilli : Option ℕ
  uptimeSeconds : Option ℕ

def metricOf (values : List (Option ℕ)) : LiveMetric :=
  let value (index : ℕ) : Option ℕ := values.getD index none
  { observedAt := (value 0).getD 0
    cpuPermille := (value 1).getD 0
    memoryUsedBytes := (value 2).getD 0
    memoryTotalBytes := (value 3).getD 0
    storageUsedBytes := (value 4).getD 0
    storageTotalBytes := (value 5).getD 0
    networkRxBps := (value 6).getD 0
    networkTxBps := (value 7).getD 0
    networkRxTotal := (value 8).getD 0
    networkTxTotal := (value 9).getD 0
    load1mMilli := value 10
    uptimeSeconds := value 11 }

def decodeLiveMetricSample (bytes : Bytes) : Option LiveMetric :=
  if bytes.length = 0 ∨ 2048 < bytes.length then none
  else do
    let values ← decodeFields bytes bytes.length 0 defaultValues
    let metric := metricOf values
    if metric.observedAt ≤ 0 ∨ 1000 < metric.cpuPermille then none else some metric

/-! ## Frames -/

/-- `AgentLiveFrameHeader`. -/
structure AgentLiveFrame extends FrameHeader where
  aad : Bytes
  ciphertext : Bytes

/-- `parseAgentLiveFrame`, with the bytes that are decrypted. -/
def parseAgentLiveFrame (bytes : Bytes) : Option AgentLiveFrame :=
  (Hub.parseAgentLiveFrame bytes).map fun header ↦
    { header with
      aad := bytes.take 44
      ciphertext := bytes.drop 48 }

def nonce (noncePrefix : Bytes) (sequence : ℕ) : Option Bytes :=
  if noncePrefix.length ≠ 4 ∨ ¬sequence ≤ 2 ^ 53 - 1 ∨ sequence ≤ 0 then none
  else some (noncePrefix ++ toBeBytes sequence)

def keyedDigest (platform : Platform) (secret label : Bytes) (parts : List Bytes) :
    Option Bytes :=
  if secret.length < 32 then none
  else some (platform.hmacSha256 secret (label ++ parts.flatMap (0 :: ·)))

/-- `alphaping/v1/live-key`. -/
def liveKeyLabel : Bytes := "alphaping/v1/live-key".toUTF8.toList

def deriveAgentLiveKey (platform : Platform) (secret : Bytes) (sessionId : String) :
    Option Bytes := do
  let sessionBytes ← platform.decodeBase64Url sessionId 16
  if sessionBytes.length ≠ 16 then none else keyedDigest platform secret liveKeyLabel [sessionBytes]

/-- What the attachment of the socket says. -/
structure Expected where
  sessionId : String
  noncePrefix : String
  machinePk : ℕ

structure LiveViewerSnapshot extends LiveMetric where
  topic : String

def decryptAgentLiveFrame (platform : Platform) (frame : AgentLiveFrame) (secret : Bytes)
    (expected : Expected) : Option LiveViewerSnapshot := do
  let expectedSession ← platform.decodeBase64Url expected.sessionId 16
  if expectedSession.length ≠ 16 ∨
      ¬(expectedSession.zipIdx.all fun byte ↦ frame.sessionId[byte.2]? == some byte.1) ∨
      frame.machinePk ≠ expected.machinePk then none
  else do
    let key ← deriveAgentLiveKey platform secret expected.sessionId
    let noncePrefix ← platform.decodeBase64Url expected.noncePrefix 4
    let iv ← nonce noncePrefix frame.sequence
    let plaintext ← platform.aead.decrypt key iv frame.aad frame.ciphertext
    let sample ← decodeLiveMetricSample plaintext
    if sample.observedAt ≠ frame.observedAt then none
    else some { sample with topic := "machine:" ++ toString frame.machinePk }

/-- A frame as it is received. -/
def receive (platform : Platform) (secret : Bytes) (expected : Expected) (message : Bytes) :
    Option LiveViewerSnapshot := do
  let frame ← parseAgentLiveFrame message
  decryptAgentLiveFrame platform frame secret expected

/-! ## Advance -/

theorem lt_of_readProtobufVarint {bytes : Bytes} {start value next : ℕ}
    (h : readProtobufVarint bytes start = some (value, next)) :
    start < next ∧ next ≤ bytes.length := by
  unfold readProtobufVarint at h
  split at h
  · cases h
  · next hstart =>
    obtain ⟨⟨read, count⟩, hread, heq⟩ := Option.map_eq_some_iff.mp h
    obtain ⟨-, rfl⟩ := Prod.mk.inj heq
    have hbounds := lt_of_decodeFrom hread
    rw [List.length_drop] at hbounds
    omega

theorem lt_of_skipProtobufField {bytes : Bytes} {offset wireType next : ℕ}
    (h : skipProtobufField bytes offset wireType = some next) :
    offset < next ∧ next ≤ bytes.length := by
  -- a place after a field of fixed size
  have hfixed {size : ℕ} (hsize : 0 < size)
      (h : (if bytes.length < offset + size then none else some (offset + size)) = some next) :
      offset < next ∧ next ≤ bytes.length := by
    split at h
    · cases h
    · obtain rfl := Option.some.inj h
      omega
  unfold skipProtobufField at h
  split at h
  · obtain ⟨⟨value, after⟩, hread, rfl⟩ := Option.map_eq_some_iff.mp h
    exact lt_of_readProtobufVarint hread
  · split at h
    · exact hfixed (by decide) h
    · split at h
      · obtain ⟨⟨value, after⟩, hread, h⟩ := Option.bind_eq_some_iff.mp h
        obtain ⟨number, -, h⟩ := Option.bind_eq_some_iff.mp h
        have hlt := (lt_of_readProtobufVarint hread).1
        dsimp only at h
        split at h
        · cases h
        · obtain rfl := Option.some.inj h
          omega
      · split at h
        · exact hfixed (by decide) h
        · cases h

end AlphaPing.Live.Frames
