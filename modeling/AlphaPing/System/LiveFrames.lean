import AlphaPing.Agent.Live.Seal
import AlphaPing.Live.Frames

/-!
# Live frames from the agent to the hub

The agent seals a sample, the hub reads the frame. Both derive the same nonce and the same
authenticated header from the fields of the frame, and what the one writes as a protobuf message
the other one reads with the defaults that were left out.
-/

namespace AlphaPing.System.LiveFrames

open Protocol Library.Varints Live.Frames Agent.Live
open Library.SealedMessages (Aead Sealing Ideal)
open Live.Hub (FrameHeader bigEndian readUnsigned64)

/-! ## Samples -/

/-- The numbers that both sides can hold. -/
structure InRange (sample : MetricSample) : Prop where
  observedAt : 0 < sample.observedAtMs ∧ sample.observedAtMs ≤ 2 ^ 53 - 1
  cpuPermille : sample.cpuPermille ≤ 1000
  fields : ∀ value ∈ sampleFields sample, ∀ number ∈ value, number ≤ 2 ^ 53 - 1

/-- What a sample says to a viewer. -/
def metric (sample : MetricSample) : LiveMetric where
  observedAt := sample.observedAtMs.toNat
  cpuPermille := sample.cpuPermille
  memoryUsedBytes := sample.memoryUsedBytes
  memoryTotalBytes := sample.memoryTotalBytes
  storageUsedBytes := sample.storageUsedBytes
  storageTotalBytes := sample.storageTotalBytes
  networkRxBps := sample.networkRxBytesPerSecond
  networkTxBps := sample.networkTxBytesPerSecond
  networkRxTotal := sample.networkRxBytesTotal
  networkTxTotal := sample.networkTxBytesTotal
  load1mMilli := sample.load1mMilli
  uptimeSeconds := sample.uptimeSeconds

theorem readProtobufVarint_encode {bytes rest : Bytes} {offset value : ℕ} (hvalue : value < 2 ^ 64)
    (h : bytes.drop offset = encode value ++ rest) :
    readProtobufVarint bytes offset = some (value, offset + (encode value).length) := by
  have hlength := congrArg List.length h
  have hpos := length_encode_pos value
  rw [List.length_drop, List.length_append] at hlength
  rw [readProtobufVarint, if_neg (by omega), h, decode_encode hvalue]
  rfl

theorem drop_add_of_eq {bytes before after : Bytes} {offset : ℕ}
    (h : bytes.drop offset = before ++ after) : bytes.drop (offset + before.length) = after := by
  rw [← List.drop_drop, h, List.drop_left]

theorem decodeFields_encodeFields {bytes : Bytes} {values : List (Option ℕ)} {field fuel offset : ℕ}
    {before initial : List (Option ℕ)} (hinitial : initial.length = values.length)
    (hfield : before.length + 1 = field) (hlast : field + values.length ≤ 13)
    (hvalues : ∀ value ∈ values, ∀ number ∈ value, number ≤ 2 ^ 53 - 1)
    (hbytes : bytes.drop offset = encodeFields field values)
    (hfuel : bytes.length ≤ offset + fuel) :
    decodeFields bytes fuel offset (before ++ initial) =
      some (before ++ List.zipWith Option.or values initial) := by
  induction values generalizing field fuel offset before initial with
  | nil =>
    have hend : bytes.length ≤ offset := List.drop_eq_nil_iff.mp hbytes
    obtain rfl := List.length_eq_zero_iff.mp hinitial
    unfold decodeFields
    rw [if_pos hend]
    rfl
  | cons value rest ih =>
    obtain ⟨first, others, rfl⟩ := List.exists_cons_of_length_eq_add_one hinitial
    obtain ⟨hvalue, hrest⟩ := List.forall_mem_cons.mp hvalues
    have hothers : others.length = rest.length := by simpa using hinitial
    rw [List.length_cons] at hlast
    unfold encodeFields at hbytes
    cases value with
    | none =>
      have hbefore : (before ++ [first]).length + 1 = field + 1 := by
        rw [List.length_append, List.length_singleton, hfield]
      have hstep := ih hothers hbefore (by omega) hrest hbytes hfuel
      rw [List.append_assoc, List.append_assoc] at hstep
      exact hstep
    | some number =>
      have hnumber := hvalue number rfl
      have htag : (8 * field : ℕ) < 2 ^ 64 := by omega
      simp only [encodeField, List.append_assoc] at hbytes
      have hread := readProtobufVarint_encode htag hbytes
      have hafter := drop_add_of_eq hbytes
      have hread' := readProtobufVarint_encode (by omega) hafter
      have hafter' := drop_add_of_eq hafter
      have hpos := length_encode_pos (8 * field)
      have hlength := congrArg List.length hbytes
      rw [List.length_drop, List.length_append] at hlength
      obtain ⟨fuel, rfl⟩ : ∃ less, fuel = less + 1 := ⟨fuel - 1, by omega⟩
      have hset : (before ++ first :: others).set (field - 1) (some number) =
          (before ++ [some number]) ++ others := by
        rw [List.set_append_right _ _ (by omega), List.append_assoc,
          show field - 1 - before.length = 0 by omega]
        rfl
      have hbefore : (before ++ [some number]).length + 1 = field + 1 := by
        rw [List.length_append, List.length_singleton, hfield]
      have hfuel' : bytes.length ≤
          offset + (encode (8 * field)).length + (encode number).length + fuel := by
        have hpos' := length_encode_pos number
        omega
      have hstep := ih hothers hbefore (by omega) hrest hafter' hfuel'
      rw [List.append_assoc, List.append_assoc] at hstep
      unfold decodeFields
      rw [if_neg (by omega), hread]
      simp only [Option.bind_eq_bind, Option.bind_some]
      rw [if_pos (by omega), if_neg (by omega), hread']
      simp only [Option.bind_some]
      rw [safeProtobufNumber, if_pos hnumber, Option.bind_some,
        show 8 * field / 8 = field by omega, hset, List.append_assoc]
      exact hstep

theorem getD_present (value : ℕ) : (present value).getD 0 = value := by
  unfold present
  split
  · next hzero => exact hzero.symm
  · rfl

theorem length_encodeMessage_pos {sample : MetricSample}
    (h : (sample.observedAtMs % 2 ^ 64).toNat ≠ 0) : 0 < (encodeMessage sample).length := by
  have hpos := length_encode_pos (8 * 1)
  rw [encodeMessage, sampleFields, encodeFields, present, if_neg h, encodeField,
    List.length_append, List.length_append]
  omega

theorem decodeLiveMetricSample_encodeMessage {sample : MetricSample} (h : InRange sample) :
    decodeLiveMetricSample (encodeMessage sample) = some (metric sample) := by
  have hbounds := h.observedAt
  have hobserved : (sample.observedAtMs % 2 ^ 64).toNat = sample.observedAtMs.toNat := by omega
  have hvalues : List.zipWith Option.or (sampleFields sample) defaultValues =
      [some sample.observedAtMs.toNat, some sample.cpuPermille, some sample.memoryUsedBytes,
        some sample.memoryTotalBytes, some sample.storageUsedBytes, some sample.storageTotalBytes,
        some sample.networkRxBytesPerSecond, some sample.networkTxBytesPerSecond,
        some sample.networkRxBytesTotal, some sample.networkTxBytesTotal, sample.load1mMilli,
        sample.uptimeSeconds] := by
    unfold sampleFields
    rw [hobserved]
    simp [defaultValues, List.replicate_succ, getD_present]
  have hfields : decodeFields (encodeMessage sample) (encodeMessage sample).length 0
      ([] ++ defaultValues) =
        some ([] ++ List.zipWith Option.or (sampleFields sample) defaultValues) :=
    decodeFields_encodeFields rfl rfl (by simp [sampleFields]) h.fields rfl (Nat.le_add_left _ _)
  have hpositive : 0 < (encodeMessage sample).length := length_encodeMessage_pos (by omega)
  have hshort := length_encodeMessage_le sample
  rw [List.nil_append, List.nil_append, hvalues] at hfields
  unfold decodeLiveMetricSample
  rw [if_neg (by omega), hfields]
  simp only [Option.bind_eq_bind, Option.bind_some]
  have hmetric : metricOf [some sample.observedAtMs.toNat, some sample.cpuPermille,
      some sample.memoryUsedBytes, some sample.memoryTotalBytes, some sample.storageUsedBytes,
      some sample.storageTotalBytes, some sample.networkRxBytesPerSecond,
      some sample.networkTxBytesPerSecond, some sample.networkRxBytesTotal,
      some sample.networkTxBytesTotal, sample.load1mMilli, sample.uptimeSeconds] =
        metric sample := rfl
  have hcpu := h.cpuPermille
  rw [hmetric, if_neg]
  simp only [metric]
  omega

/-! ## Headers -/

theorem length_toBeBytes (value : ℕ) : (toBeBytes value).length = 8 := rfl

theorem length_toBeBytes32 (value : ℕ) : (toBeBytes32 value).length = 4 := rfl

theorem bigEndian_toBeBytes {value : ℕ} (h : value < 2 ^ 64) :
    bigEndian (toBeBytes value) = value := by
  simp only [bigEndian, toBeBytes, List.map_cons, List.map_nil, List.foldl_cons, List.foldl_nil,
    UInt8.toNat_ofNat']
  omega

theorem bigEndian_toBeBytes32 {value : ℕ} (h : value < 2 ^ 32) :
    bigEndian (toBeBytes32 value) = value := by
  simp only [bigEndian, toBeBytes32, List.map_cons, List.map_nil, List.foldl_cons, List.foldl_nil,
    UInt8.toNat_ofNat']
  omega

theorem toBeBytes32_bigEndian {bytes : Bytes} (h : bytes.length = 4) :
    toBeBytes32 (bigEndian bytes) = bytes := by
  match bytes, h with
  | [first, second, third, fourth], _ =>
    have hfirst := first.toNat_lt
    have hsecond := second.toNat_lt
    have hthird := third.toNat_lt
    have hfourth := fourth.toNat_lt
    simp only [bigEndian, toBeBytes32, List.map_cons, List.map_nil, List.foldl_cons,
      List.foldl_nil, List.cons.injEq, and_true, ← UInt8.toNat_inj, UInt8.toNat_ofNat']
    omega

section Header

variable {aead : Aead} {credential : LiveSessionCredential} {call : SealCall} {frame : Bytes}

theorem parse_sealed (hsession : credential.sessionId.length = 16) (hrange : InRange call.sample)
    (hmachine : call.machinePk ≤ 2 ^ 53 - 1) (h : IsSealed aead credential call frame) :
    parseAgentLiveFrame frame = some
      { sessionId := credential.sessionId
        machinePk := call.machinePk
        sequence := call.sequence
        observedAt := call.sample.observedAtMs.toNat
        aad := call.aad credential
        ciphertext := aead.ciphertext credential.sessionKey (call.sealing credential) } := by
  obtain ⟨hobserved, hsequence, hlimit, hframe, hshort, hlength⟩ := h
  have hbounds := hrange.observedAt
  have hcipher := aead.length_encrypt credential.sessionKey (call.sealing credential).nonce
    (call.sealing credential).aad (call.sealing credential).plaintext
  have haad : (call.aad credential).length = 44 := length_aad hsession
  have hplain : 0 < (encodeMessage call.sample).length := length_encodeMessage_pos (by omega)
  have htotal := congrArg List.length hframe
  rw [List.length_append, List.length_append, haad] at htotal
  have hmagic : frame.take 4 = [0x41, 0x50, 0x4c, 0x31] := by
    rw [hframe]
    rfl
  have htake : frame.take 44 = call.aad credential := by
    rw [hframe, List.append_assoc, List.take_left' haad]
  -- the fields, one after the other
  have hstart : frame.drop 0 = [0x41, 0x50, 0x4c, 0x31] ++ (credential.sessionId ++
      (toBeBytes call.machinePk ++ (toBeBytes call.sequence ++
        (toBeBytes call.sample.observedAtMs.toNat ++ (toBeBytes32
          (aead.ciphertext credential.sessionKey (call.sealing credential)).length ++
            aead.ciphertext credential.sessionKey (call.sealing credential)))))) := by
    rw [List.drop_zero, hframe]
    simp only [SealCall.aad, List.append_assoc]
  have hid := drop_add_of_eq hstart
  have hmachineField := drop_add_of_eq hid
  rw [hsession] at hmachineField
  have hsequenceField := drop_add_of_eq hmachineField
  have hobservedField := drop_add_of_eq hsequenceField
  have hsize := drop_add_of_eq hobservedField
  have hciphertext := drop_add_of_eq hsize
  simp only [length_toBeBytes, length_toBeBytes32, List.length_cons, List.length_nil, Nat.zero_add,
    Nat.reduceAdd] at hid hmachineField hsequenceField hobservedField hsize hciphertext htotal
  have hread : ∀ {value offset : ℕ} {rest : Bytes}, value ≤ 2 ^ 53 - 1 →
      frame.drop offset = toBeBytes value ++ rest → readUnsigned64 frame offset = some value := by
    intro value offset rest hvalue hdrop
    have hnumber : bigEndian ((frame.drop offset).take 8) = value := by
      rw [hdrop, List.take_left' (length_toBeBytes value), bigEndian_toBeBytes (by omega)]
    rw [readUnsigned64, hnumber]
    exact if_pos hvalue
  have hcipherLength : (aead.ciphertext credential.sessionKey (call.sealing credential)).length =
      (encodeMessage call.sample).length + 16 := hcipher
  have hnumber : bigEndian ((frame.drop 44).take 4) =
      (aead.ciphertext credential.sessionKey (call.sealing credential)).length := by
    rw [hsize, List.take_left' (length_toBeBytes32 _), bigEndian_toBeBytes32 hshort]
  unfold Live.Frames.parseAgentLiveFrame Live.Hub.parseAgentLiveFrame
  rw [if_neg (by unfold Live.Hub.maxLiveFrameBytes; omega), if_neg (not_not.mpr hmagic)]
  dsimp only
  rw [hnumber, if_neg (by omega), hread hmachine hmachineField,
    hread (by omega) hsequenceField, hread (by omega) hobservedField, hid,
    List.take_left' hsession, hciphertext, htake]
  rfl

end Header

/-! ## The session -/

/-- The agent has the credential that was issued for the session of the hub's socket: its key is
derived from the secret and the session, and the ticket carries the session and the prefix. -/
structure Joined (platform : Platform) (secret : Bytes) (credential : LiveSessionCredential)
    (expected : Expected) : Prop where
  secret_length : 32 ≤ secret.length
  session_length : credential.sessionId.length = 16
  prefix_length : credential.noncePrefix.length = 4
  key : credential.sessionKey =
    platform.hmacSha256 secret (liveKeyLabel ++ 0 :: credential.sessionId)
  session_text : platform.decodeBase64Url expected.sessionId 16 = some credential.sessionId
  prefix_text : platform.decodeBase64Url expected.noncePrefix 4 = some credential.noncePrefix

section Joined

variable {platform : Platform} {secret : Bytes} {credential : LiveSessionCredential}
  {expected : Expected}

theorem Joined.derive (h : Joined platform secret credential expected) :
    deriveAgentLiveKey platform secret expected.sessionId = some credential.sessionKey := by
  have hlength := h.secret_length
  unfold deriveAgentLiveKey
  rw [h.session_text, Option.bind_eq_bind, Option.bind_some,
    if_neg (not_not.mpr h.session_length), keyedDigest, if_neg (by omega), h.key]
  simp

theorem all_zipIdx_self (bytes : Bytes) :
    (bytes.zipIdx.all fun byte ↦ bytes[byte.2]? == some byte.1) = true := by
  rw [List.all_eq_true]
  rintro ⟨byte, index⟩ hmem
  exact beq_iff_eq.mpr (List.mk_mem_zipIdx_iff_getElem?.mp hmem)

theorem Joined.nonce (h : Joined platform secret credential expected) {sequence : ℕ}
    (hpos : 0 < sequence) (hsafe : sequence ≤ 2 ^ 53 - 1) :
    Live.Frames.nonce credential.noncePrefix sequence =
      some (Agent.Live.nonce credential.noncePrefix sequence) := by
  rw [Live.Frames.nonce, if_neg]
  · rfl
  · rintro (hlength | hunsafe | hzero)
    · exact hlength h.prefix_length
    · exact hunsafe hsafe
    · omega

theorem Joined.decrypt (h : Joined platform secret credential expected) {frame : AgentLiveFrame}
    (hsession : frame.sessionId = credential.sessionId)
    (hmachine : frame.machinePk = expected.machinePk) (hpos : 0 < frame.sequence)
    (hsafe : frame.sequence ≤ 2 ^ 53 - 1) {plaintext : Bytes} {sample : LiveMetric}
    (hopen : platform.aead.decrypt credential.sessionKey
      (Agent.Live.nonce credential.noncePrefix frame.sequence) frame.aad frame.ciphertext =
        some plaintext)
    (hsample : decodeLiveMetricSample plaintext = some sample)
    (hobserved : sample.observedAt = frame.observedAt) :
    decryptAgentLiveFrame platform frame secret expected =
      some { sample with topic := "machine:" ++ toString frame.machinePk } := by
  unfold decryptAgentLiveFrame
  rw [h.session_text, Option.bind_eq_bind, Option.bind_some, if_neg, h.derive, Option.bind_some,
    h.prefix_text, Option.bind_some, h.nonce hpos hsafe, Option.bind_some, hopen,
    Option.bind_some, hsample, Option.bind_eq_bind, Option.bind_some,
    if_neg (not_not.mpr hobserved)]
  rintro (hlength | hbytes | hother)
  · exact hlength h.session_length
  · exact hbytes (hsession ▸ all_zipIdx_self _)
  · exact hother hmachine

/-- What the hub sends to viewers for a call of the agent. -/
def snapshot (call : SealCall) : LiveViewerSnapshot :=
  { metric call.sample with topic := "machine:" ++ toString call.machinePk }

variable {calls : List SealCall}

theorem Joined.receive_sealed (h : Joined platform secret credential expected) {call : SealCall}
    {frame : Bytes} (hideal : Ideal platform.aead credential.sessionKey
      (calls.map fun call ↦ call.sealing credential)) (hcall : call ∈ calls)
    (hrange : InRange call.sample) (hsafe : call.machinePk ≤ 2 ^ 53 - 1)
    (hmachine : call.machinePk = expected.machinePk)
    (hsealed : IsSealed platform.aead credential call frame) :
    receive platform secret expected frame = some (snapshot call) := by
  have hlimit := hsealed.sequence_le
  have hopens := hideal.opens _ (List.mem_map_of_mem hcall)
  rw [receive, parse_sealed h.session_length hrange hsafe hsealed, Option.bind_eq_bind,
    Option.bind_some]
  exact h.decrypt rfl hmachine hsealed.sequence_pos (hlimit.trans (by decide)) hopens
    (decodeLiveMetricSample_encodeMessage hrange) rfl

theorem of_parse {message : Bytes} {frame : AgentLiveFrame}
    (h : parseAgentLiveFrame message = some frame) :
    64 ≤ message.length ∧
      bigEndian ((message.drop 44).take 4) = (message.drop 48).length ∧
      frame.aad = message.take 44 ∧ frame.ciphertext = message.drop 48 := by
  obtain ⟨header, hheader, rfl⟩ := Option.map_eq_some_iff.mp h
  unfold Live.Hub.parseAgentLiveFrame at hheader
  split at hheader
  · cases hheader
  · split at hheader
    · cases hheader
    · dsimp only at hheader
      split at hheader
      · cases hheader
      · next hsize =>
        rw [List.length_drop]
        exact ⟨by omega, by omega, rfl, rfl⟩

theorem Joined.opened_of_receive (h : Joined platform secret credential expected)
    {message : Bytes} {received : LiveViewerSnapshot}
    (hreceived : receive platform secret expected message = some received) :
    64 ≤ message.length ∧
      bigEndian ((message.drop 44).take 4) = (message.drop 48).length ∧
      ∃ nonce plaintext, platform.aead.decrypt credential.sessionKey nonce (message.take 44)
        (message.drop 48) = some plaintext := by
  obtain ⟨frame, hparse, hdecrypt⟩ := Option.bind_eq_some_iff.mp hreceived
  obtain ⟨hlength, hsize, haad, hciphertext⟩ := of_parse hparse
  refine ⟨hlength, hsize, ?_⟩
  unfold decryptAgentLiveFrame at hdecrypt
  obtain ⟨session, -, hdecrypt⟩ := Option.bind_eq_some_iff.mp hdecrypt
  split at hdecrypt
  · cases hdecrypt
  · obtain ⟨key, hkey, hdecrypt⟩ := Option.bind_eq_some_iff.mp hdecrypt
    obtain ⟨noncePrefix, -, hdecrypt⟩ := Option.bind_eq_some_iff.mp hdecrypt
    obtain ⟨iv, -, hdecrypt⟩ := Option.bind_eq_some_iff.mp hdecrypt
    obtain ⟨plaintext, hplaintext, -⟩ := Option.bind_eq_some_iff.mp hdecrypt
    obtain rfl := Option.some.inj (h.derive.symm.trans hkey)
    rw [haad, hciphertext] at hplaintext
    exact ⟨iv, plaintext, hplaintext⟩

theorem Joined.sealed_of_receive (h : Joined platform secret credential expected)
    (hideal : Ideal platform.aead credential.sessionKey
      (calls.map fun call ↦ call.sealing credential))
    (hsealed : ∀ call ∈ calls, ∃ frame, sealLiveSnapshot platform.aead credential call = .ok frame)
    {message : Bytes} {received : LiveViewerSnapshot}
    (hreceived : receive platform secret expected message = some received) :
    ∃ call ∈ calls, sealLiveSnapshot platform.aead credential call = .ok message := by
  obtain ⟨hlength, hsize, nonce, plaintext, hopened⟩ := h.opened_of_receive hreceived
  obtain ⟨hmem, hciphertext⟩ := hideal.authentic hopened
  obtain ⟨call, hcall, hsealing⟩ := List.mem_map.mp hmem
  obtain ⟨frame, hok⟩ := hsealed call hcall
  have hframe := (isSealed_of_ok hok).frame_eq
  have haad : call.aad credential = message.take 44 := congrArg Sealing.aad hsealing
  have hfour : ((message.drop 44).take 4).length = 4 := by
    rw [List.length_take, List.length_drop]
    omega
  have hlengthField := toBeBytes32_bigEndian hfour
  rw [hsize] at hlengthField
  rw [hsealing, ← hciphertext, haad, hlengthField] at hframe
  have hmessage : message = message.take 44 ++ (message.drop 44).take 4 ++ message.drop 48 := by
    conv_lhs => rw [← List.take_append_drop 44 message, ← List.take_append_drop 4 (message.drop 44),
      List.drop_drop, ← List.append_assoc]
  rw [← hmessage] at hframe
  exact ⟨call, hcall, hframe ▸ hok⟩

/-- Changes of a frame: the header stays and the length does not, a piece is missing, or the
ciphertext stays and the header does not. -/
inductive Altered (frame : Bytes) : Bytes → Prop where
  | resized {message : Bytes} (hheader : message.take 48 = frame.take 48)
      (hlength : message.length ≠ frame.length) : Altered frame message
  | cut {first next : ℕ} (hlt : first < next) (hle : next ≤ frame.length) :
      Altered frame (frame.take first ++ frame.drop next)
  | header {message : Bytes} (hlength : message.length = frame.length)
      (hciphertext : message.drop 48 = frame.drop 48) (hne : message ≠ frame) :
      Altered frame message

theorem drop_of_isSealed (hsession : credential.sessionId.length = 16) {aead : Aead}
    {call : SealCall} {frame : Bytes} (h : IsSealed aead credential call frame) :
    frame.drop 48 = aead.ciphertext credential.sessionKey (call.sealing credential) ∧
      frame.length = 48 + (frame.drop 48).length ∧
      bigEndian ((frame.drop 44).take 4) = (frame.drop 48).length := by
  have haad : (call.aad credential).length = 44 := length_aad hsession
  have hheader : (call.aad credential ++ toBeBytes32
      (aead.ciphertext credential.sessionKey (call.sealing credential)).length).length = 48 := by
    rw [List.length_append, haad, length_toBeBytes32]
  have hdrop : frame.drop 48 =
      aead.ciphertext credential.sessionKey (call.sealing credential) := by
    rw [h.frame_eq, List.drop_left' hheader]
  have hsize : (frame.drop 44).take 4 = toBeBytes32
      (aead.ciphertext credential.sessionKey (call.sealing credential)).length := by
    rw [h.frame_eq, List.append_assoc, List.drop_left' haad, List.take_left' (length_toBeBytes32 _)]
  refine ⟨hdrop, ?_, ?_⟩
  · rw [hdrop, h.frame_eq, List.length_append, hheader]
  · rw [hdrop, hsize, bigEndian_toBeBytes32 h.ciphertext_lt]

theorem Joined.rejects_altered (h : Joined platform secret credential expected)
    (hideal : Ideal platform.aead credential.sessionKey
      (calls.map fun call ↦ call.sealing credential))
    (hsealed : ∀ call ∈ calls, ∃ frame, sealLiveSnapshot platform.aead credential call = .ok frame)
    {call : SealCall} (hcall : call ∈ calls) {frame message : Bytes}
    (hframe : sealLiveSnapshot platform.aead credential call = .ok frame)
    (haltered : Altered frame message) : receive platform secret expected message = none := by
  by_contra hsome
  obtain ⟨received, hreceived⟩ := Option.ne_none_iff_exists'.mp hsome
  obtain ⟨other, hother, hmessage⟩ := h.sealed_of_receive hideal hsealed hreceived
  obtain ⟨hcipher, hlength, hsize⟩ := drop_of_isSealed h.session_length (isSealed_of_ok hframe)
  obtain ⟨hcipher', hlength', hsize'⟩ :=
    drop_of_isSealed h.session_length (isSealed_of_ok hmessage)
  -- a ciphertext that ends another one is its own
  have hsame (hsuffix : message.drop 48 <:+ frame.drop 48) : message = frame := by
    rw [hcipher, hcipher'] at hsuffix
    have hsealing := hideal.unrelated _ (List.mem_map_of_mem hother) _ (List.mem_map_of_mem hcall)
      hsuffix
    have heq : sealLiveSnapshot platform.aead credential other =
        sealLiveSnapshot platform.aead credential call := by
      have haad : other.aad credential = call.aad credential := congrArg Sealing.aad hsealing
      have hleft := (isSealed_of_ok hmessage).frame_eq
      have hright := (isSealed_of_ok hframe).frame_eq
      rw [hsealing, haad] at hleft
      rw [hmessage, hframe, hleft, ← hright]
    exact Except.ok.inj (hmessage.symm.trans (heq.trans hframe))
  -- a header that stays says how long the frame is
  have hresized (hheader : message.take 48 = frame.take 48) :
      message.length = frame.length := by
    have hfield : (message.drop 44).take 4 = (frame.drop 44).take 4 := by
      have hdrop := congrArg (List.drop 44) hheader
      rwa [List.drop_take, List.drop_take] at hdrop
    rw [hfield, hsize] at hsize'
    omega
  cases haltered with
  | resized hheader hne => exact hne (hresized hheader)
  | @cut first next hlt hle =>
    have hshort : (frame.take first ++ frame.drop next).length < frame.length := by
      rw [List.length_append, List.length_take, List.length_drop]
      omega
    have htake : (frame.take first).length = first := List.length_take_of_le (by omega)
    by_cases hfirst : 48 ≤ first
    · have hheader : (frame.take first ++ frame.drop next).take 48 = frame.take 48 := by
        rw [List.take_append_of_le_length (by omega), List.take_take, Nat.min_eq_left hfirst]
      exact hshort.ne (hresized hheader)
    · have hrest : (frame.take first ++ frame.drop next).drop 48 =
          (frame.drop 48).drop (next - first) := by
        rw [List.drop_append, htake, List.drop_of_length_le (by omega), List.nil_append,
          List.drop_drop, List.drop_drop]
        congr 1
        omega
      exact hshort.ne (congrArg List.length (hsame (hrest ▸ List.drop_suffix _ _)))
  | header hsize hciphertext hne => exact hne (hsame (hciphertext ▸ List.suffix_rfl))

end Joined

/-- The frames of a session, with an ideal cipher. What the agent has sealed of numbers that both
sides can hold is received as it was meant, nothing else is received, and a frame that was changed
is rejected. -/
theorem receive_sealed_iff (platform : Platform) (secret : Bytes)
    (credential : LiveSessionCredential) (expected : Expected)
    (hjoined : Joined platform secret credential expected) (calls : List SealCall)
    (hsealed : ∀ call ∈ calls, ∃ frame,
      sealLiveSnapshot platform.aead credential call = .ok frame)
    (hideal : Ideal platform.aead credential.sessionKey
      (calls.map fun call ↦ call.sealing credential)) :
    (∀ call ∈ calls, InRange call.sample → call.machinePk ≤ 2 ^ 53 - 1 →
      call.machinePk = expected.machinePk → ∀ frame,
        sealLiveSnapshot platform.aead credential call = .ok frame →
          receive platform secret expected frame = some (snapshot call)) ∧
      (∀ message received, receive platform secret expected message = some received →
        ∃ call ∈ calls, sealLiveSnapshot platform.aead credential call = .ok message) ∧
      ∀ call ∈ calls, ∀ frame, sealLiveSnapshot platform.aead credential call = .ok frame →
        ∀ message, Altered frame message → receive platform secret expected message = none := by
  refine ⟨?_, ?_, ?_⟩
  · intro call hcall hrange hsafe hmachine frame hframe
    exact hjoined.receive_sealed hideal hcall hrange hsafe hmachine (isSealed_of_ok hframe)
  · intro message received hreceived
    exact hjoined.sealed_of_receive hideal hsealed hreceived
  · intro call hcall frame hframe message haltered
    exact hjoined.rejects_altered hideal hsealed hcall hframe haltered

/-! ## A session with one frame -/

def sampleCall : SealCall where
  machinePk := 7
  sequence := 3
  sample :=
    { observedAtMs := 1752580800000
      cpuPermille := 417
      memoryUsedBytes := 2048
      load1mMilli := some 1250
      uptimeSeconds := some 86400 }

def sampleCredential : LiveSessionCredential where
  sessionId := List.replicate 16 1
  sessionKey := List.replicate 32 2
  noncePrefix := List.replicate 4 3

/-- The texts are those of the session and of the prefix. -/
def samplePlatform : Platform where
  aead := Library.SealedMessages.recorded [sampleCall.sealing sampleCredential]
  hmacSha256 _ _ := List.replicate 32 2
  decodeBase64Url text _ :=
    if text = "AQEBAQEBAQEBAQEBAQEBAQ" then some (List.replicate 16 1)
    else if text = "AwMDAw" then some (List.replicate 4 3)
    else none

def sampleExpected : Expected where
  sessionId := "AQEBAQEBAQEBAQEBAQEBAQ"
  noncePrefix := "AwMDAw"
  machinePk := 7

/-- The frame of the session is received, and is not when it is cut after its header. -/
theorem receive_sealed_iff_sample :
    ∃ frame, sealLiveSnapshot samplePlatform.aead sampleCredential sampleCall = .ok frame ∧
      receive samplePlatform (List.replicate 32 5) sampleExpected frame =
        some (snapshot sampleCall) ∧
      receive samplePlatform (List.replicate 32 5) sampleExpected
        (frame.take 48 ++ frame.drop 50) = none := by
  have hjoined : Joined samplePlatform (List.replicate 32 5) sampleCredential sampleExpected :=
    ⟨by decide, rfl, rfl, rfl, rfl, rfl⟩
  obtain ⟨frame, hframe⟩ : ∃ frame,
      sealLiveSnapshot samplePlatform.aead sampleCredential sampleCall = .ok frame := ⟨_, rfl⟩
  have hsealed : ∀ call ∈ [sampleCall], ∃ frame,
      sealLiveSnapshot samplePlatform.aead sampleCredential call = .ok frame := by
    intro call hcall
    rw [List.mem_singleton.mp hcall]
    exact ⟨frame, hframe⟩
  have hrange : InRange sampleCall.sample := ⟨by decide, by decide, by decide⟩
  have hlength : 64 ≤ frame.length := (of_parse
    (parse_sealed hjoined.session_length hrange (by decide) (isSealed_of_ok hframe))).1
  obtain ⟨hreceived, -, haltered⟩ := receive_sealed_iff samplePlatform (List.replicate 32 5)
    sampleCredential sampleExpected hjoined [sampleCall] hsealed
      (Library.SealedMessages.ideal_recorded _ _)
  exact ⟨frame, hframe, hreceived sampleCall (List.mem_singleton_self _) hrange (by decide) rfl
    frame hframe, haltered sampleCall (List.mem_singleton_self _) frame hframe _
      (.cut (by decide) (by omega))⟩

end AlphaPing.System.LiveFrames
