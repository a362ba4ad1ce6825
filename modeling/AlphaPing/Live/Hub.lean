import Mathlib.Order.Lattice.Nat

/-!
# The live hub

A durable object holds the sockets of agents and viewers. A frame of an agent is checked against
the sequences that its session has used, decrypted, and then relayed to the viewers of its
machine. The decryption is the only point at which another event can come between.

What the hub knows about a session is in two places. The memory is lost when the object is
evicted, and its entry for the session is deleted when the last socket of the session closes. The
attachment of a socket survives an eviction and goes with the socket.

The cipher is not modelled: whether a frame can be opened is a choice of the event that finishes
its decryption. `relayed` is not a field of the source; it records what viewers were sent.
-/

namespace AlphaPing.Live.Hub

def maxLiveFrameBytes : ℕ := 16 * 1024

def liveFreshnessMs : ℤ := 20000

def maxLiveSequence : ℕ := 1000000

def maxSequenceJump : ℕ := 1024

def maxAgentConnectionsPerSession : ℕ := 2

def maxViewerConnectionsPerTopic : ℕ := 4

/-! ## Frames -/

/-- The fields of `AgentLiveFrameHeader` that are read before the decryption. -/
structure FrameHeader where
  sessionId : List UInt8
  machinePk : ℕ
  sequence : ℕ
  observedAt : ℕ

def bigEndian (bytes : List UInt8) : ℕ :=
  bytes.foldl (fun value byte ↦ value * 256 + byte.toNat) 0

/-- `readUnsigned64`; a value that is no safe integer throws. -/
def readUnsigned64 (bytes : List UInt8) (offset : ℕ) : Option ℕ :=
  let value := bigEndian ((bytes.drop offset).take 8)
  if value ≤ 2 ^ 53 - 1 then some value else none

def parseAgentLiveFrame (bytes : List UInt8) : Option FrameHeader :=
  if bytes.length < 48 + 16 ∨ maxLiveFrameBytes < bytes.length then none
  else if bytes.take 4 ≠ [0x41, 0x50, 0x4c, 0x31] then none
  else
    let ciphertextBytes := bigEndian ((bytes.drop 44).take 4)
    if ciphertextBytes < 16 ∨ 48 + ciphertextBytes ≠ bytes.length then none
    else do
      let machinePk ← readUnsigned64 bytes 20
      let sequence ← readUnsigned64 bytes 28
      let observedAt ← readUnsigned64 bytes 36
      some ⟨(bytes.drop 4).take 16, machinePk, sequence, observedAt⟩

/-- What a socket receives. -/
inductive Message where
  | text
  | binary (bytes : List UInt8)

/-! ## Sockets and sessions -/

structure AgentSocket where
  id : ℕ
  sessionId : String
  /-- The machine of its only topic. -/
  topic : ℕ
  expiresAt : ℤ
  highestSequence : Option ℕ
  /-- `readyState` is `OPEN`. -/
  isOpen : Bool

structure ViewerSocket where
  id : ℕ
  subjectId : String
  topic : ℕ
  expiresAt : ℤ
  isOpen : Bool

structure SessionSequenceState where
  committed : Option ℕ
  pending : Finset ℕ

/-- A frame whose decryption is awaited, with the local variables that are used after it. -/
structure Flight where
  socket : ℕ
  sessionId : String
  topic : ℕ
  sequence : ℕ
  now : ℤ
  sessionSockets : List ℕ

/-- A frame that viewers were sent, and the frames of its session then being decrypted. -/
structure Relay where
  sessionId : String
  sequence : ℕ
  recipients : List ℕ
  inFlight : List ℕ

structure LiveHub where
  nextSocket : ℕ
  agents : List AgentSocket
  viewers : List ViewerSocket
  /-- `sequenceStates`, in memory. -/
  sequenceStates : String → Option SessionSequenceState
  /-- The suspended calls of `webSocketMessage`, in memory. -/
  flights : List Flight
  relayed : List Relay

def LiveHub.empty : LiveHub := ⟨0, [], [], fun _ ↦ none, [], []⟩

/-- `socket.close`. The socket is returned by `getWebSockets` until its close event. -/
def LiveHub.close (hub : LiveHub) (socket : ℕ) : LiveHub :=
  { hub with
    agents := hub.agents.map fun agent ↦
      if agent.id = socket then { agent with isOpen := false } else agent
    viewers := hub.viewers.map fun viewer ↦
      if viewer.id = socket then { viewer with isOpen := false } else viewer }

def LiveHub.hasViewer (hub : LiveHub) (topic : ℕ) (now : ℤ) : Bool :=
  hub.viewers.any fun viewer ↦ viewer.topic = topic && decide (now < viewer.expiresAt)

/-- `getWebSockets` for the tag of a session. -/
def LiveHub.sessionSockets (hub : LiveHub) (sessionId : String) : List AgentSocket :=
  hub.agents.filter fun agent ↦ agent.sessionId = sessionId

/-! ## Connecting -/

/-- The upgrade of an agent. Expired sockets of its session are closed on the way. -/
def LiveHub.connectAgent (hub : LiveHub) (sessionId : String) (topic : ℕ) (expiresAt now : ℤ) :
    LiveHub :=
  if expiresAt ≤ now then hub
  else
    let expired := (hub.sessionSockets sessionId).filter fun agent ↦ agent.expiresAt ≤ now
    let active := (hub.sessionSockets sessionId).countP fun agent ↦ now < agent.expiresAt
    let hub := expired.foldl (fun hub agent ↦ hub.close agent.id) hub
    if active < maxAgentConnectionsPerSession then
      { hub with
        nextSocket := hub.nextSocket + 1
        agents := hub.agents ++ [⟨hub.nextSocket, sessionId, topic, expiresAt, none, true⟩] }
    else hub

/-- The upgrade of a viewer. -/
def LiveHub.connectViewer (hub : LiveHub) (subjectId : String) (topic : ℕ)
    (expiresAt now : ℤ) : LiveHub :=
  if expiresAt ≤ now then hub
  else
    let same := hub.viewers.filter fun viewer ↦
      viewer.subjectId = subjectId ∧ viewer.topic = topic
    let expired := same.filter fun viewer ↦ viewer.expiresAt ≤ now
    let active := same.countP fun viewer ↦ now < viewer.expiresAt
    let hub := expired.foldl (fun hub viewer ↦ hub.close viewer.id) hub
    if active < maxViewerConnectionsPerTopic then
      { hub with
        nextSocket := hub.nextSocket + 1
        viewers := hub.viewers ++ [⟨hub.nextSocket, subjectId, topic, expiresAt, true⟩] }
    else hub

/-! ## A frame up to its decryption -/

/-- `Math.max(committed ?? 0, sequence)`. -/
def raise (committed : Option ℕ) (sequence : ℕ) : ℕ :=
  max (committed.getD 0) sequence

/-- One turn of the loop over the sockets of the session. -/
def commitAttached (committed : Option ℕ) (agent : AgentSocket) : Option ℕ :=
  match agent.highestSequence with
  | none => committed
  | some sequence => some (raise committed sequence)

/-- `committed` after the loop over the sockets of the session. -/
def LiveHub.attached (hub : LiveHub) (current : AgentSocket) : Option ℕ :=
  (hub.sessionSockets current.sessionId).foldl commitAttached current.highestSequence

/-- The entry of the map after `committed` was taken into account. -/
def LiveHub.sequenceState (hub : LiveHub) (current : AgentSocket) : SessionSequenceState :=
  match hub.sequenceStates current.sessionId, hub.attached current with
  | none, committed => ⟨committed, ∅⟩
  | some state, none => state
  | some state, some committed => { state with committed := some (raise state.committed committed) }

/-- `highest` after the loop over the pending sequences. -/
def SessionSequenceState.highest (state : SessionSequenceState) : Option ℕ :=
  if state.pending = ∅ then state.committed
  else some (raise state.committed (state.pending.sup id))

/-- `live_frame_replay`. -/
def SessionSequenceState.refuses (state : SessionSequenceState) (sequence : ℕ) : Bool :=
  match state.highest with
  | none => false
  | some highest => decide (sequence ≤ highest ∨ highest + maxSequenceJump < sequence)

def LiveHub.setState (hub : LiveHub) (sessionId : String) (state : Option SessionSequenceState) :
    LiveHub :=
  { hub with sequenceStates := Function.update hub.sequenceStates sessionId state }

@[simp] theorem LiveHub.setState_self (hub : LiveHub) (sessionId : String)
    (state : Option SessionSequenceState) :
    (hub.setState sessionId state).sequenceStates sessionId = state :=
  Function.update_self ..

theorem LiveHub.setState_other {sessionId other : String} (hub : LiveHub)
    (state : Option SessionSequenceState) (h : other ≠ sessionId) :
    (hub.setState sessionId state).sequenceStates other = hub.sequenceStates other :=
  Function.update_of_ne h ..

/-- The sequence is pending and the decryption is awaited. -/
def LiveHub.suspend (hub : LiveHub) (current : AgentSocket) (state : SessionSequenceState)
    (sequence : ℕ) (now : ℤ) : LiveHub :=
  { hub with
    sequenceStates := Function.update hub.sequenceStates current.sessionId
      (some { state with pending := insert sequence state.pending })
    flights := hub.flights ++ [⟨current.id, current.sessionId, current.topic, sequence, now,
      current.id :: (hub.sessionSockets current.sessionId).map (·.id)⟩] }

/-- From the parsed frame to the call of `decryptAgentLiveFrame`. The entry of the map is written
before the check for a replay. -/
def LiveHub.acceptFrame (hub : LiveHub) (current : AgentSocket) (frame : FrameHeader)
    (now : ℤ) : LiveHub :=
  if frame.sequence = 0 ∨ maxLiveSequence < frame.sequence ∨
      (frame.observedAt : ℤ) < now - liveFreshnessMs ∨ now + 5000 < frame.observedAt then
    hub.close current.id
  else if (hub.sequenceState current).refuses frame.sequence then
    (hub.setState current.sessionId (some (hub.sequenceState current))).close current.id
  else hub.suspend current (hub.sequenceState current) frame.sequence now

/-- `webSocketMessage` on the socket of an agent, up to the decryption. -/
def LiveHub.webSocketMessage (hub : LiveHub) (socket : ℕ) (message : Message) (now : ℤ) :
    LiveHub :=
  match hub.agents.find? fun agent ↦ agent.id = socket with
  | none => hub
  | some current =>
    if current.expiresAt ≤ now then hub.close socket
    else match message with
      | .text => hub.close socket
      | .binary bytes =>
        if maxLiveFrameBytes < bytes.length then hub.close socket
        else if !hub.hasViewer current.topic now then hub
        else match parseAgentLiveFrame bytes with
          | none => hub.close socket
          | some frame => hub.acceptFrame current frame now

/-! ## A frame from its decryption on -/

def raiseAttachments (agents : List AgentSocket) (sessionSockets : List ℕ) (sessionId : String)
    (committed : ℕ) : List AgentSocket :=
  agents.map fun agent ↦
    if agent.id ∈ sessionSockets ∧ agent.sessionId = sessionId ∧
        agent.highestSequence.getD 0 < committed then
      { agent with highestSequence := some committed }
    else agent

/-- The viewers that are sent the snapshot. -/
def LiveHub.audience (hub : LiveHub) (flight : Flight) : List ℕ :=
  (hub.viewers.filter fun viewer ↦
    viewer.topic = flight.topic && decide (flight.now < viewer.expiresAt)).map (·.id)

/-- The other frames that are being decrypted. -/
def LiveHub.otherFlights (hub : LiveHub) (sessionId : String) (sequence : ℕ) : List Flight :=
  hub.flights.filter fun other ↦ ¬(other.sessionId = sessionId ∧ other.sequence = sequence)

/-- The sequences of a session that are being decrypted. -/
def sequencesOf (sessionId : String) (flights : List Flight) : List ℕ :=
  (flights.filter fun flight ↦ flight.sessionId = sessionId).map (·.sequence)

/-- The catch clause around `decryptAgentLiveFrame`. -/
def LiveHub.drop (hub : LiveHub) (flight : Flight) (state : SessionSequenceState) : LiveHub :=
  { hub with
    sequenceStates := Function.update hub.sequenceStates flight.sessionId
      (some { state with pending := state.pending.erase flight.sequence })
    flights := hub.otherFlights flight.sessionId flight.sequence }

/-- The frame is committed, and the viewers that can be reached have the snapshot. -/
def LiveHub.send (hub : LiveHub) (flight : Flight) (state : SessionSequenceState)
    (reached : List ℕ) : LiveHub :=
  { hub with
    sequenceStates := Function.update hub.sequenceStates flight.sessionId
      (some ⟨some (raise state.committed flight.sequence), state.pending.erase flight.sequence⟩)
    agents := raiseAttachments hub.agents flight.sessionSockets flight.sessionId
      (raise state.committed flight.sequence)
    flights := hub.otherFlights flight.sessionId flight.sequence
    relayed := if reached = [] then hub.relayed
      else hub.relayed ++ [⟨flight.sessionId, flight.sequence, reached,
        sequencesOf flight.sessionId (hub.otherFlights flight.sessionId flight.sequence)⟩] }

/-- After the decryption. A send to a viewer of `failing` throws, and the viewer is closed. -/
def LiveHub.relay (hub : LiveHub) (flight : Flight) (state : SessionSequenceState)
    (failing : List ℕ) : LiveHub :=
  ((hub.audience flight).filter fun viewer ↦ viewer ∈ failing).foldl (·.close ·)
    (hub.send flight state ((hub.audience flight).filter fun viewer ↦ viewer ∉ failing))

/-- `webSocketMessage` after `decryptAgentLiveFrame`, which yields a snapshot if `opened`. The
call holds the object that is the entry of the map: an entry is not deleted while a sequence is
pending. -/
def LiveHub.finishFrame (hub : LiveHub) (sessionId : String) (sequence : ℕ) (opened : Bool)
    (failing : List ℕ) : LiveHub :=
  match hub.flights.find? fun flight ↦ flight.sessionId = sessionId ∧ flight.sequence = sequence,
      hub.sequenceStates sessionId with
  | some flight, some state =>
    if opened then hub.relay flight state failing
    else (hub.drop flight state).close flight.socket
  | _, _ => hub

/-! ## Closing -/

/-- `webSocketClose`, with the removal of the socket. -/
def LiveHub.webSocketClose (hub : LiveHub) (socket : ℕ) : LiveHub :=
  match hub.agents.find? fun agent ↦ agent.id = socket with
  | none => { hub with viewers := hub.viewers.filter fun viewer ↦ viewer.id ≠ socket }
  | some current =>
    let others := (hub.sessionSockets current.sessionId).any fun candidate ↦
      candidate.id ≠ socket && candidate.isOpen
    let pending := match hub.sequenceStates current.sessionId with
      | none => 0
      | some state => state.pending.card
    { hub with
      sequenceStates := if !others && pending = 0 then
          Function.update hub.sequenceStates current.sessionId none
        else hub.sequenceStates
      agents := hub.agents.filter fun agent ↦ agent.id ≠ socket }

/-- The object leaves the memory; its sockets and their attachments stay. -/
def LiveHub.evict (hub : LiveHub) : LiveHub :=
  { hub with sequenceStates := fun _ ↦ none, flights := [] }

/-! ## Runs -/

inductive Event where
  | connectAgent (sessionId : String) (topic : ℕ) (expiresAt now : ℤ)
  | connectViewer (subjectId : String) (topic : ℕ) (expiresAt now : ℤ)
  | message (socket : ℕ) (message : Message) (now : ℤ)
  | decrypted (sessionId : String) (sequence : ℕ) (opened : Bool) (failing : List ℕ)
  /-- The hub closes a socket: an expired ticket, a demand that cannot be delivered. -/
  | serverClose (socket : ℕ)
  | closed (socket : ℕ)
  | evicted

def step (hub : LiveHub) : Event → LiveHub
  | .connectAgent sessionId topic expiresAt now => hub.connectAgent sessionId topic expiresAt now
  | .connectViewer subjectId topic expiresAt now => hub.connectViewer subjectId topic expiresAt now
  | .message socket message now => hub.webSocketMessage socket message now
  | .decrypted sessionId sequence opened failing =>
    hub.finishFrame sessionId sequence opened failing
  | .serverClose socket => hub.close socket
  | .closed socket => hub.webSocketClose socket
  | .evicted => hub.evict

end AlphaPing.Live.Hub
