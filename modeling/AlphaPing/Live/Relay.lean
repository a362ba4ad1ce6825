import AlphaPing.Library.Runs
import AlphaPing.Live.Hub

/-!
# What the live hub relays

A frame is refused unless its sequence is above every sequence that the hub has a record of, be it
committed, pending or attached to a socket. A frame that is being decrypted when a greater one is
relayed is relayed after it: the check was made before the decryption and is not repeated.

The record of a session can be lost, with its last socket or with the memory after a socket went.
Up to then no sequence of the session is relayed twice, and none after a greater one except those
whose decryption was under way.
-/

namespace AlphaPing.Live.Relay

open Library.Runs Hub

variable {hub after : LiveHub} {sessionId : String} {sequence since : ℕ}

/-! ## The record of a session -/

/-- The memory or the attachment of a socket tells of a sequence that is at least this one. -/
def records (hub : LiveHub) (sessionId : String) (sequence : ℕ) : Bool :=
  ((hub.sequenceStates sessionId).bind (·.committed)).any (fun known ↦ sequence ≤ known) ||
    hub.agents.any fun agent ↦
      agent.sessionId = sessionId && agent.highestSequence.any fun known ↦ sequence ≤ known

theorem records_iff : records hub sessionId sequence = true ↔
    (∃ state, hub.sequenceStates sessionId = some state ∧
      ∃ known, state.committed = some known ∧ sequence ≤ known) ∨
    ∃ agent ∈ hub.agents, agent.sessionId = sessionId ∧
      ∃ known, agent.highestSequence = some known ∧ sequence ≤ known := by
  simp only [records, Bool.or_eq_true, Option.any_eq_true, Option.bind_eq_some_iff,
    decide_eq_true_eq, List.any_eq_true, Bool.and_eq_true]
  constructor
  · rintro (⟨known, ⟨state, hstate, hknown⟩, hle⟩ | hagent)
    · exact .inl ⟨state, hstate, known, hknown, hle⟩
    · exact .inr hagent
  · rintro (⟨state, hstate, known, hknown, hle⟩ | hagent)
    · exact .inl ⟨known, ⟨state, hstate, hknown⟩, hle⟩
    · exact .inr hagent

/-- Whatever the hub had a record of, it still has. -/
structure Retains (hub after : LiveHub) : Prop where
  states : ∀ sessionId state, hub.sequenceStates sessionId = some state →
    ∀ known, state.committed = some known →
      ∃ state', after.sequenceStates sessionId = some state' ∧
        ∃ known', state'.committed = some known' ∧ known ≤ known'
  agents : ∀ agent ∈ hub.agents, ∀ known, agent.highestSequence = some known →
    ∃ agent' ∈ after.agents, agent'.sessionId = agent.sessionId ∧
      ∃ known', agent'.highestSequence = some known' ∧ known ≤ known'

variable {middle : LiveHub} {state : SessionSequenceState}

theorem Retains.trans (h : Retains hub middle) (h' : Retains middle after) :
    Retains hub after where
  states sessionId state hstate known hknown := by
    obtain ⟨state', hstate', known', hknown', hle⟩ := h.states sessionId state hstate known hknown
    obtain ⟨last, hlast, known'', hknown'', hle'⟩ :=
      h'.states sessionId state' hstate' known' hknown'
    exact ⟨last, hlast, known'', hknown'', hle.trans hle'⟩
  agents agent hagent known hknown := by
    obtain ⟨agent', hagent', hsession, known', hknown', hle⟩ := h.agents agent hagent known hknown
    obtain ⟨last, hlast, hsession', known'', hknown'', hle'⟩ :=
      h'.agents agent' hagent' known' hknown'
    exact ⟨last, hlast, hsession'.trans hsession, known'', hknown'', hle.trans hle'⟩

theorem Retains.records (h : Retains hub after) (hrecords : records hub sessionId sequence) :
    records after sessionId sequence := by
  rw [records_iff] at hrecords ⊢
  rcases hrecords with ⟨state, hstate, known, hknown, hle⟩ |
    ⟨agent, hagent, rfl, known, hknown, hle⟩
  · obtain ⟨state', hstate', known', hknown', hle'⟩ := h.states sessionId state hstate known hknown
    exact .inl ⟨state', hstate', known', hknown', hle.trans hle'⟩
  · obtain ⟨agent', hagent', hsession, known', hknown', hle'⟩ := h.agents agent hagent known hknown
    exact .inr ⟨agent', hagent', hsession, known', hknown', hle.trans hle'⟩

/-- Nothing changes but which sockets are open. -/
structure Closes (hub after : LiveHub) : Prop where
  relayed : after.relayed = hub.relayed
  flights : after.flights = hub.flights
  sequenceStates : after.sequenceStates = hub.sequenceStates
  attachments : after.agents.map (fun agent ↦ (agent.sessionId, agent.highestSequence)) =
    hub.agents.map fun agent ↦ (agent.sessionId, agent.highestSequence)

theorem Closes.refl (hub : LiveHub) : Closes hub hub := ⟨rfl, rfl, rfl, rfl⟩

theorem Closes.trans (h : Closes hub middle) (h' : Closes middle after) : Closes hub after :=
  ⟨h'.relayed.trans h.relayed, h'.flights.trans h.flights,
    h'.sequenceStates.trans h.sequenceStates, h'.attachments.trans h.attachments⟩

theorem closes_close (hub : LiveHub) (socket : ℕ) : Closes hub (hub.close socket) := by
  refine ⟨rfl, rfl, rfl, ?_⟩
  rw [LiveHub.close, List.map_map]
  apply List.map_congr_left
  intro agent hagent
  rw [Function.comp_apply]
  split <;> rfl

theorem closes_foldl {Socket : Type*} (socketId : Socket → ℕ) (sockets : List Socket)
    (hub : LiveHub) :
    Closes hub (sockets.foldl (fun hub socket ↦ hub.close (socketId socket)) hub) := by
  induction sockets generalizing hub with
  | nil => exact .refl hub
  | cons socket rest ih => exact (closes_close hub (socketId socket)).trans (ih _)

theorem Closes.retains (h : Closes hub after) : Retains hub after where
  states sessionId state hstate known hknown :=
    ⟨state, by rw [h.sequenceStates, hstate], known, hknown, le_rfl⟩
  agents agent hagent known hknown := by
    have hpair : (agent.sessionId, agent.highestSequence) ∈
        after.agents.map fun agent ↦ (agent.sessionId, agent.highestSequence) := by
      rw [h.attachments]
      exact List.mem_map_of_mem hagent
    obtain ⟨agent', hagent', heq⟩ := List.mem_map.mp hpair
    obtain ⟨hsession, hhighest⟩ := Prod.mk.inj heq
    exact ⟨agent', hagent', hsession, known, hhighest.trans hknown, le_rfl⟩

/-! ## The check of a frame -/

theorem le_raise_left {committed : Option ℕ} {known : ℕ} (h : committed = some known) (n : ℕ) :
    known ≤ raise committed n := by
  rw [raise, h]
  exact le_max_left known n

theorem le_raise_right (committed : Option ℕ) (n : ℕ) : n ≤ raise committed n :=
  le_max_right _ n

/-- The loop over the sockets of the session ends above its start and each attachment. -/
theorem foldl_commitAttached_ge {agents : List AgentSocket} {start : Option ℕ} {known : ℕ}
    (h : start = some known ∨ ∃ agent ∈ agents, agent.highestSequence = some known) :
    ∃ committed, agents.foldl commitAttached start = some committed ∧ known ≤ committed := by
  induction agents generalizing start known with
  | nil =>
    rcases h with h | ⟨agent, hagent, -⟩
    · exact ⟨known, h, le_rfl⟩
    · exact absurd hagent List.not_mem_nil
  | cons head rest ih =>
    rw [List.foldl_cons]
    rcases h with h | ⟨agent, hagent, h⟩
    · rw [commitAttached]
      cases head.highestSequence with
      | none => exact ih (.inl h)
      | some sequence =>
        obtain ⟨committed, hcommitted, hle⟩ := ih (.inl rfl)
        exact ⟨committed, hcommitted, (le_raise_left h sequence).trans hle⟩
    · rcases List.mem_cons.mp hagent with rfl | hrest
      · rw [commitAttached, h]
        obtain ⟨committed, hcommitted, hle⟩ := ih (.inl rfl)
        exact ⟨committed, hcommitted, (le_raise_right start known).trans hle⟩
      · exact ih (.inr ⟨agent, hrest, h⟩)

/-- The entry of the map, once written, is above the memory and every attachment. -/
theorem sequenceState_ge {current : AgentSocket}
    (h : records hub current.sessionId sequence = true) :
    ∃ known, (hub.sequenceState current).committed = some known ∧ sequence ≤ known := by
  have hattached : ∀ agent ∈ hub.agents, agent.sessionId = current.sessionId → ∀ known,
      agent.highestSequence = some known →
        ∃ committed, hub.attached current = some committed ∧ known ≤ committed :=
    fun agent hagent hsession _ hknown ↦ foldl_commitAttached_ge
      (.inr ⟨agent, List.mem_filter.mpr ⟨hagent, decide_eq_true hsession⟩, hknown⟩)
  rw [LiveHub.sequenceState]
  rcases records_iff.mp h with ⟨state, hstate, known, hknown, hle⟩ |
    ⟨agent, hagent, hsession, known, hknown, hle⟩
  · rw [hstate]
    cases hub.attached current with
    | none => exact ⟨known, hknown, hle⟩
    | some committed => exact ⟨_, rfl, hle.trans (le_raise_left hknown committed)⟩
  · obtain ⟨committed, hcommitted, hle'⟩ := hattached agent hagent hsession known hknown
    rw [hcommitted]
    cases hub.sequenceStates current.sessionId with
    | none => exact ⟨committed, rfl, hle.trans hle'⟩
    | some state =>
      exact ⟨_, rfl, (hle.trans hle').trans (le_raise_right state.committed committed)⟩

theorem lt_of_not_refuses {known : ℕ} (hknown : state.committed = some known)
    (h : ¬state.refuses sequence = true) :
    known < sequence := by
  rw [SessionSequenceState.refuses, SessionSequenceState.highest] at h
  split_ifs at h with hpending
  · rw [hknown] at h
    have hlt := of_decide_eq_false (Bool.eq_false_iff.mpr h)
    omega
  · have hlt := of_decide_eq_false (Bool.eq_false_iff.mpr h)
    have hle := le_raise_left hknown (state.pending.sup id)
    omega

theorem retains_setState
    (h : ∀ old, hub.sequenceStates sessionId = some old → ∀ known, old.committed = some known →
      ∃ known', state.committed = some known' ∧ known ≤ known') :
    Retains hub (hub.setState sessionId (some state)) where
  states session old hold known hknown := by
    by_cases hsession : session = sessionId
    · subst hsession
      exact ⟨state, hub.setState_self session _, h old hold known hknown⟩
    · refine ⟨old, ?_, known, hknown, le_rfl⟩
      rw [hub.setState_other _ hsession, hold]
  agents agent hagent known hknown := ⟨agent, hagent, rfl, known, hknown, le_rfl⟩

theorem retains_sequenceState {current : AgentSocket}
    (hstate : state.committed = (hub.sequenceState current).committed) :
    Retains hub (hub.setState current.sessionId (some state)) := by
  apply retains_setState
  intro old hold known hknown
  rw [hstate]
  exact sequenceState_ge (records_iff.mpr (.inl ⟨old, hold, known, hknown, le_rfl⟩))

/-! ## One step -/

/-- What a step does to the frames that are decrypted and to those that were relayed. -/
inductive Moves (hub after : LiveHub) : Prop where
  | stays (hrelayed : after.relayed = hub.relayed)
      (hflights : ∀ flight ∈ after.flights, flight ∈ hub.flights)
  | accepts (flight : Flight) (hrelayed : after.relayed = hub.relayed)
      (hflights : after.flights = hub.flights ++ [flight])
      (habove : ∀ known, records hub flight.sessionId known = true → known < flight.sequence)
  | relays (flight : Flight) (hflying : flight ∈ hub.flights) (recipients : List ℕ)
      (hflights : after.flights = hub.otherFlights flight.sessionId flight.sequence)
      (hrelayed : after.relayed = hub.relayed ++ [⟨flight.sessionId, flight.sequence, recipients,
        sequencesOf flight.sessionId after.flights⟩])
      (hrecords : records after flight.sessionId flight.sequence = true)

/-- A step that forgets nothing. -/
structure Keeps (hub after : LiveHub) : Prop where
  moves : Moves hub after
  retains : Retains hub after

theorem Closes.moves (h : Closes hub after) : Moves hub after :=
  .stays h.relayed fun flight hflight ↦ by rwa [h.flights] at hflight

theorem Closes.keeps (h : Closes hub after) : Keeps hub after :=
  ⟨h.moves, h.retains⟩

theorem keeps_acceptFrame (hub : LiveHub) (current : AgentSocket) (frame : FrameHeader)
    (now : ℤ) : Keeps hub (hub.acceptFrame current frame now) := by
  rw [LiveHub.acceptFrame]
  split_ifs with hbounds hrefused
  · exact (closes_close hub current.id).keeps
  · have hretains : Retains hub (hub.setState current.sessionId
        (some (hub.sequenceState current))) := retains_sequenceState rfl
    have hcloses := closes_close
      (hub.setState current.sessionId (some (hub.sequenceState current))) current.id
    exact ⟨.stays rfl fun flight hflight ↦ hflight, hretains.trans hcloses.retains⟩
  · have hretains : Retains hub (hub.setState current.sessionId (some
        ⟨(hub.sequenceState current).committed,
          insert frame.sequence (hub.sequenceState current).pending⟩)) :=
      retains_sequenceState rfl
    refine ⟨.accepts _ rfl rfl fun known hknown ↦ ?_, hretains.states, hretains.agents⟩
    obtain ⟨committed, hcommitted, hle⟩ := sequenceState_ge hknown
    exact hle.trans_lt (lt_of_not_refuses hcommitted hrefused)

theorem webSocketMessage_cases (hub : LiveHub) (socket : ℕ) (message : Message) (now : ℤ) :
    hub.webSocketMessage socket message now = hub ∨
      hub.webSocketMessage socket message now = hub.close socket ∨
      ∃ current frame,
        hub.webSocketMessage socket message now = hub.acceptFrame current frame now := by
  rw [LiveHub.webSocketMessage]
  cases hub.agents.find? fun agent ↦ agent.id = socket with
  | none => exact .inl rfl
  | some current =>
    cases message with
    | text =>
      dsimp only
      split <;> exact .inr (.inl rfl)
    | binary bytes =>
      dsimp only
      split_ifs with hexpired hsize hviewer
      · exact .inr (.inl rfl)
      · exact .inr (.inl rfl)
      · exact .inl rfl
      · cases parseAgentLiveFrame bytes with
        | none => exact .inr (.inl rfl)
        | some frame => exact .inr (.inr ⟨current, frame, rfl⟩)

theorem keeps_webSocketMessage (hub : LiveHub) (socket : ℕ) (message : Message) (now : ℤ) :
    Keeps hub (hub.webSocketMessage socket message now) := by
  rcases webSocketMessage_cases hub socket message now with h | h | ⟨current, frame, h⟩ <;> rw [h]
  · exact (Closes.refl hub).keeps
  · exact (closes_close hub socket).keeps
  · exact keeps_acceptFrame hub current frame now

theorem raiseAttachments_ge {agents : List AgentSocket} {sockets : List ℕ} {committed : ℕ} :
    ∀ agent ∈ agents, ∀ known, agent.highestSequence = some known →
      ∃ agent' ∈ raiseAttachments agents sockets sessionId committed,
        agent'.sessionId = agent.sessionId ∧
          ∃ known', agent'.highestSequence = some known' ∧ known ≤ known' := by
  intro agent hagent known hknown
  refine ⟨_, List.mem_map_of_mem hagent, ?_⟩
  split_ifs with hraise
  · obtain ⟨-, -, hlt⟩ := hraise
    rw [hknown, Option.getD_some] at hlt
    exact ⟨rfl, committed, rfl, hlt.le⟩
  · exact ⟨rfl, known, hknown, le_rfl⟩

theorem keeps_drop {flight : Flight} (hstate : hub.sequenceStates flight.sessionId = some state) :
    Keeps hub (hub.drop flight state) := by
  have hretains : Retains hub (hub.setState flight.sessionId
      (some ⟨state.committed, state.pending.erase flight.sequence⟩)) := by
    apply retains_setState
    intro old hold known hknown
    obtain rfl := Option.some.inj (hstate.symm.trans hold)
    exact ⟨known, hknown, le_rfl⟩
  exact ⟨.stays rfl fun other hother ↦ List.mem_of_mem_filter hother, hretains.states,
    hretains.agents⟩

theorem keeps_send {flight : Flight} (reached : List ℕ) (hflying : flight ∈ hub.flights)
    (hstate : hub.sequenceStates flight.sessionId = some state) :
    Keeps hub (hub.send flight state reached) := by
  have hretains : Retains hub (hub.setState flight.sessionId
      (some ⟨some (raise state.committed flight.sequence),
        state.pending.erase flight.sequence⟩)) := by
    apply retains_setState
    intro old hold known hknown
    obtain rfl := Option.some.inj (hstate.symm.trans hold)
    exact ⟨_, rfl, le_raise_left hknown flight.sequence⟩
  refine ⟨?_, hretains.states, raiseAttachments_ge⟩
  by_cases hreached : reached = []
  · exact .stays (if_pos hreached) fun other hother ↦ List.mem_of_mem_filter hother
  · refine .relays flight hflying reached rfl (if_neg hreached) (records_iff.mpr (.inl ?_))
    exact ⟨_, hub.setState_self flight.sessionId _, _, rfl,
      le_raise_right state.committed flight.sequence⟩

theorem Keeps.closes (h : Keeps hub middle) (hcloses : Closes middle after) : Keeps hub after := by
  refine ⟨?_, h.retains.trans hcloses.retains⟩
  cases h.moves with
  | stays hrelayed hflights =>
    exact .stays (hcloses.relayed.trans hrelayed) (by rwa [hcloses.flights])
  | accepts flight hrelayed hflights habove =>
    exact .accepts flight (hcloses.relayed.trans hrelayed) (hcloses.flights.trans hflights) habove
  | relays flight hflying recipients hflights hrelayed hrecords =>
    refine .relays flight hflying recipients (hcloses.flights.trans hflights) ?_
      (hcloses.retains.records hrecords)
    rw [hcloses.flights, hcloses.relayed, hrelayed]

theorem finishFrame_cases (hub : LiveHub) (sessionId : String) (sequence : ℕ) (opened : Bool)
    (failing : List ℕ) :
    hub.finishFrame sessionId sequence opened failing = hub ∨
      ∃ flight ∈ hub.flights, ∃ state, hub.sequenceStates flight.sessionId = some state ∧
        (hub.finishFrame sessionId sequence opened failing =
            (hub.drop flight state).close flight.socket ∨
          hub.finishFrame sessionId sequence opened failing = hub.relay flight state failing) := by
  unfold LiveHub.finishFrame
  split
  · rename_i flight state hfind hstate
    have hkey : flight.sessionId = sessionId ∧ flight.sequence = sequence := by
      simpa using List.find?_some hfind
    refine .inr ⟨flight, List.mem_of_find?_eq_some hfind, state, by rw [hkey.1, hstate], ?_⟩
    cases opened with
    | false => exact .inl rfl
    | true => exact .inr rfl
  · exact .inl rfl

theorem keeps_finishFrame (hub : LiveHub) (sessionId : String) (sequence : ℕ) (opened : Bool)
    (failing : List ℕ) : Keeps hub (hub.finishFrame sessionId sequence opened failing) := by
  rcases finishFrame_cases hub sessionId sequence opened failing with
    h | ⟨flight, hflying, state, hstate, h | h⟩ <;> rw [h]
  · exact (Closes.refl hub).keeps
  · exact (keeps_drop hstate).closes (closes_close _ flight.socket)
  · exact (keeps_send _ hflying hstate).closes (closes_foldl id _ _)

/-- A new socket beside those that are there. -/
structure Adds (hub after : LiveHub) : Prop where
  relayed : after.relayed = hub.relayed
  flights : after.flights = hub.flights
  sequenceStates : after.sequenceStates = hub.sequenceStates
  agents : ∀ agent ∈ hub.agents, agent ∈ after.agents

theorem Adds.refl (hub : LiveHub) : Adds hub hub := ⟨rfl, rfl, rfl, fun _ hagent ↦ hagent⟩

theorem connectAgent_cases (hub : LiveHub) (sessionId : String) (topic : ℕ) (expiresAt now : ℤ) :
    ∃ middle, Closes hub middle ∧ Adds middle (hub.connectAgent sessionId topic expiresAt now) := by
  rw [LiveHub.connectAgent]
  split_ifs with hexpired
  · exact ⟨hub, .refl hub, .refl hub⟩
  · refine ⟨_, closes_foldl (·.id)
      ((hub.sessionSockets sessionId).filter fun agent ↦ agent.expiresAt ≤ now) hub, ?_⟩
    dsimp only
    split_ifs with hactive
    · exact ⟨rfl, rfl, rfl, fun agent hagent ↦ List.mem_append_left _ hagent⟩
    · exact .refl _

theorem connectViewer_cases (hub : LiveHub) (subjectId : String) (topic : ℕ) (expiresAt now : ℤ) :
    ∃ middle, Closes hub middle ∧
      Adds middle (hub.connectViewer subjectId topic expiresAt now) := by
  rw [LiveHub.connectViewer]
  split_ifs with hexpired
  · exact ⟨hub, .refl hub, .refl hub⟩
  · refine ⟨_, closes_foldl (·.id) ((hub.viewers.filter fun viewer ↦
      viewer.subjectId = subjectId ∧ viewer.topic = topic).filter
        fun viewer ↦ viewer.expiresAt ≤ now) hub, ?_⟩
    dsimp only
    split_ifs with hactive
    · exact ⟨rfl, rfl, rfl, fun agent hagent ↦ hagent⟩
    · exact .refl _

theorem Adds.keeps (hadds : Adds middle after) (h : Closes hub middle) :
    Keeps hub after where
  moves := .stays (hadds.relayed.trans h.relayed) fun flight hflight ↦ by
    rwa [hadds.flights, h.flights] at hflight
  retains := h.retains.trans
    { states := fun _ state hstate known hknown ↦
        ⟨state, by rw [hadds.sequenceStates, hstate], known, hknown, le_rfl⟩
      agents := fun agent hagent known hknown ↦
        ⟨agent, hadds.agents agent hagent, rfl, known, hknown, le_rfl⟩ }

theorem moves_webSocketClose (hub : LiveHub) (socket : ℕ) :
    Moves hub (hub.webSocketClose socket) := by
  rw [LiveHub.webSocketClose]
  cases hub.agents.find? fun agent ↦ agent.id = socket with
  | none => exact .stays rfl fun flight hflight ↦ hflight
  | some current => exact .stays rfl fun flight hflight ↦ hflight

/-- A step that can lose the record of a session. -/
def forgets : Event → Bool
  | .closed _ | .evicted => true
  | _ => false

theorem keeps_step (event : Event) (h : ¬forgets event = true) : Keeps hub (step hub event) := by
  cases event with
  | connectAgent sessionId topic expiresAt now =>
    obtain ⟨middle, hcloses, hadds⟩ := connectAgent_cases hub sessionId topic expiresAt now
    exact hadds.keeps hcloses
  | connectViewer subjectId topic expiresAt now =>
    obtain ⟨middle, hcloses, hadds⟩ := connectViewer_cases hub subjectId topic expiresAt now
    exact hadds.keeps hcloses
  | message socket message now => exact keeps_webSocketMessage hub socket message now
  | decrypted sessionId sequence opened failing =>
    exact keeps_finishFrame hub sessionId sequence opened failing
  | serverClose socket => exact (closes_close hub socket).keeps
  | closed socket => exact absurd rfl h
  | evicted => exact absurd rfl h

theorem moves_step (event : Event) : Moves hub (step hub event) := by
  by_cases h : forgets event = true
  · cases event with
    | closed socket => exact moves_webSocketClose hub socket
    | evicted => exact .stays rfl fun flight hflight ↦ absurd hflight List.not_mem_nil
    | _ => cases h
  · exact (keeps_step event h).moves

/-! ## Runs -/

/-- What was sent of a session since so many frames had been relayed. -/
def recent (sessionId : String) (since : ℕ) (hub : LiveHub) : List Relay :=
  (hub.relayed.drop since).filter fun relay ↦ relay.sessionId = sessionId

/-- The hub has a record of every frame of the session that it relayed. -/
def Remembers (sessionId : String) (since : ℕ) (hub : LiveHub) : Prop :=
  ∀ relay ∈ recent sessionId since hub, records hub sessionId relay.sequence = true

instance : Decidable (Remembers sessionId since hub) :=
  inferInstanceAs (Decidable (∀ relay ∈ _, _))

/-- A sequence that may be relayed after a frame: it is greater, or it was being decrypted when the
frame was relayed. It is never the same. -/
def Follows (earlier : Relay) (later : ℕ) : Prop :=
  earlier.sequence ≠ later ∧ (earlier.sequence < later ∨ later ∈ earlier.inFlight)

/-- The frames of the session follow one another. -/
def Ordered (sessionId : String) (since : ℕ) (hub : LiveHub) : Prop :=
  (recent sessionId since hub).Pairwise fun earlier later ↦ Follows earlier later.sequence

/-- What is relayed and what is being decrypted, under a record that is kept. -/
structure Relaying (sessionId : String) (since : ℕ) (hub : LiveHub) : Prop where
  counted : since ≤ hub.relayed.length
  ordered : Ordered sessionId since hub
  ahead : ∀ relay ∈ recent sessionId since hub, ∀ flight ∈ hub.flights,
    flight.sessionId = sessionId → Follows relay flight.sequence
  remembers : Remembers sessionId since hub

theorem recent_append (sessionId : String) (h : since ≤ hub.relayed.length) {relay : Relay}
    (hrelayed : after.relayed = hub.relayed ++ [relay]) :
    recent sessionId since after = recent sessionId since hub ++
      [relay].filter fun relay ↦ relay.sessionId = sessionId := by
  rw [recent, hrelayed, List.drop_append_of_le_length h, List.filter_append, recent]

theorem recent_same (hrelayed : after.relayed = hub.relayed) :
    recent sessionId since after = recent sessionId since hub := by
  rw [recent, hrelayed, recent]

/-- The step lemma: the check keeps the frames that are decrypted above the frames relayed so far,
and a frame that is relayed leaves only the frames that it lists. -/
theorem Relaying.moves (h : Relaying sessionId since hub) (hmoves : Moves hub after)
    (hremembers : Remembers sessionId since after) : Relaying sessionId since after := by
  cases hmoves with
  | stays hrelayed hflights =>
    have hrecent : recent sessionId since after = recent sessionId since hub :=
      recent_same hrelayed
    refine ⟨hrelayed ▸ h.counted, ?_, fun relay hrelay flight hflight ↦ ?_, hremembers⟩
    · rw [Ordered, hrecent]
      exact h.ordered
    · rw [hrecent] at hrelay
      exact h.ahead relay hrelay flight (hflights flight hflight)
  | accepts flight hrelayed hflights habove =>
    have hrecent : recent sessionId since after = recent sessionId since hub :=
      recent_same hrelayed
    refine ⟨hrelayed ▸ h.counted, ?_, fun relay hrelay other hother hsession ↦ ?_, hremembers⟩
    · rw [Ordered, hrecent]
      exact h.ordered
    · rw [hrecent] at hrelay
      rw [hflights] at hother
      rcases List.mem_append.mp hother with hold | hnew
      · exact h.ahead relay hrelay other hold hsession
      · rw [List.mem_singleton.mp hnew] at hsession ⊢
        have hlt := habove relay.sequence (hsession ▸ h.remembers relay hrelay)
        exact ⟨hlt.ne, .inl hlt⟩
  | relays flight hflying recipients hflights hrelayed hrecords =>
    have hrecent := recent_append sessionId h.counted hrelayed
    have hrest : ∀ other ∈ after.flights, other ∈ hub.flights := fun other hother ↦
      List.mem_of_mem_filter (hflights ▸ hother)
    refine ⟨?_, ?_, ?_, hremembers⟩
    · rw [hrelayed, List.length_append]
      exact h.counted.trans (Nat.le_add_right ..)
    · rw [Ordered, hrecent, List.pairwise_append]
      refine ⟨h.ordered, (List.pairwise_singleton _ _).filter _, fun relay hrelay new hnew ↦ ?_⟩
      obtain ⟨hnew, hsession⟩ := List.mem_filter.mp hnew
      rw [List.mem_singleton.mp hnew] at hsession ⊢
      exact h.ahead relay hrelay flight hflying (of_decide_eq_true hsession)
    · intro relay hrelay other hother hsession
      rw [hrecent] at hrelay
      rcases List.mem_append.mp hrelay with hold | hnew
      · exact h.ahead relay hold other (hrest other hother) hsession
      · obtain ⟨hnew, hsame⟩ := List.mem_filter.mp hnew
        rw [List.mem_singleton.mp hnew] at hsame ⊢
        have hflight : flight.sessionId = sessionId := of_decide_eq_true hsame
        rw [hflights] at hother
        have hdistinct := of_decide_eq_true (List.mem_filter.mp hother).2
        refine ⟨fun hsequence ↦ hdistinct ⟨hsession.trans hflight.symm, hsequence.symm⟩, .inr ?_⟩
        rw [← hflights] at hother
        exact List.mem_map_of_mem (List.mem_filter.mpr
          ⟨hother, decide_eq_true (hsession.trans hflight.symm)⟩)

theorem Remembers.keeps (h : Remembers sessionId since hub) (hcounted : since ≤ hub.relayed.length)
    (hkeeps : Keeps hub after) : Remembers sessionId since after := by
  have hold : ∀ relay ∈ recent sessionId since hub,
      records after sessionId relay.sequence = true :=
    fun relay hrelay ↦ hkeeps.retains.records (h relay hrelay)
  cases hkeeps.moves with
  | stays hrelayed hflights =>
    rw [Remembers, recent_same hrelayed]
    exact hold
  | accepts flight hrelayed hflights habove =>
    rw [Remembers, recent_same hrelayed]
    exact hold
  | relays flight hflying recipients hflights hrelayed hrecords =>
    rw [Remembers, recent_append sessionId hcounted hrelayed]
    intro relay hrelay
    rcases List.mem_append.mp hrelay with hrelay | hnew
    · exact hold relay hrelay
    · obtain ⟨hnew, hsession⟩ := List.mem_filter.mp hnew
      rw [List.mem_singleton.mp hnew] at hsession ⊢
      obtain rfl : flight.sessionId = sessionId := of_decide_eq_true hsession
      exact hrecords

/-- From any state on: while closing sockets and evictions leave a record of what was relayed of a
session, no sequence of it is relayed twice, and one is relayed after a greater one only if it was
being decrypted when that one was relayed. -/
theorem ordered_relays (start : LiveHub) (sessionId : String) (events : List Event)
    (hrecord : Along step (fun hub event ↦ forgets event = true →
      Remembers sessionId start.relayed.length (step hub event)) start events) :
    Visits step (Ordered sessionId start.relayed.length) start events := by
  have hnone : recent sessionId start.relayed.length start = [] := by
    rw [recent, List.drop_length]
    rfl
  have hstart : Relaying sessionId start.relayed.length start := by
    refine ⟨le_rfl, ?_, ?_, ?_⟩
    · rw [Ordered, hnone]
      exact .nil
    · rw [hnone]
      exact fun relay hrelay ↦ absurd hrelay List.not_mem_nil
    · rw [Remembers, hnone]
      exact fun relay hrelay ↦ absurd hrelay List.not_mem_nil
  have hstep : ∀ hub event, Relaying sessionId start.relayed.length hub →
      (forgets event = true → Remembers sessionId start.relayed.length (step hub event)) →
      Relaying sessionId start.relayed.length (step hub event) := by
    intro hub event h hforgets
    apply h.moves (moves_step event)
    by_cases hevent : forgets event = true
    · exact hforgets hevent
    · exact h.remembers.keeps h.counted (keeps_step event hevent)
  exact visits_mono (fun hub h ↦ h.ordered) (visits_of_along hstep hstart hrecord)

/-! ## Two sockets, and what is not kept -/

/-- A frame of machine 7, observed 100 ms after the start. -/
def sealedFrame (sequence : UInt8) : Message :=
  .binary ([0x41, 0x50, 0x4c, 0x31] ++ List.replicate 16 1 ++ (List.replicate 7 0 ++ [7]) ++
    (List.replicate 7 0 ++ [sequence]) ++ (List.replicate 7 0 ++ [100]) ++ [0, 0, 0, 16] ++
    List.replicate 16 0)

/-- A viewer and an agent, whose socket is number 1. -/
def connected : List Event :=
  [.connectViewer "viewer" 7 900000 0, .connectAgent "session" 7 900000 0]

/-- Frames on two sockets of the session, one of which closes. -/
def overlapping : List Event :=
  connected ++ [.connectAgent "session" 7 900000 0, .message 1 (sealedFrame 1) 100,
    .message 2 (sealedFrame 2) 100, .decrypted "session" 2 true [], .closed 2,
    .decrypted "session" 1 true [], .message 1 (sealedFrame 2) 100]

theorem ordered_relays_overlapping :
    Along step (fun hub event ↦ forgets event = true →
        Remembers "session" LiveHub.empty.relayed.length (step hub event)) .empty overlapping ∧
      Visits step (Ordered "session" LiveHub.empty.relayed.length) .empty overlapping ∧
      ((run step .empty overlapping).relayed.map (·.sequence)) = [2, 1] :=
  have hrecord : Along step (fun hub event ↦ forgets event = true →
      Remembers "session" LiveHub.empty.relayed.length (step hub event)) .empty overlapping := by
    decide +kernel
  ⟨hrecord, ordered_relays .empty "session" overlapping hrecord, by decide +kernel⟩

/-- The only socket closes between two deliveries of one frame. -/
def reconnected : List Event :=
  connected ++ [.message 1 (sealedFrame 1) 100, .decrypted "session" 1 true [], .closed 1,
    .connectAgent "session" 7 900000 200, .message 2 (sealedFrame 1) 200,
    .decrypted "session" 1 true []]

/-- The second of two frames is decrypted first. -/
def overtaken : List Event :=
  connected ++ [.message 1 (sealedFrame 1) 100, .message 1 (sealedFrame 2) 100,
    .decrypted "session" 2 true [], .decrypted "session" 1 true []]

theorem relayed_twice_and_descending :
    ¬((recent "session" 0 (run step .empty reconnected)).map (·.sequence)).Nodup ∧
      ¬((recent "session" 0 (run step .empty overtaken)).map (·.sequence)).Pairwise (· < ·) := by
  decide +kernel

end AlphaPing.Live.Relay
