import AlphaPing.Agent.Config
import AlphaPing.Library.Runs
import AlphaPing.Library.Tables

/-!
# Rotation of the data key

One agent and the worker that serves it. The worker attaches the next key to an acknowledgement
once the present key is thirty days old; the agent writes it to its configuration file and uses it
from then on, and the first report under it shortens the life of its predecessor. Handlers
interleave at every await and fail there, answers are lost, and the agent restarts with what its
file holds. A file that was renamed into place stays in place.

The clock of the worker does not run backwards. Keys are not revoked by any handler, and the agent
and its machine are taken not to be deleted.
-/

namespace AlphaPing.System.KeyRotation

open Agent Library.Runs Library.Tables Protocol

/-! ## Keys -/

def keyRotationIntervalMs : ℤ := 2592000000

def keyValidityMs : ℤ := 7776000000

def keyOverlapMs : ℤ := 86400000

/-- The clocks of the two parties differ by no more. -/
def maxClockDifferenceMs : ℤ := 300000

/-- Wrapping of data keys with the secret of the worker; it is third-party code. -/
structure KeyWrapping where
  /-- Of a nonce, a key and associated data. -/
  wrap : Bytes → Bytes → Bytes → Option Bytes
  unwrap : Bytes → Bytes → Bytes → Option Bytes
  unwrap_wrap : ∀ {nonce key aad wrapped}, wrap nonce key aad = some wrapped →
    unwrap nonce wrapped aad = some key
  /-- There is a tag. -/
  wrap_ne_nil : ∀ {nonce key aad wrapped}, wrap nonce key aad = some wrapped → wrapped ≠ []

def wrappingAad (agentId : String) (keyEpoch : ℕ) : Bytes :=
  agentId.toUTF8.toList ++ [UInt8.ofNat (keyEpoch / 16777216), UInt8.ofNat (keyEpoch / 65536),
    UInt8.ofNat (keyEpoch / 256), UInt8.ofNat keyEpoch]

/-- What the worker takes from the random source for a key. -/
structure KeyMaterial where
  dataKey : Bytes
  noncePrefix : Bytes
  wrappingNonce : Bytes
  dataKey_length : dataKey.length = 32
  noncePrefix_length : noncePrefix.length = 4
  wrappingNonce_length : wrappingNonce.length = 12

/-- A row of `agent_keys`, of this agent. -/
structure KeyRow where
  keyEpoch : ℕ
  wrappedDataKey : Bytes
  noncePrefix : Bytes
  validFrom : ℤ
  validUntil : ℤ
  revokedAt : Option ℤ

structure Credential where
  keyEpoch : ℕ
  dataKey : Bytes
  noncePrefix : Bytes

def credential (config : AgentConfig) : Credential :=
  ⟨config.keyEpoch, config.dataKey, config.noncePrefix⟩

variable (wrapping : KeyWrapping) (agentId : String)

/-- A key that becomes valid now. -/
def newKey (keyEpoch : ℕ) (now : ℤ) (material : KeyMaterial) : Option KeyRow :=
  (wrapping.wrap material.wrappingNonce material.dataKey (wrappingAad agentId keyEpoch)).map
    fun wrapped ↦
      { keyEpoch := keyEpoch
        wrappedDataKey := material.wrappingNonce ++ wrapped
        noncePrefix := material.noncePrefix
        validFrom := now
        validUntil := now + keyValidityMs
        revokedAt := none }

def openKey (row : KeyRow) : Option Bytes :=
  if row.wrappedDataKey.length < 13 ∨ row.noncePrefix.length ≠ 4 then none
  else wrapping.unwrap (row.wrappedDataKey.take 12) (row.wrappedDataKey.drop 12)
    (wrappingAad agentId row.keyEpoch)

/-- `load_rotation_key`, and the key that `load_agent_key` finds. -/
def loadKey (keys : List KeyRow) (keyEpoch : ℕ) : Option KeyRow :=
  keys.find? fun row ↦ row.keyEpoch = keyEpoch && row.revokedAt.isNone

/-- What is sealed with the credential is opened with the key in the row, which is valid. -/
def accepts (row : KeyRow) (used : Credential) (now : ℤ) : Bool :=
  row.validFrom ≤ now && now ≤ row.validUntil &&
    openKey wrapping agentId row = some used.dataKey && row.noncePrefix = used.noncePrefix

def proposalOf (row : KeyRow) : Option KeyRotationProposal :=
  (openKey wrapping agentId row).map fun key ↦
    { keyEpoch := row.keyEpoch
      dataKey := key
      noncePrefix := row.noncePrefix
      validFromMs := row.validFrom
      validUntilMs := row.validUntil }

def limitPreviousKeyOverlap (keys : List KeyRow) (currentEpoch : ℕ) (now : ℤ) : List KeyRow :=
  if currentEpoch ≤ 1 then keys
  else updateWhere (fun row ↦ row.keyEpoch = currentEpoch - 1 && row.revokedAt.isNone &&
      now + keyOverlapMs < row.validUntil)
    (fun row ↦ { row with validUntil := now + keyOverlapMs }) keys

/-- `INSERT ... ON CONFLICT DO NOTHING`. -/
def insertKey (keys : List KeyRow) (row : KeyRow) : List KeyRow :=
  if keys.any fun old ↦ old.keyEpoch = row.keyEpoch then keys else keys ++ [row]

/-! ## The system -/

/-- How far a handler has got. `now` is the time that `durable_ack` has read. -/
inductive Phase where
  | sent
  | loaded (row : KeyRow)
  | authenticated (validFrom : ℤ)
  | committing (validFrom now : ℤ)
  | limited (validFrom now : ℤ)
  | missing (now : ℤ)
  | inserted (now : ℤ)
  | answered (proposal : Option KeyRotationProposal)
  | ended

structure Handler where
  used : Credential
  phase : Phase

structure State where
  now : ℤ
  keys : List KeyRow
  /-- The configuration file. -/
  persisted : AgentConfig
  config : AgentConfig
  handlers : List Handler
  /-- The upload that the agent waits for. -/
  connection : Option ℕ
  /-- Every proposal that was ever attached. -/
  offered : List KeyRotationProposal

/-- What becomes of the file. -/
inductive Saving where
  | unsaved
  /-- The file is in place, but the agent goes on with its old configuration. -/
  | unreported
  | saved
  deriving DecidableEq

inductive Action where
  | wait (duration : ℕ)
  | send
  | advance (index : ℕ) (material : KeyMaterial)
  /-- What a handler waits for fails; the handler may be lost with it. -/
  | fail (index : ℕ) (performed lost : Bool) (material : KeyMaterial)
  | disconnect
  /-- The answer arrives; the agent's clock differs by `skew`. -/
  | receive (skew : ℤ) (saving : Saving)
  /-- Another change of the configuration is saved. -/
  | configure (sampleIntervalSeconds reportIntervalSeconds transportSequenceCheckpoint : ℕ)
      (containerMonitoringEnabled : Bool) (saving : Saving)
  | restart

/-- One step of a handler, with the keys after it. -/
def advanceHandler (keys : List KeyRow) (now : ℤ) (material : KeyMaterial) (handler : Handler) :
    List KeyRow × Phase :=
  let epoch := handler.used.keyEpoch
  match handler.phase with
  | .sent => (keys, match loadKey keys epoch with
    | none => .ended
    | some row => .loaded row)
  | .loaded row => (keys,
      if accepts wrapping agentId row handler.used now then .authenticated row.validFrom else .ended)
  | .authenticated validFrom => (keys, .committing validFrom now)
  | .committing validFrom started =>
    (limitPreviousKeyOverlap keys epoch started, .limited validFrom started)
  | .limited validFrom started => (keys,
      if started - validFrom < keyRotationIntervalMs then .answered none
      else if maxKeyEpoch < epoch + 1 then .answered none
      else match loadKey keys (epoch + 1) with
        | some row => .answered (proposalOf wrapping agentId row)
        | none => .missing started)
  | .missing started =>
    match newKey wrapping agentId (epoch + 1) started material with
    | none => (keys, .answered none)
    | some row => (insertKey keys row, .inserted started)
  | .inserted _ =>
    (keys, .answered ((loadKey keys (epoch + 1)).bind (proposalOf wrapping agentId)))
  | .answered proposal => (keys, .answered proposal)
  | .ended => (keys, .ended)

/-- What is left when the await of a step fails: a failure of the rotation is left out of the
acknowledgement, any other ends the handler. -/
def failedPhase (lost : Bool) : Phase → Phase
  | .limited _ _ | .missing _ | .inserted _ => if lost then .ended else .answered none
  | .answered proposal => .answered proposal
  | _ => .ended

def Phase.proposal : Phase → Option KeyRotationProposal
  | .answered proposal => proposal
  | _ => none

def State.setHandler (state : State) (index : ℕ) (handler : Handler)
    (result : List KeyRow × Phase) : State :=
  { state with
    keys := result.1
    handlers := state.handlers.set index { handler with phase := result.2 }
    offered := state.offered ++ result.2.proposal.toList }

/-- `apply_ack`, as far as it concerns the key. -/
def applyRotation (state : State) (proposal : Option KeyRotationProposal) (nowMs : ℤ)
    (saving : Saving) : State :=
  match proposal with
  | none => state
  | some proposal =>
    match rotatedAgentConfig state.config proposal nowMs, saving with
    | .error _, _ => state
    | .ok _, .unsaved => state
    | .ok updated, .unreported => { state with persisted := updated }
    | .ok updated, .saved => { state with persisted := updated, config := updated }

def step (state : State) : Action → State
  | .wait duration => { state with now := state.now + duration }
  | .send =>
    if state.connection.isSome then state
    else { state with
      handlers := state.handlers ++ [⟨credential state.config, .sent⟩]
      connection := some state.handlers.length }
  | .advance index material =>
    match state.handlers[index]? with
    | none => state
    | some handler => state.setHandler index handler
        (advanceHandler wrapping agentId state.keys state.now material handler)
  | .fail index performed lost material =>
    match state.handlers[index]? with
    | none => state
    | some handler => state.setHandler index handler
        (if performed then
            (advanceHandler wrapping agentId state.keys state.now material handler).1
          else state.keys, failedPhase lost handler.phase)
  | .disconnect => { state with connection := none }
  | .receive skew saving =>
    match state.connection.bind fun index ↦ state.handlers[index]? with
    | some ⟨_, .answered proposal⟩ =>
      if skew.natAbs ≤ maxClockDifferenceMs.natAbs then
        { applyRotation state proposal (state.now + skew) saving with connection := none }
      else state
    | _ => state
  | .configure sampling report checkpoint containers saving =>
    let updated := { state.config with
      sampleIntervalSeconds := sampling
      reportIntervalSeconds := report
      transportSequenceCheckpoint := checkpoint
      containerMonitoringEnabled := containers }
    match saving with
    | .unsaved => state
    | .unreported => { state with persisted := updated }
    | .saved => { state with persisted := updated, config := updated }
  | .restart => { state with config := state.persisted, connection := none }

/-- What an enrollment has left on the two sides. -/
structure Enrolled where
  material : KeyMaterial
  wrapped : Bytes
  wraps : wrapping.wrap material.wrappingNonce material.dataKey (wrappingAad agentId 1) =
    some wrapped
  /-- The other entries of the file. -/
  settings : AgentConfig
  now : ℤ

variable {wrapping agentId}

def Enrolled.config (enrolled : Enrolled wrapping agentId) : AgentConfig :=
  { enrolled.settings with
    agentId := agentId
    keyEpoch := 1
    dataKey := enrolled.material.dataKey
    noncePrefix := enrolled.material.noncePrefix }

def Enrolled.state (enrolled : Enrolled wrapping agentId) : State where
  now := enrolled.now
  keys := [{
    keyEpoch := 1
    wrappedDataKey := enrolled.material.wrappingNonce ++ enrolled.wrapped
    noncePrefix := enrolled.material.noncePrefix
    validFrom := enrolled.now
    validUntil := enrolled.now + keyValidityMs
    revokedAt := none }]
  persisted := enrolled.config
  config := enrolled.config
  handlers := []
  connection := none
  offered := []

/-! ## The invariant -/

variable (wrapping agentId)

/-- A row as it was inserted, its end apart. -/
structure KeyRow.Sound (now : ℤ) (row : KeyRow) : Prop where
  notRevoked : row.revokedAt = none
  opens : ∃ key, openKey wrapping agentId row = some key ∧ key.length = 32
  noncePrefix_length : row.noncePrefix.length = 4
  validFrom_le : row.validFrom ≤ now
  epoch_le : row.keyEpoch ≤ maxKeyEpoch

def Holds (keys : List KeyRow) (used : Credential) : Prop :=
  ∃ row ∈ keys, row.keyEpoch = used.keyEpoch ∧ openKey wrapping agentId row = some used.dataKey ∧
    row.noncePrefix = used.noncePrefix

/-- The proposal is what its row says, and the row has its full time unless the agent has gone
beyond it. -/
def Proposed (keys : List KeyRow) (current : ℕ) (proposal : KeyRotationProposal) : Prop :=
  ∃ row ∈ keys, row.keyEpoch = proposal.keyEpoch ∧
    openKey wrapping agentId row = some proposal.dataKey ∧
    row.noncePrefix = proposal.noncePrefix ∧ row.validFrom = proposal.validFromMs ∧
    (proposal.validUntilMs = proposal.validFromMs + keyValidityMs ∨
      proposal.keyEpoch + 1 ≤ current)

def HasKey (keys : List KeyRow) (epoch : ℕ) (validFrom : ℤ) : Prop :=
  ∃ row ∈ keys, row.keyEpoch = epoch ∧ row.validFrom = validFrom

/-- A key may be added at this time. -/
def Due (keys : List KeyRow) (now : ℤ) (epoch : ℕ) (started : ℤ) : Prop :=
  ∃ validFrom, HasKey keys epoch validFrom ∧ validFrom + keyRotationIntervalMs ≤ started ∧
    started ≤ now ∧ epoch + 1 ≤ maxKeyEpoch

/-- What a handler of this epoch has read is still so. -/
def Phase.Sound (keys : List KeyRow) (now : ℤ) (current epoch : ℕ) : Phase → Prop
  | .sent => True
  | .loaded row => row.keyEpoch = epoch ∧ HasKey keys epoch row.validFrom
  | .authenticated validFrom => HasKey keys epoch validFrom
  | .committing validFrom started => HasKey keys epoch validFrom ∧ started ≤ now
  | .limited validFrom started => HasKey keys epoch validFrom ∧ started ≤ now
  | .missing started => Due keys now epoch started
  | .inserted started => Due keys now epoch started
  | .answered proposal => ∀ offer ∈ proposal, offer.keyEpoch = epoch + 1 ∧
      Proposed wrapping agentId keys current offer
  | .ended => True

structure KeysInv (now : ℤ) (current : ℕ) (keys : List KeyRow) : Prop where
  unique : UniqueKey KeyRow.keyEpoch keys
  sound : ∀ row ∈ keys, row.Sound wrapping agentId now
  unlimited : ∀ row ∈ keys,
    row.validUntil = row.validFrom + keyValidityMs ∨ row.keyEpoch + 1 ≤ current
  bounded : ∀ row ∈ keys, row.validUntil ≤ row.validFrom + keyValidityMs
  spaced : ∀ row ∈ keys, ∀ next ∈ keys, next.keyEpoch = row.keyEpoch + 1 →
    row.validFrom + keyRotationIntervalMs ≤ next.validFrom
  contiguous : ∀ row ∈ keys, 1 < row.keyEpoch → ∃ previous ∈ keys,
    previous.keyEpoch + 1 = row.keyEpoch

structure Inv (state : State) : Prop where
  keys : KeysInv wrapping agentId state.now state.config.keyEpoch state.keys
  config : Holds wrapping agentId state.keys (credential state.config)
  persisted : Holds wrapping agentId state.keys (credential state.persisted)
  between : state.config.keyEpoch ≤ state.persisted.keyEpoch ∧
    state.persisted.keyEpoch ≤ state.config.keyEpoch + 1
  handlers : ∀ handler ∈ state.handlers, handler.used.keyEpoch ≤ state.config.keyEpoch ∧
    handler.phase.Sound wrapping agentId state.keys state.now state.config.keyEpoch
      handler.used.keyEpoch
  connection : ∀ index ∈ state.connection, ∀ handler ∈ state.handlers[index]?,
    handler.used.keyEpoch = state.config.keyEpoch
  offered : ∀ offer ∈ state.offered, Proposed wrapping agentId state.keys state.config.keyEpoch offer

variable {wrapping agentId}

/-! Rows keep everything but their end. -/

/-- The same key, but for its end. -/
def SameKey (row other : KeyRow) : Prop :=
  other.keyEpoch = row.keyEpoch ∧ other.wrappedDataKey = row.wrappedDataKey ∧
    other.noncePrefix = row.noncePrefix ∧ other.validFrom = row.validFrom

/-- Later keys have every earlier one. -/
def Grows (keys later : List KeyRow) : Prop :=
  ∀ row ∈ keys, ∃ other ∈ later, SameKey row other

theorem Grows.refl (keys : List KeyRow) : Grows keys keys :=
  fun row hrow ↦ ⟨row, hrow, rfl, rfl, rfl, rfl⟩

theorem openKey_of_sameKey {row other : KeyRow} (h : SameKey row other) :
    openKey wrapping agentId other = openKey wrapping agentId row := by
  obtain ⟨hepoch, hwrapped, hfront, -⟩ := h
  rw [openKey, openKey, hepoch, hwrapped, hfront]

variable {keys later : List KeyRow}

theorem Holds.mono {used : Credential} (h : Holds wrapping agentId keys used)
    (hgrows : Grows keys later) :
    Holds wrapping agentId later used := by
  obtain ⟨row, hrow, hepoch, hkey, hfront⟩ := h
  obtain ⟨other, hother, hsame⟩ := hgrows row hrow
  exact ⟨other, hother, hsame.1.trans hepoch, (openKey_of_sameKey hsame).trans hkey,
    hsame.2.2.1.trans hfront⟩

theorem Proposed.mono {current next : ℕ} {offer : KeyRotationProposal}
    (h : Proposed wrapping agentId keys current offer) (hgrows : Grows keys later)
    (hnext : current ≤ next) : Proposed wrapping agentId later next offer := by
  obtain ⟨row, hrow, hepoch, hkey, hfront, hfrom, hend⟩ := h
  obtain ⟨other, hother, hsame⟩ := hgrows row hrow
  exact ⟨other, hother, hsame.1.trans hepoch, (openKey_of_sameKey hsame).trans hkey,
    hsame.2.2.1.trans hfront, hsame.2.2.2.trans hfrom, hend.imp id fun h ↦ h.trans hnext⟩

theorem HasKey.mono {epoch : ℕ} {validFrom : ℤ} (h : HasKey keys epoch validFrom)
    (hgrows : Grows keys later) :
    HasKey later epoch validFrom := by
  obtain ⟨row, hrow, hepoch, hfrom⟩ := h
  obtain ⟨other, hother, hsame⟩ := hgrows row hrow
  exact ⟨other, hother, hsame.1.trans hepoch, hsame.2.2.2.trans hfrom⟩

theorem Due.mono {now after : ℤ} {epoch : ℕ} {started : ℤ} (h : Due keys now epoch started)
    (hgrows : Grows keys later) (hafter : now ≤ after) :
    Due later after epoch started := by
  obtain ⟨validFrom, hkey, hinterval, hstarted, hepoch⟩ := h
  exact ⟨validFrom, hkey.mono hgrows, hinterval, hstarted.trans hafter, hepoch⟩

theorem Phase.Sound.mono {now after : ℤ} {current next epoch : ℕ} {phase : Phase}
    (h : phase.Sound wrapping agentId keys now current epoch) (hgrows : Grows keys later)
    (hafter : now ≤ after) (hnext : current ≤ next) :
    phase.Sound wrapping agentId later after next epoch := by
  cases phase with
  | sent => trivial
  | loaded row => exact ⟨h.1, h.2.mono hgrows⟩
  | authenticated validFrom => exact HasKey.mono h hgrows
  | committing validFrom started => exact ⟨h.1.mono hgrows, h.2.trans hafter⟩
  | limited validFrom started => exact ⟨h.1.mono hgrows, h.2.trans hafter⟩
  | missing started => exact Due.mono h hgrows hafter
  | inserted started => exact Due.mono h hgrows hafter
  | answered proposal =>
    exact fun offer hoffer ↦ ⟨(h offer hoffer).1, (h offer hoffer).2.mono hgrows hnext⟩
  | ended => trivial

theorem KeysInv.mono {now after : ℤ} {current next : ℕ} {keys : List KeyRow}
    (h : KeysInv wrapping agentId now current keys) (hafter : now ≤ after)
    (hnext : current ≤ next) : KeysInv wrapping agentId after next keys where
  unique := h.unique
  sound row hrow := { h.sound row hrow with
    validFrom_le := (h.sound row hrow).validFrom_le.trans hafter }
  unlimited row hrow := (h.unlimited row hrow).imp id fun hle ↦ hle.trans hnext
  bounded := h.bounded
  spaced := h.spaced
  contiguous := h.contiguous

/-! ## The statements of the worker -/

section Statements

variable {keys : List KeyRow} {now : ℤ} {current : ℕ}

variable {row : KeyRow} {epoch : ℕ}

theorem loadKey_some (h : loadKey keys epoch = some row) : row ∈ keys ∧ row.keyEpoch = epoch := by
  have hmatch := List.find?_some h
  simp only [Bool.and_eq_true, decide_eq_true_eq] at hmatch
  exact ⟨List.mem_of_find?_eq_some h, hmatch.1⟩

theorem KeysInv.loadKey_eq (h : KeysInv wrapping agentId now current keys) (hrow : row ∈ keys) :
    loadKey keys row.keyEpoch = some row := by
  cases hload : loadKey keys row.keyEpoch with
  | none =>
    have := List.find?_eq_none.mp hload row hrow
    simp [(h.sound row hrow).notRevoked] at this
  | some other =>
    obtain ⟨hother, hepoch⟩ := loadKey_some hload
    rw [h.unique.eq_of_mem hother hrow hepoch]

theorem KeysInv.proposed (h : KeysInv wrapping agentId now current keys) (hrow : row ∈ keys) :
    ∀ offer ∈ proposalOf wrapping agentId row,
      offer.keyEpoch = row.keyEpoch ∧ Proposed wrapping agentId keys current offer := by
  intro offer hoffer
  obtain ⟨key, hkey, rfl⟩ := Option.map_eq_some_iff.mp hoffer
  exact ⟨rfl, row, hrow, rfl, hkey, rfl, rfl, h.unlimited row hrow⟩

theorem grows_limitPreviousKeyOverlap (keys : List KeyRow) (epoch : ℕ) (started : ℤ) :
    Grows keys (limitPreviousKeyOverlap keys epoch started) := by
  rw [limitPreviousKeyOverlap]
  split
  · exact Grows.refl keys
  · intro row hrow
    refine ⟨_, mem_updateWhere_of_mem hrow, ?_⟩
    split <;> exact ⟨rfl, rfl, rfl, rfl⟩

theorem KeysInv.limitPreviousKeyOverlap (h : KeysInv wrapping agentId now current keys)
    (hepoch : epoch ≤ current) (started : ℤ) :
    KeysInv wrapping agentId now current (limitPreviousKeyOverlap keys epoch started) := by
  rw [KeyRotation.limitPreviousKeyOverlap]
  split
  · exact h
  · rename_i hfirst
    -- Each row afterwards has a row before with the same key.
    have hold : ∀ {row}, row ∈ updateWhere (fun row : KeyRow ↦ row.keyEpoch = epoch - 1 &&
        row.revokedAt.isNone && started + keyOverlapMs < row.validUntil)
        (fun row ↦ { row with validUntil := started + keyOverlapMs }) keys →
        ∃ old ∈ keys, SameKey old row ∧ row.revokedAt = old.revokedAt ∧
          (row = old ∨ old.keyEpoch + 1 = epoch) := by
      intro row hrow
      obtain ⟨old, hmem, ⟨hmatch, rfl⟩ | ⟨-, rfl⟩⟩ := mem_updateWhere.mp hrow
      · simp only [Bool.and_eq_true, decide_eq_true_eq] at hmatch
        refine ⟨old, hmem, ⟨rfl, rfl, rfl, rfl⟩, rfl, .inr ?_⟩
        omega
      · exact ⟨row, hmem, ⟨rfl, rfl, rfl, rfl⟩, rfl, .inl rfl⟩
    constructor
    · exact h.unique.updateWhere fun _ ↦ rfl
    · intro row hrow
      obtain ⟨old, hmem, hsame, hrevoked, -⟩ := hold hrow
      have hsound := h.sound old hmem
      exact ⟨hrevoked.trans hsound.notRevoked, by rw [openKey_of_sameKey hsame]; exact hsound.opens,
        hsame.2.2.1 ▸ hsound.noncePrefix_length, hsame.2.2.2 ▸ hsound.validFrom_le,
        hsame.1 ▸ hsound.epoch_le⟩
    · intro row hrow
      obtain ⟨old, hmem, hsame, -, rfl | hlimited⟩ := hold hrow
      · exact h.unlimited row hmem
      · rw [hsame.1]
        exact .inr (hlimited ▸ hepoch)
    · intro row hrow
      obtain ⟨old, hmem, ⟨hmatch, rfl⟩ | ⟨-, rfl⟩⟩ := mem_updateWhere.mp hrow
      · simp only [Bool.and_eq_true, decide_eq_true_eq] at hmatch
        exact hmatch.2.le.trans (h.bounded old hmem)
      · exact h.bounded row hmem
    · intro row hrow next hnext hsucc
      obtain ⟨old, hmem, hsame, -, -⟩ := hold hrow
      obtain ⟨oldNext, hmemNext, hsameNext, -, -⟩ := hold hnext
      rw [hsame.2.2.2, hsameNext.2.2.2]
      refine h.spaced old hmem oldNext hmemNext ?_
      rw [← hsame.1, ← hsameNext.1, hsucc]
    · intro row hrow hlater
      obtain ⟨old, hmem, hsame, -, -⟩ := hold hrow
      obtain ⟨previous, hprevious, hsucc⟩ := h.contiguous old hmem (hsame.1 ▸ hlater)
      refine ⟨_, mem_updateWhere_of_mem hprevious, ?_⟩
      rw [hsame.1, ← hsucc]
      split <;> rfl

theorem grows_insertKey (keys : List KeyRow) (row : KeyRow) : Grows keys (insertKey keys row) := by
  rw [insertKey]
  split
  · exact Grows.refl keys
  · exact fun old hold ↦ ⟨old, List.mem_append_left _ hold, rfl, rfl, rfl, rfl⟩

theorem newKey_sound {started : ℤ} {material : KeyMaterial}
    (h : newKey wrapping agentId epoch started material = some row) (hstarted : started ≤ now)
    (hepoch : epoch ≤ maxKeyEpoch) :
    row.Sound wrapping agentId now ∧ row.keyEpoch = epoch ∧ row.validFrom = started ∧
      row.validUntil = started + keyValidityMs ∧
      openKey wrapping agentId row = some material.dataKey ∧
      row.noncePrefix = material.noncePrefix := by
  obtain ⟨wrapped, hwrap, rfl⟩ := Option.map_eq_some_iff.mp h
  have hpositive : 0 < wrapped.length := List.length_pos_iff.mpr (wrapping.wrap_ne_nil hwrap)
  have hopen : openKey wrapping agentId
      ⟨epoch, material.wrappingNonce ++ wrapped, material.noncePrefix, started,
        started + keyValidityMs, none⟩ = some material.dataKey := by
    have hlong : ¬ ((material.wrappingNonce ++ wrapped).length < 13 ∨
        material.noncePrefix.length ≠ 4) := by
      rw [List.length_append, material.wrappingNonce_length, material.noncePrefix_length]
      omega
    rw [openKey, if_neg hlong]
    dsimp only
    rw [List.take_left' material.wrappingNonce_length,
      List.drop_left' material.wrappingNonce_length]
    exact wrapping.unwrap_wrap hwrap
  exact ⟨⟨rfl, ⟨_, hopen, material.dataKey_length⟩, material.noncePrefix_length, hstarted, hepoch⟩,
    rfl, rfl, rfl, hopen, rfl⟩

theorem KeysInv.insertKey (h : KeysInv wrapping agentId now current keys) {started : ℤ}
    (hdue : Due keys now epoch started) {material : KeyMaterial}
    (hnew : newKey wrapping agentId (epoch + 1) started material = some row) :
    KeysInv wrapping agentId now current (insertKey keys row) := by
  obtain ⟨validFrom, ⟨base, hbase, hbaseEpoch, hbaseFrom⟩, hinterval, hstarted, hmaximum⟩ := hdue
  obtain ⟨hsound, hepoch, hfrom, huntil, -, -⟩ := newKey_sound hnew hstarted hmaximum
  rw [KeyRotation.insertKey]
  split
  · exact h
  · rename_i hfresh
    have hfresh : ∀ old ∈ keys, old.keyEpoch ≠ row.keyEpoch := by simpa using hfresh
    constructor
    · exact uniqueKey_append_singleton h.unique hfresh
    · intro other hother
      rcases List.mem_append.mp hother with hold | hlast
      · exact h.sound other hold
      · exact List.mem_singleton.mp hlast ▸ hsound
    · intro other hother
      rcases List.mem_append.mp hother with hold | hlast
      · exact h.unlimited other hold
      · rw [List.mem_singleton.mp hlast, hfrom]
        exact .inl huntil
    · intro other hother
      rcases List.mem_append.mp hother with hold | hlast
      · exact h.bounded other hold
      · rw [List.mem_singleton.mp hlast, hfrom]
        exact huntil.le
    · intro first hfirst next hnext hsucc
      rcases List.mem_append.mp hfirst with hold | hlast
      · rcases List.mem_append.mp hnext with hnextOld | hnextLast
        · exact h.spaced first hold next hnextOld hsucc
        · rw [List.mem_singleton.mp hnextLast, hepoch] at hsucc
          rw [List.mem_singleton.mp hnextLast, hfrom,
            h.unique.eq_of_mem hold hbase (by omega), hbaseFrom]
          exact hinterval
      · -- A successor of the new key would have had its predecessor in the table.
        rw [List.mem_singleton.mp hlast] at hsucc
        rcases List.mem_append.mp hnext with hnextOld | hnextLast
        · obtain ⟨previous, hprevious, hprev⟩ := h.contiguous next hnextOld (by omega)
          exact absurd (by omega) (hfresh previous hprevious)
        · rw [List.mem_singleton.mp hnextLast] at hsucc
          omega
    · intro other hother hlater
      rcases List.mem_append.mp hother with hold | hlast
      · obtain ⟨previous, hprevious, hsucc⟩ := h.contiguous other hold hlater
        exact ⟨previous, List.mem_append_left _ hprevious, hsucc⟩
      · refine ⟨base, List.mem_append_left _ hbase, ?_⟩
        rw [List.mem_singleton.mp hlast, hepoch, hbaseEpoch]

theorem advanceHandler_sound (h : KeysInv wrapping agentId now current keys) {handler : Handler}
    (hepoch : handler.used.keyEpoch ≤ current)
    (hphase : handler.phase.Sound wrapping agentId keys now current handler.used.keyEpoch)
    (material : KeyMaterial) :
    Grows keys (advanceHandler wrapping agentId keys now material handler).1 ∧
      KeysInv wrapping agentId now current
        (advanceHandler wrapping agentId keys now material handler).1 ∧
      (advanceHandler wrapping agentId keys now material handler).2.Sound wrapping agentId
        (advanceHandler wrapping agentId keys now material handler).1 now current
        handler.used.keyEpoch := by
  obtain ⟨used, phase⟩ := handler
  dsimp only at hepoch hphase ⊢
  cases phase with
  | sent =>
    refine ⟨Grows.refl keys, h, ?_⟩
    dsimp only [advanceHandler]
    split
    · trivial
    · rename_i row hload
      obtain ⟨hrow, hrowEpoch⟩ := loadKey_some hload
      exact ⟨hrowEpoch, row, hrow, hrowEpoch, rfl⟩
  | loaded row =>
    refine ⟨Grows.refl keys, h, ?_⟩
    dsimp only [advanceHandler]
    split
    · exact hphase.2
    · trivial
  | authenticated validFrom => exact ⟨Grows.refl keys, h, hphase, le_rfl⟩
  | committing validFrom started =>
    have hgrows := grows_limitPreviousKeyOverlap keys used.keyEpoch started
    exact ⟨hgrows, h.limitPreviousKeyOverlap hepoch started, hphase.1.mono hgrows, hphase.2⟩
  | limited validFrom started =>
    refine ⟨Grows.refl keys, h, ?_⟩
    dsimp only [advanceHandler]
    split
    · exact fun _ hoffer ↦ nomatch hoffer
    · rename_i hinterval
      split
      · exact fun _ hoffer ↦ nomatch hoffer
      · rename_i hmaximum
        split
        · rename_i row hload
          obtain ⟨hrow, hrowEpoch⟩ := loadKey_some hload
          exact fun offer hoffer ↦ hrowEpoch ▸ h.proposed hrow offer hoffer
        · exact ⟨validFrom, hphase.1, by omega, hphase.2, by omega⟩
  | missing started =>
    dsimp only [advanceHandler]
    cases hnew : newKey wrapping agentId (used.keyEpoch + 1) started material with
    | none => exact ⟨Grows.refl keys, h, fun _ hoffer ↦ nomatch hoffer⟩
    | some row =>
      have hgrows := grows_insertKey keys row
      exact ⟨hgrows, h.insertKey hphase hnew, Due.mono hphase hgrows le_rfl⟩
  | inserted started =>
    refine ⟨Grows.refl keys, h, fun offer hoffer ↦ ?_⟩
    obtain ⟨row, hload, hproposal⟩ := Option.bind_eq_some_iff.mp hoffer
    obtain ⟨hrow, hrowEpoch⟩ := loadKey_some hload
    exact hrowEpoch ▸ h.proposed hrow offer hproposal
  | answered proposal => exact ⟨Grows.refl keys, h, hphase⟩
  | ended => exact ⟨Grows.refl keys, h, trivial⟩

theorem failedPhase_sound {phase : Phase} (lost : Bool)
    (hphase : phase.Sound wrapping agentId keys now current epoch) :
    (failedPhase lost phase).Sound wrapping agentId keys now current epoch := by
  have hnone : (Phase.answered none).Sound wrapping agentId keys now current epoch :=
    fun _ hoffer ↦ nomatch hoffer
  cases phase with
  | answered proposal => exact hphase
  | limited validFrom started => cases lost <;> first | exact hnone | trivial
  | missing started => cases lost <;> first | exact hnone | trivial
  | inserted started => cases lost <;> first | exact hnone | trivial
  | sent => trivial
  | loaded row => trivial
  | authenticated validFrom => trivial
  | committing validFrom started => trivial
  | ended => trivial

end Statements

/-! ## Steps -/

section Steps

variable {state : State}

theorem Inv.setHandler (h : Inv wrapping agentId state) {index : ℕ} {handler : Handler}
    (hindex : state.handlers[index]? = some handler) {result : List KeyRow × Phase}
    (hgrows : Grows state.keys result.1)
    (hkeys : KeysInv wrapping agentId state.now state.config.keyEpoch result.1)
    (hphase : result.2.Sound wrapping agentId result.1 state.now state.config.keyEpoch
      handler.used.keyEpoch) : Inv wrapping agentId (state.setHandler index handler result) := by
  have hmem : handler ∈ state.handlers := List.mem_of_getElem? hindex
  constructor
  · exact hkeys
  · exact h.config.mono hgrows
  · exact h.persisted.mono hgrows
  · exact h.between
  · intro other hother
    rcases List.mem_or_eq_of_mem_set hother with hold | rfl
    · obtain ⟨hepoch, hsound⟩ := h.handlers other hold
      exact ⟨hepoch, hsound.mono hgrows le_rfl le_rfl⟩
    · exact ⟨(h.handlers handler hmem).1, hphase⟩
  · intro waited hwaited other hother
    dsimp only [State.setHandler] at hother
    by_cases hsame : index = waited
    · subst hsame
      rw [List.getElem?_set_self (List.getElem?_eq_some_iff.mp hindex).1] at hother
      obtain rfl := Option.some.inj hother
      exact h.connection index hwaited handler hindex
    · rw [List.getElem?_set_ne hsame] at hother
      exact h.connection waited hwaited other hother
  · intro offer hoffer
    rcases List.mem_append.mp hoffer with hold | hnew
    · exact (h.offered offer hold).mono hgrows le_rfl
    · rw [Option.mem_toList] at hnew
      cases hresult : result.2 with
      | answered proposal =>
        rw [hresult] at hnew hphase
        exact (hphase offer hnew).2
      | _ => rw [hresult] at hnew; exact nomatch hnew

theorem Inv.setPersisted (h : Inv wrapping agentId state) {updated : AgentConfig}
    (hholds : Holds wrapping agentId state.keys (credential updated))
    (hbetween : state.config.keyEpoch ≤ updated.keyEpoch ∧
      updated.keyEpoch ≤ state.config.keyEpoch + 1) :
    Inv wrapping agentId { state with persisted := updated } :=
  ⟨h.keys, h.config, hholds, hbetween, h.handlers, h.connection, h.offered⟩

theorem Inv.setConfig (h : Inv wrapping agentId state) {updated : AgentConfig}
    (hholds : Holds wrapping agentId state.keys (credential updated))
    (hlater : state.config.keyEpoch ≤ updated.keyEpoch) :
    Inv wrapping agentId
      { state with persisted := updated, config := updated, connection := none } where
  keys := h.keys.mono le_rfl hlater
  config := hholds
  persisted := hholds
  between := ⟨le_rfl, Nat.le_succ _⟩
  handlers handler hhandler :=
    ⟨(h.handlers handler hhandler).1.trans hlater,
      (h.handlers handler hhandler).2.mono (Grows.refl _) le_rfl hlater⟩
  connection _ hindex := nomatch hindex
  offered offer hoffer := (h.offered offer hoffer).mono (Grows.refl _) hlater

theorem Inv.disconnect (h : Inv wrapping agentId state) :
    Inv wrapping agentId { state with connection := none } :=
  ⟨h.keys, h.config, h.persisted, h.between, h.handlers, fun _ hindex ↦ (nomatch hindex),
    h.offered⟩

theorem rotatedAgentConfig_ok {current updated : AgentConfig} {proposal : KeyRotationProposal}
    {nowMs : ℤ} (h : rotatedAgentConfig current proposal nowMs = .ok updated) :
    credential updated = ⟨proposal.keyEpoch, proposal.dataKey, proposal.noncePrefix⟩ := by
  rw [rotatedAgentConfig] at h
  split at h
  · cases h
  · obtain rfl := Except.ok.inj h
    rfl

theorem Inv.applyRotation (h : Inv wrapping agentId state)
    {proposal : Option KeyRotationProposal} {epoch : ℕ} (hepoch : epoch = state.config.keyEpoch)
    (hproposal : ∀ offer ∈ proposal, offer.keyEpoch = epoch + 1 ∧
      Proposed wrapping agentId state.keys state.config.keyEpoch offer) (nowMs : ℤ)
    (saving : Saving) :
    Inv wrapping agentId
      { applyRotation state proposal nowMs saving with connection := none } := by
  cases proposal with
  | none => exact h.disconnect
  | some offer =>
    obtain ⟨hnext, row, hrow, hrowEpoch, hkey, hfront, -⟩ := hproposal offer rfl
    dsimp only [KeyRotation.applyRotation]
    cases hrotated : rotatedAgentConfig state.config offer nowMs with
    | error message => exact h.disconnect
    | ok updated =>
      have hcredential := rotatedAgentConfig_ok hrotated
      have hholds : Holds wrapping agentId state.keys (credential updated) := by
        rw [hcredential]
        exact ⟨row, hrow, hrowEpoch, hkey, hfront⟩
      have hupdated : updated.keyEpoch = state.config.keyEpoch + 1 := by
        have : updated.keyEpoch = offer.keyEpoch := congrArg Credential.keyEpoch hcredential
        omega
      cases saving with
      | unsaved => exact h.disconnect
      | unreported =>
        have hpersisted := h.setPersisted hholds (by omega)
        exact hpersisted.disconnect
      | saved =>
        have hlater : state.config.keyEpoch ≤ updated.keyEpoch := by omega
        exact h.setConfig hholds hlater

theorem Inv.step (h : Inv wrapping agentId state) (action : Action) :
    Inv wrapping agentId (step wrapping agentId state action) := by
  cases action with
  | wait duration =>
    have hafter : state.now ≤ state.now + duration := by omega
    exact ⟨h.keys.mono hafter le_rfl, h.config, h.persisted, h.between,
      fun handler hhandler ↦ ⟨(h.handlers handler hhandler).1,
        (h.handlers handler hhandler).2.mono (Grows.refl _) hafter le_rfl⟩,
      h.connection, h.offered⟩
  | send =>
    rw [KeyRotation.step]
    split
    · exact h
    · refine ⟨h.keys, h.config, h.persisted, h.between, fun handler hhandler ↦ ?_, ?_, h.offered⟩
      · rcases List.mem_append.mp hhandler with hold | hnew
        · exact h.handlers handler hold
        · rw [List.mem_singleton.mp hnew]
          exact ⟨le_rfl, trivial⟩
      · intro index hindex handler hhandler
        obtain rfl := Option.some.inj hindex
        rw [List.getElem?_concat_length] at hhandler
        obtain rfl := Option.some.inj hhandler
        rfl
  | advance index material =>
    rw [KeyRotation.step]
    cases hindex : state.handlers[index]? with
    | none => exact h
    | some handler =>
      obtain ⟨hepoch, hphase⟩ := h.handlers handler (List.mem_of_getElem? hindex)
      obtain ⟨hgrows, hkeys, hsound⟩ := advanceHandler_sound h.keys hepoch hphase material
      exact h.setHandler hindex hgrows hkeys hsound
  | fail index performed lost material =>
    rw [KeyRotation.step]
    cases hindex : state.handlers[index]? with
    | none => exact h
    | some handler =>
      obtain ⟨hepoch, hphase⟩ := h.handlers handler (List.mem_of_getElem? hindex)
      obtain ⟨hgrows, hkeys, -⟩ := advanceHandler_sound h.keys hepoch hphase material
      refine h.setHandler hindex ?_ ?_ ?_
      · cases performed with
        | true => exact hgrows
        | false => exact Grows.refl _
      · cases performed with
        | true => exact hkeys
        | false => exact h.keys
      · refine failedPhase_sound lost (hphase.mono ?_ le_rfl le_rfl)
        cases performed with
        | true => exact hgrows
        | false => exact Grows.refl _
  | disconnect => exact h.disconnect
  | receive skew saving =>
    rw [KeyRotation.step]
    split
    · rename_i used proposal hwaited
      obtain ⟨index, hindex, hhandler⟩ := Option.bind_eq_some_iff.mp hwaited
      split
      · have hphase := (h.handlers _ (List.mem_of_getElem? hhandler)).2
        exact h.applyRotation (h.connection index hindex _ hhandler) hphase _ _
      · exact h
    · exact h
  | configure sampling report checkpoint containers saving =>
    cases saving with
    | unsaved => exact h
    | unreported => exact h.setPersisted h.config ⟨le_rfl, Nat.le_succ _⟩
    | saved =>
      exact ⟨h.keys, h.config, h.config, ⟨le_rfl, Nat.le_succ _⟩, h.handlers, h.connection,
        h.offered⟩
  | restart => exact h.setConfig h.persisted h.between.1

theorem inv_enrolled (enrolled : Enrolled wrapping agentId) :
    Inv wrapping agentId enrolled.state := by
  have hnew : newKey wrapping agentId 1 enrolled.now enrolled.material = some
      ⟨1, enrolled.material.wrappingNonce ++ enrolled.wrapped, enrolled.material.noncePrefix,
        enrolled.now, enrolled.now + keyValidityMs, none⟩ := by
    rw [newKey, enrolled.wraps]
    rfl
  obtain ⟨hsound, -, -, -, hopen, -⟩ := newKey_sound hnew le_rfl (by decide)
  have hholds : Holds wrapping agentId enrolled.state.keys (credential enrolled.config) :=
    ⟨_, List.mem_singleton_self _, rfl, hopen, rfl⟩
  refine ⟨⟨List.nodup_singleton _, ?_, ?_, ?_, ?_, ?_⟩, hholds, hholds, ⟨le_rfl, Nat.le_succ _⟩, ?_, ?_,
    ?_⟩
  · intro row hrow
    rw [List.mem_singleton.mp hrow]
    exact hsound
  · intro row hrow
    rw [List.mem_singleton.mp hrow]
    exact .inl rfl
  · intro row hrow
    rw [List.mem_singleton.mp hrow]
  · intro row hrow next hnext hsucc
    rw [List.mem_singleton.mp hrow, List.mem_singleton.mp hnext] at hsucc
    dsimp only at hsucc
    omega
  · intro row hrow hlater
    rw [List.mem_singleton.mp hrow] at hlater
    dsimp only at hlater
    omega
  · exact fun _ hhandler ↦ absurd hhandler List.not_mem_nil
  · exact fun _ hindex ↦ nomatch hindex
  · exact fun _ hoffer ↦ absurd hoffer List.not_mem_nil

end Steps

/-! ## Runs -/

section Runs

variable (wrapping agentId)

/-- The credential is accepted now, with the row that the worker loads for it. -/
def Authenticates (state : State) (used : Credential) : Prop :=
  ∃ row, loadKey state.keys used.keyEpoch = some row ∧
    accepts wrapping agentId row used state.now = true

variable {wrapping agentId} in
/-- The key that the agent uses is valid. -/
def CurrentKeyValid (state : State) : Prop :=
  ∃ row, loadKey state.keys state.config.keyEpoch = some row ∧ state.now ≤ row.validUntil

/-- While the agent's key is valid, a proposal in the answer that it waits for passes its checks,
whatever its clock says within the tolerated difference. -/
def ProposalsPass (state : State) : Prop :=
  CurrentKeyValid state → ∀ index ∈ state.connection, ∀ handler ∈ state.handlers[index]?,
    ∀ offer ∈ handler.phase.proposal, ∀ skew : ℤ, skew.natAbs ≤ maxClockDifferenceMs.natAbs →
      validateKeyRotation offer state.config.keyEpoch (state.now + skew) = .ok ()

/-- Until the agent adopts it, the next key is always proposed in the same way. -/
def ProposalsAgree (state : State) : Prop :=
  ∀ first ∈ state.offered, ∀ second ∈ state.offered,
    first.keyEpoch = state.persisted.keyEpoch + 1 →
      second.keyEpoch = state.persisted.keyEpoch + 1 → first = second

/-- The worker has the key of the file and accepts it for ninety days from its issue, and as long
as the key that the agent uses is valid. -/
def Admitted (state : State) : Prop :=
  (∃ row, loadKey state.keys state.persisted.keyEpoch = some row ∧
    (state.now ≤ row.validFrom + keyValidityMs →
      accepts wrapping agentId row (credential state.persisted) state.now = true)) ∧
  (CurrentKeyValid state → Authenticates wrapping agentId state (credential state.persisted))

variable {wrapping agentId} {state : State}

theorem Inv.material (h : Inv wrapping agentId state) {offer : KeyRotationProposal}
    (hoffer : Proposed wrapping agentId state.keys state.config.keyEpoch offer) :
    offer.dataKey.length = 32 ∧ offer.noncePrefix.length = 4 ∧ offer.keyEpoch ≤ maxKeyEpoch ∧
      offer.validFromMs ≤ state.now := by
  obtain ⟨row, hrow, hepoch, hkey, hfront, hfrom, -⟩ := hoffer
  have hsound := h.keys.sound row hrow
  obtain ⟨key, hopen, hlength⟩ := hsound.opens
  rw [hkey] at hopen
  rw [Option.some.inj hopen, ← hfront, ← hepoch, ← hfrom]
  exact ⟨hlength, hsound.noncePrefix_length, hsound.epoch_le, hsound.validFrom_le⟩

theorem Inv.proposalsPass (h : Inv wrapping agentId state) : ProposalsPass state := by
  rintro ⟨current, hcurrent, hvalid⟩ index hindex handler hhandler offer hoffer skew hskew
  have hepoch := h.connection index hindex handler hhandler
  obtain ⟨used, phase⟩ := handler
  have hphase := (h.handlers _ (List.mem_of_getElem? hhandler)).2
  cases phase with
  | answered proposal =>
    dsimp only at hepoch hphase
    obtain ⟨hnext, hproposed⟩ := hphase offer hoffer
    obtain ⟨hdataKey, hnoncePrefix, hmaximum, hfrom⟩ := h.material hproposed
    obtain ⟨row, hrow, hrowEpoch, -, -, hrowFrom, hend⟩ := hproposed
    obtain ⟨hcurrentMem, hcurrentEpoch⟩ := loadKey_some hcurrent
    -- The proposed key was issued thirty days after the current one, which is still valid.
    have hspaced := h.keys.spaced current hcurrentMem row hrow (by omega)
    have hcurrentEnd : current.validUntil ≤ current.validFrom + keyValidityMs := by
      exact h.keys.bounded current hcurrentMem
    have hfull : offer.validUntilMs = offer.validFromMs + keyValidityMs := by
      rcases hend with hfull | hbeyond
      · exact hfull
      · omega
    have hdifference : maxClockDifferenceMs.natAbs = 300000 := rfl
    have hinterval : keyRotationIntervalMs = 2592000000 := rfl
    have hvalidity : keyValidityMs = 7776000000 := rfl
    refine validateKeyRotation_ok (by omega) hmaximum hdataKey hnoncePrefix ?_ ?_ ?_ ?_
    · rw [maxFutureSkewMs]
      omega
    · rw [minKeyLifetimeMs]
      omega
    · rw [minKeyLifetimeMs]
      omega
    · rw [maxKeyLifetimeMs]
      omega
  | _ => exact nomatch hoffer

theorem Inv.proposalsAgree (h : Inv wrapping agentId state) : ProposalsAgree state := by
  intro first hfirst second hsecond hfirstEpoch hsecondEpoch
  obtain ⟨row, hrow, hepoch, hkey, hfront, hfrom, hend⟩ := h.offered first hfirst
  obtain ⟨row', hrow', hepoch', hkey', hfront', hfrom', hend'⟩ := h.offered second hsecond
  have hbetween := h.between.1
  obtain rfl : row' = row := h.keys.unique.eq_of_mem hrow' hrow (by omega)
  have hfull : first.validUntilMs = first.validFromMs + keyValidityMs := by
    rcases hend with hfull | hbeyond
    · exact hfull
    · omega
  have hfull' : second.validUntilMs = second.validFromMs + keyValidityMs := by
    rcases hend' with hfull | hbeyond
    · exact hfull
    · omega
  obtain ⟨firstEpoch, firstKey, firstPrefix, firstFrom, firstUntil⟩ := first
  obtain ⟨secondEpoch, secondKey, secondPrefix, secondFrom, secondUntil⟩ := second
  dsimp only at *
  have hkeys : firstKey = secondKey := Option.some.inj (hkey.symm.trans hkey')
  subst hkeys hfront hfrom hepoch
  rw [← hepoch', ← hfront', hfull, hfull', ← hfrom']

/-- The key of the file was not limited: that takes a request under its successor. -/
theorem Inv.admitted (h : Inv wrapping agentId state) : Admitted wrapping agentId state := by
  obtain ⟨row, hrow, hepoch, hkey, hfront⟩ := h.persisted
  have hload : loadKey state.keys state.persisted.keyEpoch = some row := by
    have hload := h.keys.loadKey_eq hrow
    rwa [hepoch] at hload
  have hbetween := h.between
  have hepoch : row.keyEpoch = state.persisted.keyEpoch := hepoch
  have hfull : row.validUntil = row.validFrom + keyValidityMs := by
    rcases h.keys.unlimited row hrow with hfull | hbeyond
    · exact hfull
    · omega
  have haccepts : state.now ≤ row.validFrom + keyValidityMs →
      accepts wrapping agentId row (credential state.persisted) state.now = true := by
    intro hnow
    have hfrom := (h.keys.sound row hrow).validFrom_le
    rw [accepts, hkey, hfront, hfull]
    simp [hfrom, hnow]
  refine ⟨⟨row, hload, haccepts⟩, ?_⟩
  rintro ⟨current, hcurrent, hvalid⟩
  obtain ⟨hcurrentMem, hcurrentEpoch⟩ := loadKey_some hcurrent
  have hcurrentEnd := h.keys.bounded current hcurrentMem
  refine ⟨row, hload, haccepts ?_⟩
  rcases Nat.lt_or_eq_of_le hbetween.1 with hnext | hsame
  · have hspaced := h.keys.spaced current hcurrentMem row hrow (by omega)
    have hpositive : 0 ≤ keyRotationIntervalMs := by decide
    omega
  · have hsameRow : current = row := h.keys.unique.eq_of_mem hcurrentMem hrow (by omega)
    rw [← hsameRow]
    exact hvalid.trans hcurrentEnd

/-- In every run from an enrollment, the proposals that an agent with a valid key receives pass its
checks, they stay the same until one is adopted, and the worker accepts the key in the file of the
agent for ninety days from its issue. -/
theorem rotation_safe (enrolled : Enrolled wrapping agentId) (actions : List Action) :
    Visits (step wrapping agentId)
      (fun state ↦ ProposalsPass state ∧ ProposalsAgree state ∧ Admitted wrapping agentId state)
      enrolled.state actions := by
  have hstart : Inv wrapping agentId enrolled.state := inv_enrolled enrolled
  have hinv : Visits (step wrapping agentId) (Inv wrapping agentId) enrolled.state actions :=
    visits_invariant (fun _ action h ↦ h.step action) hstart actions
  exact visits_mono (fun _ h ↦ ⟨h.proposalsPass, h.proposalsAgree, h.admitted⟩) hinv

/-- After so many rotations a key is at least as many intervals younger than the first one. -/
def Paced (state : State) : Prop :=
  ∀ rotations : ℕ, ∀ row ∈ state.keys, row.keyEpoch = rotations + 1 →
    row.validFrom ≤ state.now ∧ ∃ first ∈ state.keys, first.keyEpoch = 1 ∧
      first.validFrom + rotations * keyRotationIntervalMs ≤ row.validFrom

theorem Inv.paced (h : Inv wrapping agentId state) : Paced state := by
  intro rotations row hrow hepoch
  refine ⟨(h.keys.sound row hrow).validFrom_le, ?_⟩
  induction rotations generalizing row with
  | zero => exact ⟨row, hrow, hepoch, by simp⟩
  | succ rotations ih =>
    obtain ⟨previous, hprevious, hnext⟩ := h.keys.contiguous row hrow (by omega)
    obtain ⟨first, hfirst, hone, hpaced⟩ := ih previous hprevious (by omega)
    refine ⟨first, hfirst, hone, ?_⟩
    calc first.validFrom + (rotations + 1 : ℕ) * keyRotationIntervalMs
        = first.validFrom + rotations * keyRotationIntervalMs + keyRotationIntervalMs := by
          rw [Nat.cast_succ, add_one_mul, add_assoc]
      _ ≤ previous.validFrom + keyRotationIntervalMs := Int.add_le_add_right hpaced _
      _ ≤ row.validFrom := h.keys.spaced previous hprevious row hrow hnext.symm

/-- In every run from an enrollment, whatever requests are answered at the same time, an epoch has
one key, and thirty days have passed for each rotation since the first key was issued. -/
theorem rotation_paced (enrolled : Enrolled wrapping agentId) (actions : List Action) :
    Visits (step wrapping agentId)
      (fun state ↦ UniqueKey KeyRow.keyEpoch state.keys ∧ Paced state) enrolled.state actions := by
  have hinv : Visits (step wrapping agentId) (Inv wrapping agentId) enrolled.state actions :=
    visits_invariant (fun _ action h ↦ h.step action) (inv_enrolled enrolled) actions
  exact visits_mono (fun _ h ↦ ⟨h.keys.unique, h.paced⟩) hinv

/-! An agent that is out of contact for more than ninety days. -/

/-- The key with a tag in front of it. -/
def taggedWrapping : KeyWrapping where
  wrap _ key _ := some (0 :: key)
  unwrap _ wrapped _ := some wrapped.tail
  unwrap_wrap h := by rw [← Option.some.inj h, List.tail_cons]
  wrap_ne_nil h := by
    rw [← Option.some.inj h]
    exact List.cons_ne_nil _ _

def idleAgent : Enrolled taggedWrapping "01234567-89ab-cdef-0123-456789abcdef" where
  material := ⟨List.replicate 32 1, List.replicate 4 2, List.replicate 12 3, rfl, rfl, rfl⟩
  wrapped := 0 :: List.replicate 32 1
  wraps := rfl
  settings := ⟨"", 1, 1, 0, [], [], 0, 10, 60, 0, false⟩
  now := 1000

theorem idleAgent_lockedOut :
    ¬ Visits (step taggedWrapping "01234567-89ab-cdef-0123-456789abcdef")
      (fun state ↦ ProposalsPass state ∧ ProposalsAgree state ∧
        Authenticates taggedWrapping "01234567-89ab-cdef-0123-456789abcdef" state
          (credential state.persisted)) idleAgent.state [.wait 7776000001] := by
  intro hvisits
  obtain ⟨-, -, row, hload, haccepts⟩ := visits_run hvisits
  obtain rfl := Option.some.inj hload
  revert haccepts
  decide +kernel

end Runs

end AlphaPing.System.KeyRotation
