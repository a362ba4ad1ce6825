import AlphaPing.Agent.Spool.Commands
import AlphaPing.Ingest.Commands
import AlphaPing.Monitoring.Handlers
import Mathlib.Data.List.TakeWhile

/-!
# Commands for the agents

An administrator queues a command, the ingest worker attaches it to acknowledgements until it is
completed or expires, and the agent checks what it is given. One command that the agent rejects
makes it reject the whole acknowledgement.

The version of a command is checked against a pattern when it is queued, and against the same
characters and a length by the agent; the pattern has no bound on the length.
-/

namespace AlphaPing.Monitoring.AgentCommands

open Ingest Ingest.Commands Library.Runs Library.Tables Handlers ServiceConfig Protocol

/-! ## The pattern of versions -/

/-- `[0-9A-Za-z.-]`. -/
def isIdentifier (character : Char) : Bool :=
  character.isAlphanum || character = '.' || character = '-'

/-- `[0-9]+`, with what follows. -/
def digits (text : List Char) : Option (List Char) :=
  if (text.takeWhile Char.isDigit).isEmpty then none else some (text.dropWhile Char.isDigit)

/-- `[0-9A-Za-z.-]+`, with what follows. -/
def identifiers (text : List Char) : Option (List Char) :=
  if (text.takeWhile isIdentifier).isEmpty then none else some (text.dropWhile isIdentifier)

/-- `\.`. -/
def dot : List Char → Option (List Char)
  | '.' :: rest => some rest
  | _ => none

/-- `(?:-[0-9A-Za-z.-]+)?`. -/
def prerelease : List Char → Option (List Char)
  | '-' :: rest => identifiers rest
  | text => some text

/-- `(?:\+[0-9A-Za-z.-]+)?`. -/
def build : List Char → Option (List Char)
  | '+' :: rest => identifiers rest
  | text => some text

/-- `VERSION_PATTERN.test`. A character that ends one group begins no other, so nothing is lost by
reading each group to its end. -/
def versionPattern (version : String) : Bool :=
  ((digits version.toList).bind dot |>.bind digits |>.bind dot |>.bind digits |>.bind prerelease
    |>.bind build) = some []

/-! ## Queueing -/

/-- `CommandType` of the form. -/
inductive QueuedType where
  | checkUpdate
  | installVersion
  | redetectRuntimes
  deriving DecidableEq

def QueuedType.column : QueuedType → CommandType
  | .checkUpdate => .checkUpdate
  | .installVersion => .installVersion
  | .redetectRuntimes => .redetectRuntimes

/-- What `crypto.randomUUID` returns. -/
abbrev Uuid (codec : Codec) := { text : String // codec.parseUuid text = true }

/-- A request, with what the reads of its handler say. Access and agents are in tables that are
not modelled here. -/
structure QueueRequest (codec : Codec) where
  type : QueuedType
  version : Option String
  bypassRollout : Option Bool
  /-- `requireAdmin` or `requireResourceCapability` passes. -/
  permitted : Bool
  /-- The active agent of the machine. -/
  agent : Option String
  /-- The conditions of the insertion hold. -/
  unchanged : Bool
  commandId : Uuid codec
  now : ℤ

variable {codec : Codec}

/-- The object that is written to `payload_json`. -/
def queuedPayload (type : QueuedType) (version : String) (bypassRollout : Option Bool) :
    PayloadObject where
  version := if version = "" then none else some version
  bypassRollout := if type = .checkUpdate ∨ type = .installVersion then
    some (bypassRollout = some true) else none

/-- The row that is inserted. -/
def queuedRow (request : QueueRequest codec) (agentId version : String) : CommandRow where
  id := request.commandId.1
  agentId := agentId
  type := request.type.column
  payload := queuedPayload request.type version request.bypassRollout
  state := .pending
  notBefore := request.now
  expiresAt := request.now + 30 * 60000
  attemptLimit := 3
  payloadSchemaVersion := 1
  createdAt := request.now
  deliveredAt := none
  deliveryCount := 0
  completedAt := none
  resultCode := none

def queueAgentCommand (rows : List CommandRow) (request : QueueRequest codec) :
    Except HttpError (List CommandRow) :=
  if !request.permitted then .error ⟨404, "Resource not found"⟩
  else match request.agent with
  | none => .error ⟨409, "Machine does not have an active Agent"⟩
  | some agentId =>
    let version := trim (request.version.getD "")
    if request.type = .installVersion && !versionPattern version then
      .error ⟨400, "Version must be an exact semantic version"⟩
    else if request.type ≠ .installVersion && version ≠ "" then
      .error ⟨400, "This command does not accept a version"⟩
    else if !request.unchanged then
      .error ⟨409, "Machine access changed; reload and try again"⟩
    else if rows.any fun row ↦ row.id = request.commandId.1 then .error ⟨500, "D1_ERROR"⟩
    else .ok (rows ++ [queuedRow request agentId version])

/-! ## Runs of the server -/

/-- What is done to the table. -/
inductive Operation (codec : Codec) where
  | queue (request : QueueRequest codec)
  | markDelivered (agentId : String) (ids : List String) (nowMs : ℤ)
  | persistResults (agentId : String) (results : List AgentCommandResult)
  | deleteAbandoned (now : ℤ) (rowBatch : ℕ)
  | deleteTerminal (now : ℤ) (rowBatch : ℕ)
  | expire (now : ℤ) (rowBatch : ℕ)

/-- A statement that fails leaves the table as it was. -/
def operate (rows : List CommandRow) : Operation codec → List CommandRow
  | .queue request => match queueAgentCommand rows request with
    | .ok after => after
    | .error _ => rows
  | .markDelivered agentId ids nowMs => markDelivered rows agentId ids nowMs
  | .persistResults agentId results => (persistCommandResults rows agentId results).getD rows
  | .deleteAbandoned now rowBatch => deleteAbandoned rows now rowBatch
  | .deleteTerminal now rowBatch => deleteTerminal rows now rowBatch
  | .expire now rowBatch => expireCommands rows now rowBatch

/-- The row was inserted by `queueAgentCommand`, whatever has become of it. -/
def Queued (codec : Codec) (row : CommandRow) : Prop :=
  ∃ (request : QueueRequest codec) (agentId version : String),
    row.order = (queuedRow request agentId version).order ∧
      (request.type = .installVersion → versionPattern version = true) ∧
      (request.type ≠ .installVersion → version = "")

theorem queueAgentCommand_ok {rows after : List CommandRow} {request : QueueRequest codec}
    (h : queueAgentCommand rows request = .ok after) : ∃ agentId version,
      after = rows ++ [queuedRow request agentId version] ∧
        (∀ row ∈ rows, row.id ≠ request.commandId.1) ∧
        (request.type = .installVersion → versionPattern version = true) ∧
        (request.type ≠ .installVersion → version = "") := by
  rw [queueAgentCommand] at h
  split at h
  · cases h
  · split at h
    · cases h
    · rename_i agentId _
      dsimp only at h
      generalize trim (request.version.getD "") = version at h
      split at h
      · cases h
      · rename_i hpattern
        split at h
        · cases h
        · rename_i hnone
          split at h
          · cases h
          · split at h
            · cases h
            · rename_i hfresh
              refine ⟨agentId, version, (Except.ok.inj h).symm, by simpa using hfresh,
                fun htype ↦ ?_, fun htype ↦ ?_⟩
              · simpa [htype] using hpattern
              · simpa [htype] using hnone

theorem queued_of_sameOrders {rows later : List CommandRow}
    (h : ∀ row ∈ rows, Queued codec row) (hsame : SameOrders rows later) :
    ∀ row ∈ later, Queued codec row := by
  intro row hrow
  obtain ⟨old, hold, horder⟩ := hsame row hrow
  obtain ⟨request, agentId, version, hold, hvalid⟩ := h old hold
  exact ⟨request, agentId, version, horder.trans hold, hvalid⟩

theorem queued_operate (rows : List CommandRow) (operation : Operation codec)
    (h : ∀ row ∈ rows, Queued codec row) : ∀ row ∈ operate rows operation, Queued codec row := by
  cases operation with
  | queue request =>
    rw [operate]
    split
    · rename_i after hafter
      obtain ⟨agentId, version, rfl, -, hvalid⟩ := queueAgentCommand_ok hafter
      intro row hrow
      rcases List.mem_append.mp hrow with hold | hnew
      · exact h row hold
      · rw [List.mem_singleton.mp hnew]
        exact ⟨request, agentId, version, rfl, hvalid⟩
    · exact h
  | markDelivered agentId ids nowMs =>
    exact queued_of_sameOrders h (sameOrders_markDelivered rows agentId ids nowMs)
  | persistResults agentId results =>
    rw [operate]
    cases hresults : persistCommandResults rows agentId results with
    | none => exact h
    | some after => exact queued_of_sameOrders h (sameOrders_persistCommandResults hresults)
  | deleteAbandoned now rowBatch => exact queued_of_sameOrders h (sameOrders_filter rows _)
  | deleteTerminal now rowBatch => exact queued_of_sameOrders h (sameOrders_filter rows _)
  | expire now rowBatch =>
    exact queued_of_sameOrders h (sameOrders_expireCommands rows now rowBatch)

theorem queued_run (operations : List (Operation codec)) :
    ∀ row ∈ run operate [] operations, Queued codec row := by
  have hstart : ∀ row ∈ ([] : List CommandRow), Queued codec row :=
    fun _ hrow ↦ absurd hrow List.not_mem_nil
  exact run_invariant queued_operate hstart operations

/-! ## What has become of a command -/

/-- A command is open until it has a time of completion. -/
structure Recorded (rows : List CommandRow) : Prop where
  ids : UniqueKey CommandRow.id rows
  completed : ∀ row ∈ rows, isOpen row = row.completedAt.isNone

/-- What is not open stays as it is. -/
def Settles (rows after : List CommandRow) : Prop :=
  Recorded after ∧ ∀ row ∈ rows, isOpen row = false → row ∈ after

/-- A command that is not open stays as it is until retention deletes it, thirty days after its
recorded end at the earliest. -/
def ResultsStay (rows : List CommandRow) (operation : Operation codec) : Prop :=
  ∀ row ∈ rows, isOpen row = false → row ∈ operate rows operation ∨
    ∃ now rowBatch, operation = .deleteTerminal now rowBatch ∧
      ∃ completed ∈ row.completedAt, completed < now - commandAuditMs

section Recorded

variable {rows after : List CommandRow}

theorem Recorded.updateWhere (h : Recorded rows) {condition : CommandRow → Bool}
    {change : CommandRow → CommandRow} (hid : ∀ row, (change row).id = row.id)
    (hopen : ∀ row ∈ rows, condition row = true → isOpen row = true)
    (hchange : ∀ row ∈ rows, condition row = true →
      isOpen (change row) = (change row).completedAt.isNone) :
    Settles rows (updateWhere condition change rows) := by
  refine ⟨⟨h.ids.updateWhere hid, fun row hrow ↦ ?_⟩, fun row hrow hclosed ↦ ?_⟩
  · obtain ⟨old, hold, ⟨hcondition, rfl⟩ | ⟨-, rfl⟩⟩ := mem_updateWhere.mp hrow
    · exact hchange old hold hcondition
    · exact h.completed row hold
  · refine mem_updateWhere_of_not hrow (Bool.eq_false_iff.mpr fun hcondition ↦ ?_)
    rw [hopen row hrow hcondition] at hclosed
    cases hclosed

theorem Recorded.chosen (h : Recorded rows) {condition : CommandRow → Bool}
    {chosen : List CommandRow} (hchosen : ∀ row ∈ chosen, row ∈ rows.filter condition)
    {row : CommandRow} (hrow : row ∈ rows) (hid : (chosen.map CommandRow.id).contains row.id) :
    condition row = true := by
  obtain ⟨other, hother, hsame⟩ := List.mem_map.mp (List.contains_iff_mem.mp hid)
  obtain ⟨hmem, hcondition⟩ := List.mem_filter.mp (hchosen other hother)
  rwa [← h.ids.eq_of_mem hmem hrow hsame]

theorem Recorded.deleteCommands (h : Recorded rows) (condition : CommandRow → Bool)
    (rowBatch : ℕ) : Recorded (deleteCommands rows condition rowBatch) ∧
      ∀ row ∈ rows, row ∈ deleteCommands rows condition rowBatch ∨ condition row = true := by
  refine ⟨⟨h.ids.filter _, fun row hrow ↦ h.completed row (List.mem_filter.mp hrow).1⟩,
    fun row hrow ↦ or_iff_not_imp_left.mpr fun hgone ↦ ?_⟩
  rw [Commands.deleteCommands, List.mem_filter, not_and] at hgone
  have hid := hgone hrow
  rw [Bool.not_eq_true, Bool.not_eq_false'] at hid
  exact h.chosen (fun _ ↦ mem_of_mem_selectOrdered) hrow hid

theorem Recorded.persistCommandResults (h : Recorded rows) {agentId : String}
    {results : List AgentCommandResult}
    (hresults : persistCommandResults rows agentId results = some after) : Settles rows after := by
  obtain ⟨pairs, hpairs, rfl⟩ := Option.map_eq_some_iff.mp hresults
  clear hresults
  induction results generalizing rows pairs with
  | nil =>
    obtain rfl := Option.some.inj hpairs
    exact ⟨h, fun _ hrow _ ↦ hrow⟩
  | cons result rest ih =>
    rw [List.mapM_cons] at hpairs
    obtain ⟨pair, hpair, hpairs⟩ := Option.bind_eq_some_iff.mp hpairs
    obtain ⟨others, hothers, hpairs⟩ := Option.bind_eq_some_iff.mp hpairs
    obtain rfl := Option.some.inj hpairs
    obtain ⟨state, hstate, rfl⟩ := Option.map_eq_some_iff.mp hpair
    have hclosed : state = .succeeded ∨ state = .failed := by
      unfold resultState at hstate
      split at hstate
      · exact .inl (Option.some.inj hstate).symm
      · exact .inr (Option.some.inj hstate).symm
      · cases hstate
    have hfirst : Settles rows (completeCommand agentId rows (result, state)) := by
      refine h.updateWhere (fun _ ↦ rfl) (fun row _ hcondition ↦ ?_) fun row _ _ ↦ ?_
      · exact (Bool.and_eq_true _ _ ▸ hcondition).2
      · rcases hclosed with rfl | rfl <;> rfl
    have hrest := ih hfirst.1 others hothers
    exact ⟨hrest.1, fun row hrow hstays ↦ hrest.2 row (hfirst.2 row hrow hstays) hstays⟩

theorem recorded_operate (operation : Operation codec) (h : Recorded rows) :
    Recorded (operate rows operation) ∧ ResultsStay rows operation := by
  have hsettles : Settles rows (operate rows operation) →
      Recorded (operate rows operation) ∧ ResultsStay rows operation :=
    fun hafter ↦ ⟨hafter.1, fun row hrow hclosed ↦ .inl (hafter.2 row hrow hclosed)⟩
  cases operation with
  | queue request =>
    refine hsettles ?_
    rw [operate]
    split
    · next after hafter =>
      obtain ⟨agentId, version, rfl, hfresh, -⟩ := queueAgentCommand_ok hafter
      refine ⟨⟨uniqueKey_append_singleton h.ids hfresh, fun row hrow ↦ ?_⟩,
        fun row hrow _ ↦ List.mem_append_left _ hrow⟩
      rcases List.mem_append.mp hrow with hold | hnew
      · exact h.completed row hold
      · rw [List.mem_singleton.mp hnew]
        rfl
    · exact ⟨h, fun _ hrow _ ↦ hrow⟩
  | markDelivered agentId ids nowMs =>
    refine hsettles (h.updateWhere (fun _ ↦ rfl) (fun row _ hcondition ↦ ?_)
      fun row hrow hcondition ↦ ?_)
    · exact (Bool.and_eq_true _ _ ▸ hcondition).2
    · exact (Bool.and_eq_true _ _ ▸ hcondition).2.symm.trans (h.completed row hrow)
  | persistResults agentId results =>
    refine hsettles ?_
    rw [operate]
    cases hresults : persistCommandResults rows agentId results with
    | none => exact ⟨h, fun _ hrow _ ↦ hrow⟩
    | some after => exact h.persistCommandResults hresults
  | deleteAbandoned now rowBatch =>
    obtain ⟨hafter, hdeleted⟩ := h.deleteCommands
      (fun row ↦ isOpen row && row.expiresAt < now - commandAuditMs) rowBatch
    refine hsettles ⟨hafter, fun row hrow hclosed ↦ (hdeleted row hrow).resolve_right ?_⟩
    simp [hclosed]
  | deleteTerminal now rowBatch =>
    obtain ⟨hafter, hdeleted⟩ := h.deleteCommands (fun row ↦ !isOpen row &&
      row.completedAt.any fun completed ↦ completed < now - commandAuditMs) rowBatch
    refine ⟨hafter, fun row hrow hclosed ↦ (hdeleted row hrow).imp_right fun hold ↦ ?_⟩
    obtain ⟨completed, hcompleted, hlate⟩ :=
      (Option.any_eq_true _ _).mp (Bool.and_eq_true _ _ ▸ hold).2
    exact ⟨now, rowBatch, rfl, completed, hcompleted, of_decide_eq_true hlate⟩
  | expire now rowBatch =>
    refine hsettles (h.updateWhere (fun _ ↦ rfl) (fun row hrow hcondition ↦ ?_) fun _ _ _ ↦ rfl)
    exact (Bool.and_eq_true _ _ ▸ h.chosen (fun _ ↦ mem_of_mem_selectOrdered) hrow hcondition).1

end Recorded

/-- A part of a version is consumed, made of characters that the agent admits. -/
def Consumes (text rest : List Char) : Prop :=
  ∃ part, text = part ++ rest ∧
    ∀ character ∈ part, character.isAlphanum = true ∨ character ∈ ['.', '-', '+']

theorem Consumes.trans {text middle rest : List Char} (h : Consumes text middle)
    (h' : Consumes middle rest) : Consumes text rest := by
  obtain ⟨first, rfl, hfirst⟩ := h
  obtain ⟨second, rfl, hsecond⟩ := h'
  refine ⟨first ++ second, (List.append_assoc first second rest).symm, fun character hmem ↦ ?_⟩
  exact (List.mem_append.mp hmem).elim (hfirst character) (hsecond character)

theorem isAlphanum_of_isDigit {character : Char} (h : character.isDigit = true) :
    character.isAlphanum = true := by
  rw [Char.isAlphanum, h, Bool.or_true]

theorem admitted_of_isIdentifier {character : Char} (h : isIdentifier character = true) :
    character.isAlphanum = true ∨ character ∈ ['.', '-', '+'] := by
  simp only [isIdentifier, Bool.or_eq_true, decide_eq_true_eq] at h
  rcases h with (halphanum | rfl) | rfl
  · exact .inl halphanum
  · exact .inr (by decide)
  · exact .inr (by decide)

variable {text rest : List Char}

theorem consumes_digits (h : digits text = some rest) : Consumes text rest := by
  rw [digits] at h
  split at h
  · cases h
  · obtain rfl := Option.some.inj h
    exact ⟨_, List.takeWhile_append_dropWhile.symm, fun character hmem ↦
      .inl (isAlphanum_of_isDigit (List.mem_takeWhile_imp hmem))⟩

theorem consumes_identifiers (h : identifiers text = some rest) : Consumes text rest := by
  rw [identifiers] at h
  split at h
  · cases h
  · obtain rfl := Option.some.inj h
    exact ⟨_, List.takeWhile_append_dropWhile.symm, fun character hmem ↦
      admitted_of_isIdentifier (List.mem_takeWhile_imp hmem)⟩

theorem consumes_character {character : Char} (h : character ∈ ['.', '-', '+'])
    (rest : List Char) : Consumes (character :: rest) rest :=
  ⟨[character], rfl, fun _ hmem ↦ .inr (List.mem_singleton.mp hmem ▸ h)⟩

theorem consumes_dot (h : dot text = some rest) : Consumes text rest := by
  unfold dot at h
  split at h
  · obtain rfl := Option.some.inj h
    exact consumes_character (by decide) _
  · cases h

theorem consumes_prerelease (h : prerelease text = some rest) : Consumes text rest := by
  unfold prerelease at h
  split at h
  · exact (consumes_character (by decide) _).trans (consumes_identifiers h)
  · obtain rfl := Option.some.inj h
    exact ⟨[], rfl, fun _ hmem ↦ absurd hmem List.not_mem_nil⟩

theorem consumes_build (h : build text = some rest) : Consumes text rest := by
  unfold build at h
  split at h
  · exact (consumes_character (by decide) _).trans (consumes_identifiers h)
  · obtain rfl := Option.some.inj h
    exact ⟨[], rfl, fun _ hmem ↦ absurd hmem List.not_mem_nil⟩

theorem admitted_of_versionPattern {version : String} (h : versionPattern version = true) :
    version.isEmpty = false ∧ ∀ character ∈ version.toList,
      character.isAlphanum = true ∨ character ∈ ['.', '-', '+'] := by
  have h := of_decide_eq_true h
  obtain ⟨afterPrerelease, h, hbuild⟩ := Option.bind_eq_some_iff.mp h
  obtain ⟨afterPatch, h, hprerelease⟩ := Option.bind_eq_some_iff.mp h
  obtain ⟨beforePatch, h, hpatch⟩ := Option.bind_eq_some_iff.mp h
  obtain ⟨afterMinor, h, hsecondDot⟩ := Option.bind_eq_some_iff.mp h
  obtain ⟨beforeMinor, h, hminor⟩ := Option.bind_eq_some_iff.mp h
  obtain ⟨afterMajor, hmajor, hfirstDot⟩ := Option.bind_eq_some_iff.mp h
  constructor
  · by_contra hempty
    rw [Bool.not_eq_false, String.isEmpty_iff] at hempty
    rw [hempty] at hmajor
    exact nomatch hmajor
  · obtain ⟨part, hpart, hadmitted⟩ := (((((consumes_digits hmajor).trans
      (consumes_dot hfirstDot)).trans (consumes_digits hminor)).trans
      (consumes_dot hsecondDot)).trans (consumes_digits hpatch)).trans
      ((consumes_prerelease hprerelease).trans (consumes_build hbuild))
    rw [List.append_nil] at hpart
    rwa [hpart]

/-- What stands between a queued command and the agent: the length of its version and its expiry
by the agent's clock. -/
def Acceptable (nowMs : ℤ) (command : AgentCommand) : Prop :=
  command.requestedVersion.utf8ByteSize ≤ 64 ∧ nowMs - 300000 < command.expiresAtMs

instance (nowMs : ℤ) (command : AgentCommand) : Decidable (Acceptable nowMs command) :=
  inferInstanceAs (Decidable (_ ∧ _))

theorem validateCommand_iff {row : CommandRow} (hqueued : Queued codec row) {loadedAt nowMs : ℤ}
    (hloaded : row.notBefore ≤ loadedAt) (hclock : loadedAt ≤ nowMs + 300000) :
    Agent.Spool.validateCommand codec (agentCommand row) nowMs = .ok () ↔
      Acceptable nowMs (agentCommand row) := by
  obtain ⟨request, agentId, version, horder, hpattern, hnone⟩ := hqueued
  have hcommand : agentCommand row = agentCommand (queuedRow request agentId version) :=
    congrArg Prod.fst horder
  have hbefore : (agentCommand row).notBeforeMs = request.now := by rw [hcommand]; rfl
  have hbefore : row.notBefore = request.now := hbefore
  have hversion : (agentCommand row).requestedVersion = version := by
    rw [hcommand]
    dsimp only [agentCommand, queuedRow, queuedPayload, PayloadObject.decode]
    split
    · rename_i hempty
      rw [hempty]
      rfl
    · rfl
  have hexpires : (agentCommand row).expiresAtMs = request.now + 1800000 := by
    rw [hcommand]
    rfl
  have hadmitted : version.toList.all (fun character ↦
      character.isAlphanum || character ∈ ['.', '-', '+']) = true := by
    rw [List.all_eq_true]
    intro character hmem
    rw [Bool.or_eq_true, decide_eq_true_eq]
    by_cases htype : request.type = .installVersion
    · exact (admitted_of_versionPattern (hpattern htype)).2 character hmem
    · rw [hnone htype] at hmem
      exact absurd hmem List.not_mem_nil
  have hfields : Agent.Spool.commandFieldsValid codec (agentCommand row) nowMs = true ↔
      Acceptable nowMs (agentCommand row) := by
    rw [Acceptable, hversion, hexpires, Agent.Spool.commandFieldsValid, hversion, hexpires, hadmitted,
      hcommand]
    have htype : ((agentCommand (queuedRow request agentId version)).type !=
        some .unspecified) = true := by
      cases request with
      | mk type => cases type <;> rfl
    have huuid : codec.parseUuid (agentCommand (queuedRow request agentId version)).id = true :=
      request.commandId.2
    have hwindow : (agentCommand (queuedRow request agentId version)).notBeforeMs ≤
        request.now + 1800000 := by
      change request.now ≤ _
      omega
    have hday : request.now + 1800000 ≤ nowMs + 86400000 := by omega
    rw [htype, huuid, decide_eq_true hwindow, decide_eq_true hday]
    simp [agentCommand, queuedRow, and_comm]
  have hinstall : ¬ ((agentCommand row).type = some .installVersion ∧
      (agentCommand row).requestedVersion.isEmpty = true) := by
    rintro ⟨htype, hempty⟩
    rw [hversion] at hempty
    rw [hcommand] at htype
    have hrequest : request.type = .installVersion := by
      cases hkind : request.type <;>
        simp [agentCommand, queuedRow, QueuedType.column, protocolType, hkind] at htype ⊢
    rw [(admitted_of_versionPattern (hpattern hrequest)).1] at hempty
    cases hempty
  have hother : ¬ ((agentCommand row).type ≠ some .checkUpdate ∧
      (agentCommand row).type ≠ some .installVersion ∧
      (¬ (agentCommand row).requestedVersion.isEmpty = true ∨
        (agentCommand row).bypassRollout = true)) := by
    rintro ⟨hcheck, hnotInstall, hpayload⟩
    rw [hversion, hcommand] at hpayload
    rw [hcommand] at hcheck hnotInstall
    have hrequest : request.type = .redetectRuntimes := by
      cases hkind : request.type <;>
        simp [agentCommand, queuedRow, QueuedType.column, protocolType, hkind]
          at hcheck hnotInstall ⊢
    have hempty : version = "" := hnone (by rw [hrequest]; decide)
    rw [hempty] at hpayload
    rcases hpayload with hnonempty | hbypass
    · exact hnonempty rfl
    · rw [agentCommand, queuedRow, queuedPayload, hrequest] at hbypass
      exact nomatch hbypass
  have htype : (agentCommand row).type ≠ none := Option.some_ne_none _
  rw [Agent.Spool.validateCommand, if_neg htype, ← hfields]
  by_cases hvalid : Agent.Spool.commandFieldsValid codec (agentCommand row) nowMs = true
  · rw [if_neg (not_not.mpr hvalid), if_neg hinstall, if_neg hother]
    exact iff_of_true rfl hvalid
  · rw [if_pos hvalid]
    exact iff_of_false nofun hvalid

theorem forM_validateCommand_iff (commands : List AgentCommand) (nowMs : ℤ) :
    commands.forM (Agent.Spool.validateCommand codec · nowMs) = .ok () ↔
      ∀ command ∈ commands, Agent.Spool.validateCommand codec command nowMs = .ok () := by
  induction commands with
  | nil => exact ⟨fun _ _ h ↦ absurd h List.not_mem_nil, fun _ ↦ rfl⟩
  | cons command rest ih =>
    rw [List.forM, List.forall_mem_cons, ← ih]
    cases Agent.Spool.validateCommand codec command nowMs with
    | error message => exact iff_of_false nofun fun h ↦ nomatch h.1
    | ok => exact ⟨fun h ↦ ⟨rfl, h⟩, fun h ↦ h.2⟩

theorem acceptCommands_iff {commands : List AgentCommand} (hlength : commands.length ≤ 8)
    (spool : Agent.Spool) (nowMs : ℤ) :
    (spool.acceptCommands codec commands nowMs).1 = .ok () ↔
      ∀ command ∈ commands, Agent.Spool.validateCommand codec command nowMs = .ok () := by
  rw [Agent.Spool.acceptCommands, if_neg (by omega), ← forM_validateCommand_iff]
  cases commands.forM (Agent.Spool.validateCommand codec · nowMs) with
  | error message => exact iff_of_false nofun nofun
  | ok => exact iff_of_true rfl rfl

theorem accepts_loaded_iff {rows : List CommandRow} (hqueued : ∀ row ∈ rows, Queued codec row)
    (agentId : String) {loadedAt nowMs : ℤ} (hclock : loadedAt ≤ nowMs + 300000)
    (spool : Agent.Spool) :
    (spool.acceptCommands codec (loadCommands rows agentId loadedAt) nowMs).1 = .ok () ↔
      ∀ command ∈ loadCommands rows agentId loadedAt, Acceptable nowMs command := by
  rw [acceptCommands_iff (length_loadCommands_le rows agentId loadedAt)]
  refine forall₂_congr fun command hcommand ↦ ?_
  obtain ⟨row, hselected, rfl⟩ := List.mem_map.mp hcommand
  obtain ⟨hrow, hloadable⟩ := mem_selectCommands hselected
  simp only [loadable, Bool.and_eq_true, decide_eq_true_eq] at hloadable
  exact validateCommand_iff (hqueued row hrow) hloadable.1.2 hclock

/-- An administrator asks for a version of 66 characters. -/
def longVersion : QueueRequest prefixCodec where
  type := .installVersion
  version := some (String.ofList ("1.0.0-".toList ++ List.replicate 60 'a'))
  bypassRollout := some false
  permitted := true
  agent := some "agent"
  unchanged := true
  commandId := ⟨"01234567-89ab-cdef-0123-456789abcdef", by decide +kernel⟩
  now := 0

/-- The agent accepts what an acknowledgement brings, at any later time and with clocks that differ
by at most five minutes, exactly if each of its commands has a version of at most 64 bytes and has
not been expired for five minutes by the agent's clock. -/
theorem accepts_iff_acceptable (operations : List (Operation codec)) (agentId : String)
    (spool : Agent.Spool) (loadedAt deliveredAt nowMs : ℤ) (hlater : loadedAt ≤ deliveredAt)
    (hclocks : (nowMs - deliveredAt).natAbs ≤ 300000) :
    (spool.acceptCommands codec (loadCommands (run operate [] operations) agentId loadedAt)
        nowMs).1 = .ok () ↔
      ∀ command ∈ loadCommands (run operate [] operations) agentId loadedAt,
        Acceptable nowMs command :=
  accepts_loaded_iff (queued_run operations) agentId (by omega) spool

theorem accepts_iff_acceptable_checkUpdate :
    (Agent.Spool.empty.acceptCommands prefixCodec (loadCommands (run operate [] [.queue
      { longVersion with type := .checkUpdate, version := none }]) "agent" 1000) 2000).1 = .ok () :=
  (accepts_iff_acceptable [.queue { longVersion with type := .checkUpdate, version := none }]
    "agent" Agent.Spool.empty 1000 1500 2000 (by decide) (by decide)).mpr (by decide +kernel)

theorem loadCommands_longVersion {now : ℤ} (hfrom : 0 ≤ now) (huntil : now < 1800000) :
    loadCommands (run operate [] [.queue longVersion]) "agent" now =
      [agentCommand (queuedRow longVersion "agent" (longVersion.version.getD ""))] := by
  have hrows : run operate [] [.queue longVersion] =
      [queuedRow longVersion "agent" (longVersion.version.getD "")] := by decide +kernel
  have hloadable : loadable "agent" now
      (queuedRow longVersion "agent" (longVersion.version.getD "")) = true := by
    simp [loadable, queuedRow, longVersion, isOpen, hfrom, huntil]
  rw [hrows, loadCommands, selectCommands, List.filter_cons_of_pos hloadable, List.filter_nil]
  rfl

theorem longVersion_blocks :
    ∀ now : ℤ, 0 ≤ now → now < 1800000 →
      (Agent.Spool.empty.acceptCommands prefixCodec
        (loadCommands (run operate [] [.queue longVersion]) "agent" now) now).1 ≠ .ok () := by
  intro now hfrom huntil haccepts
  rw [accepts_loaded_iff (queued_run _) "agent" (by omega), loadCommands_longVersion hfrom huntil,
    List.forall_mem_singleton] at haccepts
  exact absurd haccepts.1 (by decide +kernel)

/-- So after 29 minutes. -/
theorem longVersion_rejected :
    (Agent.Spool.empty.acceptCommands prefixCodec
      (loadCommands (run operate [] [.queue longVersion]) "agent" 1740000) 1740000).1 ≠ .ok () :=
  longVersion_blocks 1740000 (by decide) (by decide)

end AlphaPing.Monitoring.AgentCommands
