import AlphaPing.Library.Tables
import AlphaPing.Protocol.Messages
import Mathlib.Data.Prod.Lex
import Mathlib.Data.String.Basic

/-!
# Commands on the server

The table of commands with the statements of the ingest worker and of the retention worker. The
column `payload_json` is represented by the object whose JSON text it holds; its writer is
`JSON.stringify`, and serde fills in what the object leaves out.
-/

namespace AlphaPing.Ingest.Commands

open Library.Tables Protocol

/-- The types that the table admits. -/
inductive CommandType where
  | refreshConfig
  | checkUpdate
  | installVersion
  | redetectRuntimes
  deriving DecidableEq

inductive CommandState where
  | pending
  | delivered
  | succeeded
  | failed
  | expired
  deriving DecidableEq

/-- The object in `payload_json`. -/
structure PayloadObject where
  version : Option String
  bypassRollout : Option Bool
  deriving DecidableEq

structure CommandPayload where
  version : String
  bypassRollout : Bool

/-- `serde_json::from_str` with the defaults of the fields. -/
def PayloadObject.decode (object : PayloadObject) : CommandPayload where
  version := object.version.getD ""
  bypassRollout := object.bypassRollout.getD false

/-- A row of `agent_commands`. -/
structure CommandRow where
  id : String
  agentId : String
  type : CommandType
  payload : PayloadObject
  state : CommandState
  notBefore : ℤ
  expiresAt : ℤ
  attemptLimit : ℕ
  payloadSchemaVersion : ℕ
  createdAt : ℤ
  deliveredAt : Option ℤ
  deliveryCount : ℕ
  completedAt : Option ℤ
  resultCode : Option String
  deriving DecidableEq

/-- The states in which a command is still to be carried out. -/
def isOpen (row : CommandRow) : Bool :=
  row.state = .pending || row.state = .delivered

def maxCommandsPerAck : ℕ := 8

/-! ## Loading -/

def protocolType : CommandType → AgentCommandType
  | .refreshConfig => .refreshConfig
  | .checkUpdate => .checkUpdate
  | .installVersion => .installVersion
  | .redetectRuntimes => .redetectRuntimes

def agentCommand (row : CommandRow) : AgentCommand where
  id := row.id
  type := some (protocolType row.type)
  notBeforeMs := row.notBefore
  expiresAtMs := row.expiresAt
  attemptLimit := row.attemptLimit
  payloadSchemaVersion := row.payloadSchemaVersion
  requestedVersion := row.payload.decode.version
  bypassRollout := row.payload.decode.bypassRollout

def loadable (agentId : String) (nowMs : ℤ) (row : CommandRow) : Bool :=
  row.agentId = agentId && isOpen row && row.notBefore ≤ nowMs && nowMs < row.expiresAt

/-- The rows that `load_commands` selects. -/
def selectCommands (rows : List CommandRow) (agentId : String) (nowMs : ℤ) : List CommandRow :=
  selectOrdered CommandRow.createdAt maxCommandsPerAck (rows.filter (loadable agentId nowMs))

/-- The commands that `load_commands` attaches. -/
def loadCommands (rows : List CommandRow) (agentId : String) (nowMs : ℤ) : List AgentCommand :=
  (selectCommands rows agentId nowMs).map agentCommand

/-- The update of `load_commands` for the rows that it has selected. -/
def markDelivered (rows : List CommandRow) (agentId : String) (ids : List String) (nowMs : ℤ) :
    List CommandRow :=
  updateWhere (fun row ↦ ids.contains row.id && row.agentId = agentId && isOpen row)
    (fun row ↦ { row with
      state := .delivered
      deliveredAt := some (row.deliveredAt.getD nowMs)
      deliveryCount := row.deliveryCount + 1 }) rows

/-! ## Results -/

/-- The state that a result stands for; none is an error. -/
def resultState (result : AgentCommandResult) : Option CommandState :=
  match result.status with
  | 1 => some .succeeded
  | 2 => some .failed
  | _ => none

/-- The update for one result. -/
def completeCommand (agentId : String) (rows : List CommandRow)
    (result : AgentCommandResult × CommandState) : List CommandRow :=
  updateWhere (fun row ↦ row.id = result.1.commandId && row.agentId = agentId && isOpen row)
    (fun row ↦ { row with
      state := result.2
      resultCode := some result.1.resultCode
      completedAt := some result.1.completedAtMs }) rows

/-- `persist_command_results`: one batch, or an error before it. -/
def persistCommandResults (rows : List CommandRow) (agentId : String)
    (results : List AgentCommandResult) : Option (List CommandRow) :=
  (results.mapM fun result ↦ (resultState result).map fun state ↦ (result, state)).map fun pairs ↦
    pairs.foldl (completeCommand agentId) rows

/-! ## Retention -/

/-- `COMMAND_AUDIT_DAYS`, in milliseconds. -/
def commandAuditMs : ℤ := 30 * 86400000

/-- `deleteCommands`: the first rows that match, by the time of completion or expiry. -/
def deleteCommands (rows : List CommandRow) (condition : CommandRow → Bool) (rowBatch : ℕ) :
    List CommandRow :=
  let chosen := selectOrdered (fun row : CommandRow ↦
    toLex (row.completedAt.getD row.expiresAt, row.id)) rowBatch (rows.filter condition)
  rows.filter fun row ↦ !(chosen.map CommandRow.id).contains row.id

def deleteAbandoned (rows : List CommandRow) (now : ℤ) (rowBatch : ℕ) : List CommandRow :=
  deleteCommands rows (fun row ↦ isOpen row && row.expiresAt < now - commandAuditMs) rowBatch

def deleteTerminal (rows : List CommandRow) (now : ℤ) (rowBatch : ℕ) : List CommandRow :=
  deleteCommands rows (fun row ↦ !isOpen row &&
    row.completedAt.any fun completed ↦ completed < now - commandAuditMs) rowBatch

def expireCommands (rows : List CommandRow) (now : ℤ) (rowBatch : ℕ) : List CommandRow :=
  let chosen := selectOrdered (fun row : CommandRow ↦ toLex (row.expiresAt, row.id)) rowBatch
    (rows.filter fun row ↦ isOpen row && row.expiresAt ≤ now)
  updateWhere (fun row ↦ (chosen.map CommandRow.id).contains row.id)
    (fun row ↦ { row with
      state := .expired
      completedAt := some (row.completedAt.getD row.expiresAt)
      resultCode := some (row.resultCode.getD "command_expired") }) rows

/-! ## What the statements leave alone -/

/-- The command in a row, without what becomes of it. -/
def CommandRow.order (row : CommandRow) : AgentCommand × String :=
  (agentCommand row, row.agentId)

theorem mem_selectCommands {rows : List CommandRow} {agentId : String} {nowMs : ℤ}
    {row : CommandRow} (h : row ∈ selectCommands rows agentId nowMs) :
    row ∈ rows ∧ loadable agentId nowMs row = true :=
  List.mem_filter.mp (mem_of_mem_selectOrdered h)

variable (rows : List CommandRow)

theorem length_loadCommands_le (agentId : String) (nowMs : ℤ) :
    (loadCommands rows agentId nowMs).length ≤ maxCommandsPerAck := by
  rw [loadCommands, List.length_map]
  exact length_selectOrdered_le

/-- Every row of the second table is one of the first, in another state. -/
def SameOrders (rows later : List CommandRow) : Prop :=
  ∀ row ∈ later, ∃ old ∈ rows, row.order = old.order

theorem SameOrders.refl : SameOrders rows rows :=
  fun row hrow ↦ ⟨row, hrow, rfl⟩

theorem SameOrders.trans {rows later last : List CommandRow} (h : SameOrders rows later)
    (h' : SameOrders later last) : SameOrders rows last := by
  intro row hrow
  obtain ⟨middle, hmiddle, hrow⟩ := h' row hrow
  obtain ⟨old, hold, hmiddle⟩ := h middle hmiddle
  exact ⟨old, hold, hrow.trans hmiddle⟩

theorem sameOrders_updateWhere {rows : List CommandRow} {condition : CommandRow → Bool}
    {change : CommandRow → CommandRow} (h : ∀ row, (change row).order = row.order) :
    SameOrders rows (updateWhere condition change rows) := by
  intro row hrow
  obtain ⟨old, hold, ⟨-, rfl⟩ | ⟨-, rfl⟩⟩ := mem_updateWhere.mp hrow
  · exact ⟨old, hold, h old⟩
  · exact ⟨row, hold, rfl⟩

theorem sameOrders_filter (condition : CommandRow → Bool) :
    SameOrders rows (rows.filter condition) :=
  fun row hrow ↦ ⟨row, (List.mem_filter.mp hrow).1, rfl⟩

theorem sameOrders_markDelivered (agentId : String) (ids : List String) (nowMs : ℤ) :
    SameOrders rows (markDelivered rows agentId ids nowMs) :=
  sameOrders_updateWhere fun _ ↦ rfl

theorem sameOrders_persistCommandResults {rows later : List CommandRow} {agentId : String}
    {results : List AgentCommandResult}
    (h : persistCommandResults rows agentId results = some later) : SameOrders rows later := by
  obtain ⟨pairs, -, rfl⟩ := Option.map_eq_some_iff.mp h
  clear h
  induction pairs generalizing rows with
  | nil => exact SameOrders.refl rows
  | cons pair rest ih =>
    have hfirst : SameOrders rows (completeCommand agentId rows pair) :=
      sameOrders_updateWhere fun _ ↦ rfl
    exact hfirst.trans ih

theorem sameOrders_expireCommands (now : ℤ) (rowBatch : ℕ) :
    SameOrders rows (expireCommands rows now rowBatch) := by
  rw [expireCommands]
  exact sameOrders_updateWhere fun _ ↦ rfl

end AlphaPing.Ingest.Commands
