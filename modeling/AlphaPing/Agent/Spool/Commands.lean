import AlphaPing.Agent.Spool.Tables

/-!
# Commands from the server

A command is stored once and stays until the acknowledgement of the report that carries its
result. Its result waits in a table of its own for the next delivery.
-/

namespace AlphaPing.Agent

open Protocol Library.Tables

structure PendingCommand where
  command : AgentCommand
  attemptCount : ℕ

namespace Spool

def commandFieldsValid (codec : Codec) (command : AgentCommand) (nowMs : ℤ) : Bool :=
  command.type != some .unspecified && codec.parseUuid command.id &&
    command.notBeforeMs ≤ command.expiresAtMs && nowMs - 300000 < command.expiresAtMs &&
    command.expiresAtMs ≤ nowMs + 86400000 &&
    (1 ≤ command.attemptLimit && command.attemptLimit ≤ 5) &&
    command.payloadSchemaVersion == 1 && command.requestedVersion.utf8ByteSize ≤ 64 &&
    command.requestedVersion.toList.all fun character ↦
      character.isAlphanum || character ∈ ['.', '-', '+']

def validateCommand (codec : Codec) (command : AgentCommand) (nowMs : ℤ) : Except String Unit :=
  if command.type = none then .error "Agent command type is invalid"
  else if ¬ commandFieldsValid codec command nowMs then .error "Agent command fields are invalid"
  else if command.type = some .installVersion ∧ command.requestedVersion.isEmpty then
    .error "install-version command omitted the version"
  else if command.type ≠ some .checkUpdate ∧ command.type ≠ some .installVersion ∧
      (¬ command.requestedVersion.isEmpty ∨ command.bypassRollout) then
    .error "Agent command payload is not valid for its type"
  else .ok ()

/-- `INSERT OR IGNORE` of one command. -/
def insertCommand (nowMs : ℤ) (rows : List CommandRow) (command : AgentCommand) :
    List CommandRow :=
  if rows.any fun row ↦ row.commandId == command.id then rows
  else
    rows ++ [{ commandId := command.id
               payload := command
               state := .pending
               attemptCount := 0
               attemptLimit := command.attemptLimit
               nextAttemptAt := max command.notBeforeMs nowMs
               createdAt := nowMs
               updatedAt := nowMs }]

/-- `accept_commands`: one invalid command rejects them all. -/
def acceptCommands (spool : Spool) (codec : Codec) (commands : List AgentCommand) (nowMs : ℤ) :
    Outcome Unit :=
  if 8 < commands.length then (.error "server returned too many Agent commands", spool)
  else
    match commands.forM (validateCommand codec · nowMs) with
    | .error message => (.error message, spool)
    | .ok () =>
      (.ok (), { spool with
        agentCommands := commands.foldl (insertCommand nowMs) spool.agentCommands })

/-- The states of a command that is not completed yet. -/
def isOpen (row : CommandRow) : Bool :=
  row.state == .pending || row.state == .running

def dueCommand (spool : Spool) (nowMs : ℤ) : Option PendingCommand :=
  (selectOrdered (fun row ↦ toLex (row.nextAttemptAt, row.createdAt)) 1
    (spool.agentCommands.filter fun row ↦
      isOpen row && decide (row.nextAttemptAt ≤ nowMs))).head?.map fun row ↦
    { command := row.payload, attemptCount := row.attemptCount }

def markCommandAttempt (spool : Spool) (commandId : String) (retryAtMs : ℤ) : Outcome ℕ :=
  match spool.agentCommands.find? fun row ↦ row.commandId == commandId && isOpen row with
  | none => (.error "Agent command is no longer pending", spool)
  | some row =>
    (.ok (row.attemptCount + 1), { spool with
      agentCommands := updateWhere (fun other ↦ other.commandId == commandId && isOpen other)
        (fun other ↦ { other with
          state := .running
          attemptCount := other.attemptCount + 1
          nextAttemptAt := retryAtMs
          updatedAt := retryAtMs }) spool.agentCommands })

def upsertResult (rows : List CommandResultRow) (result : AgentCommandResult) :
    List CommandResultRow :=
  let row : CommandResultRow :=
    { commandId := result.commandId, payload := result, completedAt := result.completedAtMs }
  if rows.any fun old ↦ old.commandId == result.commandId then
    updateWhere (fun old ↦ old.commandId == result.commandId) (fun _ ↦ row) rows
  else rows ++ [row]

def completeCommand (spool : Spool) (result : AgentCommandResult) : Outcome Unit :=
  let condition (row : CommandRow) : Bool := row.commandId == result.commandId && isOpen row
  if spool.agentCommands.countP condition = 0 then (.error "Agent command is not pending", spool)
  else
    (.ok (), { spool with
      agentCommands := updateWhere condition
        (fun row ↦ { row with state := .completed, updatedAt := result.completedAtMs })
        spool.agentCommands
      commandResults := upsertResult spool.commandResults result })

end Spool

end AlphaPing.Agent
