import AlphaPing.Library.Workflows
import AlphaPing.Monitoring.Control

/-!
# Configuration of services and their checks

A mutation reads the actor's access and the rows that it is about, decides with these whether to
go on, and then sends one batch. D1 performs a batch as one transaction, which a violated
constraint takes back as a whole: `assignment_revision` is not nullable, and its subquery gives no
row when the machine is gone or its agent has no capacity left.

Batches also have statements for audit rows, assertions, dashboards and sync jobs, which nothing
here reads. A batch that one of these stops is a batch that fails.
-/

namespace AlphaPing.Monitoring.ServiceConfig

open Library.Tables Control

structure HttpError where
  status : ℕ
  message : String
  deriving DecidableEq

structure CheckSecretInsert where
  id : String
  wrappedBytes : ℕ

/-- What `compileServiceConfig` makes of an input. -/
structure CompiledServiceConfig where
  requestJson : String
  publicHeaders : List String
  body : Option String
  payloadBase64 : Option String
  secretRefs : SecretReferences
  secrets : List CheckSecretInsert

def configurationBytes (compiled : CompiledServiceConfig) (preservedSecretBytes : ℕ) : ℕ :=
  compiled.requestJson.utf8ByteSize + (compiled.secrets.map (·.wrappedBytes)).sum +
    preservedSecretBytes + 512

def referencedSecretIds (refs : SecretReferences) : List String :=
  (refs.body.toList ++ refs.tcpPayload.toList ++ refs.headers.map Prod.snd).filter (· ≠ "")

def parseSecretReferences (refs : SecretReferences) : Option SecretReferences :=
  if refs.headers.any (fun header ↦ header.2 = "") || refs.body = some "" ||
    refs.tcpPayload = some "" then none
  else some refs

/-! ## Statements -/

/-- `advanceAgentConfigurationStatement`, with what it demands besides the machine. -/
def advanceAgentConfiguration (db : ControlDb) (workspaceId : String)
    (condition : Bool) : Option String → ControlDb
  | none => db
  | some machineId =>
    { db with
      machines := updateWhere (fun machine ↦ machine.id = machineId &&
          machine.workspaceId = workspaceId && machine.deletedAt.isNone && condition)
        (fun machine ↦ { machine with desiredConfigRevision := machine.desiredConfigRevision + 1 })
        db.machines }

/-- The value of `assignment_revision`; none is a null. -/
def assignmentRevision (db : ControlDb) (workspaceId : String) (capacity : AgentCapacityInput)
    (unassigned : ℕ) : Option String → Option ℕ
  | none => some unassigned
  | some machineId =>
    (db.machines.find? fun machine ↦ machine.id = machineId &&
      machine.workspaceId = workspaceId && machine.deletedAt.isNone &&
        db.agentCapacity capacity).map MachineRow.desiredConfigRevision

/-- A check as its batch inserts it. -/
structure NewCheck where
  id : String
  serviceId : String
  name : String
  kind : CheckKind
  executorKind : ExecutorKind
  executorAgentId : Option String
  /-- The machine of the agent that was read. -/
  machineId : Option String
  policy : CheckPolicy
  compiled : CompiledServiceConfig
  configBytes : ℕ
  capacity : AgentCapacityInput

def NewCheck.row (new : NewCheck) (workspaceId : String) (assignmentRevision : ℕ) : CheckRow where
  id := new.id
  workspaceId := workspaceId
  serviceId := new.serviceId
  name := new.name
  kind := new.kind
  executorKind := new.executorKind
  executorAgentId := new.executorAgentId
  enabled := true
  policy := new.policy
  requestJson := new.compiled.requestJson
  secretRefs := new.compiled.secretRefs
  configBytes := new.configBytes
  configRevision := 1
  assignmentRevision := assignmentRevision

def insertSecrets (db : ControlDb) (workspaceId : String) (secrets : List CheckSecretInsert) :
    ControlDb :=
  { db with
    secrets := db.secrets ++
      secrets.map fun secret ↦ ⟨secret.id, workspaceId, secret.wrappedBytes⟩ }

/-- The service is there. -/
def hasService (db : ControlDb) (workspaceId serviceId : String) : Bool :=
  db.services.any fun service ↦ service.id = serviceId && service.workspaceId = workspaceId &&
    service.deletedAt.isNone

/-- `INSERT INTO check_configs`, with the number of inserted rows; none is a violated constraint. -/
def insertCheck (db : ControlDb) (workspaceId : String) (new : NewCheck) (condition : Bool) :
    Option (ControlDb × ℕ) :=
  if !(condition && hasService db workspaceId new.serviceId) then some (db, 0)
  else if (db.checks.any fun check ↦ check.id = new.id) || db.retired.contains new.id then none
  else if new.executorAgentId.any fun agentId ↦ !db.agents.any fun agent ↦ agent.id = agentId then
    none
  else
    (assignmentRevision db workspaceId new.capacity 0 new.machineId).map fun revision ↦
      (insertSecrets { db with checks := db.checks ++ [new.row workspaceId revision] }
        workspaceId new.compiled.secrets, 1)

/-- `UPDATE check_configs`; a null in `assignment_revision` violates a constraint. -/
def updateChecks (db : ControlDb) (workspaceId : String) (machineId : Option String)
    (capacity : AgentCapacityInput) (condition : CheckRow → Bool) (change : CheckRow → CheckRow) :
    Option (ControlDb × ℕ) :=
  let revision (check : CheckRow) : Option ℕ :=
    assignmentRevision db workspaceId capacity check.assignmentRevision machineId
  if db.checks.any fun check ↦ condition check && (revision check).isNone then none
  else some
    ({ db with
      checks := updateWhere condition (fun check ↦ { change check with
        configRevision := check.configRevision + 1
        assignmentRevision := (revision check).getD check.assignmentRevision }) db.checks },
      db.checks.countP condition)

/-- `DELETE FROM check_configs`. -/
def deleteChecks (db : ControlDb) (condition : CheckRow → Bool) : ControlDb :=
  { db with
    checks := db.checks.filter fun check ↦ !condition check
    retired := (db.checks.filter condition).map CheckRow.id ++ db.retired }

/-- A service as its batch inserts it. -/
structure NewService where
  id : String
  name : String
  slug : String

/-- `INSERT INTO services`. -/
def insertService (db : ControlDb) (workspaceId : String) (new : NewService) (condition : Bool) :
    Option (ControlDb × ℕ) :=
  if !condition then some (db, 0)
  else if db.services.any fun service ↦ service.id = new.id ||
    (service.workspaceId = workspaceId && service.slug = new.slug && service.deletedAt.isNone) then
    none
  else some
    ({ db with services := db.services ++ [⟨new.id, workspaceId, new.name, new.slug, none, none⟩] },
      1)

inductive ManagedResourceType where
  | machine | service
  deriving DecidableEq

/-- The columns that say whether a resource is deleted; the update may violate a constraint. -/
def updateDeletion (db : ControlDb) (resourceType : ManagedResourceType)
    (workspaceId resourceId : String) (condition : Option ℤ → Option ℤ → Bool)
    (change : Option ℤ → Option ℤ → Option ℤ × Option ℤ) : ControlDb × ℕ :=
  match resourceType with
  | .machine =>
    let matched (machine : MachineRow) : Bool := machine.id = resourceId &&
      machine.workspaceId = workspaceId && condition machine.deletedAt machine.purgeStartedAt
    ({ db with machines := updateWhere matched (fun machine ↦ { machine with
        deletedAt := (change machine.deletedAt machine.purgeStartedAt).1
        purgeStartedAt := (change machine.deletedAt machine.purgeStartedAt).2 }) db.machines },
      db.machines.countP matched)
  | .service =>
    let matched (service : ServiceRow) : Bool := service.id = resourceId &&
      service.workspaceId = workspaceId && condition service.deletedAt service.purgeStartedAt
    ({ db with services := updateWhere matched (fun service ↦ { service with
        deletedAt := (change service.deletedAt service.purgeStartedAt).1
        purgeStartedAt := (change service.deletedAt service.purgeStartedAt).2 }) db.services },
      db.services.countP matched)

/-! ## Batches -/

structure ReplaceCheck where
  checkId : String
  serviceId : String
  machineId : Option String
  /-- `config_revision` as it was read. -/
  configRevision : ℕ
  name : String
  compiled : CompiledServiceConfig
  configBytes : ℕ
  capacity : Option AgentCapacityInput
  /-- The secrets to delete. -/
  oldSecretIds : List String
  machineConditions : List FinalCondition
  checkConditions : List FinalCondition

structure UpdatePolicy where
  checkId : String
  serviceId : String
  machineId : Option String
  /-- `enabled` and `config_bytes` as they were read. -/
  wasEnabled : Bool
  configBytes : ℕ
  enabled : Bool
  policy : CheckPolicy
  capacity : Option AgentCapacityInput
  machineConditions : List FinalCondition
  checkConditions : List FinalCondition

structure DeleteCheck where
  checkId : String
  serviceId : String
  machineId : Option String
  secretIds : List String
  machineConditions : List FinalCondition
  checkConditions : List FinalCondition

/-- The row of a workspace as the retention worker has read it. -/
structure SoftDeletePolicy where
  workspaceId : String
  workspaceDeletedAt : Option ℤ
  softDeleteGraceDays : ℤ

structure ResourceRow where
  id : String
  deletedAt : Option ℤ

inductive Batch where
  | createService (workspaceId : String) (service : NewService) (check : NewCheck)
      (conditions : List FinalCondition)
  | addCheck (workspaceId : String) (check : NewCheck)
      (machineConditions checkConditions : List FinalCondition)
  | replaceCheck (workspaceId : String) (update : ReplaceCheck)
  | updatePolicy (workspaceId : String) (update : UpdatePolicy)
  | deleteCheck (workspaceId : String) (update : DeleteCheck)
  | softDelete (workspaceId : String) (resourceType : ManagedResourceType) (resourceId : String)
      (now : ℤ) (conditions : List FinalCondition)
  | restore (workspaceId : String) (resourceType : ManagedResourceType) (resourceId : String)
      (deletedAt : ℤ) (conditions : List FinalCondition)
  | claimWorkspace (policy : SoftDeletePolicy) (now cutoff : ℤ)
  | claimResource (policy : SoftDeletePolicy) (resourceType : ManagedResourceType)
      (resource : ResourceRow) (now cutoff : ℤ)
  | finalizeMachineControl (policy : SoftDeletePolicy) (machineId : String) (cutoff : ℤ)
  | finalizeServiceControl (policy : SoftDeletePolicy) (serviceId : String) (cutoff : ℤ)
  /-- The other handlers: members, grants, workspaces, machines and agents, no services or
  checks. -/
  | administer (workspaces : List WorkspaceRow) (memberships : List MembershipRow)
      (grants : List GrantRow) (machines : List MachineRow) (agents : List AgentRow)

def createServiceBatch (db : ControlDb) (workspaceId : String) (service : NewService)
    (check : NewCheck) (conditions : List FinalCondition) : Option (ControlDb × ℕ) :=
  let advanced := advanceAgentConfiguration db workspaceId
    (db.agentCapacity check.capacity && db.permits workspaceId conditions) check.machineId
  (insertService advanced workspaceId service (advanced.permits workspaceId conditions)).bind
    fun inserted ↦ (insertCheck inserted.1 workspaceId { check with serviceId := service.id }
      true).map fun created ↦ (created.1, inserted.2)

def addCheckBatch (db : ControlDb) (workspaceId : String) (check : NewCheck)
    (machineConditions checkConditions : List FinalCondition) : Option (ControlDb × ℕ) :=
  let advanced := advanceAgentConfiguration db workspaceId
    (db.agentCapacity check.capacity && db.permits workspaceId machineConditions) check.machineId
  insertCheck advanced workspaceId check (advanced.permits workspaceId checkConditions)

/-- The bindings of the capacity condition when no capacity is enforced. -/
def capacityOr (capacity : Option AgentCapacityInput) (checkId : String) (configBytes : ℕ) :
    AgentCapacityInput :=
  capacity.getD ⟨"", some checkId, configBytes, false⟩

def capacityHolds (db : ControlDb) (capacity : Option AgentCapacityInput) : Bool :=
  capacity.all db.agentCapacity

def replaceCheckBatch (db : ControlDb) (workspaceId : String) (update : ReplaceCheck) :
    Option (ControlDb × ℕ) :=
  let advanced := advanceAgentConfiguration db workspaceId
    ((db.checks.any fun current ↦ current.id = update.checkId &&
        current.workspaceId = workspaceId && current.configRevision = update.configRevision) &&
      capacityHolds db update.capacity && db.permits workspaceId update.machineConditions)
    update.machineId
  (updateChecks advanced workspaceId update.machineId
    (capacityOr update.capacity update.checkId update.configBytes)
    (fun check ↦ check.id = update.checkId && check.serviceId = update.serviceId &&
      check.workspaceId = workspaceId && check.configRevision = update.configRevision &&
      advanced.permits workspaceId update.checkConditions)
    fun check ↦ { check with
      name := update.name
      requestJson := update.compiled.requestJson
      secretRefs := update.compiled.secretRefs
      configBytes := update.configBytes }).map fun (updated, changes) ↦
    (if changes = 0 then updated
      else insertSecrets { updated with secrets := updated.secrets.filter fun secret ↦
        !(secret.workspaceId = workspaceId && update.oldSecretIds.contains secret.id) }
        workspaceId update.compiled.secrets, changes)

def updatePolicyBatch (db : ControlDb) (workspaceId : String) (update : UpdatePolicy) :
    Option (ControlDb × ℕ) :=
  let advanced := advanceAgentConfiguration db workspaceId
    (capacityHolds db update.capacity && db.permits workspaceId update.machineConditions)
    update.machineId
  updateChecks advanced workspaceId update.machineId
    (capacityOr update.capacity update.checkId update.configBytes)
    (fun check ↦ check.id = update.checkId && check.serviceId = update.serviceId &&
      check.workspaceId = workspaceId && check.enabled = update.wasEnabled &&
      advanced.permits workspaceId update.checkConditions &&
      (update.enabled || advanced.checks.any fun remaining ↦
        remaining.serviceId = check.serviceId && remaining.workspaceId = check.workspaceId &&
          remaining.id ≠ check.id && remaining.enabled))
    fun check ↦ { check with enabled := update.enabled, policy := update.policy }

/-- The check that a deletion matches; its guard asks for another check, enabled or not. -/
def deletable (db : ControlDb) (workspaceId : String) (update : DeleteCheck) (check : CheckRow) :
    Bool :=
  check.id = update.checkId && check.serviceId = update.serviceId &&
    check.workspaceId = workspaceId && db.permits workspaceId update.checkConditions &&
    db.checks.any fun remaining ↦ remaining.serviceId = check.serviceId &&
      remaining.workspaceId = check.workspaceId && remaining.id ≠ check.id

def deleteCheckBatch (db : ControlDb) (workspaceId : String) (update : DeleteCheck) :
    ControlDb × ℕ :=
  let advanced := advanceAgentConfiguration db workspaceId
    (db.permits workspaceId update.machineConditions) update.machineId
  let deleted := deleteChecks advanced (deletable advanced workspaceId update)
  (if deleted.checks.any fun check ↦ check.id = update.checkId &&
      check.serviceId = update.serviceId && check.workspaceId = workspaceId then deleted
    else { deleted with secrets := deleted.secrets.filter fun secret ↦
      !(secret.workspaceId = workspaceId && update.secretIds.contains secret.id) },
    advanced.checks.countP (deletable advanced workspaceId update))

/-- `COALESCE(deleted_at, ?) <= ?`. -/
def deletedBy (policy : SoftDeletePolicy) (cutoff : ℤ) (deletedAt : Option ℤ) : Bool :=
  (deletedAt <|> policy.workspaceDeletedAt).any fun at' ↦ at' ≤ cutoff

/-- The check runs on an agent of the machine. -/
def onMachine (db : ControlDb) (machineId : String) (check : CheckRow) : Bool :=
  check.executorAgentId.any fun agentId ↦
    db.agents.any fun agent ↦ agent.id = agentId && agent.machineId = machineId

/-- The checks of the machine's agents are disabled, which the trigger on `config_revision`
counts as a new revision; then the machine goes with its agents. -/
def finalizeMachineControlBatch (db : ControlDb) (policy : SoftDeletePolicy) (machineId : String)
    (cutoff : ℤ) : ControlDb :=
  let purged (machine : MachineRow) : Bool := machine.id = machineId &&
    machine.workspaceId = policy.workspaceId && machine.purgeStartedAt.isSome &&
    deletedBy policy cutoff machine.deletedAt
  { db with
    checks := updateWhere (onMachine db machineId) (fun check ↦ { check with
      enabled := false
      executorAgentId := none
      configRevision := check.configRevision + 1 }) db.checks
    machines := db.machines.filter fun machine ↦ !purged machine
    agents := if db.machines.any purged then
        db.agents.filter fun agent ↦ agent.machineId ≠ machineId
      else db.agents }

/-- The service goes with its checks. -/
def finalizeServiceControlBatch (db : ControlDb) (policy : SoftDeletePolicy) (serviceId : String)
    (cutoff : ℤ) : ControlDb :=
  let purged (service : ServiceRow) : Bool := service.id = serviceId &&
    service.workspaceId = policy.workspaceId && service.purgeStartedAt.isSome &&
    deletedBy policy cutoff service.deletedAt
  if db.services.any purged then
    { deleteChecks db (fun check ↦ check.serviceId = serviceId) with
      services := db.services.filter fun service ↦ !purged service }
  else db

def claimWorkspaceBatch (db : ControlDb) (policy : SoftDeletePolicy) (now cutoff : ℤ) :
    ControlDb × ℕ :=
  let claimed (workspace : WorkspaceRow) : Bool := workspace.id = policy.workspaceId &&
    workspace.deletedAt = policy.workspaceDeletedAt &&
    workspace.deletedAt.any fun deletedAt ↦ deletedAt ≤ cutoff
  ({ db with workspaces := updateWhere claimed (fun workspace ↦
      { workspace with purgeStartedAt := workspace.purgeStartedAt <|> some now }) db.workspaces },
    db.workspaces.countP claimed)

/-- `claimResourceFinalization`. -/
def claimResourceBatch (db : ControlDb) (policy : SoftDeletePolicy)
    (resourceType : ManagedResourceType) (resource : ResourceRow) (now cutoff : ℤ) :
    ControlDb × ℕ :=
  updateDeletion db resourceType policy.workspaceId resource.id
    (fun deletedAt _ ↦ deletedAt = resource.deletedAt &&
      match deletedAt with
      | none => db.workspaces.any fun workspace ↦ workspace.id = policy.workspaceId &&
          workspace.deletedAt.isSome && workspace.deletedAt = policy.workspaceDeletedAt &&
          workspace.purgeStartedAt.isSome
      | some deletedAt => decide (deletedAt ≤ cutoff))
    fun deletedAt purgeStartedAt ↦ (deletedAt, purgeStartedAt <|> some now)

def softDeleteBatch (db : ControlDb) (workspaceId : String) (resourceType : ManagedResourceType)
    (resourceId : String) (now : ℤ) (conditions : List FinalCondition) : ControlDb × ℕ :=
  updateDeletion db resourceType workspaceId resourceId
    (fun deletedAt _ ↦ deletedAt.isNone && db.permits workspaceId conditions)
    fun _ purgeStartedAt ↦ (some now, purgeStartedAt)

/-- The index on the slugs of services that are not deleted can stop a restoration. -/
def restoreBatch (db : ControlDb) (workspaceId : String) (resourceType : ManagedResourceType)
    (resourceId : String) (deletedAt : ℤ) (conditions : List FinalCondition) :
    Option (ControlDb × ℕ) :=
  let restored := updateDeletion db resourceType workspaceId resourceId
    (fun current purgeStartedAt ↦ current = some deletedAt && purgeStartedAt.isNone &&
      db.permits workspaceId conditions)
    fun _ purgeStartedAt ↦ (none, purgeStartedAt)
  if ((restored.1.services.filter fun service ↦ service.deletedAt.isNone).map fun service ↦
      (service.workspaceId, service.slug)).Nodup then some restored
  else none

/-- The batch as one transaction: the database after it and the number of rows that its statement
has changed, unless it is taken back. -/
def execute (db : ControlDb) : Batch → Option (ControlDb × ℕ)
  | .createService workspaceId service check conditions =>
    createServiceBatch db workspaceId service check conditions
  | .addCheck workspaceId check machineConditions checkConditions =>
    addCheckBatch db workspaceId check machineConditions checkConditions
  | .replaceCheck workspaceId update => replaceCheckBatch db workspaceId update
  | .updatePolicy workspaceId update => updatePolicyBatch db workspaceId update
  | .deleteCheck workspaceId update => some (deleteCheckBatch db workspaceId update)
  | .softDelete workspaceId resourceType resourceId now conditions =>
    some (softDeleteBatch db workspaceId resourceType resourceId now conditions)
  | .restore workspaceId resourceType resourceId deletedAt conditions =>
    restoreBatch db workspaceId resourceType resourceId deletedAt conditions
  | .claimWorkspace policy now cutoff => some (claimWorkspaceBatch db policy now cutoff)
  | .claimResource policy resourceType resource now cutoff =>
    some (claimResourceBatch db policy resourceType resource now cutoff)
  | .finalizeMachineControl policy machineId cutoff =>
    some (finalizeMachineControlBatch db policy machineId cutoff, 1)
  | .finalizeServiceControl policy serviceId cutoff =>
    some (finalizeServiceControlBatch db policy serviceId cutoff, 1)
  | .administer workspaces memberships grants machines agents =>
    some ({ db with workspaces, memberships, grants, machines, agents }, 1)

/-- The database after a batch and what its sender learns. -/
def perform (batch : Batch) (db : ControlDb) : ControlDb × Option ℕ :=
  match execute db batch with
  | some (after, changes) => (after, some changes)
  | none => (db, none)

/-! ## What the statements do -/

section Statements

variable {db after : ControlDb} {workspaceId : String} {changes : ℕ}

theorem perform_cases (batch : Batch) (db : ControlDb) :
    (perform batch db).1 = db ∨ ∃ changes, execute db batch = some ((perform batch db).1, changes) := by
  rw [perform]
  cases execute db batch with
  | none => exact .inl rfl
  | some result => exact .inr ⟨result.2, rfl⟩

@[simp] theorem checks_advanceAgentConfiguration (condition : Bool) (machineId : Option String) :
    (advanceAgentConfiguration db workspaceId condition machineId).checks = db.checks := by
  cases machineId <;> rfl

@[simp] theorem retired_advanceAgentConfiguration (condition : Bool) (machineId : Option String) :
    (advanceAgentConfiguration db workspaceId condition machineId).retired = db.retired := by
  cases machineId <;> rfl

@[simp] theorem services_advanceAgentConfiguration (condition : Bool) (machineId : Option String) :
    (advanceAgentConfiguration db workspaceId condition machineId).services = db.services := by
  cases machineId <;> rfl

variable {capacity : AgentCapacityInput} {machineId : Option String}

theorem agentCapacity_of_assignmentRevision {unassigned : ℕ} (hmachine : machineId.isSome = true)
    (h : (assignmentRevision db workspaceId capacity unassigned machineId).isSome = true) :
    db.agentCapacity capacity = true := by
  obtain ⟨machineId, rfl⟩ := Option.isSome_iff_exists.mp hmachine
  rw [assignmentRevision, Option.isSome_map] at h
  obtain ⟨machine, hfind⟩ := Option.isSome_iff_exists.mp h
  have hfound := List.find?_some hfind
  simp only [Bool.and_eq_true] at hfound
  exact hfound.2

theorem insertCheck_cases {new : NewCheck} {condition : Bool}
    (h : insertCheck db workspaceId new condition = some (after, changes)) :
    (after = db ∧ changes = 0 ∧
        (condition && hasService db workspaceId new.serviceId) = false) ∨
      (∃ revision, assignmentRevision db workspaceId new.capacity 0 new.machineId =
            some revision ∧
        new.id ∉ db.checks.map CheckRow.id ∧ new.id ∉ db.retired ∧
        after.checks = db.checks ++ [new.row workspaceId revision] ∧
        after.retired = db.retired ∧ after.services = db.services) := by
  rw [insertCheck] at h
  split at h
  · rename_i hskipped
    obtain ⟨rfl, rfl⟩ := Prod.mk.inj (Option.some.inj h)
    exact .inl ⟨rfl, rfl, (Bool.not_eq_true' _).mp hskipped⟩
  · split at h
    · cases h
    · rename_i hfresh
      split at h
      · cases h
      · obtain ⟨revision, hrevision, heq⟩ := Option.map_eq_some_iff.mp h
        obtain ⟨rfl, rfl⟩ := Prod.mk.inj heq
        simp only [Bool.or_eq_true, List.any_eq_true, decide_eq_true_eq,
          List.contains_iff_mem, not_or, not_exists, not_and] at hfresh
        refine .inr ⟨revision, hrevision, fun hmem ↦ ?_, hfresh.2, rfl, rfl, rfl⟩
        obtain ⟨check, hcheck, heq⟩ := List.mem_map.mp hmem
        exact hfresh.1 check hcheck heq

theorem updateChecks_cases {condition : CheckRow → Bool} {change : CheckRow → CheckRow}
    (h : updateChecks db workspaceId machineId capacity condition change = some (after, changes)) :
    after = { db with
        checks := updateWhere condition (fun check ↦ { change check with
          configRevision := check.configRevision + 1
          assignmentRevision := (assignmentRevision db workspaceId capacity
            check.assignmentRevision machineId).getD check.assignmentRevision }) db.checks } ∧
      ∀ check ∈ db.checks, condition check = true →
        (assignmentRevision db workspaceId capacity check.assignmentRevision machineId).isSome =
          true := by
  rw [updateChecks] at h
  dsimp only at h
  split at h
  · cases h
  · rename_i hnull
    obtain ⟨rfl, -⟩ := Prod.mk.inj (Option.some.inj h)
    refine ⟨rfl, fun check hcheck hcondition ↦ ?_⟩
    by_contra hnone
    refine hnull (List.any_eq_true.mpr ⟨check, hcheck, ?_⟩)
    rw [hcondition, Bool.true_and]
    simpa using hnone

theorem updateChecks_changes {condition : CheckRow → Bool} {change : CheckRow → CheckRow}
    (h : updateChecks db workspaceId machineId capacity condition change = some (after, changes)) :
    changes = db.checks.countP condition := by
  rw [updateChecks] at h
  dsimp only at h
  split at h
  · cases h
  · exact (Prod.mk.inj (Option.some.inj h)).2.symm

theorem insertService_cases {new : NewService} {condition : Bool}
    (h : insertService db workspaceId new condition = some (after, changes)) :
    after.checks = db.checks ∧ after.retired = db.retired ∧
      (after.services = db.services ∨
        (∀ service ∈ db.services, service.id ≠ new.id) ∧ after.services =
          db.services ++ [⟨new.id, workspaceId, new.name, new.slug, none, none⟩]) := by
  rw [insertService] at h
  split at h
  · obtain ⟨rfl, -⟩ := Prod.mk.inj (Option.some.inj h)
    exact ⟨rfl, rfl, .inl rfl⟩
  · split at h
    · cases h
    · rename_i hfresh
      obtain ⟨rfl, -⟩ := Prod.mk.inj (Option.some.inj h)
      refine ⟨rfl, rfl, .inr ⟨fun service hservice heq ↦ hfresh ?_, rfl⟩⟩
      exact List.any_eq_true.mpr ⟨service, hservice, by simp [heq]⟩

@[simp] theorem checks_updateDeletion (resourceType : ManagedResourceType) (resourceId : String)
    (condition : Option ℤ → Option ℤ → Bool) (change : Option ℤ → Option ℤ → Option ℤ × Option ℤ) :
    (updateDeletion db resourceType workspaceId resourceId condition change).1.checks =
      db.checks := by
  cases resourceType <;> rfl

@[simp] theorem retired_updateDeletion (resourceType : ManagedResourceType) (resourceId : String)
    (condition : Option ℤ → Option ℤ → Bool) (change : Option ℤ → Option ℤ → Option ℤ × Option ℤ) :
    (updateDeletion db resourceType workspaceId resourceId condition change).1.retired =
      db.retired := by
  cases resourceType <;> rfl

theorem deleteCheckBatch_checks (db : ControlDb) (workspaceId : String) (update : DeleteCheck) :
    ∃ condition, (deleteCheckBatch db workspaceId update).1.checks =
        (deleteChecks db condition).checks ∧
      (deleteCheckBatch db workspaceId update).1.retired = (deleteChecks db condition).retired := by
  refine ⟨deletable (advanceAgentConfiguration db workspaceId
    (db.permits workspaceId update.machineConditions) update.machineId) workspaceId update, ?_⟩
  rw [deleteCheckBatch]
  split <;> simp [deleteChecks]

theorem restoreBatch_checks {resourceType : ManagedResourceType} {resourceId : String}
    {deletedAt : ℤ} {conditions : List FinalCondition}
    (h : restoreBatch db workspaceId resourceType resourceId deletedAt conditions =
      some (after, changes)) : after.checks = db.checks ∧ after.retired = db.retired := by
  rw [restoreBatch] at h
  split at h
  · have hafter := congrArg Prod.fst (Option.some.inj h)
    dsimp only at hafter
    subst hafter
    exact ⟨checks_updateDeletion _ _ _ _, retired_updateDeletion _ _ _ _⟩
  · cases h

end Statements

end AlphaPing.Monitoring.ServiceConfig
