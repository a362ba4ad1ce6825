import AlphaPing.Checks.Assertions
import AlphaPing.Library.CascadingBatches

/-!
# The statements of the mutations

`createServiceMonitor`, `addServiceCheck`, `replaceServiceCheckConfiguration`,
`updateServiceCheckPolicy` and `deleteServiceCheck` each send one batch. Its statements are
chained: an audit row and a sync job ask for one change of the statement before them, the rows of
a new check ask for the check, those of a replacement for the token of the sync job. The answer is
taken from the count of the statement that changes the service or the check, which comes first or
follows the one that advances the configuration of the agent's machine.

The rows of a deleted check go with it: `check_assertions.check_id` cascades. `changes()` leaves
them out, `meta.changes` does not.
-/

namespace AlphaPing.Monitoring.MutationBatches

open Library.Tables Library.CascadingBatches Library.Workflows Control ServiceConfig Handlers
open Checks.Assertions (AssertionOperator Severity)

/-! ## The tables -/

inductive AssertionSource where
  | status | latency | header | jsonpath | body
  deriving DecidableEq

/-- `CompiledAssertion`, with the text of `expected`. -/
structure CompiledAssertion where
  source : AssertionSource
  operator : AssertionOperator
  selector : Option String
  expectedJson : String
  severity : Severity

/-- A row of `check_assertions`. -/
structure AssertionRow where
  id : String
  checkId : String
  sortOrder : ℕ
  assertion : CompiledAssertion
  createdAt : ℤ

/-- A row of `audit_logs`. -/
structure AuditRow where
  id : String
  workspaceId : String
  actorUserId : String
  action : String
  resourceType : String
  resourceId : String
  beforeDigest : Option String
  afterDigest : Option String
  createdAt : ℤ

/-- A row of `service_state_sync_jobs`. -/
structure SyncJobRow where
  jobKey : String
  syncToken : String
  workspaceId : String
  serviceId : String
  checkId : String
  reasonCode : String
  protectUntil : ℤ
  nextAttemptAt : ℤ
  lastAttemptedAt : ℤ
  updatedAt : ℤ

/-- A row of `dashboard_resources` for a service. -/
structure DashboardResourceRow where
  dashboardId : String
  serviceId : String
  deriving DecidableEq

/-- A row of `resource_public_policies` for a service. -/
structure PublicPolicyRow where
  workspaceId : String
  serviceId : String
  updatedAt : ℤ

structure MonitorDb where
  control : ControlDb
  assertions : List AssertionRow
  auditLogs : List AuditRow
  syncJobs : List SyncJobRow
  dashboardResources : List DashboardResourceRow
  publicPolicies : List PublicPolicyRow

/-- A compiled assertion with the identifier drawn for its row. -/
structure NewAssertion where
  id : String
  assertion : CompiledAssertion

/-- What a mutation brings to its batch besides the rows of services, checks and secrets. -/
structure Details where
  userId : String
  now : ℤ
  /-- The default dashboard of the workspace. -/
  dashboardId : String
  auditId : String
  /-- `auditDigest` of what was before and of what comes after. -/
  beforeDigest : Option String
  afterDigest : Option String
  syncToken : String
  assertions : List NewAssertion

def Details.assertionRows (details : Details) (checkId : String) : List AssertionRow :=
  details.assertions.zipIdx.map fun (new, index) ↦
    ⟨new.id, checkId, index, new.assertion, details.now⟩

def Details.auditRow (details : Details) (workspaceId action serviceId : String) : AuditRow where
  id := details.auditId
  workspaceId := workspaceId
  actorUserId := details.userId
  action := action
  resourceType := "service"
  resourceId := serviceId
  beforeDigest := details.beforeDigest
  afterDigest := details.afterDigest
  createdAt := details.now

def serviceStateSyncGuardMs : ℤ := 15 * 60000

/-- `createServiceStateSyncJob`, for a check. -/
def Details.syncJob (details : Details) (workspaceId serviceId checkId : String) : SyncJobRow where
  jobKey := "check:" ++ checkId
  syncToken := details.syncToken
  workspaceId := workspaceId
  serviceId := serviceId
  checkId := checkId
  reasonCode := "check_configuration"
  protectUntil := details.now + serviceStateSyncGuardMs
  nextAttemptAt := details.now
  lastAttemptedAt := details.now
  updatedAt := details.now

def secretRows (workspaceId : String) (secrets : List CheckSecretInsert) : List SecretRow :=
  secrets.map fun secret ↦ ⟨secret.id, workspaceId, secret.wrappedBytes⟩

/-! ## Statements -/

def onControl (statement : ControlDb → Option (ControlDb × ℕ)) : Statement MonitorDb := fun _ db ↦
  (statement db.control).map fun (after, changes) ↦
    ({ db with control := after }, ⟨changes, changes⟩)

/-- `advanceAgentConfigurationStatement`, when there is a machine. -/
def advanceStatements (workspaceId : String) (condition : ControlDb → Bool) :
    Option String → List (Statement MonitorDb)
  | none => []
  | some machineId => [onControl fun db ↦
      some (advanceAgentConfiguration db workspaceId (condition db) (some machineId),
        db.machines.countP fun machine ↦ machine.id = machineId &&
          machine.workspaceId = workspaceId && machine.deletedAt.isNone && condition db)]

/-- `prepareAuditStatement`, only if the previous statement changed. -/
def auditStatement (row : AuditRow) : Statement MonitorDb :=
  (Statement.insert (fun _ ↦ true) (fun db ↦ db.auditLogs.any fun old ↦ old.id = row.id)
    fun db ↦ { db with auditLogs := db.auditLogs ++ [row] }).afterChange

/-- `prepareServiceStateSyncJob`, only if the previous statement changed. -/
def syncStatement (job : SyncJobRow) : Statement MonitorDb :=
  Statement.afterChange fun _ db ↦
    let changes := upsertChanges SyncJobRow.jobKey (fun _ ↦ true) job db.syncJobs
    some ({ db with
      syncJobs := upsert SyncJobRow.jobKey (fun _ ↦ true) (fun _ ↦ job) job db.syncJobs },
      ⟨changes, changes⟩)

/-- `SELECT 1 FROM check_configs created`. -/
def hasCheck (workspaceId checkId : String) (db : MonitorDb) : Bool :=
  db.control.checks.any fun check ↦ check.id = checkId && check.workspaceId = workspaceId

/-- `SELECT 1 FROM services created`. -/
def hasCreated (workspaceId serviceId : String) (db : MonitorDb) : Bool :=
  db.control.services.any fun service ↦ service.id = serviceId && service.workspaceId = workspaceId

/-- `SELECT 1 FROM service_state_sync_jobs`. -/
def hasSyncJob (job : SyncJobRow) (db : MonitorDb) : Bool :=
  db.syncJobs.any fun old ↦ old.jobKey = job.jobKey && old.syncToken = job.syncToken

/-- An assertion refers to its check, and has a place of its own there. -/
def violatesAssertion (row : AssertionRow) (db : MonitorDb) : Bool :=
  (db.assertions.any fun old ↦ old.id = row.id ||
    (old.checkId = row.checkId && old.sortOrder = row.sortOrder)) ||
  !db.control.checks.any fun check ↦ check.id = row.checkId

def putAssertion (row : AssertionRow) (db : MonitorDb) : MonitorDb :=
  { db with assertions := db.assertions ++ [row] }

def violatesSecret (row : SecretRow) (db : MonitorDb) : Bool :=
  db.control.secrets.any fun old ↦ old.id = row.id

def putSecret (row : SecretRow) (db : MonitorDb) : MonitorDb :=
  { db with control := { db.control with secrets := db.control.secrets ++ [row] } }

/-- `INSERT INTO check_assertions`, one statement for each. -/
def assertionStatements (condition : MonitorDb → Bool) (rows : List AssertionRow) :
    List (Statement MonitorDb) :=
  rows.map fun row ↦ Statement.insert condition (violatesAssertion row) (putAssertion row)

/-- `INSERT INTO check_secrets`, one statement for each. -/
def secretStatements (condition : MonitorDb → Bool) (rows : List SecretRow) :
    List (Statement MonitorDb) :=
  rows.map fun row ↦ Statement.insert condition (violatesSecret row) (putSecret row)

def deleteAssertions (condition : MonitorDb → Bool) (checkId : String) : Statement MonitorDb :=
  fun _ db ↦
    if condition db then
      let changes := db.assertions.countP fun row ↦ row.checkId = checkId
      some ({ db with assertions := db.assertions.filter fun row ↦ row.checkId ≠ checkId },
        ⟨changes, changes⟩)
    else some (db, ⟨0, 0⟩)

/-- The secrets of the workspace with these identifiers. -/
def named (workspaceId : String) (ids : List String) (secret : SecretRow) : Bool :=
  secret.workspaceId = workspaceId && ids.contains secret.id

/-- `DELETE FROM check_secrets`, a statement that is left out when there is nothing to name. -/
def deleteSecrets (condition : MonitorDb → Bool) (workspaceId : String) (ids : List String) :
    List (Statement MonitorDb) :=
  if ids.isEmpty then []
  else [fun _ db ↦
    if condition db then
      let changes := db.control.secrets.countP (named workspaceId ids)
      some ({ db with control := { db.control with
          secrets := db.control.secrets.filter fun secret ↦ !named workspaceId ids secret } },
        ⟨changes, changes⟩)
    else some (db, ⟨0, 0⟩)]

/-- `DELETE FROM check_configs`; the assertions of the deleted checks go with them. -/
def deleteCheckStatement (workspaceId : String) (update : DeleteCheck) : Statement MonitorDb :=
  fun _ db ↦
    let condition := deletable db.control workspaceId update
    let gone (row : AssertionRow) : Bool :=
      db.control.checks.any fun check ↦ condition check && check.id = row.checkId
    let changes := db.control.checks.countP condition
    some ({ db with
      control := deleteChecks db.control condition
      assertions := db.assertions.filter fun row ↦ !gone row },
      ⟨changes, changes + db.assertions.countP gone⟩)

/-! ## Batches -/

/-- The check without its secrets, which have statements of their own. -/
def NewCheck.alone (check : NewCheck) : NewCheck :=
  { check with compiled := { check.compiled with secrets := [] } }

def createStatements (details : Details) (workspaceId : String) (service : NewService)
    (check : NewCheck) (conditions : List FinalCondition) : List (Statement MonitorDb) :=
  advanceStatements workspaceId
      (fun db ↦ db.agentCapacity check.capacity && db.permits workspaceId conditions)
      check.machineId ++
    onControl (fun db ↦ insertService db workspaceId service (db.permits workspaceId conditions)) ::
    auditStatement (details.auditRow workspaceId "service.create" service.id) ::
    onControl (fun db ↦ insertCheck db workspaceId
      { NewCheck.alone check with serviceId := service.id } true) ::
    Statement.insert (hasCreated workspaceId service.id)
      (fun db ↦ db.dashboardResources.contains ⟨details.dashboardId, service.id⟩)
      (fun db ↦ { db with
        dashboardResources := db.dashboardResources ++ [⟨details.dashboardId, service.id⟩] }) ::
    Statement.insert (hasCreated workspaceId service.id)
      (fun db ↦ db.publicPolicies.any fun old ↦
        old.workspaceId = workspaceId && old.serviceId = service.id)
      (fun db ↦ { db with
        publicPolicies := db.publicPolicies ++ [⟨workspaceId, service.id, details.now⟩] }) ::
    (assertionStatements (hasCheck workspaceId check.id) (details.assertionRows check.id) ++
      secretStatements (hasCheck workspaceId check.id)
        (secretRows workspaceId check.compiled.secrets))

def addStatements (details : Details) (workspaceId : String) (check : NewCheck)
    (machineConditions checkConditions : List FinalCondition) : List (Statement MonitorDb) :=
  advanceStatements workspaceId
      (fun db ↦ db.agentCapacity check.capacity && db.permits workspaceId machineConditions)
      check.machineId ++
    onControl (fun db ↦ insertCheck db workspaceId (NewCheck.alone check)
      (db.permits workspaceId checkConditions)) ::
    auditStatement (details.auditRow workspaceId "service.check.create" check.serviceId) ::
    (assertionStatements (hasCheck workspaceId check.id) (details.assertionRows check.id) ++
      secretStatements (hasCheck workspaceId check.id)
        (secretRows workspaceId check.compiled.secrets))

def replaceStatements (details : Details) (workspaceId : String) (update : ReplaceCheck) :
    List (Statement MonitorDb) :=
  let job := details.syncJob workspaceId update.serviceId update.checkId
  advanceStatements workspaceId
      (fun db ↦ (db.checks.any fun current ↦ current.id = update.checkId &&
          current.workspaceId = workspaceId && current.configRevision = update.configRevision) &&
        capacityHolds db update.capacity && db.permits workspaceId update.machineConditions)
      update.machineId ++
    onControl (fun db ↦ updateChecks db workspaceId update.machineId
      (capacityOr update.capacity update.checkId update.configBytes)
      (fun check ↦ check.id = update.checkId && check.serviceId = update.serviceId &&
        check.workspaceId = workspaceId && check.configRevision = update.configRevision &&
        db.permits workspaceId update.checkConditions)
      fun check ↦ { check with
        name := update.name
        requestJson := update.compiled.requestJson
        secretRefs := update.compiled.secretRefs
        configBytes := update.configBytes }) ::
    syncStatement job ::
    auditStatement
      (details.auditRow workspaceId "service.check.configuration.replace" update.serviceId) ::
    deleteAssertions (hasSyncJob job) update.checkId ::
    (assertionStatements (hasSyncJob job) (details.assertionRows update.checkId) ++
      (deleteSecrets (hasSyncJob job) workspaceId update.oldSecretIds ++
        secretStatements (hasSyncJob job) (secretRows workspaceId update.compiled.secrets)))

def policyStatements (details : Details) (workspaceId : String) (update : UpdatePolicy) :
    List (Statement MonitorDb) :=
  advanceStatements workspaceId
      (fun db ↦ capacityHolds db update.capacity &&
        db.permits workspaceId update.machineConditions) update.machineId ++
    [onControl fun db ↦ updateChecks db workspaceId update.machineId
        (capacityOr update.capacity update.checkId update.configBytes)
        (fun check ↦ check.id = update.checkId && check.serviceId = update.serviceId &&
          check.workspaceId = workspaceId && check.enabled = update.wasEnabled &&
          db.permits workspaceId update.checkConditions &&
          (update.enabled || db.checks.any fun remaining ↦
            remaining.serviceId = check.serviceId && remaining.workspaceId = check.workspaceId &&
              remaining.id ≠ check.id && remaining.enabled))
        fun check ↦ { check with enabled := update.enabled, policy := update.policy },
      auditStatement (details.auditRow workspaceId "service.check.policy.update" update.serviceId),
      syncStatement (details.syncJob workspaceId update.serviceId update.checkId)]

/-- `SELECT 1 FROM check_configs WHERE id = ? AND service_id = ? AND workspace_id = ?`. -/
def isStored (control : ControlDb) (workspaceId serviceId checkId : String) : Bool :=
  control.checks.any fun check ↦ check.id = checkId && check.serviceId = serviceId &&
    check.workspaceId = workspaceId

def deleteStatements (details : Details) (workspaceId : String) (update : DeleteCheck) :
    List (Statement MonitorDb) :=
  advanceStatements workspaceId (fun db ↦ db.permits workspaceId update.machineConditions)
      update.machineId ++
    deleteCheckStatement workspaceId update ::
    auditStatement (details.auditRow workspaceId "service.check.delete" update.serviceId) ::
    syncStatement (details.syncJob workspaceId update.serviceId update.checkId) ::
    deleteSecrets (fun db ↦ !isStored db.control workspaceId update.serviceId update.checkId)
      workspaceId update.secretIds

/-- The statements of the batch of a mutation; no mutation sends another one. -/
def statements (details : Details) : Batch → List (Statement MonitorDb)
  | .createService workspaceId service check conditions =>
    createStatements details workspaceId service check conditions
  | .addCheck workspaceId check machineConditions checkConditions =>
    addStatements details workspaceId check machineConditions checkConditions
  | .replaceCheck workspaceId update => replaceStatements details workspaceId update
  | .updatePolicy workspaceId update => policyStatements details workspaceId update
  | .deleteCheck workspaceId update => deleteStatements details workspaceId update
  | _ => []

def advancedMachine : Batch → Option String
  | .createService _ _ check _ => check.machineId
  | .addCheck _ check _ _ => check.machineId
  | .replaceCheck _ update => update.machineId
  | .updatePolicy _ update => update.machineId
  | .deleteCheck _ update => update.machineId
  | _ => none

def mutationIndex (batch : Batch) : ℕ := if (advancedMachine batch).isSome then 1 else 0

/-- `results[mutationIndex]?.meta.changes`. -/
def mutationChanges (batch : Batch) (results : List Counts) : ℕ :=
  (results[mutationIndex batch]?.map Counts.total).getD 0

/-- The keys of the tables whose rows the batches count. -/
structure Keyed (db : MonitorDb) : Prop where
  checks : UniqueKey CheckRow.id db.control.checks
  syncJobs : UniqueKey SyncJobRow.jobKey db.syncJobs

inductive MonitorBatch where
  | mutate (details : Details) (batch : Batch)
  /-- Any change by others. -/
  | other (change : MonitorDb → MonitorDb) (keyed : ∀ db, Keyed db → Keyed (change db))

/-- A batch, and the count that its sender looks at; none is an error of the database. -/
def perform : MonitorBatch → MonitorDb → MonitorDb × Option ℕ
  | .mutate details batch, db =>
    match Library.CascadingBatches.perform (statements details batch) db with
    | (after, results) => (after, results.map (mutationChanges batch))
  | .other change _, db => (change db, some 1)

/-! ## Programs -/

abbrev MonitorFlow := Workflow MonitorDb MonitorBatch (Option ℕ) (Except HttpError Unit)

/-- A handler over all tables. -/
def overMonitor (details : Details) : Flow → MonitorFlow
  | .ask query next => .ask (fun db ↦ query db.control) fun view ↦ overMonitor details (next view)
  | .send batch next => .send (.mutate details batch) fun reply ↦ overMonitor details (next reply)
  | .ended outcome => .ended outcome
  | .lost performed => .lost performed

inductive Mutation where
  | createServiceMonitor (request : CreateServiceMonitor)
  | addServiceCheck (request : AddServiceCheck)
  | replaceServiceCheckConfiguration (request : ReplaceServiceCheckConfiguration)
  | updateServiceCheckPolicy (request : UpdateServiceCheckPolicy)
  | deleteServiceCheck (request : DeleteServiceCheck)

def Mutation.flow : Mutation → Flow
  | .createServiceMonitor request => Handlers.createServiceMonitor request
  | .addServiceCheck request => Handlers.addServiceCheck request
  | .replaceServiceCheckConfiguration request => Handlers.replaceServiceCheckConfiguration request
  | .updateServiceCheckPolicy request => Handlers.updateServiceCheckPolicy request
  | .deleteServiceCheck request => Handlers.deleteServiceCheck request

/-- A mutation with what is drawn and computed for it, or any other writer. -/
inductive MonitorRequest where
  | mutation (details : Details) (mutation : Mutation)
  | other (change : MonitorDb → MonitorDb) (keyed : ∀ db, Keyed db → Keyed (change db))

def serve : MonitorRequest → MonitorFlow
  | .mutation details mutation => overMonitor details mutation.flow
  | .other change keyed => .send (.other change keyed) fun _ ↦ .ended (.ok ())

end AlphaPing.Monitoring.MutationBatches
