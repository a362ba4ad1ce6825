import AlphaPing.Ingest.CheckResults
import AlphaPing.Library.Runs

/-!
# Jobs that synchronise the state of services

A change of a check or of a maintenance window enqueues a job in the same transaction, with a new
token. The change is applied to the telemetry database at once, and again by passes of the sync
worker until the job is no longer protected: a pass reads the due jobs, applies them one after
the other, and deletes or reschedules each under the token with which it was read.

An application is split at its statements; the two reads that are started together are executed
in the order in which they are started. Other workers write check results and service states. A
token is a UUID: one that was drawn is not drawn again.

The services for which an application has ended at or after the end of their maintenance are
remembered beside the tables, until the maintenance changes.
-/

namespace AlphaPing.Checks.StateSync

open Library.Tables Ingest.CheckResults

/-- `SERVICE_STATE_SYNC_GUARD_MS`. -/
def guardMs : ℤ := 900000

def jobBatch : ℕ := 50

inductive ServiceState where
  | healthy
  | degraded
  | down
  | maintenance
  | unknown
  deriving DecidableEq

inductive SyncReason where
  | checkConfiguration
  | maintenanceWindow
  | maintenanceWindowEnded
  deriving DecidableEq

def SyncReason.code : SyncReason → String
  | checkConfiguration => "check_configuration"
  | maintenanceWindow => "maintenance_window"
  | maintenanceWindowEnded => "maintenance_window_ended"

/-! ## Tables -/

/-- A service with the telemetry key of its workspace; deleted together with it. -/
structure Service where
  id : String
  workspaceId : String
  workspacePk : ℕ
  telemetryPk : ℕ
  maintenanceUntil : Option ℤ
  deleted : Bool

/-- The services, under their primary key and their unique telemetry key. -/
structure Services where
  rows : List Service
  unique_id : UniqueKey Service.id rows
  unique_pk : UniqueKey Service.telemetryPk rows

/-- An update that leaves the keys alone. -/
def Services.update (services : Services) (id : String) (change : Service → Service)
    (hid : ∀ row, (change row).id = row.id)
    (hpk : ∀ row, (change row).telemetryPk = row.telemetryPk) : Services where
  rows := updateWhere (fun row ↦ row.id == id) change services.rows
  unique_id := services.unique_id.updateWhere hid
  unique_pk := services.unique_pk.updateWhere hpk

structure CheckConfig where
  id : String
  workspaceId : String
  serviceId : String
  telemetryPk : ℕ
  enabled : Bool
  critical : Bool
  cloudflare : Bool
  configRevision : ℕ
  deriving DecidableEq

/-- A row of `check_latest`, as far as the synchronisation reads it. -/
structure CheckStateRow where
  checkPk : ℕ
  workspacePk : ℕ
  servicePk : ℕ
  state : ResultState
  critical : Bool
  configRevision : ℕ
  deriving DecidableEq

/-- A row of `service_latest`. -/
structure ServiceLatest where
  servicePk : ℕ
  workspacePk : ℕ
  state : ServiceState
  statusSince : ℤ
  reasonCode : String
  lastTransitionAt : ℤ
  updatedAt : ℤ
  deriving DecidableEq

/-- A row of `state_events`; the text that is hashed stands for the identifier. -/
structure StateEvent where
  workspacePk : ℕ
  resourcePk : ℕ
  occurredAt : ℤ
  eventId : String × String × ServiceState × ServiceState
  previousState : ServiceState
  currentState : ServiceState
  reasonCode : String

/-- A row of `service_state_sync_jobs`. -/
structure Job where
  jobKey : String
  syncToken : String
  workspaceId : String
  workspacePk : ℕ
  serviceId : String
  servicePk : ℕ
  check : Option (String × ℕ)
  reasonCode : SyncReason
  protectUntil : ℤ
  nextAttemptAt : ℤ
  lastAttemptedAt : ℤ
  updatedAt : ℤ

/-! ## Enqueueing -/

def serviceJobKey (serviceId : String) : String := "service:" ++ serviceId

def checkJobKey (checkId : String) : String := "check:" ++ checkId

/-- `createServiceStateSyncJob`. -/
def createJob (service : Service) (check : Option (String × ℕ)) (reasonCode : SyncReason)
    (token : String) (now : ℤ) (retainUntil : Option ℤ) : Job where
  jobKey :=
    match check with
    | none => serviceJobKey service.id
    | some (checkId, _) => checkJobKey checkId
  syncToken := token
  workspaceId := service.workspaceId
  workspacePk := service.workspacePk
  serviceId := service.id
  servicePk := service.telemetryPk
  check := check
  reasonCode := reasonCode
  protectUntil := max (now + guardMs) (retainUntil.getD (now + guardMs))
  nextAttemptAt := now
  lastAttemptedAt := now
  updatedAt := now

/-- `prepareServiceStateSyncJob`. -/
def enqueue (jobs : List Job) (job : Job) : List Job :=
  upsert Job.jobKey (fun _ ↦ true) (fun _ ↦ job) job jobs

/-! ## Applying -/

def serviceState (checks : List (ResultState × Bool)) (maintenanceUntil : Option ℤ) (now : ℤ) :
    ServiceState :=
  if maintenanceUntil.any fun until_ ↦ decide (now < until_) then .maintenance
  else if checks.any fun check ↦ check.2 && check.1 == .down then .down
  else if checks.any fun check ↦ check.1 == .down || check.1 == .degraded then .degraded
  else if checks.any fun check ↦ check.1 == .healthy then .healthy
  else .unknown

def desiredServiceState (services : Services) (checks : List CheckConfig) (job : Job) :
    Option (Service × Option CheckConfig) :=
  (services.rows.find? fun row ↦
    row.id == job.serviceId && row.workspaceId == job.workspaceId && !row.deleted).map fun service ↦
    (service, checks.find? fun check ↦ some check.id == job.check.map Prod.fst &&
      check.serviceId == service.id && check.workspaceId == service.workspaceId)

/-- The statements on `check_latest` for the check of a job. -/
def correctCheck (rows : List CheckStateRow) (job : Job) (checkPk : ℕ)
    (desired : Option CheckConfig) : List CheckStateRow :=
  let ofCheck := fun row : CheckStateRow ↦
    row.workspacePk == job.workspacePk && row.checkPk == checkPk
  match desired.filter fun check ↦ check.telemetryPk == checkPk && check.enabled with
  | none => rows.filter fun row ↦ !ofCheck row
  | some check =>
    if check.cloudflare then
      updateWhere (fun row ↦ ofCheck row && row.configRevision == check.configRevision)
        (fun row ↦ { row with critical := check.critical })
        (rows.filter fun row ↦ !(ofCheck row && row.configRevision != check.configRevision))
    else updateWhere ofCheck (fun row ↦ { row with critical := check.critical }) rows

def correctJob (rows : List CheckStateRow) (job : Job) (desired : Option CheckConfig) :
    List CheckStateRow :=
  match job.check with
  | none => rows
  | some (_, checkPk) => correctCheck rows job checkPk desired

/-- The reason that is recorded with a new state. -/
def transitionReason (job : Job) (next : ServiceState) : String :=
  if next = .maintenance then "maintenance_window"
  else if job.reasonCode = .maintenanceWindow then "maintenance_window_ended"
  else job.reasonCode.code

def upsertState (rows : List ServiceLatest) (row : ServiceLatest) : List ServiceLatest :=
  upsert ServiceLatest.servicePk (fun old ↦ old.workspacePk == row.workspacePk) (fun _ ↦ row) row
    rows

/-- Whether the upsert changes a row. -/
def stateChanges (rows : List ServiceLatest) (row : ServiceLatest) : ℕ :=
  upsertChanges ServiceLatest.servicePk (fun old ↦ old.workspacePk == row.workspacePk) row rows

def nextServiceLatest (job : Job) (next : ServiceState) (now : ℤ) : ServiceLatest where
  servicePk := job.servicePk
  workspacePk := job.workspacePk
  state := next
  statusSince := now
  reasonCode := transitionReason job next
  lastTransitionAt := now
  updatedAt := now

def transitionEvent (job : Job) (previous next : ServiceState) (now : ℤ) : StateEvent where
  workspacePk := job.workspacePk
  resourcePk := job.servicePk
  occurredAt := now
  eventId := (job.jobKey, job.syncToken, previous, next)
  previousState := previous
  currentState := next
  reasonCode := transitionReason job next

/-- `INSERT OR IGNORE INTO state_events`. -/
def insertEvent (events : List StateEvent) (event : StateEvent) : List StateEvent :=
  if events.any fun old ↦ old.resourcePk == event.resourcePk &&
      old.occurredAt == event.occurredAt && old.eventId == event.eventId then events
  else events ++ [event]

/-! ## Workers -/

/-- What is left to do for a job. -/
inductive Stage where
  | desired
  /-- The service is gone; a check state is deleted. -/
  | dropping
  | correcting (maintenanceUntil : Option ℤ) (check : Option CheckConfig)
  | reading (maintenanceUntil : Option ℤ)
  | comparing (maintenanceUntil : Option ℤ) (next : ServiceState)
  | writing (maintenanceUntil : Option ℤ) (previous next : ServiceState)
  /-- `applyServiceStateSyncJob` has returned. -/
  | settled (maintenanceUntil : Option ℤ)
  /-- It has thrown. -/
  | failed
  deriving DecidableEq

/-- A pass with the jobs that it has still to process, or the application that follows an
enqueueing at once. -/
structure Worker where
  pass : Bool
  now : ℤ
  jobs : List Job
  stage : Stage

structure Sync where
  clock : ℤ
  services : Services
  checks : List CheckConfig
  jobs : List Job
  checkLatest : List CheckStateRow
  serviceLatest : List ServiceLatest
  stateEvents : List StateEvent
  workers : List Worker
  drawn : List String
  /-- The telemetry keys of the services whose maintenance an application has found ended. -/
  ended : List ℕ

inductive Action where
  | tick (milliseconds : ℕ)
  /-- `setServiceMaintenance`. -/
  | setMaintenance (serviceId : String) (maintenanceUntil : Option ℤ) (token : String)
  /-- A check is created, edited, disabled or given to another executor. -/
  | configure (check : CheckConfig) (token : String)
  | deleteService (serviceId : String)
  /-- Other workers write check states, and the state of a service. -/
  | results (rows : List CheckStateRow)
  | evaluate (row : ServiceLatest)
  /-- A pass reads its jobs. -/
  | begin (batch : ℕ)
  | advance (worker : ℕ)
  /-- A statement of a worker fails. -/
  | fail (worker : ℕ)
  | crash (worker : ℕ)

def Sync.setWorker (sync : Sync) (index : ℕ) (worker : Worker) : Sync :=
  { sync with workers := sync.workers.set index worker }

/-- The application of an enqueued job, at once. -/
def Sync.applyAtOnce (sync : Sync) (job : Job) : Sync :=
  { sync with
    jobs := enqueue sync.jobs job
    drawn := job.syncToken :: sync.drawn
    workers := sync.workers ++
      [{ pass := false, now := sync.clock, jobs := [job], stage := .desired }] }

/-- The jobs that a pass reads. -/
def dueJobs (jobs : List Job) (now : ℤ) (batch : ℕ) : List Job :=
  selectOrdered (fun job ↦ toLex (job.nextAttemptAt, toLex (job.lastAttemptedAt, job.jobKey)))
    batch (jobs.filter fun job ↦ decide (job.nextAttemptAt ≤ now))

def endedBy (maintenanceUntil : Option ℤ) (time : ℤ) : Bool :=
  maintenanceUntil.all fun until_ ↦ decide (until_ ≤ time)

/-- An application has ended; it is remembered if it has found the maintenance ended. -/
def Sync.settle (sync : Sync) (index : ℕ) (worker : Worker) (job : Job)
    (maintenanceUntil : Option ℤ) : Sync :=
  { sync with
    ended :=
      if endedBy maintenanceUntil worker.now && sync.services.rows.all fun row ↦
          row.telemetryPk != job.servicePk || endedBy row.maintenanceUntil worker.now then
        job.servicePk :: sync.ended
      else sync.ended }.setWorker index { worker with stage := .settled maintenanceUntil }

/-- The protection that a pass computes for a job it has applied. -/
def protectUntil (job : Job) (maintenanceUntil : Option ℤ) : ℤ :=
  if job.reasonCode = .maintenanceWindow then
    (maintenanceUntil.map (max job.protectUntil)).getD job.protectUntil
  else job.protectUntil

def nextAttemptAfterSuccess (job : Job) (now protect : ℤ) : ℤ :=
  if job.reasonCode = .maintenanceWindow ∧ job.updatedAt + guardMs ≤ now ∧ now < protect then
    protect
  else now

/-- The `WHERE` of the bookkeeping. -/
def ofToken (job : Job) (row : Job) : Bool :=
  row.jobKey == job.jobKey && row.syncToken == job.syncToken

/-- `markServiceStateSyncAttempt`. -/
def markAttempt (jobs : List Job) (job : Job) (now protect nextAttemptAt : ℤ) : List Job :=
  updateWhere (ofToken job)
    (fun row ↦ { row with
      protectUntil := protect
      lastAttemptedAt := now
      nextAttemptAt := nextAttemptAt }) jobs

/-- What a pass does to the jobs after an application. -/
def keepBooks (jobs : List Job) (job : Job) (now : ℤ) (maintenanceUntil : Option ℤ) : List Job :=
  let protect := protectUntil job maintenanceUntil
  if protect ≤ now then jobs.filter fun row ↦ !ofToken job row
  else markAttempt jobs job now protect (nextAttemptAfterSuccess job now protect)

/-- A worker goes on to its next job. -/
def Worker.next (worker : Worker) : Worker :=
  { worker with jobs := worker.jobs.tail, stage := .desired }

/-- One statement of a worker. -/
def advance (sync : Sync) (index : ℕ) (worker : Worker) (job : Job) : Sync :=
  let goTo := fun stage ↦ sync.setWorker index { worker with stage }
  match worker.stage with
  | .desired =>
    match desiredServiceState sync.services sync.checks job with
    | none => if job.check.isSome then goTo .dropping else goTo (.settled none)
    | some (service, check) =>
      if service.workspacePk ≠ job.workspacePk ∨ service.telemetryPk ≠ job.servicePk then
        goTo .failed
      else if job.check.isSome then goTo (.correcting service.maintenanceUntil check)
      else goTo (.reading service.maintenanceUntil)
  | .dropping =>
    { sync with checkLatest := correctJob sync.checkLatest job none }.setWorker index
      { worker with stage := .settled none }
  | .correcting maintenanceUntil desired =>
    { sync with checkLatest := correctJob sync.checkLatest job desired }.setWorker index
      { worker with stage := .reading maintenanceUntil }
  | .reading maintenanceUntil =>
    let states := (sync.checkLatest.filter fun row ↦
      row.workspacePk == job.workspacePk && row.servicePk == job.servicePk).map fun row ↦
        (row.state, row.critical)
    goTo (.comparing maintenanceUntil (serviceState states maintenanceUntil worker.now))
  | .comparing maintenanceUntil next =>
    let previous := sync.serviceLatest.find? fun row ↦
      row.workspacePk == job.workspacePk && row.servicePk == job.servicePk
    if previous.map ServiceLatest.state = some next then
      sync.settle index worker job maintenanceUntil
    else
      goTo (.writing maintenanceUntil ((previous.map ServiceLatest.state).getD .unknown) next)
  | .writing maintenanceUntil previous next =>
    let row := nextServiceLatest job next worker.now
    if stateChanges sync.serviceLatest row = 1 then
      { sync with
        serviceLatest := upsertState sync.serviceLatest row
        stateEvents := insertEvent sync.stateEvents
          (transitionEvent job previous next worker.now) }.settle index worker job maintenanceUntil
    else { sync with serviceLatest := upsertState sync.serviceLatest row }.setWorker index
      { worker with stage := .failed }
  | .settled maintenanceUntil =>
    if worker.pass then
      { sync with jobs := keepBooks sync.jobs job worker.now maintenanceUntil }.setWorker index
        worker.next
    else sync.setWorker index worker.next
  | .failed =>
    if worker.pass then
      { sync with
        jobs := markAttempt sync.jobs job worker.now job.protectUntil worker.now }.setWorker index
          worker.next
    else sync.setWorker index worker.next

/-- A worker whose statement fails: the exception is caught, and marked once. -/
def Worker.fail (worker : Worker) : Worker :=
  if worker.stage = .failed then worker.next else { worker with stage := .failed }

/-- The update of `setServiceMaintenance` with the job that it enqueues. -/
def Sync.setMaintenance (sync : Sync) (service : Service) (maintenanceUntil : Option ℤ)
    (token : String) : Sync :=
  let reasonCode :=
    if maintenanceUntil.any fun until_ ↦ decide (sync.clock < until_) then
      SyncReason.maintenanceWindow
    else .maintenanceWindowEnded
  { sync with
    services := sync.services.update service.id (fun row ↦ { row with maintenanceUntil })
      (fun _ ↦ rfl) (fun _ ↦ rfl)
    ended := sync.ended.filter (· != service.telemetryPk) }.applyAtOnce
      (createJob service none reasonCode token sync.clock maintenanceUntil)

/-- The change of a check with the job that it enqueues. -/
def Sync.configure (sync : Sync) (service : Service) (check : CheckConfig) (token : String) :
    Sync :=
  { sync with
    checks := sync.checks.filter (fun row : CheckConfig ↦ row.id != check.id) ++ [check] }.applyAtOnce
      (createJob service (some (check.id, check.telemetryPk)) .checkConfiguration token sync.clock
        none)

/-- A service that is not deleted. -/
def Sync.service (sync : Sync) (serviceId : String) : Option Service :=
  sync.services.rows.find? fun row ↦ row.id == serviceId && !row.deleted

def step (sync : Sync) : Action → Sync
  | .tick milliseconds => { sync with clock := sync.clock + milliseconds }
  | .setMaintenance serviceId maintenanceUntil token =>
    match sync.service serviceId with
    | none => sync
    | some service =>
      if sync.drawn.contains token then sync
      else sync.setMaintenance service maintenanceUntil token
  | .configure check token =>
    match sync.service check.serviceId with
    | none => sync
    | some service =>
      if sync.drawn.contains token then sync else sync.configure service check token
  | .deleteService serviceId =>
    { sync with
      services := sync.services.update serviceId (fun row ↦ { row with deleted := true })
        (fun _ ↦ rfl) (fun _ ↦ rfl) }
  | .results rows => { sync with checkLatest := rows }
  | .evaluate row => { sync with serviceLatest := upsertState sync.serviceLatest row }
  | .begin batch =>
    { sync with
      workers := sync.workers ++
        [{ pass := true
           now := sync.clock
           jobs := dueJobs sync.jobs sync.clock (min batch jobBatch)
           stage := .desired }] }
  | .advance index =>
    match sync.workers[index]? with
    | none => sync
    | some worker =>
      match worker.jobs with
      | [] => sync
      | job :: _ => advance sync index worker job
  | .fail index =>
    match sync.workers[index]? with
    | none => sync
    | some worker => sync.setWorker index worker.fail
  | .crash index =>
    match sync.workers[index]? with
    | none => sync
    | some worker => sync.setWorker index { worker with jobs := [] }

/-- No job has been enqueued yet. -/
def start (clock : ℤ) (services : Services) (checks : List CheckConfig)
    (checkLatest : List CheckStateRow) : Sync where
  clock := clock
  services := services
  checks := checks
  jobs := []
  checkLatest := checkLatest
  serviceLatest := []
  stateEvents := []
  workers := []
  drawn := []
  ended := []

end AlphaPing.Checks.StateSync
