import AlphaPing.Checks.Agreement
import AlphaPing.Checks.Maintenance
import AlphaPing.Library.ChangeLog

/-!
# All writers of one service

Three workers write the row of `service_latest`: the two that persist results compute the state
inside their batch, the state synchronisation computes it from an earlier read and writes it
whatever has come between.

The module runs calls of the first two and applications of jobs for one service side by side, with
the changes of its maintenance window and of its checks. A job that was enqueued may be applied by
a pass at any later time and any number of times, with the time at which the pass has started.
-/

namespace AlphaPing.Checks.Writers

open Protocol Library.Tables Library.Runs Library.Transactions Ingest.CheckResults StateSync
  Persistence Agreement

/-! ## Applications of jobs -/

def stateCode : ServiceState → String
  | .healthy => "healthy"
  | .degraded => "degraded"
  | .down => "down"
  | .maintenance => "maintenance"
  | .unknown => "unknown"

/-- `applyServiceStateSyncJob`, under way. -/
structure Application where
  job : Job
  now : ℤ
  stage : Stage
  /-- The states of the checks that were read. -/
  seen : List CheckState

def ofCheck (job : Job) (checkPk : ℕ) (row : CheckRow) : Bool :=
  row.latest.workspacePk == job.workspacePk && row.latest.checkPk == checkPk

def withCritical (row : CheckRow) (critical : Bool) : CheckRow :=
  { row with latest := { row.latest with critical } }

/-- The statements on `check_latest` for the check of a job. -/
def correctCheck (rows : List CheckRow) (job : Job) (checkPk : ℕ) (desired : Option CheckConfig) :
    List CheckRow :=
  match desired.filter fun check ↦ check.telemetryPk == checkPk && check.enabled with
  | none => rows.filter fun row ↦ !ofCheck job checkPk row
  | some check =>
    if check.cloudflare then
      updateWhere (fun row ↦ ofCheck job checkPk row && row.configRevision == check.configRevision)
        (fun row ↦ withCritical row check.critical)
        (rows.filter fun row ↦
          !(ofCheck job checkPk row && row.configRevision != check.configRevision))
    else updateWhere (ofCheck job checkPk) (fun row ↦ withCritical row check.critical) rows

/-- The statements for the check that a job names. -/
def correctJob (rows : List CheckRow) (job : Job) (desired : Option CheckConfig) :
    List CheckRow :=
  match job.check with
  | none => rows
  | some (_, checkPk) => correctCheck rows job checkPk desired

def eventId (codec : CheckCodec) (job : Job) (previous next : ServiceState) : Bytes :=
  codec.sha256 (utf8 (job.jobKey ++ ":" ++ job.syncToken ++ ":" ++ stateCode previous ++ ":" ++
    stateCode next))

def Application.event (codec : CheckCodec) (application : Application)
    (previous next : ServiceState) : ServiceEvent where
  workspacePk := application.job.workspacePk
  servicePk := application.job.servicePk
  occurredAt := application.now
  eventId := eventId codec application.job previous next
  previousState := previous
  currentState := next
  reasonCode := transitionReason application.job next

/-- `INSERT OR IGNORE INTO state_events`. -/
def insertEvent (events : List ServiceEvent) (event : ServiceEvent) : List ServiceEvent :=
  if events.any fun old ↦ old.key == event.key then events else events ++ [event]

/-- The batch of an application. -/
def Application.write (codec : CheckCodec) (application : Application)
    (previous next : ServiceState) (store : Store) : Store :=
  let row := nextServiceLatest application.job next application.now
  { store with
    serviceLatest := upsertState store.serviceLatest row
    events :=
      if stateChanges store.serviceLatest row = 1 then
        insertEvent store.events (application.event codec previous next)
      else store.events }

def Application.previous (application : Application) (store : Store) : Option ServiceState :=
  (store.serviceLatest.find? fun row ↦ row.workspacePk == application.job.workspacePk &&
    row.servicePk == application.job.servicePk).map ServiceLatest.state

/-- The table of one service. -/
def only (service : Service) : Services where
  rows := [service]
  unique_id := List.nodup_singleton _
  unique_pk := List.nodup_singleton _

/-- One statement of an application: the tables and the application after it. -/
def Application.advance (codec : CheckCodec) (service : Service) (checks : List CheckConfig)
    (store : Store) (application : Application) : Store × Application :=
  let job := application.job
  match application.stage with
  | .desired =>
    match desiredServiceState (only service) checks job with
    | none =>
      (store, { application with stage := if job.check.isSome then .dropping else .settled none })
    | some (service, check) =>
      if service.workspacePk ≠ job.workspacePk ∨ service.telemetryPk ≠ job.servicePk then
        (store, { application with stage := .failed })
      else if job.check.isSome then
        (store, { application with stage := .correcting service.maintenanceUntil check })
      else (store, { application with stage := .reading service.maintenanceUntil })
  | .dropping =>
    ({ store with latest := correctJob store.latest job none },
      { application with stage := .settled none })
  | .correcting maintenanceUntil desired =>
    ({ store with latest := correctJob store.latest job desired },
      { application with stage := .reading maintenanceUntil })
  | .reading maintenanceUntil =>
    let seen := serviceChecks store.latest job.workspacePk job.servicePk
    (store, { application with
      seen
      stage := .comparing maintenanceUntil (serviceState seen maintenanceUntil application.now) })
  | .comparing maintenanceUntil next =>
    if application.previous store = some next then
      (store, { application with stage := .settled maintenanceUntil })
    else
      (store, { application with
        stage := .writing maintenanceUntil ((application.previous store).getD .unknown) next })
  | .writing maintenanceUntil previous next =>
    let row := nextServiceLatest job next application.now
    (application.write codec previous next store, { application with
      stage :=
        if stateChanges store.serviceLatest row = 1 then .settled maintenanceUntil else .failed })
  | .settled _ | .failed => (store, application)

/-! ## Runs -/

structure State where
  clock : ℤ
  service : Service
  checks : List CheckConfig
  /-- The jobs that were enqueued. -/
  jobs : List Job
  system : System Store PersistCall
  applications : List Application
  /-- The end of the maintenance was passed after the last write. -/
  crossed : Bool

inductive Operation where
  | tick (milliseconds : ℕ)
  /-- `setServiceMaintenance`. -/
  | setMaintenance (maintenanceUntil : Option ℤ) (token : String)
  /-- A check is created or changed. -/
  | configure (check : CheckConfig) (token : String)
  | deleteCheck (checkId token : String)
  /-- A pass that has started some time ago comes to a job. -/
  | pass (job age : ℕ)
  /-- `persist_batch` and `persistCheckResult`. -/
  | call (request : PersistCall)
  | advanceCall (index : ℕ)
  | advance (index : ℕ)

def workspaceOf : PersistCall → ℕ
  | .agent batch => batch.config.workspacePk
  | .central call => call.config.workspacePk

def serviceOf : PersistCall → ℕ
  | .agent batch => batch.config.servicePk
  | .central call => call.config.servicePk

/-- The result is one of a check of the service. -/
def State.serves (state : State) (request : PersistCall) : Bool :=
  workspaceOf request == state.service.workspacePk && serviceOf request == state.service.telemetryPk

/-- A job is enqueued and applied at once. -/
def State.enqueue (state : State) (job : Job) : State :=
  { state with
    jobs := state.jobs ++ [job]
    applications := state.applications ++ [⟨job, state.clock, .desired, []⟩] }

def perform (codec : CheckCodec) (state : State) : Operation → State
  | .tick milliseconds => { state with clock := state.clock + milliseconds }
  | .setMaintenance maintenanceUntil token =>
    let reasonCode :=
      if maintenanceUntil.any fun until_ ↦ decide (state.clock < until_) then
        SyncReason.maintenanceWindow
      else .maintenanceWindowEnded
    { state with service := { state.service with maintenanceUntil } }.enqueue
      (createJob state.service none reasonCode token state.clock maintenanceUntil)
  | .configure check token =>
    if check.serviceId = state.service.id ∧ check.workspaceId = state.service.workspaceId then
      { state with
        checks := state.checks.filter (fun row : CheckConfig ↦ row.id != check.id) ++ [check] }.enqueue
          (createJob state.service (some (check.id, check.telemetryPk)) .checkConfiguration token
            state.clock none)
    else state
  | .deleteCheck checkId token =>
    match state.checks.find? fun check ↦ check.id == checkId with
    | none => state
    | some check =>
      { state with checks := state.checks.filter fun row ↦ row.id != checkId }.enqueue
        (createJob state.service (some (check.id, check.telemetryPk)) .checkConfiguration token
          state.clock none)
  | .pass job age =>
    match state.jobs[job]? with
    | none => state
    | some job =>
      { state with
        applications := state.applications ++ [⟨job, state.clock - age, .desired, []⟩] }
  | .call request =>
    if state.serves request then
      { state with system := Library.Transactions.step (persist codec) state.system (.call request) }
    else state
  | .advanceCall index =>
    { state with system := Library.Transactions.step (persist codec) state.system (.advance index) }
  | .advance index =>
    match state.applications[index]? with
    | none => state
    | some application =>
      let (store, next) := application.advance codec state.service state.checks state.system.store
      { state with
        system := { state.system with store }
        applications := state.applications.set index next }

/-- The tables that the state of the service is in have been written. -/
def wrote (before after : Store) : Bool :=
  !decide (before.latest = after.latest ∧ before.serviceLatest = after.serviceLatest)

/-- Whether the service is in maintenance. -/
def State.maintained (state : State) : Bool :=
  inMaintenance state.service.maintenanceUntil state.clock

def step (codec : CheckCodec) (state : State) (operation : Operation) : State :=
  let next := perform codec state operation
  { next with
    crossed := state.crossed && !wrote state.system.store next.system.store ||
      inMaintenance next.service.maintenanceUntil state.clock != next.maintained }

/-- Nothing is known of a new service. -/
def start (clock : ℤ) (service : Service) : State where
  clock := clock
  service := { service with maintenanceUntil := none, deleted := false }
  checks := []
  jobs := []
  system := Library.Transactions.start ⟨[], [], [], []⟩
  applications := []
  crossed := false

/-! ## What is claimed -/

/-- The state that is shown; a service without a row is unknown. -/
def State.shown (state : State) : ServiceState :=
  ((state.system.store.serviceLatest.find? fun row ↦
    row.workspacePk == state.service.workspacePk &&
      row.servicePk == state.service.telemetryPk).map ServiceLatest.state).getD .unknown

def State.events (state : State) : List ServiceEvent := state.system.store.events

def State.states (state : State) : List CheckState :=
  serviceChecks state.system.store.latest state.service.workspacePk state.service.telemetryPk

/-- The aggregate of the current rows and the maintenance. -/
def State.aggregate (state : State) : ServiceState :=
  Agreement.aggregate state.states state.maintained

def Application.ended (application : Application) : Bool := !application.stage.applying

/-- No writer is in the middle of a pass. -/
def State.quiet (state : State) : Bool :=
  (state.system.calls.all fun call ↦ call.rest.isDone) &&
    state.applications.all Application.ended

/-- A change of the state appends one event. -/
def Recorded (codec : CheckCodec) (state : State) (operation : Operation) : Prop :=
  (step codec state operation).shown ≠ state.shown →
    ∃ event : ServiceEvent, (step codec state operation).events = state.events ++ [event] ∧
      event.previousState = state.shown ∧ event.currentState = (step codec state operation).shown

/-- Each event begins with the state with which the one before ends. -/
def Chained (state : State) : Prop :=
  state.events.IsChain fun earlier later ↦ earlier.currentState = later.previousState

/-- With no writer in the middle of a pass, and no end of a maintenance passed since the last
write, the aggregate is shown. -/
def Consistent (state : State) : Prop :=
  state.quiet = true → state.crossed = false → state.shown = state.aggregate

instance (state : State) : Decidable (Chained state) :=
  inferInstanceAs (Decidable (List.IsChain _ _))

instance (state : State) : Decidable (Consistent state) :=
  inferInstanceAs (Decidable (_ = true → _ = false → _ = _))

/-- The state of the service and its events, in a run. -/
structure Tracked (codec : CheckCodec) (state : State) (operations : List Operation) : Prop where
  recorded : Along (step codec) (Recorded codec) state operations
  chained : Visits (step codec) Chained state operations
  consistent : Visits (step codec) Consistent state operations

/-! ## When it holds -/

/-- The row of the check is newer than the result, and of another one. -/
def superseded (codec : CheckCodec) (latest : List CheckRow) : PersistCall → Bool
  | .agent batch => !isCurrent latest (batchResult batch) &&
      (latest.any fun row ↦ decide (row.checkPk = batch.config.checkPk)) &&
      latest.all fun row ↦ row.checkPk != batch.config.checkPk ||
        !(row.latest.workspacePk == batch.config.workspacePk &&
          decide (row.latest.observedAt ≤ batch.observedAt))
  | .central call => !isCurrent latest (call.resultRow codec) &&
      (latest.any fun row ↦ decide (row.checkPk = call.config.telemetryPk)) &&
      latest.all fun row ↦ row.checkPk != call.config.telemetryPk ||
        !(row.latest.workspacePk == call.config.workspacePk &&
          (decide (row.configRevision < call.config.configRevision) ||
            (call.config.configRevision == row.configRevision &&
              decide (row.latest.observedAt ≤ call.observedAt))))

/-- A result that is not superseded is written while the maintenance that was read with its check
is, at the time of the result, what it is at the time of the write, and its event is new. -/
def TimelyResult (codec : CheckCodec) (state : State) (request : PersistCall) : Prop :=
  let result := Agreement.Call.resultRow codec request
  superseded codec state.system.store.latest request = true ∨
    inMaintenance result.maintenanceUntil result.observedAt = state.maintained ∧
      unrecorded state.system.store result = true

/-- What was read of the maintenance and of the checks gives the state that it would give now. -/
def Application.current (state : State) (application : Application)
    (maintenanceUntil : Option ℤ) : Prop :=
  serviceState application.seen maintenanceUntil application.now =
    serviceState state.states state.service.maintenanceUntil state.clock

/-- An application ends while what it has read is current; what it writes begins with the state
that is shown, and its event is new, or it repeats a transition to that state. -/
def TimelyApplication (codec : CheckCodec) (state : State) (application : Application) : Prop :=
  match application.stage with
  | .comparing maintenanceUntil next =>
    application.previous state.system.store = some next →
      application.current state maintenanceUntil
  | .writing maintenanceUntil previous next =>
    application.current state maintenanceUntil ∧
      if state.events.any fun event ↦ event.key == (application.event codec previous next).key then
        state.shown = next
      else state.shown = previous
  | _ => True

/-- Every writer finishes while what it has read is current. -/
def Careful (codec : CheckCodec) (state : State) : Operation → Prop
  | .advanceCall index => ∀ call ∈ state.system.calls[index]?, call.rest.commits = true →
      TimelyResult codec state call.request
  | .advance index => ∀ application ∈ state.applications[index]?,
      TimelyApplication codec state application
  | _ => True

instance (state : State) (application : Application) (maintenanceUntil : Option ℤ) :
    Decidable (application.current state maintenanceUntil) :=
  inferInstanceAs (Decidable (_ = _))

instance (codec : CheckCodec) (state : State) (request : PersistCall) :
    Decidable (TimelyResult codec state request) :=
  inferInstanceAs (Decidable (_ ∨ _ ∧ _))

instance (codec : CheckCodec) (state : State) (application : Application) :
    Decidable (TimelyApplication codec state application) := by
  unfold TimelyApplication
  split <;> infer_instance

instance (codec : CheckCodec) (state : State) (operation : Operation) :
    Decidable (Careful codec state operation) := by
  unfold Careful
  split <;> infer_instance

end AlphaPing.Checks.Writers
