import AlphaPing.Checks.Maintenance

/-!
# States of checks that are gone

A check is disabled or removed in the control database; its row of `check_latest` is deleted by
the job that is enqueued with the change, in the telemetry database. Requests that have read the
check before can write the row again, until they end.

The module adds these requests to the synchronisation, the finalization of machines and services
by the retention worker, and the columns that they read. The rows of removed services and checks
are gone; which identifiers and telemetry keys were drawn is remembered.
-/

namespace AlphaPing.Checks.StaleChecks

open Library.Tables Ingest.CheckResults StateSync

/-! ## Requests and control operations -/

/-- What a request has read of a check. -/
structure Assigned where
  checkPk : ℕ
  workspacePk : ℕ
  servicePk : ℕ
  critical : Bool

/-- The identifiers that were drawn for a check, and the workspace of its service. -/
structure Identity where
  checkId : String
  checkPk : ℕ
  workspacePk : ℕ

structure Monitoring where
  sync : Sync
  /-- `check_configs.executor_agent_id`, for the checks that have one. -/
  executors : List (String × String)
  /-- Agents and their machines. -/
  agents : List (String × String)
  /-- The services with `purge_started_at`. -/
  purging : List String
  /-- The requests in flight with what they have read. -/
  requests : List (List Assigned)
  identities : List Identity

inductive Operation where
  | tick (milliseconds : ℕ)
  | setMaintenance (serviceId : String) (maintenanceUntil : Option ℤ) (token : String)
  /-- `softDeleteResource` and `restoreResource`. -/
  | deleteService (serviceId : String)
  | restoreService (serviceId : String)
  | registerAgent (agentId machineId : String)
  /-- `createServiceMonitor` and `addServiceCheck`. -/
  | addCheck (check : CheckConfig) (executorAgentId : Option String)
  /-- `replaceServiceCheckConfiguration` and `updateServiceCheckPolicy`. -/
  | updateCheck (check : CheckConfig) (token : String)
  | deleteCheck (checkId token : String)
  /-- The batch of `finalizeMachineControl`. -/
  | finalizeMachine (machineId : String)
  /-- `finalizeServices` claims a service and purges the telemetry of its checks. -/
  | purgeService (serviceId : String)
  /-- The deletion of a service, with its checks. -/
  | finalizeService (serviceId : String)
  /-- A report of an agent, or the run of a check by the checks worker, reads the checks. -/
  | read (agentId : Option String) (checkIds : List String)
  /-- The batch of a result; whether it is newer than the row is an argument. -/
  | write (request checkPk : ℕ) (state : ResultState) (configRevision : ℕ) (newer : Bool)
  | finish (request : ℕ)
  /-- The sync worker. -/
  | begin (batch : ℕ)
  | advance (worker : ℕ)
  | fail (worker : ℕ)
  | crash (worker : ℕ)

/-- A service, deleted or not. -/
def Monitoring.serviceRow (state : Monitoring) (serviceId : String) : Option Service :=
  state.sync.services.rows.find? fun row ↦ row.id == serviceId

def Monitoring.executes (state : Monitoring) (agentId checkId : String) : Bool :=
  state.executors.contains (checkId, agentId)

def Monitoring.ofMachine (state : Monitoring) (machineId agentId : String) : Bool :=
  state.agents.contains (agentId, machineId)

def Monitoring.executedBy (state : Monitoring) (machineId checkId : String) : Bool :=
  state.executors.any fun executor ↦
    executor.1 == checkId && state.ofMachine machineId executor.2

/-- The query of a request for one of its checks. -/
def Monitoring.assigned (state : Monitoring) (agentId : Option String) (checkId : String) :
    Option Assigned := do
  let check ← state.sync.checks.find? fun check ↦ check.id == checkId && check.enabled &&
    match agentId with
    | some agentId => state.executes agentId check.id
    | none => check.cloudflare
  let service ← state.serviceRow check.serviceId
  if agentId.isSome && service.deleted then none
  else some ⟨check.telemetryPk, service.workspacePk, service.telemetryPk, check.critical⟩

def Monitoring.withSync (state : Monitoring) (sync : Sync) : Monitoring :=
  { state with sync }

/-- A change of the services that moves no key. -/
def Monitoring.updateService (state : Monitoring) (serviceId : String) (deleted : Bool) :
    Monitoring :=
  state.withSync { state.sync with
    services := state.sync.services.update serviceId (fun row ↦ { row with deleted })
      (fun _ ↦ rfl) (fun _ ↦ rfl) }

/-- Another check of the service satisfies a condition. -/
def Monitoring.remains (state : Monitoring) (check : CheckConfig) (condition : CheckConfig → Bool) :
    Bool :=
  state.sync.checks.any fun other ↦ other.serviceId == check.serviceId &&
    other.workspaceId == check.workspaceId && other.id != check.id && condition other

def Monitoring.addCheck (state : Monitoring) (service : Service) (check : CheckConfig)
    (executorAgentId : Option String) : Monitoring :=
  { state with
    sync := { state.sync with checks := state.sync.checks ++ [check] }
    executors := state.executors ++ executorAgentId.toList.map fun agentId ↦ (check.id, agentId)
    identities := state.identities ++ [⟨check.id, check.telemetryPk, service.workspacePk⟩] }

/-- The batch of `deleteServiceCheck`, and the application at once. -/
def Monitoring.deleteCheck (state : Monitoring) (service : Service) (check : CheckConfig)
    (token : String) : Monitoring :=
  state.withSync ({ state.sync with
    checks := state.sync.checks.filter fun row ↦ row.id != check.id }.applyAtOnce
      (createJob service (some (check.id, check.telemetryPk)) .checkConfiguration token
        state.sync.clock none))

/-- `UPDATE check_configs SET enabled = 0, executor_agent_id = NULL`. -/
def Monitoring.finalizeMachine (state : Monitoring) (machineId : String) : Monitoring :=
  { state with
    sync := { state.sync with
      checks := updateWhere (fun check ↦ state.executedBy machineId check.id)
        (fun check ↦ { check with enabled := false }) state.sync.checks }
    executors := state.executors.filter fun executor ↦ !state.ofMachine machineId executor.2 }

def Monitoring.checksOf (state : Monitoring) (serviceId : String) : List CheckConfig :=
  state.sync.checks.filter fun check ↦ check.serviceId == serviceId

/-- `purge_started_at` is set, and the rows of the checks are deleted. -/
def Monitoring.purge (state : Monitoring) (service : Service) : Monitoring :=
  { state with
    sync := { state.sync with
      checkLatest := state.sync.checkLatest.filter fun row ↦
        !(row.workspacePk == service.workspacePk &&
          (state.checksOf service.id).any fun check ↦ check.telemetryPk == row.checkPk) }
    purging := service.id :: state.purging }

/-- The services without one of them. -/
def removeService (services : Services) (serviceId : String) : Services where
  rows := services.rows.filter fun row ↦ row.id != serviceId
  unique_id := services.unique_id.filter _
  unique_pk := services.unique_pk.filter _

/-- `DELETE FROM services`, with the cascade to its checks. -/
def Monitoring.finalizeService (state : Monitoring) (serviceId : String) : Monitoring :=
  state.withSync { state.sync with
    services := removeService state.sync.services serviceId
    checks := state.sync.checks.filter fun check ↦ check.serviceId != serviceId }

def Assigned.row (assigned : Assigned) (state : ResultState) (configRevision : ℕ) :
    CheckStateRow where
  checkPk := assigned.checkPk
  workspacePk := assigned.workspacePk
  servicePk := assigned.servicePk
  state := state
  critical := assigned.critical
  configRevision := configRevision

/-- The upsert of `check_latest`. -/
def Monitoring.write (state : Monitoring) (row : CheckStateRow) (newer : Bool) : Monitoring :=
  state.withSync { state.sync with
    checkLatest := upsert CheckStateRow.checkPk
      (fun old ↦ old.workspacePk == row.workspacePk && newer) (fun _ ↦ row) row
        state.sync.checkLatest }

/-- The check that a request has read under a telemetry key. -/
def Monitoring.assignedOf (state : Monitoring) (request checkPk : ℕ) : Option Assigned :=
  state.requests[request]?.bind fun assigned ↦ assigned.find? fun check ↦ check.checkPk == checkPk

def step (state : Monitoring) : Operation → Monitoring
  | .tick milliseconds => state.withSync (StateSync.step state.sync (.tick milliseconds))
  | .setMaintenance serviceId maintenanceUntil token =>
    state.withSync (StateSync.step state.sync (.setMaintenance serviceId maintenanceUntil token))
  | .deleteService serviceId => state.updateService serviceId true
  | .restoreService serviceId =>
    if state.purging.contains serviceId then state else state.updateService serviceId false
  | .registerAgent agentId machineId =>
    { state with agents := state.agents ++ [(agentId, machineId)] }
  | .addCheck check executorAgentId =>
    match state.sync.service check.serviceId with
    | none => state
    | some service =>
      if check.enabled && check.workspaceId == service.workspaceId &&
          state.identities.all fun identity ↦
            identity.checkId != check.id && identity.checkPk != check.telemetryPk then
        state.addCheck service check executorAgentId
      else state
  | .updateCheck check token =>
    match state.sync.service check.serviceId with
    | none => state
    | some service =>
      if (state.sync.checks.any fun old ↦ old.id == check.id &&
            old.telemetryPk == check.telemetryPk && old.serviceId == check.serviceId &&
            old.workspaceId == check.workspaceId && old.cloudflare == check.cloudflare) &&
          (check.enabled || state.remains check CheckConfig.enabled) &&
          !state.sync.drawn.contains token then
        state.withSync (state.sync.configure service check token)
      else state
  | .deleteCheck checkId token =>
    match state.sync.checks.find? fun check ↦ check.id == checkId with
    | none => state
    | some check =>
      match state.sync.service check.serviceId with
      | none => state
      | some service =>
        if state.remains check (fun _ ↦ true) && !state.sync.drawn.contains token then
          state.deleteCheck service check token
        else state
  | .finalizeMachine machineId => state.finalizeMachine machineId
  | .purgeService serviceId =>
    match state.serviceRow serviceId with
    | none => state
    | some service => if service.deleted then state.purge service else state
  | .finalizeService serviceId =>
    if state.purging.contains serviceId then state.finalizeService serviceId else state
  | .read agentId checkIds =>
    match checkIds.mapM (state.assigned agentId) with
    | none => state
    | some assigned => { state with requests := state.requests ++ [assigned] }
  | .write request checkPk result configRevision newer =>
    match state.assignedOf request checkPk with
    | none => state
    | some assigned => state.write (assigned.row result configRevision) newer
  | .finish request => { state with requests := state.requests.eraseIdx request }
  | .begin batch => state.withSync (StateSync.step state.sync (.begin batch))
  | .advance worker => state.withSync (StateSync.step state.sync (.advance worker))
  | .fail worker => state.withSync (StateSync.step state.sync (.fail worker))
  | .crash worker => state.withSync (StateSync.step state.sync (.crash worker))

/-- No check has been configured yet. -/
def start (clock : ℤ) (services : Services) : Monitoring where
  sync := StateSync.start clock services [] []
  executors := []
  agents := []
  purging := []
  requests := []
  identities := []

/-! ## What is claimed, and when it holds -/

/-- No job is pending and no request is in progress. -/
def Monitoring.quiet (state : Monitoring) : Bool :=
  state.sync.jobs.isEmpty && state.requests.isEmpty &&
    state.sync.workers.all fun worker ↦ worker.jobs.isEmpty

/-- The check of a row exists and is enabled. -/
def Monitoring.supported (state : Monitoring) (checkPk : ℕ) : Bool :=
  state.sync.checks.any fun check ↦ check.telemetryPk == checkPk && check.enabled

/-- In a quiet state no row belongs to a check that is disabled or gone. -/
def Swept (state : Monitoring) : Prop :=
  state.quiet = true → ∀ row ∈ state.sync.checkLatest, state.supported row.checkPk = true

/-- The check is enabled, and its service is not being purged. -/
def Monitoring.active (state : Monitoring) (checkPk : ℕ) : Bool :=
  state.sync.checks.any fun check ↦ check.telemetryPk == checkPk && check.enabled &&
    !state.purging.contains check.serviceId

/-- A job for the check is still protected. -/
def Monitoring.protected (state : Monitoring) (checkPk : ℕ) : Bool :=
  state.sync.jobs.any fun job ↦ job.check.any (fun check ↦ check.2 == checkPk) &&
    decide (state.sync.clock < job.protectUntil)

/-- The finalization of a machine disables only checks without a row, and a late result is written
only while a job for its check is protected. -/
def Careful (state : Monitoring) : Operation → Prop
  | .finalizeMachine machineId => ∀ check ∈ state.sync.checks, check.enabled = true →
      state.executedBy machineId check.id = true →
        (∀ row ∈ state.sync.checkLatest, row.checkPk ≠ check.telemetryPk) ∨
          state.protected check.telemetryPk = true
  | .write request checkPk _ _ _ => (state.assignedOf request checkPk).isSome = true →
      state.active checkPk = true ∨ state.protected checkPk = true
  | _ => True

instance (state : Monitoring) (operation : Operation) : Decidable (Careful state operation) := by
  unfold Careful
  split <;> infer_instance

/-! ## Rows that a job will sweep -/

/-- A pass that will delete the job has not come to the check yet, or is about to delete its
row. -/
def Awaits (worker : Worker) (job : Job) (checkPk : ℕ) : Prop :=
  worker.pass = true → job.protectUntil ≤ worker.now → ∀ copy ∈ worker.jobs.head?,
    ofToken copy job = true →
      match worker.stage with
      | .desired | .dropping | .failed => True
      | .correcting _ desired =>
        (desired.filter fun check ↦ check.telemetryPk == checkPk && check.enabled) = none
      | _ => False

/-- A job for the check will be applied once more. -/
def Covered (sync : Sync) (checkPk : ℕ) : Prop :=
  ∃ job ∈ sync.jobs, (∃ checkId, job.check = some (checkId, checkPk)) ∧
    ∀ worker ∈ sync.workers, Awaits worker job checkPk

section Covered

variable {sync after : Sync} {checkPk index : ℕ} {worker : Worker} {job : Job}

theorem awaits_of_now_lt (h : worker.now < job.protectUntil) : Awaits worker job checkPk :=
  fun _ hprotect ↦ absurd hprotect (not_le.mpr h)

theorem awaits_of_fresh (hworker : WorkerSound sync worker) (hfresh : job.syncToken ∉ sync.drawn) :
    Awaits worker job checkPk := by
  intro _ _ copy hcopy htoken
  have hdrawn := hworker.drawn copy (List.mem_of_mem_head? hcopy)
  exact absurd ((ofToken_iff.mp htoken).2 ▸ hdrawn) hfresh

theorem awaits_desired (hstage : worker.stage = .desired) : Awaits worker job checkPk := by
  intro _ _ _ _ _
  rw [hstage]
  trivial

theorem awaits_failed (hstage : worker.stage = .failed) : Awaits worker job checkPk := by
  intro _ _ _ _ _
  rw [hstage]
  trivial

theorem covered_of_protected (hqueue : QueueSound sync) (hjob : job ∈ sync.jobs)
    {checkId : String} (hcheck : job.check = some (checkId, checkPk))
    (hprotect : sync.clock < job.protectUntil) : Covered sync checkPk :=
  ⟨job, hjob, ⟨checkId, hcheck⟩, fun worker hworker ↦
    awaits_of_now_lt ((hqueue.workers worker hworker).now_le.trans_lt hprotect)⟩

theorem Covered.congr (h : Covered sync checkPk) (hjobs : after.jobs = sync.jobs)
    (hworkers : after.workers = sync.workers) : Covered after checkPk := by
  rw [Covered, hjobs, hworkers]
  exact h

theorem covered_applyAtOnce_new (hqueue : QueueSound sync) {services : Services}
    (checks : List CheckConfig) (ended : List ℕ) (hfresh : job.syncToken ∉ sync.drawn)
    {checkId : String} (hcheck : job.check = some (checkId, checkPk)) :
    Covered ({ sync with services, ended, checks }.applyAtOnce job) checkPk := by
  refine ⟨job, job_mem_enqueue _ _, ⟨checkId, hcheck⟩, fun worker hworker ↦ ?_⟩
  rcases List.mem_append.mp hworker with hold | hnew
  · exact awaits_of_fresh (hqueue.workers worker hold) hfresh
  · rw [List.mem_singleton.mp hnew]
    exact awaits_desired rfl

theorem covered_applyAtOnce (h : Covered sync checkPk) (hqueue : QueueSound sync)
    {services : Services} (checks : List CheckConfig) (ended : List ℕ)
    (hfresh : job.syncToken ∉ sync.drawn)
    (hsame : ∀ old ∈ sync.jobs, ∀ checkId, old.check = some (checkId, checkPk) →
      old.jobKey = job.jobKey → job.check = some (checkId, checkPk)) :
    Covered ({ sync with services, ended, checks }.applyAtOnce job) checkPk := by
  obtain ⟨old, hold, ⟨checkId, hcheck⟩, hawaits⟩ := h
  by_cases hkey : old.jobKey = job.jobKey
  · exact covered_applyAtOnce_new hqueue checks ended hfresh (hsame old hold checkId hcheck hkey)
  · refine ⟨old, mem_enqueue_of_ne hold hkey, ⟨checkId, hcheck⟩, fun worker hworker ↦ ?_⟩
    rcases List.mem_append.mp hworker with hbefore | hnew
    · exact hawaits worker hbefore
    · rw [List.mem_singleton.mp hnew]
      exact awaits_desired rfl

theorem Covered.setWorker (h : Covered sync checkPk) {next : Worker}
    (hjobs : after.jobs = sync.jobs) (hworkers : after.workers = sync.workers.set index next)
    (hnext : ∀ job ∈ sync.jobs, ∀ checkId, job.check = some (checkId, checkPk) →
      (∀ worker ∈ sync.workers, Awaits worker job checkPk) → Awaits next job checkPk) :
    Covered after checkPk := by
  obtain ⟨job, hjob, ⟨checkId, hcheck⟩, hawaits⟩ := h
  refine ⟨job, hjobs ▸ hjob, ⟨checkId, hcheck⟩, fun other hother ↦ ?_⟩
  rcases List.mem_or_eq_of_mem_set (hworkers ▸ hother) with hold | rfl
  · exact hawaits other hold
  · exact hnext job hjob checkId hcheck hawaits

end Covered

/-! ## The invariant -/

/-- A telemetry key in a workspace was drawn for a check. -/
def Monitoring.Known (state : Monitoring) (checkPk workspacePk : ℕ) : Prop :=
  ∃ checkId, ⟨checkId, checkPk, workspacePk⟩ ∈ state.identities

structure Sound (state : Monitoring) : Prop where
  queue : QueueSound state.sync
  unique_id : UniqueKey Identity.checkId state.identities
  unique_pk : UniqueKey Identity.checkPk state.identities
  checks : ∀ check ∈ state.sync.checks, ∃ service ∈ state.sync.services.rows,
    service.id = check.serviceId ∧
      ⟨check.id, check.telemetryPk, service.workspacePk⟩ ∈ state.identities
  rows : ∀ row ∈ state.sync.checkLatest, state.Known row.checkPk row.workspacePk
  requests : ∀ request ∈ state.requests, ∀ assigned ∈ request,
    state.Known assigned.checkPk assigned.workspacePk
  jobs : ∀ job ∈ state.sync.jobs, ∀ check ∈ job.check,
    ⟨check.1, check.2, job.workspacePk⟩ ∈ state.identities ∧ job.jobKey = checkJobKey check.1 ∧
      job.reasonCode = .checkConfiguration
  copies : ∀ worker ∈ state.sync.workers, ∀ copy ∈ worker.jobs, ∀ job ∈ state.sync.jobs,
    ofToken copy job = true → copy.check = job.check ∧ copy.workspacePk = job.workspacePk
  purging : ∀ service ∈ state.sync.services.rows, service.id ∈ state.purging →
    service.deleted = true
  covered : ∀ row ∈ state.sync.checkLatest, state.active row.checkPk = false →
    Covered state.sync row.checkPk

section Invariant

variable {state : Monitoring}

theorem Sound.workspace_unique (h : Sound state) {checkPk first second : ℕ}
    (hfirst : state.Known checkPk first) (hsecond : state.Known checkPk second) :
    first = second := by
  obtain ⟨firstId, hfirst⟩ := hfirst
  obtain ⟨secondId, hsecond⟩ := hsecond
  exact congrArg Identity.workspacePk (h.unique_pk.eq_of_mem hfirst hsecond rfl)

theorem Sound.swept (h : Sound state) : Swept state := by
  intro hquiet row hrow
  simp only [Monitoring.quiet, Bool.and_eq_true, List.isEmpty_iff] at hquiet
  by_contra hnot
  have hinactive : state.active row.checkPk = false := by
    rw [Monitoring.active, Bool.eq_false_iff]
    intro hactive
    obtain ⟨check, hcheck, hmatch⟩ := List.any_eq_true.mp hactive
    simp only [Bool.and_eq_true] at hmatch
    apply hnot
    exact List.any_eq_true.mpr ⟨check, hcheck, by
      simpa only [Bool.and_eq_true] using hmatch.1⟩
  obtain ⟨job, hjob, -⟩ := h.covered row hrow hinactive
  rw [hquiet.1.1] at hjob
  exact absurd hjob List.not_mem_nil

variable {checkPk : ℕ} {job : Job} {row : CheckStateRow} {desired : Option CheckConfig}
  {rows : List CheckStateRow} {worker : Worker} {index : ℕ} {rest : List Job}

theorem Sound.desired_none (h : Sound state) {service : Service} {check : Option CheckConfig}
    (hdesired : desiredServiceState state.sync.services state.sync.checks job =
      some (service, check)) (hinactive : state.active checkPk = false) :
    (check.filter fun check ↦ check.telemetryPk == checkPk && check.enabled) = none := by
  obtain ⟨found, hfound, heq⟩ := Option.map_eq_some_iff.mp hdesired
  obtain ⟨rfl, rfl⟩ := Prod.mk.inj heq
  have hservice := List.find?_some hfound
  simp only [Bool.and_eq_true, Bool.not_eq_true'] at hservice
  rw [Option.filter_eq_none_iff]
  intro check hcheck hmatch
  have hmem := List.mem_of_find?_eq_some hcheck
  have hof := List.find?_some hcheck
  simp only [Bool.and_eq_true, beq_iff_eq] at hof hmatch
  have hactive : state.active checkPk = true := by
    refine List.any_eq_true.mpr ⟨check, hmem, ?_⟩
    have hnot : check.serviceId ∉ state.purging := by
      intro hpurging
      have hdeleted := h.purging found (List.mem_of_find?_eq_some hfound) (hof.1.2 ▸ hpurging)
      exact Bool.false_ne_true (hservice.2.symm.trans hdeleted)
    simp [hmatch.1, hmatch.2, hnot]
  exact Bool.false_ne_true (hinactive.symm.trans hactive)

theorem mem_correctCheck (h : row ∈ correctCheck rows job checkPk desired) :
    ∃ old ∈ rows, old.checkPk = row.checkPk ∧ old.workspacePk = row.workspacePk := by
  unfold correctCheck at h
  dsimp only at h
  split at h
  · exact ⟨row, List.mem_of_mem_filter h, rfl, rfl⟩
  · split at h
    · obtain ⟨old, hold, ⟨-, rfl⟩ | ⟨-, rfl⟩⟩ := mem_updateWhere.mp h
      · exact ⟨old, List.mem_of_mem_filter hold, rfl, rfl⟩
      · exact ⟨row, List.mem_of_mem_filter hold, rfl, rfl⟩
    · obtain ⟨old, hold, ⟨-, rfl⟩ | ⟨-, rfl⟩⟩ := mem_updateWhere.mp h
      · exact ⟨old, hold, rfl, rfl⟩
      · exact ⟨row, hold, rfl, rfl⟩

theorem mem_correctJob (h : row ∈ correctJob rows job desired) :
    ∃ old ∈ rows, old.checkPk = row.checkPk ∧ old.workspacePk = row.workspacePk := by
  unfold correctJob at h
  split at h
  · exact ⟨row, h, rfl, rfl⟩
  · exact mem_correctCheck h

theorem not_mem_correctJob {checkId : String} (hcheck : job.check = some (checkId, checkPk))
    (hdesired : (desired.filter fun check ↦ check.telemetryPk == checkPk && check.enabled) = none)
    (h : row ∈ correctJob rows job desired) :
    ¬(row.checkPk = checkPk ∧ row.workspacePk = job.workspacePk) := by
  simp only [correctJob, hcheck, correctCheck, hdesired] at h
  rintro ⟨hpk, hworkspace⟩
  have hkept := (List.mem_filter.mp h).2
  simp [hpk, hworkspace] at hkept

/-- The worker that makes a statement, with the job at the head of its list. -/
structure Acts (sync : Sync) (index : ℕ) (worker : Worker) (copy : Job) (rest : List Job) :
    Prop where
  found : sync.workers[index]? = some worker
  head : worker.jobs = copy :: rest

/-- A statement of an application leaves every inactive check covered whose row it leaves. -/
theorem Sound.covered_set (h : Sound state) (after : Sync) {copy : Job}
    (hacts : Acts state.sync index worker copy rest) {stage : Stage}
    (hjobs : after.jobs = state.sync.jobs)
    (hworkers : after.workers = state.sync.workers.set index { worker with stage })
    (hrow : state.Known row.checkPk row.workspacePk) (hcovered : Covered state.sync row.checkPk)
    (hstage : ∀ job ∈ state.sync.jobs, ∀ checkId, copy.check = some (checkId, row.checkPk) →
      copy.workspacePk = row.workspacePk → Awaits worker job row.checkPk →
        ofToken copy job = true → Awaits { worker with stage } job row.checkPk) :
    Covered after row.checkPk := by
  refine hcovered.setWorker hjobs hworkers fun job hjob checkId hcheck hawaits ↦ ?_
  have hmem := List.mem_of_getElem? hacts.found
  intro hpass hprotect other hother htoken
  obtain rfl : copy = other := by
    have hhead : worker.jobs.head? = some other := hother
    rw [hacts.head] at hhead
    exact Option.some.inj hhead
  have hcopy : copy ∈ worker.jobs := hacts.head ▸ List.mem_cons_self
  obtain ⟨hsame, hworkspace⟩ := h.copies worker hmem copy hcopy job hjob htoken
  have hjobKnown : state.Known row.checkPk job.workspacePk :=
    ⟨checkId, (h.jobs job hjob _ hcheck).1⟩
  have heq := hworkspace.trans (h.workspace_unique hjobKnown hrow)
  exact hstage job hjob checkId (hsame.trans hcheck) heq (hawaits worker hmem) htoken hpass
    hprotect copy hother htoken

theorem Sound.known_of_keys (h : Sound state) {old row : CheckStateRow}
    (hold : old ∈ state.sync.checkLatest)
    (hkeys : old.checkPk = row.checkPk ∧ old.workspacePk = row.workspacePk) :
    state.Known row.checkPk row.workspacePk :=
  hkeys.1 ▸ hkeys.2 ▸ h.rows old hold

theorem false_of_awaits {job copy : Job} (hawaits : Awaits worker job checkPk)
    (hhead : worker.jobs = copy :: rest) (hpass : worker.pass = true)
    (hprotect : job.protectUntil ≤ worker.now) (htoken : ofToken copy job = true)
    (hstage : ∀ desired, worker.stage ≠ .desired ∧ worker.stage ≠ .dropping ∧
      worker.stage ≠ .failed ∧ ∀ maintenanceUntil,
        worker.stage ≠ .correcting maintenanceUntil desired) : False := by
  have hstep := hawaits hpass hprotect copy (by rw [hhead]; rfl) htoken
  obtain ⟨pass, now, jobs, stage⟩ := worker
  cases stage with
  | desired => exact (hstage none).1 rfl
  | dropping => exact (hstage none).2.1 rfl
  | failed => exact (hstage none).2.2.1 rfl
  | correcting maintenanceUntil desired => exact (hstage desired).2.2.2 maintenanceUntil rfl
  | reading maintenanceUntil => exact hstep
  | comparing maintenanceUntil next => exact hstep
  | writing maintenanceUntil previous next => exact hstep
  | settled maintenanceUntil => exact hstep

/-- The rows that a statement of an application leaves, and what covers them. -/
theorem Sound.covered_applying (h : Sound state) {copy : Job}
    (hacts : Acts state.sync index worker copy rest) (happlying : worker.stage.applying = true)
    (hrow : row ∈ (advance state.sync index worker copy).checkLatest) :
    (∃ old ∈ state.sync.checkLatest,
        old.checkPk = row.checkPk ∧ old.workspacePk = row.workspacePk) ∧
      (state.active row.checkPk = false →
        Covered (advance state.sync index worker copy) row.checkPk) := by
  obtain ⟨pass, now, jobs, stage⟩ := worker
  have hhead : jobs = copy :: rest := hacts.head
  -- a stage that goes past the check comes after one that has gone past it
  have hpast : ∀ {after : Sync} {next : Stage}, row ∈ state.sync.checkLatest →
      after.jobs = state.sync.jobs →
      after.workers = state.sync.workers.set index ⟨pass, now, jobs, next⟩ →
      (∀ desired, stage ≠ .desired ∧ stage ≠ .dropping ∧ stage ≠ .failed ∧
        ∀ maintenanceUntil, stage ≠ .correcting maintenanceUntil desired) →
      state.active row.checkPk = false → Covered after row.checkPk := by
    intro after next hmem hjobs hworkers hstage hinactive
    refine h.covered_set after hacts hjobs hworkers (h.rows row hmem) (h.covered row hmem hinactive) ?_
    intro job hjob checkId hcheck hworkspace hawaits htoken hpass hprotect other hother _
    exact (false_of_awaits hawaits hhead hpass hprotect htoken hstage).elim
  cases stage with
  | desired =>
    have hnext : ∀ {next : Stage}, row ∈ state.sync.checkLatest →
        (∀ job checkId, copy.check = some (checkId, row.checkPk) →
          state.active row.checkPk = false →
          Awaits ⟨pass, now, jobs, next⟩ job row.checkPk) →
        (∃ old ∈ state.sync.checkLatest,
          old.checkPk = row.checkPk ∧ old.workspacePk = row.workspacePk) ∧
        (state.active row.checkPk = false →
          Covered (state.sync.setWorker index ⟨pass, now, jobs, next⟩) row.checkPk) := by
      intro next hmem hawaits
      refine ⟨⟨row, hmem, rfl, rfl⟩, fun hinactive ↦ ?_⟩
      refine h.covered_set (state.sync.setWorker index ⟨pass, now, jobs, next⟩) hacts rfl rfl
        (h.rows row hmem) (h.covered row hmem hinactive) ?_
      intro job _ checkId hcheck _ _ _
      exact hawaits job checkId hcheck hinactive
    simp only [advance] at hrow ⊢
    cases hdesired : desiredServiceState state.sync.services state.sync.checks copy with
    | none =>
      simp only [hdesired] at hrow ⊢
      split at hrow
      · next hsome =>
        rw [if_pos hsome]
        exact hnext hrow fun _ _ _ _ _ _ _ _ _ ↦ trivial
      · next hnone =>
        rw [if_neg hnone]
        refine hnext hrow fun job checkId hcheck ↦ ?_
        rw [hcheck] at hnone
        exact absurd rfl hnone
    | some found =>
      obtain ⟨service, check⟩ := found
      simp only [hdesired] at hrow ⊢
      split at hrow
      · next hchanged =>
        rw [if_pos hchanged]
        exact hnext hrow fun _ _ _ _ ↦ awaits_failed rfl
      · next hsame =>
        rw [if_neg hsame]
        split at hrow
        · next hsome =>
          rw [if_pos hsome]
          refine hnext hrow fun job checkId hcheck hinactive _ _ _ _ _ ↦ ?_
          exact h.desired_none hdesired hinactive
        · next hnone =>
          rw [if_neg hnone]
          refine hnext hrow fun job checkId hcheck ↦ ?_
          rw [hcheck] at hnone
          exact absurd rfl hnone
  | dropping =>
    obtain ⟨old, hold, hpk, hworkspace⟩ := mem_correctJob hrow
    refine ⟨⟨old, hold, hpk, hworkspace⟩, fun hinactive ↦ ?_⟩
    refine h.covered_set (advance state.sync index ⟨pass, now, jobs, .dropping⟩ copy) hacts rfl rfl
      (h.known_of_keys hold ⟨hpk, hworkspace⟩)
      (hpk ▸ h.covered old hold (hpk.symm ▸ hinactive)) ?_
    intro job _ checkId hcheck hsame _ _ _ _ _ _ _
    exact absurd ⟨rfl, hsame.symm⟩ (not_mem_correctJob hcheck rfl hrow)
  | correcting maintenanceUntil desired =>
    obtain ⟨old, hold, hpk, hworkspace⟩ := mem_correctJob hrow
    refine ⟨⟨old, hold, hpk, hworkspace⟩, fun hinactive ↦ ?_⟩
    refine h.covered_set
      (advance state.sync index ⟨pass, now, jobs, .correcting maintenanceUntil desired⟩ copy) hacts
      rfl rfl (h.known_of_keys hold ⟨hpk, hworkspace⟩)
      (hpk ▸ h.covered old hold (hpk.symm ▸ hinactive)) ?_
    intro job _ checkId hcheck hsame hawaits htoken hpass hprotect _ _ _
    have hnone := hawaits hpass hprotect copy (by rw [hacts.head]; rfl) htoken
    exact absurd ⟨rfl, hsame.symm⟩ (not_mem_correctJob hcheck hnone hrow)
  | reading maintenanceUntil =>
    have hmem : row ∈ state.sync.checkLatest := hrow
    exact ⟨⟨row, hmem, rfl, rfl⟩, hpast hmem rfl rfl (by simp)⟩
  | comparing maintenanceUntil next =>
    simp only [advance] at hrow ⊢
    split at hrow
    · next hequal =>
      rw [if_pos hequal]
      have hmem : row ∈ state.sync.checkLatest := hrow
      exact ⟨⟨row, hmem, rfl, rfl⟩, hpast hmem rfl rfl (by simp)⟩
    · next hother =>
      rw [if_neg hother]
      have hmem : row ∈ state.sync.checkLatest := hrow
      exact ⟨⟨row, hmem, rfl, rfl⟩, hpast hmem rfl rfl (by simp)⟩
  | writing maintenanceUntil previous next =>
    simp only [advance] at hrow ⊢
    split at hrow
    · next hchanges =>
      rw [if_pos hchanges]
      have hmem : row ∈ state.sync.checkLatest := hrow
      exact ⟨⟨row, hmem, rfl, rfl⟩, hpast hmem rfl rfl (by simp)⟩
    · next hother =>
      rw [if_neg hother]
      have hmem : row ∈ state.sync.checkLatest := hrow
      exact ⟨⟨row, hmem, rfl, rfl⟩, hpast hmem rfl rfl (by simp)⟩
  | settled maintenanceUntil => cases happlying
  | failed => cases happlying

theorem Awaits.rescheduled (h : Awaits worker job checkPk) (lastAttemptedAt nextAttemptAt : ℤ) :
    Awaits worker (job.rescheduled lastAttemptedAt nextAttemptAt) checkPk := h

theorem Sound.covered_applied (h : Sound state) {copy : Job}
    (hacts : Acts state.sync index worker copy rest) (happlied : worker.stage.applying = false)
    (hcovered : Covered state.sync checkPk) :
    Covered (advance state.sync index worker copy) checkPk := by
  have hmem := List.mem_of_getElem? hacts.found
  have hsound := h.queue.workers worker hmem
  obtain ⟨jobs, hadvance, hjobs⟩ := advance_applied state.sync index copy happlied
  obtain ⟨job, hjob, ⟨checkId, hcheck⟩, hawaits⟩ := hcovered
  rw [hadvance]
  have hworkers : ∀ lastAttemptedAt nextAttemptAt,
      ∀ other ∈ (({ state.sync with jobs } : Sync).setWorker index worker.next).workers,
        Awaits other (job.rescheduled lastAttemptedAt nextAttemptAt) checkPk := by
    intro lastAttemptedAt nextAttemptAt other hother
    rcases List.mem_or_eq_of_mem_set hother with hold | rfl
    · exact (hawaits other hold).rescheduled lastAttemptedAt nextAttemptAt
    · exact awaits_desired rfl
  have hkept : (∃ lastAttemptedAt nextAttemptAt,
      job.rescheduled lastAttemptedAt nextAttemptAt ∈ jobs) →
      Covered (({ state.sync with jobs } : Sync).setWorker index worker.next) checkPk := by
    rintro ⟨lastAttemptedAt, nextAttemptAt, hjobs⟩
    exact ⟨_, hjobs, ⟨checkId, hcheck⟩, hworkers lastAttemptedAt nextAttemptAt⟩
  apply hkept
  rcases hjobs with ⟨-, rfl⟩ | ⟨hpass, ⟨maintenanceUntil, hstage⟩, rfl⟩ | ⟨-, -, rfl⟩
  · exact ⟨job.lastAttemptedAt, job.nextAttemptAt, hjob⟩
  · rcases hsound.keepBooks_cases hacts.head hjob with ⟨-, hkeep⟩ | ⟨htoken, hover⟩ | ⟨-, hmarked⟩
    · exact ⟨job.lastAttemptedAt, job.nextAttemptAt, hkeep⟩
    · refine (false_of_awaits (hawaits worker hmem) hacts.head hpass hover htoken ?_).elim
      rw [hstage]
      simp
    · exact hmarked
  · cases htoken : ofToken copy job with
    | false =>
      exact ⟨job.lastAttemptedAt, job.nextAttemptAt, mem_updateWhere_of_not hjob htoken⟩
    | true =>
      have hprotect := (hsound.same copy (hacts.head ▸ List.mem_cons_self) job hjob htoken).1
      refine ⟨worker.now, worker.now, mem_updateWhere.mpr ⟨job, hjob, .inl ⟨htoken, ?_⟩⟩⟩
      rw [← hprotect]
      rfl

/-! ## Steps -/

theorem checks_advance (sync : Sync) (index : ℕ) (worker : Worker) (job : Job) :
    (StateSync.advance sync index worker job).checks = sync.checks := by
  unfold StateSync.advance
  dsimp only
  repeat' split
  all_goals rfl

/-- The parts of the invariant that speak of the queue, after the jobs have descended. -/
theorem Sound.of_descends (h : Sound state) {after : Sync} (hqueue : QueueSound after)
    (hservices : after.services = state.sync.services) (hchecks : after.checks = state.sync.checks)
    (hrows : ∀ row ∈ after.checkLatest, ∃ old ∈ state.sync.checkLatest,
      old.checkPk = row.checkPk ∧ old.workspacePk = row.workspacePk)
    (hjobs : ∀ row ∈ after.jobs, ∃ old ∈ state.sync.jobs, ∃ lastAttemptedAt nextAttemptAt,
      row = old.rescheduled lastAttemptedAt nextAttemptAt)
    (hworkers : ∀ worker ∈ after.workers, ∃ old ∈ state.sync.workers, worker.jobs ⊆ old.jobs)
    (hcovered : ∀ row ∈ after.checkLatest, state.active row.checkPk = false →
      Covered after row.checkPk) : Sound (state.withSync after) where
  queue := hqueue
  unique_id := h.unique_id
  unique_pk := h.unique_pk
  checks check hcheck := by
    obtain ⟨service, hservice, hof⟩ := h.checks check (hchecks ▸ hcheck)
    exact ⟨service, hservices ▸ hservice, hof⟩
  rows row hrow := by
    obtain ⟨old, hold, hkeys⟩ := hrows row hrow
    exact h.known_of_keys hold hkeys
  requests := h.requests
  jobs row hrow check hcheck := by
    obtain ⟨old, hold, lastAttemptedAt, nextAttemptAt, rfl⟩ := hjobs row hrow
    exact h.jobs old hold check hcheck
  copies worker hworker copy hcopy row hrow htoken := by
    obtain ⟨before, hbefore, hsubset⟩ := hworkers worker hworker
    obtain ⟨old, hold, lastAttemptedAt, nextAttemptAt, rfl⟩ := hjobs row hrow
    exact h.copies before hbefore copy (hsubset hcopy) old hold htoken
  purging service hservice := h.purging service (hservices ▸ hservice)
  covered row hrow hinactive := by
    refine hcovered row hrow ?_
    rw [← hinactive]
    show state.active row.checkPk = (state.withSync after).active row.checkPk
    unfold Monitoring.active Monitoring.withSync
    rw [hchecks]

theorem mem_workers_of_set {sync : Sync} {worker next : Worker}
    (hfound : sync.workers[index]? = some worker) (hjobs : next.jobs ⊆ worker.jobs) :
    ∀ other ∈ sync.workers.set index next, ∃ old ∈ sync.workers, other.jobs ⊆ old.jobs := by
  intro other hother
  rcases List.mem_or_eq_of_mem_set hother with hold | rfl
  · exact ⟨other, hold, List.Subset.refl _⟩
  · exact ⟨worker, List.mem_of_getElem? hfound, hjobs⟩

theorem Sound.advance (h : Sound state) (index : ℕ) :
    Sound (state.withSync (StateSync.step state.sync (.advance index))) := by
  cases hfound : state.sync.workers[index]? with
  | none =>
    simp only [StateSync.step, hfound]
    exact h
  | some worker =>
    cases hhead : worker.jobs with
    | nil =>
      simp only [StateSync.step, hfound, hhead]
      exact h
    | cons copy rest =>
      have hacts : Acts state.sync index worker copy rest := ⟨hfound, hhead⟩
      have hsound := h.queue.workers worker (List.mem_of_getElem? hfound)
      have hqueue := queueSound_advance h.queue hfound hhead
      simp only [StateSync.step, hfound, hhead]
      cases happlying : worker.stage.applying with
      | true =>
        obtain ⟨hframe, stage, hworkers, -⟩ := advance_applying state.sync index copy happlying
        refine h.of_descends hqueue hframe.services ?_
          (fun row hrow ↦ (h.covered_applying hacts happlying hrow).1)
          (fun row hrow ↦ ⟨row, hframe.jobs ▸ hrow, _, _, rfl⟩) ?_
          fun row hrow ↦ (h.covered_applying hacts happlying hrow).2
        · exact checks_advance state.sync index worker copy
        · rw [hworkers]
          exact mem_workers_of_set hfound (List.Subset.refl _)
      | false =>
        obtain ⟨jobs, hadvance, -, hdescend⟩ :=
          advance_applied_jobs hsound hhead h.queue.jobs.unique index happlying
        have hcovered : ∀ row ∈ (StateSync.advance state.sync index worker copy).checkLatest,
            state.active row.checkPk = false →
              Covered (StateSync.advance state.sync index worker copy) row.checkPk := by
          intro row hrow hinactive
          rw [hadvance] at hrow
          exact h.covered_applied hacts happlying (h.covered row hrow hinactive)
        rw [hadvance] at hqueue hcovered ⊢
        refine h.of_descends hqueue rfl rfl (fun row hrow ↦ ⟨row, hrow, rfl, rfl⟩) hdescend ?_
          hcovered
        exact mem_workers_of_set hfound fun _ ↦ List.mem_of_mem_tail

theorem Sound.setWorker (h : Sound state) {worker next : Worker}
    (hfound : state.sync.workers[index]? = some worker) (hjobs : next.jobs ⊆ worker.jobs)
    (hqueue : QueueSound (state.sync.setWorker index next))
    (hawaits : ∀ job checkPk, Awaits next job checkPk) :
    Sound (state.withSync (state.sync.setWorker index next)) := by
  refine h.of_descends hqueue rfl rfl (fun row hrow ↦ ⟨row, hrow, rfl, rfl⟩)
    (fun row hrow ↦ ⟨row, hrow, _, _, rfl⟩) (mem_workers_of_set hfound hjobs) ?_
  intro row hrow hinactive
  exact (h.covered row hrow hinactive).setWorker rfl rfl fun job _ _ _ _ ↦
    hawaits job row.checkPk

theorem Sound.fail (h : Sound state) (index : ℕ) :
    Sound (state.withSync (StateSync.step state.sync (.fail index))) := by
  have hqueue := queueSound_step state.sync (.fail index) h.queue
  cases hfound : state.sync.workers[index]? with
  | none =>
    simp only [StateSync.step, hfound]
    exact h
  | some worker =>
    simp only [StateSync.step, hfound] at hqueue ⊢
    by_cases hstage : worker.stage = .failed
    · rw [Worker.fail, if_pos hstage] at hqueue ⊢
      exact h.setWorker hfound (fun _ ↦ List.mem_of_mem_tail) hqueue fun _ _ ↦ awaits_desired rfl
    · rw [Worker.fail, if_neg hstage] at hqueue ⊢
      exact h.setWorker hfound (List.Subset.refl _) hqueue fun _ _ ↦ awaits_failed rfl

theorem Sound.crash (h : Sound state) (index : ℕ) :
    Sound (state.withSync (StateSync.step state.sync (.crash index))) := by
  have hqueue := queueSound_step state.sync (.crash index) h.queue
  cases hfound : state.sync.workers[index]? with
  | none =>
    simp only [StateSync.step, hfound]
    exact h
  | some worker =>
    simp only [StateSync.step, hfound] at hqueue ⊢
    refine h.setWorker hfound (List.nil_subset _) hqueue fun _ _ _ _ copy hcopy ↦ ?_
    exact absurd hcopy (Option.not_mem_none _)

theorem Sound.tick (h : Sound state) (milliseconds : ℕ) :
    Sound (state.withSync (StateSync.step state.sync (.tick milliseconds))) := by
  refine h.of_descends (queueSound_step state.sync (.tick milliseconds) h.queue) rfl rfl
    (fun row hrow ↦ ⟨row, hrow, rfl, rfl⟩) (fun row hrow ↦ ⟨row, hrow, _, _, rfl⟩)
    (fun worker hworker ↦ ⟨worker, hworker, List.Subset.refl _⟩) ?_
  exact fun row hrow hinactive ↦ (h.covered row hrow hinactive).congr rfl rfl

theorem Sound.begin (h : Sound state) (batch : ℕ) :
    Sound (state.withSync (StateSync.step state.sync (.begin batch))) where
  queue := h.queue.begin batch
  unique_id := h.unique_id
  unique_pk := h.unique_pk
  checks := h.checks
  rows := h.rows
  requests := h.requests
  jobs := h.jobs
  copies worker hworker copy hcopy job hjob htoken := by
    rcases List.mem_append.mp hworker with hold | hnew
    · exact h.copies worker hold copy hcopy job hjob htoken
    · rw [List.mem_singleton.mp hnew] at hcopy
      have hmem := (List.mem_filter.mp (mem_of_mem_selectOrdered hcopy)).1
      obtain rfl := h.queue.jobs.unique.eq_of_mem hjob hmem (ofToken_iff.mp htoken).1
      exact ⟨rfl, rfl⟩
  purging := h.purging
  covered row hrow hinactive := by
    obtain ⟨job, hjob, hcheck, hawaits⟩ := h.covered row hrow hinactive
    refine ⟨job, hjob, hcheck, fun worker hworker ↦ ?_⟩
    rcases List.mem_append.mp hworker with hold | hnew
    · exact hawaits worker hold
    · rw [List.mem_singleton.mp hnew]
      exact awaits_desired rfl

theorem checkJobKey_ne (checkId serviceId : String) :
    checkJobKey checkId ≠ serviceJobKey serviceId := by
  intro h
  have hhead := congrArg (fun text : String ↦ text.toList.head?) h
  simp [checkJobKey, serviceJobKey] at hhead

theorem checkJobKey_inj {first second : String} (h : checkJobKey first = checkJobKey second) :
    first = second :=
  (String.append_right_inj _).mp h

/-- A job is enqueued, with a change of the services, the checks and the rows of `ended`. -/
theorem Sound.applyAtOnce (h : Sound state) {services : Services} {checks : List CheckConfig}
    {ended : List ℕ}
    (hqueue : QueueSound ({ state.sync with services, ended, checks }.applyAtOnce job))
    (hfresh : job.syncToken ∉ state.sync.drawn)
    (hchecks : ∀ check ∈ checks, ∃ service ∈ services.rows,
      service.id = check.serviceId ∧
        ⟨check.id, check.telemetryPk, service.workspacePk⟩ ∈ state.identities)
    (hpurging : ∀ service ∈ services.rows, service.id ∈ state.purging → service.deleted = true)
    (hjob : ∀ check ∈ job.check, ⟨check.1, check.2, job.workspacePk⟩ ∈ state.identities ∧
      job.jobKey = checkJobKey check.1 ∧ job.reasonCode = .checkConfiguration)
    (hservice : job.check = none → job.jobKey = serviceJobKey job.serviceId)
    (hactive : ∀ checkPk, state.active checkPk = true → job.check.map Prod.snd ≠ some checkPk →
      (state.withSync ({ state.sync with services, ended, checks }.applyAtOnce job)).active
        checkPk = true) :
    Sound (state.withSync ({ state.sync with services, ended, checks }.applyAtOnce job)) where
  queue := hqueue
  unique_id := h.unique_id
  unique_pk := h.unique_pk
  checks := hchecks
  rows := h.rows
  requests := h.requests
  jobs row hrow check hcheck := by
    rcases mem_enqueue hrow with rfl | ⟨hold, -⟩
    · exact hjob check hcheck
    · exact h.jobs row hold check hcheck
  copies worker hworker copy hcopy row hrow htoken := by
    rcases List.mem_append.mp hworker with hold | hnew
    · rcases mem_enqueue hrow with rfl | ⟨hbefore, -⟩
      · have hdrawn := (h.queue.workers worker hold).drawn copy hcopy
        exact absurd ((ofToken_iff.mp htoken).2 ▸ hdrawn) hfresh
      · exact h.copies worker hold copy hcopy row hbefore htoken
    · rw [List.mem_singleton.mp hnew] at hcopy
      obtain rfl := List.mem_singleton.mp hcopy
      rcases mem_enqueue hrow with rfl | ⟨-, hne⟩
      · exact ⟨rfl, rfl⟩
      · exact absurd (ofToken_iff.mp htoken).1 hne
  purging := hpurging
  covered row hrow hinactive := by
    cases hbefore : state.active row.checkPk with
    | false =>
      refine covered_applyAtOnce (h.covered row hrow hbefore) h.queue checks ended hfresh ?_
      intro old hold checkId hcheck hkey
      obtain ⟨hknown, holdKey, -⟩ := h.jobs old hold _ hcheck
      cases hnew : job.check with
      | none => exact absurd (holdKey.symm.trans (hkey.trans (hservice hnew))) (checkJobKey_ne _ _)
      | some check =>
        obtain ⟨hnewKnown, hnewKey, -⟩ := hjob check hnew
        have hid : checkId = check.1 :=
          checkJobKey_inj (holdKey.symm.trans (hkey.trans hnewKey))
        have hpk := congrArg Identity.checkPk (h.unique_id.eq_of_mem hknown hnewKnown hid)
        exact congrArg some (Prod.ext hid.symm hpk.symm)
    | true =>
      have hpk : job.check.map Prod.snd = some row.checkPk := by
        by_contra hne
        have hstill := hactive row.checkPk hbefore hne
        exact Bool.false_ne_true (hinactive.symm.trans hstill)
      obtain ⟨check, hcheck, heq⟩ := Option.map_eq_some_iff.mp hpk
      rw [← heq]
      exact covered_applyAtOnce_new h.queue checks ended hfresh
        (show job.check = some (check.1, check.2) from hcheck)

end Invariant

end AlphaPing.Checks.StaleChecks
