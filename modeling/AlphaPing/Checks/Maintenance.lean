import AlphaPing.Checks.StateSync

/-!
# Jobs are kept until their protection ends, and maintenance ends with them

A row of the jobs is superseded by an enqueueing, rescheduled or deleted only under its own token,
and deleted only when its protection is over. For the state of the services, what an application
has computed is carried from the read to the write; the invariant speaks of a worker by its stage.

A pass that fails leaves its job for the next one, and with it the state of the service.
-/

namespace AlphaPing.Checks.StateSync

open Library.Tables Library.Runs Ingest.CheckResults

/-! ## Jobs -/

/-- A job with the times of another attempt. -/
def Job.rescheduled (job : Job) (lastAttemptedAt nextAttemptAt : ℤ) : Job :=
  { job with lastAttemptedAt, nextAttemptAt }

def Sync.holds (sync : Sync) (index : ℕ) (row : Job) : Bool :=
  sync.workers[index]?.any fun worker ↦
    worker.pass && worker.jobs.head?.any fun job ↦ ofToken job row

/-- The worker has applied its job. -/
def Sync.applied (sync : Sync) (index : ℕ) : Bool :=
  sync.workers[index]?.any fun worker ↦
    match worker.stage with
    | .settled _ => true
    | _ => false

/-- What can become of a row. -/
inductive RowKept (sync : Sync) (action : Action) (row : Job) : Prop where
  | untouched (h : row ∈ (step sync action).jobs)
  /-- The change of a check or a maintenance window enqueues the job anew. -/
  | superseded (job : Job) (hmem : job ∈ (step sync action).jobs) (hkey : job.jobKey = row.jobKey)
      (hnew : job.syncToken ∉ sync.drawn) (hnow : sync.clock + guardMs ≤ job.protectUntil)
  /-- A pass that holds the token of the row marks an attempt. -/
  | rescheduled (worker : ℕ) (haction : action = .advance worker) (hholds : sync.holds worker row)
      (lastAttemptedAt nextAttemptAt : ℤ)
      (h : row.rescheduled lastAttemptedAt nextAttemptAt ∈ (step sync action).jobs)
  /-- A pass that holds the token of the row and has applied the job deletes it. -/
  | completed (worker : ℕ) (haction : action = .advance worker) (hholds : sync.holds worker row)
      (happlied : sync.applied worker) (hover : row.protectUntil ≤ sync.clock)

/-- No request is lost in a step. -/
def StepKept (sync : Sync) (action : Action) : Prop :=
  ∀ row ∈ sync.jobs, RowKept sync action row

/-- What the rows and the services say of each other. -/
structure JobsSound (sync : Sync) : Prop where
  unique : UniqueKey Job.jobKey sync.jobs
  drawn : ∀ row ∈ sync.jobs, row.syncToken ∈ sync.drawn
  key : ∀ row ∈ sync.jobs, row.reasonCode = .maintenanceWindow →
    row.jobKey = serviceJobKey row.serviceId
  covers : ∀ row ∈ sync.jobs, row.reasonCode = .maintenanceWindow →
    ∀ service ∈ sync.services.rows, service.id = row.serviceId →
      ∀ until_ ∈ service.maintenanceUntil, until_ ≤ row.protectUntil

def Stage.maintenanceUntil : Stage → Option ℤ
  | .desired | .dropping | .failed => none
  | .correcting maintenanceUntil _ | .reading maintenanceUntil | .comparing maintenanceUntil _
  | .writing maintenanceUntil _ _ | .settled maintenanceUntil => maintenanceUntil

/-- A job that was read is, as long as its row has its token, protected like its row, and no
longer than the maintenance that was read needs. -/
structure WorkerSound (sync : Sync) (worker : Worker) : Prop where
  now_le : worker.now ≤ sync.clock
  drawn : ∀ job ∈ worker.jobs, job.syncToken ∈ sync.drawn
  same : ∀ job ∈ worker.jobs, ∀ row ∈ sync.jobs, ofToken job row = true →
    row.protectUntil = job.protectUntil ∧ row.reasonCode = job.reasonCode ∧
      row.serviceId = job.serviceId
  found : ∀ job ∈ worker.jobs.head?, job.reasonCode = .maintenanceWindow →
    ∀ row ∈ sync.jobs, ofToken job row = true →
      ∀ until_ ∈ worker.stage.maintenanceUntil, until_ ≤ job.protectUntil

structure QueueSound (sync : Sync) : Prop where
  jobs : JobsSound sync
  workers : ∀ worker ∈ sync.workers, WorkerSound sync worker

/-- Every row was there before, up to the times of its attempts, or has a new token. -/
def Descends (sync next : Sync) : Prop :=
  ∀ row ∈ next.jobs, row.syncToken ∉ sync.drawn ∨
    ∃ old ∈ sync.jobs, ∃ lastAttemptedAt nextAttemptAt,
      row = old.rescheduled lastAttemptedAt nextAttemptAt

theorem Descends.of_jobs_eq {sync next : Sync} (h : next.jobs = sync.jobs) :
    Descends sync next := fun row hrow ↦
  .inr ⟨row, h ▸ hrow, row.lastAttemptedAt, row.nextAttemptAt, rfl⟩

theorem ofToken_iff {job row : Job} :
    ofToken job row = true ↔ row.jobKey = job.jobKey ∧ row.syncToken = job.syncToken := by
  simp [ofToken]

theorem WorkerSound.mono {sync next : Sync} {worker : Worker} (h : WorkerSound sync worker)
    (hclock : sync.clock ≤ next.clock) (hdrawn : sync.drawn ⊆ next.drawn)
    (hjobs : Descends sync next) : WorkerSound next worker where
  now_le := h.now_le.trans hclock
  drawn job hjob := hdrawn (h.drawn job hjob)
  same job hjob row hrow htoken := by
    rcases hjobs row hrow with hnew | ⟨old, hold, last, following, rfl⟩
    · exact absurd ((ofToken_iff.mp htoken).2 ▸ h.drawn job hjob) hnew
    · exact h.same job hjob old hold htoken
  found job hjob hreason row hrow htoken := by
    rcases hjobs row hrow with hnew | ⟨old, hold, last, following, rfl⟩
    · exact absurd ((ofToken_iff.mp htoken).2 ▸ h.drawn job (List.mem_of_mem_head? hjob)) hnew
    · exact h.found job hjob hreason old hold htoken

variable {jobs : List Job} {sync : Sync} {job : Job} {rest : List Job} {row : Job} {index : ℕ}
  {service : Service} {maintenanceUntil : Option ℤ} {rows : List ServiceLatest}

theorem mem_enqueue {job row : Job} (h : row ∈ enqueue jobs job) :
    row = job ∨ row ∈ jobs ∧ row.jobKey ≠ job.jobKey := by
  unfold enqueue upsert at h
  split at h
  · obtain ⟨old, hold, ⟨-, rfl⟩ | ⟨hother, rfl⟩⟩ := mem_updateWhere.mp h
    · exact .inl rfl
    · exact .inr ⟨hold, by simpa using hother⟩
  · next hnone =>
    rcases List.mem_append.mp h with hold | hnew
    · refine .inr ⟨hold, fun hkey ↦ hnone (List.any_eq_true.mpr ⟨row, hold, by simpa using hkey⟩)⟩
    · exact .inl (List.mem_singleton.mp hnew)

theorem job_mem_enqueue (jobs : List Job) (job : Job) : job ∈ enqueue jobs job := by
  unfold enqueue upsert
  split
  · next hany =>
    obtain ⟨old, hold, hkey⟩ := List.any_eq_true.mp hany
    exact mem_updateWhere.mpr ⟨old, hold, .inl ⟨by simpa using hkey, rfl⟩⟩
  · exact List.mem_append_right _ (List.mem_singleton_self _)

theorem mem_enqueue_of_ne {job row : Job} (h : row ∈ jobs) (hkey : row.jobKey ≠ job.jobKey) :
    row ∈ enqueue jobs job := by
  unfold enqueue upsert
  split
  · exact mem_updateWhere_of_not h (by simpa using hkey)
  · exact List.mem_append_left _ h

theorem uniqueKey_enqueue (h : UniqueKey Job.jobKey jobs) (job : Job) :
    UniqueKey Job.jobKey (enqueue jobs job) :=
  h.upsert fun _ hkey ↦ hkey.symm

/-! ## Bookkeeping -/

theorem Sync.holds_of {worker : Worker} (hworker : sync.workers[index]? = some worker)
    (hpass : worker.pass = true) (hjobs : worker.jobs = job :: rest)
    (htoken : ofToken job row = true) :
    sync.holds index row = true := by
  simp [Sync.holds, hworker, hpass, hjobs, htoken]

theorem WorkerSound.protectUntil_eq {worker : Worker} (h : WorkerSound sync worker)
    (hjobs : worker.jobs = job :: rest) (hrow : row ∈ sync.jobs) (htoken : ofToken job row = true) :
    protectUntil job worker.stage.maintenanceUntil = row.protectUntil := by
  rw [(h.same job (by simp [hjobs]) row hrow htoken).1]
  unfold protectUntil
  split
  · next hreason =>
    cases hread : worker.stage.maintenanceUntil with
    | none => rfl
    | some until_ =>
      exact max_eq_left (h.found job (by simp [hjobs]) hreason row hrow htoken until_ (by simp [hread]))
  · rfl

/-- The bookkeeping marks or deletes the row of its token and leaves the others. -/
theorem WorkerSound.keepBooks_cases {worker : Worker} (h : WorkerSound sync worker)
    (hjobs : worker.jobs = job :: rest) (hrow : row ∈ sync.jobs) :
    (ofToken job row = false ∧
      row ∈ keepBooks sync.jobs job worker.now worker.stage.maintenanceUntil) ∨
    (ofToken job row = true ∧ row.protectUntil ≤ worker.now) ∨
    (ofToken job row = true ∧ ∃ lastAttemptedAt nextAttemptAt,
      row.rescheduled lastAttemptedAt nextAttemptAt ∈
        keepBooks sync.jobs job worker.now worker.stage.maintenanceUntil) := by
  simp only [keepBooks]
  cases htoken : ofToken job row with
  | false =>
    refine .inl ⟨rfl, ?_⟩
    split
    · exact List.mem_filter.mpr ⟨hrow, by simp [htoken]⟩
    · exact mem_updateWhere_of_not hrow htoken
  | true =>
    have hprotect := h.protectUntil_eq hjobs hrow htoken
    rw [hprotect]
    by_cases hover : row.protectUntil ≤ worker.now
    · exact .inr (.inl ⟨rfl, hover⟩)
    · refine .inr (.inr ⟨rfl, worker.now,
        nextAttemptAfterSuccess job worker.now row.protectUntil, ?_⟩)
      rw [if_neg hover]
      exact mem_updateWhere.mpr ⟨row, hrow, .inl ⟨htoken, rfl⟩⟩

theorem mem_markAttempt {now protect nextAttemptAt : ℤ}
    (hprotect : ∀ old ∈ jobs, ofToken job old = true → old.protectUntil = protect)
    (h : row ∈ markAttempt jobs job now protect nextAttemptAt) :
    ∃ old ∈ jobs, ∃ lastAttemptedAt nextAttemptAt,
      row = old.rescheduled lastAttemptedAt nextAttemptAt := by
  obtain ⟨old, hold, ⟨htoken, rfl⟩ | ⟨-, rfl⟩⟩ := mem_updateWhere.mp h
  · exact ⟨old, hold, now, nextAttemptAt, by rw [← hprotect old hold htoken]; rfl⟩
  · exact ⟨row, hold, row.lastAttemptedAt, row.nextAttemptAt, rfl⟩

theorem WorkerSound.mem_keepBooks {worker : Worker} (h : WorkerSound sync worker)
    (hjobs : worker.jobs = job :: rest)
    (hrow : row ∈ keepBooks sync.jobs job worker.now worker.stage.maintenanceUntil) :
    ∃ old ∈ sync.jobs, ∃ lastAttemptedAt nextAttemptAt,
      row = old.rescheduled lastAttemptedAt nextAttemptAt := by
  simp only [keepBooks] at hrow
  split at hrow
  · exact ⟨row, (List.mem_filter.mp hrow).1, row.lastAttemptedAt, row.nextAttemptAt, rfl⟩
  · exact mem_markAttempt (fun old hold htoken ↦ (h.protectUntil_eq hjobs hold htoken).symm) hrow

theorem uniqueKey_markAttempt (h : UniqueKey Job.jobKey jobs) (job : Job)
    (now protect nextAttemptAt : ℤ) :
    UniqueKey Job.jobKey (markAttempt jobs job now protect nextAttemptAt) :=
  h.updateWhere fun _ ↦ rfl

theorem uniqueKey_keepBooks (h : UniqueKey Job.jobKey jobs) (job : Job) (now : ℤ)
    (maintenanceUntil : Option ℤ) :
    UniqueKey Job.jobKey (keepBooks jobs job now maintenanceUntil) := by
  simp only [keepBooks]
  split
  · exact h.filter _
  · exact uniqueKey_markAttempt h job _ _ _

theorem JobsSound.descend {sync next : Sync} (h : JobsSound sync)
    (hunique : UniqueKey Job.jobKey next.jobs)
    (hjobs : ∀ row ∈ next.jobs, ∃ old ∈ sync.jobs, ∃ lastAttemptedAt nextAttemptAt,
      row = old.rescheduled lastAttemptedAt nextAttemptAt)
    (hdrawn : next.drawn = sync.drawn) (hservices : next.services = sync.services) :
    JobsSound next where
  unique := hunique
  drawn row hrow := by
    obtain ⟨old, hold, last, following, rfl⟩ := hjobs row hrow
    exact hdrawn ▸ h.drawn old hold
  key row hrow hreason := by
    obtain ⟨old, hold, last, following, rfl⟩ := hjobs row hrow
    exact h.key old hold hreason
  covers row hrow hreason service hservice := by
    obtain ⟨old, hold, last, following, rfl⟩ := hjobs row hrow
    exact h.covers old hold hreason service (hservices ▸ hservice)

/-! ## Steps of a worker -/

/-- The queue, the services and the clock are as before. -/
structure QueueFrame (sync next : Sync) : Prop where
  clock : next.clock = sync.clock
  services : next.services = sync.services
  jobs : next.jobs = sync.jobs
  drawn : next.drawn = sync.drawn

/-- The maintenance with which a worker goes on was read before or is read now. -/
def Stage.Reads (services : Services) (job : Job) (before after : Stage) : Prop :=
  after.maintenanceUntil = before.maintenanceUntil ∨
    (∀ until_ ∈ after.maintenanceUntil, ∃ service ∈ services.rows,
      service.id = job.serviceId ∧ service.maintenanceUntil = some until_)

/-- A stage in which an application is under way. -/
def Stage.applying : Stage → Bool
  | .settled _ | .failed => false
  | _ => true

theorem settle_frame (sync : Sync) (index : ℕ) (worker : Worker) (job : Job)
    (maintenanceUntil : Option ℤ) :
    QueueFrame sync (sync.settle index worker job maintenanceUntil) := by
  constructor <;> rfl

theorem desiredServiceState_service {services : Services} {checks : List CheckConfig}
    {check : Option CheckConfig}
    (h : desiredServiceState services checks job = some (service, check)) :
    service ∈ services.rows ∧ service.id = job.serviceId := by
  obtain ⟨found, hfound, heq⟩ := Option.map_eq_some_iff.mp h
  obtain ⟨rfl, -⟩ := Prod.mk.inj heq
  have hcondition := List.find?_some hfound
  simp only [Bool.and_eq_true, beq_iff_eq] at hcondition
  exact ⟨List.mem_of_find?_eq_some hfound, hcondition.1.1⟩

theorem advance_applying (sync : Sync) (index : ℕ) {worker : Worker} (job : Job)
    (happlying : worker.stage.applying = true) :
    QueueFrame sync (advance sync index worker job) ∧
      ∃ stage, (advance sync index worker job).workers =
          sync.workers.set index { worker with stage } ∧
        Stage.Reads sync.services job worker.stage stage := by
  obtain ⟨pass, now, jobs, stage⟩ := worker
  cases stage with
  | desired =>
    simp only [advance]
    cases hdesired : desiredServiceState sync.services sync.checks job with
    | none =>
      simp only []
      split
      · exact ⟨⟨rfl, rfl, rfl, rfl⟩, _, rfl, .inl rfl⟩
      · exact ⟨⟨rfl, rfl, rfl, rfl⟩, _, rfl, .inl rfl⟩
    | some found =>
      obtain ⟨service, check⟩ := found
      obtain ⟨hmem, hid⟩ := desiredServiceState_service hdesired
      simp only []
      split
      · exact ⟨⟨rfl, rfl, rfl, rfl⟩, _, rfl, .inl rfl⟩
      · split
        · exact ⟨⟨rfl, rfl, rfl, rfl⟩, _, rfl, .inr fun until_ h ↦ ⟨service, hmem, hid, h⟩⟩
        · exact ⟨⟨rfl, rfl, rfl, rfl⟩, _, rfl, .inr fun until_ h ↦ ⟨service, hmem, hid, h⟩⟩
  | dropping => exact ⟨⟨rfl, rfl, rfl, rfl⟩, _, rfl, .inl rfl⟩
  | correcting maintenanceUntil check => exact ⟨⟨rfl, rfl, rfl, rfl⟩, _, rfl, .inl rfl⟩
  | reading maintenanceUntil => exact ⟨⟨rfl, rfl, rfl, rfl⟩, _, rfl, .inl rfl⟩
  | comparing maintenanceUntil next =>
    simp only [advance]
    split
    · exact ⟨settle_frame .., _, rfl, .inl rfl⟩
    · exact ⟨⟨rfl, rfl, rfl, rfl⟩, _, rfl, .inl rfl⟩
  | writing maintenanceUntil previous next =>
    simp only [advance]
    split
    · exact ⟨⟨rfl, rfl, rfl, rfl⟩, _, rfl, .inl rfl⟩
    · exact ⟨⟨rfl, rfl, rfl, rfl⟩, _, rfl, .inr fun until_ h ↦ by cases h⟩
  | settled maintenanceUntil => cases happlying
  | failed => cases happlying

theorem advance_applied (sync : Sync) (index : ℕ) {worker : Worker} (job : Job)
    (happlied : worker.stage.applying = false) :
    ∃ jobs, advance sync index worker job = { sync with jobs }.setWorker index worker.next ∧
      (worker.pass = false ∧ jobs = sync.jobs ∨
        worker.pass = true ∧ (∃ maintenanceUntil, worker.stage = .settled maintenanceUntil) ∧
          jobs = keepBooks sync.jobs job worker.now worker.stage.maintenanceUntil ∨
        worker.pass = true ∧ worker.stage = .failed ∧
          jobs = markAttempt sync.jobs job worker.now job.protectUntil worker.now) := by
  obtain ⟨pass, now, jobs, stage⟩ := worker
  cases stage with
  | settled maintenanceUntil =>
    cases pass
    · exact ⟨_, rfl, .inl ⟨rfl, rfl⟩⟩
    · exact ⟨_, rfl, .inr (.inl ⟨rfl, ⟨_, rfl⟩, rfl⟩)⟩
  | failed =>
    cases pass
    · exact ⟨_, rfl, .inl ⟨rfl, rfl⟩⟩
    · exact ⟨_, rfl, .inr (.inr ⟨rfl, rfl, rfl⟩)⟩
  | desired | dropping | correcting | reading | comparing | writing => cases happlied

/-! ## The queue along a run -/

theorem WorkerSound.next {worker : Worker} (h : WorkerSound sync worker) :
    WorkerSound sync worker.next where
  now_le := h.now_le
  drawn job hjob := h.drawn job (List.mem_of_mem_tail hjob)
  same job hjob := h.same job (List.mem_of_mem_tail hjob)
  found _ _ _ _ _ _ _ hread := by cases hread

theorem WorkerSound.withStage (hjobs : JobsSound sync) {worker : Worker}
    (h : WorkerSound sync worker) (hhead : worker.jobs = job :: rest) {stage : Stage}
    (hstage : Stage.Reads sync.services job worker.stage stage) :
    WorkerSound sync { worker with stage } where
  now_le := h.now_le
  drawn := h.drawn
  same := h.same
  found held hheld hreason row hrow htoken until_ hread := by
    have hjob : held = job := by simpa [hhead] using hheld.symm
    subst hjob
    rcases hstage with hbefore | hnow
    · exact h.found held (by simp [hhead]) hreason row hrow htoken until_ (hbefore ▸ hread)
    · obtain ⟨service, hservice, hid, hmaintenance⟩ := hnow until_ hread
      obtain ⟨hprotect, hreasons, hserviceId⟩ := h.same held (by simp [hhead]) row hrow htoken
      rw [← hprotect]
      exact hjobs.covers row hrow (hreasons.trans hreason) service hservice
        (hid.trans hserviceId.symm) until_ hmaintenance

theorem QueueSound.of_frame {sync next : Sync} (h : QueueSound sync) (hframe : QueueFrame sync next)
    (hworkers : ∀ worker ∈ next.workers, WorkerSound sync worker) : QueueSound next where
  jobs := h.jobs.descend (hframe.jobs ▸ h.jobs.unique)
    (fun row hrow ↦ ⟨row, hframe.jobs ▸ hrow, row.lastAttemptedAt, row.nextAttemptAt, rfl⟩)
    hframe.drawn hframe.services
  workers worker hworker := (hworkers worker hworker).mono hframe.clock.ge
    (hframe.drawn ▸ List.Subset.refl _) (.of_jobs_eq hframe.jobs)

theorem QueueSound.setWorker (h : QueueSound sync) (index : ℕ) {worker : Worker}
    (hworker : WorkerSound sync worker) : QueueSound (sync.setWorker index worker) := by
  refine h.of_frame ⟨rfl, rfl, rfl, rfl⟩ fun other hother ↦ ?_
  rcases List.mem_or_eq_of_mem_set hother with hold | rfl
  · exact h.workers other hold
  · exact hworker

theorem advance_applied_jobs {worker : Worker} (h : WorkerSound sync worker)
    (hhead : worker.jobs = job :: rest) (hunique : UniqueKey Job.jobKey sync.jobs) (index : ℕ)
    (happlied : worker.stage.applying = false) :
    ∃ jobs, advance sync index worker job = { sync with jobs }.setWorker index worker.next ∧
      UniqueKey Job.jobKey jobs ∧ ∀ row ∈ jobs, ∃ old ∈ sync.jobs,
        ∃ lastAttemptedAt nextAttemptAt, row = old.rescheduled lastAttemptedAt nextAttemptAt := by
  obtain ⟨jobs, hadvance, ⟨-, rfl⟩ | ⟨-, -, rfl⟩ | ⟨-, -, rfl⟩⟩ := advance_applied sync
    index job happlied
  · exact ⟨_, hadvance, hunique, fun row hrow ↦ ⟨row, hrow, _, _, rfl⟩⟩
  · exact ⟨_, hadvance, uniqueKey_keepBooks hunique .., fun row ↦ h.mem_keepBooks hhead⟩
  · refine ⟨_, hadvance, uniqueKey_markAttempt hunique .., fun row ↦ mem_markAttempt ?_⟩
    exact fun old hold htoken ↦ (h.same job (by simp [hhead]) old hold htoken).1

theorem queueSound_advance (h : QueueSound sync) {worker : Worker}
    (hworker : sync.workers[index]? = some worker) (hhead : worker.jobs = job :: rest) :
    QueueSound (advance sync index worker job) := by
  have hsound := h.workers worker (List.mem_of_getElem? hworker)
  cases happlying : worker.stage.applying with
  | true =>
    obtain ⟨hframe, stage, hworkers, hreads⟩ := advance_applying sync index job
      happlying
    refine h.of_frame hframe fun other hother ↦ ?_
    rcases List.mem_or_eq_of_mem_set (hworkers ▸ hother) with hold | rfl
    · exact h.workers other hold
    · exact hsound.withStage h.jobs hhead hreads
  | false =>
    obtain ⟨jobs, hadvance, hunique, hjobs⟩ :=
      advance_applied_jobs hsound hhead h.jobs.unique index happlying
    rw [hadvance]
    have hdescends : Descends sync { sync with jobs } := fun row hrow ↦ .inr (hjobs row hrow)
    have hqueue : QueueSound { sync with jobs } :=
      ⟨h.jobs.descend hunique hjobs rfl rfl, fun other hother ↦
        (h.workers other hother).mono le_rfl (List.Subset.refl _) hdescends⟩
    exact hqueue.setWorker index (hsound.next.mono le_rfl (List.Subset.refl _) hdescends)

theorem mem_update {services : Services} {id : String} {change : Service → Service}
    (hid : ∀ row, (change row).id = row.id)
    (hpk : ∀ row, (change row).telemetryPk = row.telemetryPk)
    (h : service ∈ (services.update id change hid hpk).rows) :
    ∃ old ∈ services.rows, (old.id = id ∧ service = change old) ∨ (old.id ≠ id ∧ service = old) := by
  obtain ⟨old, hold, ⟨heq, rfl⟩ | ⟨hne, rfl⟩⟩ := mem_updateWhere.mp h
  · exact ⟨old, hold, .inl ⟨by simpa using heq, rfl⟩⟩
  · exact ⟨service, hold, .inr ⟨by simpa using hne, rfl⟩⟩

/-- An enqueueing keeps the queue sound: the job that it supersedes is the one of its key. -/
theorem QueueSound.applyAtOnce (h : QueueSound sync) {services : Services} (ended : List ℕ)
    (checks : List CheckConfig) (hfresh : job.syncToken ∉ sync.drawn)
    (hkey : job.reasonCode = .maintenanceWindow → job.jobKey = serviceJobKey job.serviceId)
    (hcovers : job.reasonCode = .maintenanceWindow → ∀ service ∈ services.rows,
      service.id = job.serviceId → ∀ until_ ∈ service.maintenanceUntil, until_ ≤ job.protectUntil)
    (hothers : ∀ service ∈ services.rows, service ∈ sync.services.rows ∨
      job.jobKey = serviceJobKey service.id ∨
        ∃ old ∈ sync.services.rows, old.id = service.id ∧
          old.maintenanceUntil = service.maintenanceUntil) :
    QueueSound ({ sync with services, ended, checks }.applyAtOnce job) := by
  have hdescends : Descends sync ({ sync with services, ended, checks }.applyAtOnce job) := by
    intro row hrow
    rcases mem_enqueue hrow with rfl | ⟨hold, -⟩
    · exact .inl hfresh
    · exact .inr ⟨row, hold, row.lastAttemptedAt, row.nextAttemptAt, rfl⟩
  refine ⟨⟨uniqueKey_enqueue h.jobs.unique job, ?_, ?_, ?_⟩, ?_⟩
  · intro row hrow
    rcases mem_enqueue hrow with rfl | ⟨hold, -⟩
    · exact List.mem_cons_self
    · exact List.mem_cons_of_mem _ (h.jobs.drawn row hold)
  · intro row hrow hreason
    rcases mem_enqueue hrow with rfl | ⟨hold, -⟩
    · exact hkey hreason
    · exact h.jobs.key row hold hreason
  · intro row hrow hreason service hservice hid
    rcases mem_enqueue hrow with rfl | ⟨hold, hne⟩
    · exact hcovers hreason service hservice hid
    · rcases hothers service hservice with hsame | hjob | ⟨old, hmem, holdid, hmaintenance⟩
      · exact h.jobs.covers row hold hreason service hsame hid
      · exact absurd ((h.jobs.key row hold hreason).trans (hid ▸ hjob.symm)) hne
      · exact hmaintenance ▸ h.jobs.covers row hold hreason old hmem (holdid.trans hid)
  · intro worker hworker
    rcases List.mem_append.mp hworker with hold | hnew
    · exact (h.workers worker hold).mono le_rfl (List.subset_cons_self _ _) hdescends
    · rw [List.mem_singleton.mp hnew]
      refine ⟨le_rfl, fun held hheld ↦ ?_, fun held hheld row hrow htoken ↦ ?_, ?_⟩
      · rw [List.mem_singleton.mp hheld]
        exact List.mem_cons_self
      · obtain rfl := List.mem_singleton.mp hheld
        rcases mem_enqueue hrow with rfl | ⟨-, hne⟩
        · exact ⟨rfl, rfl, rfl⟩
        · exact absurd (ofToken_iff.mp htoken).1 hne
      · rintro held - - row - - until_ hread
        cases hread

theorem QueueSound.setMaintenance (h : QueueSound sync) {token : String}
    (hfresh : token ∉ sync.drawn) (maintenanceUntil : Option ℤ) :
    QueueSound (sync.setMaintenance service maintenanceUntil token) := by
  refine h.applyAtOnce _ _ hfresh (fun _ ↦ rfl) ?_ fun changed hchanged ↦ ?_
  · rintro - changed hchanged hid until_ huntil
    obtain ⟨old, hold, ⟨-, rfl⟩ | ⟨hne, rfl⟩⟩ := mem_update _ _ hchanged
    · have heq : maintenanceUntil = some until_ := huntil
      simp [createJob, heq]
    · exact absurd hid hne
  · obtain ⟨old, hold, ⟨heq, rfl⟩ | ⟨-, rfl⟩⟩ := mem_update _ _ hchanged
    · exact .inr (.inl (congrArg serviceJobKey heq.symm))
    · exact .inl hold

theorem QueueSound.configure (h : QueueSound sync) (service : Service) {token : String}
    (hfresh : token ∉ sync.drawn) (check : CheckConfig) :
    QueueSound (sync.configure service check token) :=
  h.applyAtOnce _ _ hfresh (fun hreason ↦ by cases hreason) (fun hreason ↦ by cases hreason)
    fun _ hservice ↦ .inl hservice

theorem QueueSound.begin (h : QueueSound sync) (batch : ℕ) :
    QueueSound (step sync (.begin batch)) := by
  refine h.of_frame ⟨rfl, rfl, rfl, rfl⟩ fun worker hworker ↦ ?_
  rcases List.mem_append.mp hworker with hold | hnew
  · exact h.workers worker hold
  · rw [List.mem_singleton.mp hnew]
    have hmem : ∀ job ∈ dueJobs sync.jobs sync.clock (min batch jobBatch), job ∈ sync.jobs :=
      fun job hjob ↦ (List.mem_filter.mp (mem_of_mem_selectOrdered hjob)).1
    refine ⟨le_rfl, fun job hjob ↦ h.jobs.drawn job (hmem job hjob), ?_, ?_⟩
    · intro job hjob row hrow htoken
      obtain rfl := h.jobs.unique.eq_of_mem hrow (hmem job hjob) (ofToken_iff.mp htoken).1
      exact ⟨rfl, rfl, rfl⟩
    · rintro held - - row - - until_ hread
      cases hread

theorem Sync.service_some {serviceId : String} (h : sync.service serviceId = some service) :
    service ∈ sync.services.rows ∧ service.id = serviceId := by
  have hcondition := List.find?_some h
  simp only [Bool.and_eq_true, beq_iff_eq] at hcondition
  exact ⟨List.mem_of_find?_eq_some h, hcondition.1⟩

theorem queueSound_step (sync : Sync) (action : Action) (h : QueueSound sync) :
    QueueSound (step sync action) := by
  cases action with
  | tick milliseconds =>
    refine ⟨⟨h.jobs.unique, h.jobs.drawn, h.jobs.key, h.jobs.covers⟩, fun worker hworker ↦ ?_⟩
    exact (h.workers worker hworker).mono (by simp [step]) (List.Subset.refl _) (.of_jobs_eq rfl)
  | setMaintenance serviceId maintenanceUntil token =>
    simp only [step]
    split
    · exact h
    · split
      · exact h
      · next hfresh => exact h.setMaintenance (by simpa using hfresh) maintenanceUntil
  | configure check token =>
    simp only [step]
    split
    · exact h
    · split
      · exact h
      · next hfresh => exact h.configure _ (by simpa using hfresh) check
  | deleteService serviceId =>
    refine ⟨⟨h.jobs.unique, h.jobs.drawn, h.jobs.key, ?_⟩, fun worker hworker ↦
      (h.workers worker hworker).mono le_rfl (List.Subset.refl _) (.of_jobs_eq rfl)⟩
    intro row hrow hreason service hservice
    obtain ⟨old, hold, ⟨-, rfl⟩ | ⟨-, rfl⟩⟩ := mem_updateWhere.mp hservice
    · exact h.jobs.covers row hrow hreason old hold
    · exact h.jobs.covers row hrow hreason service hold
  | results rows => exact h.of_frame ⟨rfl, rfl, rfl, rfl⟩ h.workers
  | evaluate row => exact h.of_frame ⟨rfl, rfl, rfl, rfl⟩ h.workers
  | begin batch => exact h.begin batch
  | advance index =>
    simp only [step]
    split
    · exact h
    · next worker hworker =>
      split
      · exact h
      · next job rest hhead => exact queueSound_advance h hworker hhead
  | fail index =>
    simp only [step]
    split
    · exact h
    · next worker hworker =>
      refine h.setWorker index ?_
      have hsound := h.workers worker (List.mem_of_getElem? hworker)
      unfold Worker.fail
      split
      · exact hsound.next
      · exact ⟨hsound.now_le, hsound.drawn, hsound.same, fun _ _ _ _ _ _ _ hread ↦ by cases hread⟩
  | crash index =>
    simp only [step]
    split
    · exact h
    · next worker hworker =>
      have hsound := h.workers worker (List.mem_of_getElem? hworker)
      exact h.setWorker index ⟨hsound.now_le, fun _ hjob ↦ (by cases hjob),
        fun _ hjob ↦ (by cases hjob), fun _ hjob ↦ (by cases hjob)⟩

theorem queueSound_start (clock : ℤ) (services : Services) (checks : List CheckConfig)
    (checkLatest : List CheckStateRow) : QueueSound (start clock services checks checkLatest) where
  jobs := ⟨uniqueKey_nil, fun _ h ↦ (by cases h), fun _ h ↦ (by cases h), fun _ h ↦ (by cases h)⟩
  workers _ h := by cases h

/-! ## No request is lost -/

theorem rowKept_of_enqueue {action : Action} {job row : Job}
    (hjobs : (step sync action).jobs = enqueue sync.jobs job) (hfresh : job.syncToken ∉ sync.drawn)
    (hprotect : sync.clock + guardMs ≤ job.protectUntil) (hrow : row ∈ sync.jobs) :
    RowKept sync action row := by
  by_cases hkey : row.jobKey = job.jobKey
  · exact .superseded job (hjobs ▸ job_mem_enqueue _ _) hkey.symm hfresh hprotect
  · exact .untouched (hjobs ▸ mem_enqueue_of_ne hrow hkey)

theorem rowKept_advance (h : QueueSound sync) {worker : Worker}
    (hworker : sync.workers[index]? = some worker) (hhead : worker.jobs = job :: rest)
    (hstep : step sync (.advance index) = advance sync index worker job) (hrow : row ∈ sync.jobs) :
    RowKept sync (.advance index) row := by
  have hsound := h.workers worker (List.mem_of_getElem? hworker)
  cases happlying : worker.stage.applying with
  | true =>
    exact .untouched (by rwa [hstep, (advance_applying sync index _ happlying).1.jobs])
  | false =>
    obtain ⟨jobs, hadvance, ⟨-, rfl⟩ | ⟨hpass, ⟨maintenanceUntil, hstage⟩, rfl⟩ |
      ⟨hpass, -, rfl⟩⟩ := advance_applied sync index job happlying
    · exact .untouched (by rw [hstep, hadvance]; exact hrow)
    · rcases hsound.keepBooks_cases hhead hrow with ⟨-, hmem⟩ | ⟨htoken, hover⟩ |
        ⟨htoken, last, following, hmem⟩
      · exact .untouched (by rw [hstep, hadvance]; exact hmem)
      · exact .completed index rfl (Sync.holds_of hworker hpass hhead htoken)
          (by simp [Sync.applied, hworker, hstage]) (hover.trans hsound.now_le)
      · exact .rescheduled index rfl (Sync.holds_of hworker hpass hhead htoken) last following
          (by rw [hstep, hadvance]; exact hmem)
    · cases htoken : ofToken job row with
      | false =>
        exact .untouched (by rw [hstep, hadvance]; exact mem_updateWhere_of_not hrow htoken)
      | true =>
        refine .rescheduled index rfl (Sync.holds_of hworker hpass hhead htoken) worker.now
          worker.now ?_
        rw [hstep, hadvance]
        refine mem_updateWhere.mpr ⟨row, hrow, .inl ⟨htoken, ?_⟩⟩
        rw [← (hsound.same job (by simp [hhead]) row hrow htoken).1]
        rfl

theorem stepKept_of_sound (sync : Sync) (action : Action) (h : QueueSound sync) :
    StepKept sync action := by
  intro row hrow
  cases action with
  | tick | deleteService | results | evaluate | begin => exact .untouched hrow
  | setMaintenance serviceId maintenanceUntil token =>
    cases hservice : sync.service serviceId with
    | none => exact .untouched (by simpa [step, hservice] using hrow)
    | some service =>
      by_cases hdrawn : sync.drawn.contains token = true
      · exact .untouched (by simpa only [step, hservice, if_pos hdrawn] using hrow)
      · have hstep : step sync (.setMaintenance serviceId maintenanceUntil token) =
            sync.setMaintenance service maintenanceUntil token := by
          simp only [step, hservice, if_neg hdrawn]
        exact rowKept_of_enqueue (congrArg Sync.jobs hstep) (by simpa [createJob] using hdrawn)
          (le_max_left _ _) hrow
  | configure check token =>
    cases hservice : sync.service check.serviceId with
    | none => exact .untouched (by simpa [step, hservice] using hrow)
    | some service =>
      by_cases hdrawn : sync.drawn.contains token = true
      · exact .untouched (by simpa only [step, hservice, if_pos hdrawn] using hrow)
      · have hstep : step sync (.configure check token) = sync.configure service check token := by
          simp only [step, hservice, if_neg hdrawn]
        exact rowKept_of_enqueue (congrArg Sync.jobs hstep) (by simpa [createJob] using hdrawn)
          (le_max_left _ _) hrow
  | advance index =>
    cases hworker : sync.workers[index]? with
    | none => exact .untouched (by simpa [step, hworker] using hrow)
    | some worker =>
      cases hhead : worker.jobs with
      | nil => exact .untouched (by simpa [step, hworker, hhead] using hrow)
      | cons job rest =>
        exact rowKept_advance h hworker hhead (by simp [step, hworker, hhead]) hrow
  | fail index | crash index =>
    cases hworker : sync.workers[index]? with
    | none => exact .untouched (by simpa [step, hworker] using hrow)
    | some worker => exact .untouched (by simpa [step, hworker, Sync.setWorker] using hrow)

/-! ## The end of a maintenance window -/

/-- A service with a telemetry key is in maintenance now. -/
def Sync.inMaintenance (sync : Sync) (servicePk : ℕ) : Bool :=
  sync.services.rows.any fun service ↦
    service.telemetryPk == servicePk && !endedBy service.maintenanceUntil sync.clock

def Sync.writes (sync : Sync) (index : ℕ) : Option (ℕ × ServiceState) :=
  sync.workers[index]?.bind fun worker ↦ worker.jobs.head?.bind fun job ↦
    match worker.stage with
    | .writing _ _ next => some (job.servicePk, next)
    | _ => none

/-- A state `maintenance` is written while it lasts. -/
def Timely (sync : Sync) : Action → Prop
  | .advance index => ∀ write ∈ sync.writes index, write.2 = .maintenance →
    sync.inMaintenance write.1 = true
  | .evaluate row => row.state = .maintenance → sync.inMaintenance row.servicePk = true
  | _ => True

instance (sync : Sync) : (action : Action) → Decidable (Timely sync action)
  | .advance index => inferInstanceAs (Decidable (∀ write ∈ sync.writes index,
      write.2 = .maintenance → sync.inMaintenance write.1 = true))
  | .evaluate row => inferInstanceAs (Decidable (row.state = .maintenance →
      sync.inMaintenance row.servicePk = true))
  | .tick _ | .setMaintenance .. | .configure .. | .deleteService _ | .results _ | .begin _
  | .fail _ | .crash _ => isTrue trivial

/-- A service whose maintenance an application has found ended is not in state maintenance. -/
def MaintenanceEnded (sync : Sync) : Prop :=
  ∀ servicePk ∈ sync.ended, ∀ row ∈ sync.serviceLatest, row.servicePk = servicePk →
    row.state ≠ .maintenance

/-- The state with which an application goes on is no maintenance when it has ended. -/
def Stage.Computed (now : ℤ) : Stage → Prop
  | .comparing maintenanceUntil next | .writing maintenanceUntil _ next =>
    endedBy maintenanceUntil now = true → next ≠ .maintenance
  | _ => True

structure EndedSound (sync : Sync) : Prop where
  unique : UniqueKey ServiceLatest.servicePk sync.serviceLatest
  cleared : ∀ servicePk ∈ sync.ended, sync.inMaintenance servicePk = false
  state : MaintenanceEnded sync
  now_le : ∀ worker ∈ sync.workers, worker.now ≤ sync.clock
  computed : ∀ worker ∈ sync.workers, worker.stage.Computed worker.now

theorem endedBy_mono {earlier later : ℤ} (hle : earlier ≤ later)
    (h : endedBy maintenanceUntil earlier = true) : endedBy maintenanceUntil later = true := by
  cases maintenanceUntil with
  | none => rfl
  | some until_ =>
    have huntil : until_ ≤ earlier := by simpa [endedBy] using h
    simpa [endedBy] using huntil.trans hle

theorem serviceState_ne_maintenance {checks : List (ResultState × Bool)} {now : ℤ}
    (h : endedBy maintenanceUntil now = true) :
    serviceState checks maintenanceUntil now ≠ .maintenance := by
  have hover : ¬ (maintenanceUntil.any fun until_ ↦ decide (now < until_)) = true := by
    cases maintenanceUntil with
    | none => simp
    | some until_ => simpa [endedBy] using h
  unfold serviceState
  rw [if_neg hover]
  split
  · simp
  · split
    · simp
    · split <;> simp

theorem inMaintenance_eq_false {servicePk : ℕ} :
    sync.inMaintenance servicePk = false ↔ ∀ service ∈ sync.services.rows,
      service.telemetryPk = servicePk → endedBy service.maintenanceUntil sync.clock = true := by
  simp [Sync.inMaintenance, List.any_eq_false]

theorem mem_upsertState {new row : ServiceLatest} (h : row ∈ upsertState rows new) :
    row ∈ rows ∨ row = new := by
  rcases mem_upsert h with hold | hnew | ⟨-, -, -, hnew⟩
  · exact .inl hold
  · exact .inr hnew
  · exact .inr hnew

theorem uniqueKey_upsertState (h : UniqueKey ServiceLatest.servicePk rows) (new : ServiceLatest) :
    UniqueKey ServiceLatest.servicePk (upsertState rows new) :=
  h.upsert fun _ hkey ↦ hkey.symm

theorem eq_of_stateChanges {new : ServiceLatest} (hunique : UniqueKey ServiceLatest.servicePk rows)
    (hchanges : stateChanges rows new = 1) {row : ServiceLatest} (h : row ∈ upsertState rows new)
    (hkey : row.servicePk = new.servicePk) :
    row = new := by
  have hmem : new ∈ upsertState rows new := by
    unfold stateChanges upsertChanges at hchanges
    unfold upsertState upsert
    split at hchanges
    · next hany =>
      rw [if_pos hany]
      obtain ⟨old, hold, hchanged⟩ := List.countP_pos_iff.mp (hchanges ▸ Nat.one_pos)
      exact mem_updateWhere.mpr ⟨old, hold, .inl ⟨hchanged, rfl⟩⟩
    · next hnone =>
      rw [if_neg hnone]
      exact List.mem_append_right _ (List.mem_singleton_self _)
  exact (uniqueKey_upsertState hunique new).eq_of_mem h hmem hkey

theorem EndedSound.of_frame {sync next : Sync} (h : EndedSound sync)
    (hclock : next.clock = sync.clock) (hservices : next.services = sync.services)
    (hended : next.ended = sync.ended) (hlatest : next.serviceLatest = sync.serviceLatest)
    (hworkers : ∀ worker ∈ next.workers, worker.now ≤ sync.clock ∧ worker.stage.Computed worker.now)
    : EndedSound next where
  unique := hlatest ▸ h.unique
  cleared servicePk hpk := by
    have hover := h.cleared servicePk (hended ▸ hpk)
    rw [Sync.inMaintenance] at hover ⊢
    rwa [hclock, hservices]
  state servicePk hpk row hrow := h.state servicePk (hended ▸ hpk) row (hlatest ▸ hrow)
  now_le worker hworker := hclock ▸ (hworkers worker hworker).1
  computed worker hworker := (hworkers worker hworker).2

theorem EndedSound.worker (h : EndedSound sync) {worker : Worker} (hworker : worker ∈ sync.workers)
    : worker.now ≤ sync.clock ∧ worker.stage.Computed worker.now :=
  ⟨h.now_le worker hworker, h.computed worker hworker⟩

theorem EndedSound.workers_set (h : EndedSound sync) {next : Worker} (hnow : next.now ≤ sync.clock)
    (hcomputed : next.stage.Computed next.now) :
    ∀ worker ∈ sync.workers.set index next,
      worker.now ≤ sync.clock ∧ worker.stage.Computed worker.now := by
  intro worker hworker
  rcases List.mem_or_eq_of_mem_set hworker with hold | rfl
  · exact h.worker hold
  · exact ⟨hnow, hcomputed⟩

theorem EndedSound.settle (h : EndedSound sync) (index : ℕ) {worker : Worker}
    (hnow : worker.now ≤ sync.clock)
    (hstate : endedBy maintenanceUntil worker.now = true → ∀ row ∈ sync.serviceLatest,
      row.servicePk = job.servicePk → row.state ≠ .maintenance) :
    EndedSound (sync.settle index worker job maintenanceUntil) := by
  have hworkers : ∀ other ∈ sync.workers.set index
      { worker with stage := .settled maintenanceUntil },
        other.now ≤ sync.clock ∧ other.stage.Computed other.now :=
    h.workers_set hnow trivial
  unfold Sync.settle
  split
  · next hended =>
    simp only [Bool.and_eq_true, List.all_eq_true, Bool.or_eq_true, bne_iff_ne] at hended
    refine ⟨h.unique, ?_, ?_, fun other hother ↦ (hworkers other hother).1,
      fun other hother ↦ (hworkers other hother).2⟩
    · intro servicePk hpk
      rcases List.mem_cons.mp hpk with rfl | hold
      · refine inMaintenance_eq_false.mpr fun service hservice hkey ↦ endedBy_mono hnow ?_
        exact (hended.2 service hservice).resolve_left fun hne ↦ hne hkey
      · exact h.cleared servicePk hold
    · intro servicePk hpk row hrow hkey
      rcases List.mem_cons.mp hpk with rfl | hold
      · exact hstate hended.1 row hrow hkey
      · exact h.state servicePk hold row hrow hkey
  · exact h.of_frame rfl rfl rfl rfl hworkers

theorem EndedSound.upsertState (h : EndedSound sync) {new : ServiceLatest}
    (htimely : new.state = .maintenance → sync.inMaintenance new.servicePk = true)
    (events : List StateEvent) :
    EndedSound { sync with
      serviceLatest := upsertState sync.serviceLatest new
      stateEvents := events } where
  unique := uniqueKey_upsertState h.unique new
  cleared := h.cleared
  state servicePk hpk row hrow hkey hmaintenance := by
    rcases mem_upsertState hrow with hold | rfl
    · exact h.state servicePk hpk row hold hkey hmaintenance
    · have hover := h.cleared servicePk hpk
      rw [← hkey, htimely hmaintenance] at hover
      cases hover
  now_le := h.now_le
  computed := h.computed

theorem endedSound_advance (h : EndedSound sync) {worker : Worker}
    (hworker : sync.workers[index]? = some worker) (hhead : worker.jobs = job :: rest)
    (htimely : Timely sync (.advance index)) :
    EndedSound (advance sync index worker job) := by
  obtain ⟨hnow, hcomputed⟩ := h.worker (List.mem_of_getElem? hworker)
  obtain ⟨pass, now, jobs, stage⟩ := worker
  cases stage with
  | desired =>
    simp only [advance]
    split
    · split <;> exact h.of_frame rfl rfl rfl rfl (h.workers_set hnow trivial)
    · split
      · exact h.of_frame rfl rfl rfl rfl (h.workers_set hnow trivial)
      · split <;> exact h.of_frame rfl rfl rfl rfl (h.workers_set hnow trivial)
  | dropping => exact h.of_frame rfl rfl rfl rfl (h.workers_set hnow trivial)
  | correcting maintenanceUntil check =>
    exact h.of_frame rfl rfl rfl rfl (h.workers_set hnow trivial)
  | reading maintenanceUntil =>
    exact h.of_frame rfl rfl rfl rfl (h.workers_set hnow serviceState_ne_maintenance)
  | comparing maintenanceUntil next =>
    simp only [advance]
    split
    · next hsame =>
      obtain ⟨found, hfound, hstate⟩ := Option.map_eq_some_iff.mp hsame
      have hcondition := List.find?_some hfound
      simp only [Bool.and_eq_true, beq_iff_eq] at hcondition
      refine h.settle index hnow fun hended row hrow hkey ↦ ?_
      rw [h.unique.eq_of_mem hrow (List.mem_of_find?_eq_some hfound)
        (hkey.trans hcondition.2.symm), hstate]
      exact hcomputed hended
    · exact h.of_frame rfl rfl rfl rfl (h.workers_set hnow hcomputed)
  | writing maintenanceUntil previous next =>
    have hwrites : sync.writes index = some (job.servicePk, next) := by
      obtain rfl : jobs = job :: rest := hhead
      simp only [Sync.writes, hworker, Option.bind_some, List.head?_cons]
    have hrow : (nextServiceLatest job next now).state = .maintenance →
        sync.inMaintenance (nextServiceLatest job next now).servicePk = true := by
      intro hmaintenance
      exact htimely (job.servicePk, next) hwrites hmaintenance
    simp only [advance]
    split
    · next hchanges =>
      refine (h.upsertState hrow _).settle index hnow fun hended row hmem hkey ↦ ?_
      rw [eq_of_stateChanges h.unique hchanges hmem hkey]
      exact hcomputed hended
    · exact (h.upsertState hrow sync.stateEvents).of_frame rfl rfl rfl rfl
        (h.workers_set hnow trivial)
  | settled maintenanceUntil | failed =>
    simp only [advance]
    split <;> exact h.of_frame rfl rfl rfl rfl (h.workers_set hnow trivial)

theorem EndedSound.append_worker (h : EndedSound sync) (pass : Bool) (jobs : List Job) :
    ∀ worker ∈ sync.workers ++ [⟨pass, sync.clock, jobs, .desired⟩],
      worker.now ≤ sync.clock ∧ worker.stage.Computed worker.now := by
  intro worker hworker
  rcases List.mem_append.mp hworker with hold | hnew
  · exact h.worker hold
  · rw [List.mem_singleton.mp hnew]
    exact ⟨le_rfl, trivial⟩

theorem EndedSound.setMaintenance (h : EndedSound sync) (hservice : service ∈ sync.services.rows)
    (maintenanceUntil : Option ℤ) (token : String) :
    EndedSound (sync.setMaintenance service maintenanceUntil token) where
  unique := h.unique
  cleared servicePk hpk := by
    obtain ⟨hold, hne⟩ := List.mem_filter.mp hpk
    refine inMaintenance_eq_false.mpr fun changed hchanged hkey ↦ ?_
    obtain ⟨old, hmem, ⟨hsame, rfl⟩ | ⟨-, rfl⟩⟩ := mem_updateWhere.mp hchanged
    · have hid : old.id = service.id := by simpa using hsame
      obtain rfl := sync.services.unique_id.eq_of_mem hmem hservice hid
      exact absurd hkey.symm (by simpa using hne)
    · exact inMaintenance_eq_false.mp (h.cleared servicePk hold) changed hmem hkey
  state servicePk hpk := h.state servicePk (List.mem_filter.mp hpk).1
  now_le worker hworker := (h.append_worker _ _ worker hworker).1
  computed worker hworker := (h.append_worker _ _ worker hworker).2

theorem endedSound_step (sync : Sync) (action : Action) (h : EndedSound sync)
    (htimely : Timely sync action) : EndedSound (step sync action) := by
  cases action with
  | tick milliseconds =>
    have hle : sync.clock ≤ sync.clock + milliseconds := by omega
    refine ⟨h.unique, fun servicePk hpk ↦ ?_, h.state, fun worker hworker ↦
      (h.now_le worker hworker).trans hle, h.computed⟩
    exact inMaintenance_eq_false.mpr fun service hservice hkey ↦ endedBy_mono hle
      (inMaintenance_eq_false.mp (h.cleared servicePk hpk) service hservice hkey)
  | setMaintenance serviceId maintenanceUntil token =>
    simp only [step]
    split
    · exact h
    · next service hservice =>
      split
      · exact h
      · exact h.setMaintenance (Sync.service_some hservice).1 maintenanceUntil token
  | configure check token =>
    simp only [step]
    split
    · exact h
    · split
      · exact h
      · exact h.of_frame rfl rfl rfl rfl (h.append_worker _ _)
  | deleteService serviceId =>
    refine ⟨h.unique, fun servicePk hpk ↦ ?_, h.state, h.now_le, h.computed⟩
    refine inMaintenance_eq_false.mpr fun service hservice hkey ↦ ?_
    obtain ⟨old, hold, ⟨-, rfl⟩ | ⟨-, rfl⟩⟩ := mem_updateWhere.mp hservice
    · exact inMaintenance_eq_false.mp (h.cleared servicePk hpk) old hold hkey
    · exact inMaintenance_eq_false.mp (h.cleared servicePk hpk) service hold hkey
  | results rows => exact h.of_frame rfl rfl rfl rfl fun worker ↦ h.worker
  | evaluate row => exact h.upsertState htimely sync.stateEvents
  | begin batch => exact h.of_frame rfl rfl rfl rfl (h.append_worker _ _)
  | advance index =>
    cases hworker : sync.workers[index]? with
    | none => simpa [step, hworker] using h
    | some worker =>
      cases hhead : worker.jobs with
      | nil => simpa [step, hworker, hhead] using h
      | cons job rest =>
        have hnext := endedSound_advance h hworker hhead htimely
        simpa [step, hworker, hhead] using hnext
  | fail index =>
    simp only [step]
    split
    · exact h
    · next worker hworker =>
      have hnow := h.now_le worker (List.mem_of_getElem? hworker)
      refine h.of_frame rfl rfl rfl rfl (h.workers_set ?_ ?_)
      · unfold Worker.fail
        split <;> exact hnow
      · unfold Worker.fail
        split <;> trivial
  | crash index =>
    simp only [step]
    split
    · exact h
    · next worker hworker =>
      obtain ⟨hnow, hcomputed⟩ := h.worker (List.mem_of_getElem? hworker)
      exact h.of_frame rfl rfl rfl rfl (h.workers_set hnow hcomputed)

theorem endedSound_start (clock : ℤ) (services : Services) (checks : List CheckConfig)
    (checkLatest : List CheckStateRow) : EndedSound (start clock services checks checkLatest) where
  unique := uniqueKey_nil
  cleared _ h := by cases h
  state _ h := by cases h
  now_le _ h := by cases h
  computed _ h := by cases h

/-! ## Runs -/

/-- The states of the services after the passes that have ended: none is `maintenance` when the
maintenance of the service had ended by the time of the pass. -/
def PassesClear (sync : Sync) : Prop :=
  ∀ worker ∈ sync.workers, worker.pass = true → worker.jobs = [] →
    ∀ service ∈ sync.services.rows,
      (service.maintenanceUntil.any fun until_ ↦ decide (until_ ≤ worker.now)) = true →
      ∀ row ∈ sync.serviceLatest, row.servicePk = service.telemetryPk → row.state ≠ .maintenance

instance (sync : Sync) : Decidable (PassesClear sync) :=
  inferInstanceAs (Decidable (∀ worker ∈ sync.workers, worker.pass = true → worker.jobs = [] →
    ∀ service ∈ sync.services.rows,
      (service.maintenanceUntil.any fun until_ ↦ decide (until_ ≤ worker.now)) = true →
      ∀ row ∈ sync.serviceLatest, row.servicePk = service.telemetryPk → row.state ≠ .maintenance))

def pausedService : Service where
  id := "service"
  workspaceId := "workspace"
  workspacePk := 1
  telemetryPk := 7
  maintenanceUntil := none
  deleted := false

def pausedServices : Services where
  rows := [pausedService]
  unique_id := List.nodup_singleton _
  unique_pk := List.nodup_singleton _

/-- The window is applied at once; the pass after its end fails. -/
def failedPass : List Action :=
  [.setMaintenance "service" (some 1000) "token", .advance 0, .advance 0, .advance 0, .advance 0,
    .tick 1000, .begin 50, .fail 1, .advance 1]

/-- The window is applied slowly: its pass after the end overtakes it and deletes the job. -/
def overtakenApplication : List Action :=
  [.setMaintenance "service" (some 1000000) "token", .advance 0, .advance 0, .tick 1000000,
    .begin 50, .advance 1, .advance 1, .advance 1, .advance 1, .advance 1, .advance 0, .advance 0]

/-- The window is applied at once and ended by the first pass after it. -/
def endedWindow : List Action :=
  [.setMaintenance "service" (some 1000) "token", .advance 0, .advance 0, .advance 0, .advance 0,
    .tick 1000, .begin 50, .advance 1, .advance 1, .advance 1, .advance 1, .advance 1]

end AlphaPing.Checks.StateSync
