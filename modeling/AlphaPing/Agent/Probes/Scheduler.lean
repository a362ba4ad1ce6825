import AlphaPing.Library.Runs
import AlphaPing.Agent.Probes.Config
import AlphaPing.Agent.Probes.Executors
import AlphaPing.Ingest.Validation

/-!
# The probe scheduler and the results it emits

The scheduler starts a task as soon as it sees a slot that it has not started yet. For a task
that it has not run before this is the slot that is already in progress, which began up to a
whole interval ago. The result carries that slot as its nominal time and the end of the
execution as its observation, and the ingest worker allows one minute between the two.

The machine below has one action for each turn of the scheduler's `select!`, one for a spawned
execution that ends, and one for a restart of the agent. Clock readings are free inputs of the
actions; only within one execution does the clock advance with the time that passes.
-/

namespace AlphaPing.Agent.Probes.Scheduler

open Protocol Library.Runs Library.Texts Ingest.Validation
open Config Executors

def maxConcurrentProbes : ℕ := 4

/-! ## One execution -/

def dueSlotMs (nowMs : ℤ) (task : ProbeTask) : ℤ :=
  let intervalMs : ℤ := task.intervalSeconds * 1000
  let phaseMs : ℤ := task.phaseSeconds * 1000
  (nowMs - phaseMs) / intervalMs * intervalMs + phaseMs

/-- One attempt: what the network does, how long the attempt takes and how much longer than
100 ms the pause after it lasts. -/
structure Attempt where
  http : HttpRun
  tcp : TcpRun
  icmp : IcmpRun
  durationMs : ℕ
  oversleepMs : ℕ

def attemptOutcome (task : ProbeTask) (attempt : Attempt) : ProbeOutcome :=
  match task.request with
  | some (.http request) => executeHttp request attempt.http
  | some (.tcp request) => executeTcp request attempt.tcp
  | some (.icmp request) => executeIcmp request attempt.icmp
  | none => .failed "invalid_config"

/-- The retry loop of `execute_task`, from the attempt with the given number on. -/
def finalOutcome (task : ProbeTask) (attempts : ℕ → Attempt) : ℕ → ℕ → ProbeOutcome
  | 0, number => attemptOutcome task (attempts number)
  | retriesLeft + 1, number =>
    let outcome := attemptOutcome task (attempts number)
    if outcome.state ≠ .down then outcome
    else finalOutcome task attempts retriesLeft (number + 1)

/-- The time that the retry loop takes. -/
def elapsedMs (task : ProbeTask) (attempts : ℕ → Attempt) : ℕ → ℕ → ℕ
  | 0, number => (attempts number).durationMs
  | retriesLeft + 1, number =>
    if (attemptOutcome task (attempts number)).state ≠ .down then (attempts number).durationMs
    else
      (attempts number).durationMs + (100 + (attempts number).oversleepMs) +
        elapsedMs task attempts retriesLeft (number + 1)

/-- The time from the start of an execution to its result. -/
def executionMs (task : ProbeTask) (attempts : ℕ → Attempt) : ℕ :=
  elapsedMs task attempts (task.retryCount.getD 0) 0

/-- `execute_task`, started at the given clock reading. -/
def executeTask (codec : Codec) (agentId : String) (task : ProbeTask) (nominalSlotMs : ℤ)
    (startedAtMs : ℤ) (attempts : ℕ → Attempt) : ProbeResult :=
  let outcome := finalOutcome task attempts (task.retryCount.getD 0) 0
  { executionId := codec.hash (task.checkId.toUTF8.toList ++ toBeBytes task.configRevision ++
      intToBeBytes nominalSlotMs)
    checkId := task.checkId
    checkPk := task.checkPk
    servicePk := task.servicePk
    workspacePk := task.workspacePk
    executorAgentId := agentId
    configRevision := task.configRevision
    nominalSlotMs := nominalSlotMs
    observedAtMs := startedAtMs + executionMs task attempts
    state := outcome.state.toNat
    latencyMs := outcome.latencyMs.map UInt32.toNat
    failureCode := outcome.failureCode
    failureSummary := String.ofList (outcome.failureSummary.toList.take 160) }

/-! ## The scheduler -/

structure RunningTask where
  task : ProbeTask
  nominalSlotMs : ℤ
  startedAtMs : ℤ

/-- A result and the reading of the ingest worker's clock when a report first carries it in. -/
structure Emission where
  result : ProbeResult
  ingestNowMs : ℤ

/-- The scheduler, with the applied revision that the agent writes into its reports. -/
structure SchedulerState (codec : Codec) where
  agentId : String
  config : AcceptedConfig codec
  appliedConfigRevision : ℕ
  lastSlots : List ((String × ℕ) × ℤ)
  running : List RunningTask
  emitted : List Emission

inductive SchedulerAction where
  /-- `tick` with the clock it reads. -/
  | tick (nowMs : ℤ)
  /-- An acknowledgement brings a configuration. -/
  | applyConfig (config : AgentConfigSnapshot)
  /-- The execution at a position of the running tasks ends. -/
  | finish (position : ℕ) (attempts : ℕ → Attempt) (ingestNowMs : ℤ)
  /-- The agent stops and starts again. -/
  | restart

variable {codec : Codec}

def start (agentId : String) (config : AcceptedConfig codec) : SchedulerState codec where
  agentId
  config
  appliedConfigRevision := config.snapshot.revision
  lastSlots := []
  running := []
  emitted := []

def lastSlot (lastSlots : List ((String × ℕ) × ℤ)) (key : String × ℕ) : Option ℤ :=
  lastSlots.lookup key

/-- `last_slots.retain`. -/
def retainSlots (tasks : List ProbeTask) (lastSlots : List ((String × ℕ) × ℤ)) :
    List ((String × ℕ) × ℤ) :=
  lastSlots.filter fun slot ↦ tasks.any fun task ↦
    task.checkId == slot.1.1 && task.configRevision == slot.1.2

/-- The loop over the tasks of one tick; it stops where no permit is left. -/
def startDue (nowMs : ℤ) : List ProbeTask → SchedulerState codec → SchedulerState codec
  | [], scheduler => scheduler
  | task :: rest, scheduler =>
    let slotMs := dueSlotMs nowMs task
    let key := (task.checkId, task.configRevision)
    if (lastSlot scheduler.lastSlots key).any fun last ↦ slotMs ≤ last then
      startDue nowMs rest scheduler
    else if maxConcurrentProbes ≤ scheduler.running.length then scheduler
    else
      startDue nowMs rest
        { scheduler with
          lastSlots := (key, slotMs) :: scheduler.lastSlots
          running := scheduler.running ++ [⟨task, slotMs, nowMs⟩] }

/-- What an ended execution sends to the agent's main loop. -/
def emission (scheduler : SchedulerState codec) (running : RunningTask) (attempts : ℕ → Attempt)
    (ingestNowMs : ℤ) : Emission where
  result := executeTask codec scheduler.agentId running.task running.nominalSlotMs
    running.startedAtMs attempts
  ingestNowMs

def schedulerStep (scheduler : SchedulerState codec) : SchedulerAction → SchedulerState codec
  | .tick nowMs =>
    startDue nowMs scheduler.config.snapshot.probeTasks
      { scheduler with
        lastSlots := retainSlots scheduler.config.snapshot.probeTasks scheduler.lastSlots }
  | .applyConfig config =>
    if h : validateConfig codec config = .ok () then
      if scheduler.appliedConfigRevision < config.revision then
        { scheduler with config := ⟨config, h⟩, appliedConfigRevision := config.revision }
      else scheduler
    else scheduler
  | .finish position attempts ingestNowMs =>
    match scheduler.running[position]? with
    | none => scheduler
    | some running =>
      { scheduler with
        running := scheduler.running.eraseIdx position
        emitted := scheduler.emitted ++ [emission scheduler running attempts ingestNowMs] }
  | .restart => { scheduler with lastSlots := [], running := [] }

/-! ## The slot of an execution -/

variable (nowMs : ℤ) (scheduler : SchedulerState codec)

theorem dueSlotMs_eq (task : ProbeTask) :
    dueSlotMs nowMs task =
      nowMs - (nowMs - task.phaseSeconds * 1000) % (task.intervalSeconds * 1000) := by
  have h := Int.ediv_mul_add_emod (nowMs - task.phaseSeconds * 1000) (task.intervalSeconds * 1000)
  unfold dueSlotMs
  dsimp only
  omega

variable {task : ProbeTask} {running : RunningTask}

theorem dueSlotMs_le (hinterval : 0 < task.intervalSeconds) : dueSlotMs nowMs task ≤ nowMs := by
  rw [dueSlotMs_eq]
  have h := Int.emod_nonneg (nowMs - task.phaseSeconds * 1000)
    (b := task.intervalSeconds * 1000) (by omega)
  omega

theorem dueSlotMs_emod (task : ProbeTask) : dueSlotMs nowMs task % 1000 = 0 := by
  refine Int.emod_eq_zero_of_dvd ?_
  unfold dueSlotMs
  dsimp only
  refine Int.dvd_add ?_ ⟨task.phaseSeconds, by ring⟩
  exact ⟨(nowMs - task.phaseSeconds * 1000) / (task.intervalSeconds * 1000) *
    task.intervalSeconds, by ring⟩

/-! ## The outcome of an execution -/

theorem sendable_attemptOutcome (attempt : Attempt) (h : requestValid codec task.request = true) :
    Sendable (attemptOutcome task attempt) := by
  unfold attemptOutcome
  cases hrequest : task.request with
  | none => exact sendable_failed (by decide)
  | some request =>
    cases request with
    | http request =>
      rw [hrequest] at h
      simp only [requestValid, Bool.and_eq_true, decide_eq_true_eq] at h
      exact sendable_executeHttp attempt.http (by tauto)
    | tcp request => exact sendable_executeTcp request attempt.tcp
    | icmp request => exact sendable_executeIcmp request attempt.icmp

theorem sendable_finalOutcome (attempts : ℕ → Attempt) (h : requestValid codec task.request = true)
    (retriesLeft number : ℕ) :
    Sendable (finalOutcome task attempts retriesLeft number) := by
  induction retriesLeft generalizing number with
  | zero => exact sendable_attemptOutcome (attempts number) h
  | succ retriesLeft ih =>
    unfold finalOutcome
    dsimp only
    split
    · exact sendable_attemptOutcome (attempts number) h
    · exact ih (number + 1)

/-- Truncating to 160 characters changes nothing, because the summaries are short already. -/
theorem truncated_summary {outcome : ProbeOutcome} (h : Sendable outcome) :
    String.ofList (outcome.failureSummary.toList.take 160) = outcome.failureSummary := by
  have hlength := length_le_utf8ByteSize outcome.failureSummary
  rw [List.take_of_length_le (hlength.trans h.summary), String.ofList_toList]

theorem state_toNat_bounds {state : ProbeState} (h : state ≠ .unspecified) :
    1 ≤ state.toNat ∧ state.toNat ≤ 3 := by
  cases state with
  | unspecified => exact absurd rfl h
  | healthy => decide
  | degraded => decide
  | down => decide

/-! ## One emitted result -/

/-- The execution belongs to a check of the machine's workspace, it ends within one minute of
the slot in which it started, and the ingest worker's clock is at most two minutes behind that
slot. -/
structure InTime (workspacePk : ℕ) (running : RunningTask) (attempts : ℕ → Attempt)
    (ingestNowMs : ℤ) : Prop where
  workspace : running.task.workspacePk = workspacePk
  window : (running.startedAtMs - running.task.phaseSeconds * 1000) %
      (running.task.intervalSeconds * 1000) + executionMs running.task attempts ≤ 60000
  clock : running.startedAtMs - (running.startedAtMs - running.task.phaseSeconds * 1000) %
      (running.task.intervalSeconds * 1000) ≤ ingestNowMs + 120000

/-- What the scheduler knows of a running task. -/
structure RunningValid (codec : Codec) (revision : ℕ) (running : RunningTask) : Prop where
  fields : taskFieldsValid revision running.task = true
  request : requestValid codec running.task.request = true
  slot : running.nominalSlotMs = dueSlotMs running.startedAtMs running.task

theorem taskFieldsValid_mono {revision revision' : ℕ} (hrevision : revision ≤ revision')
    (h : taskFieldsValid revision task = true) :
    taskFieldsValid revision' task = true := by
  simp only [taskFieldsValid, Bool.and_eq_true, decide_eq_true_eq, beq_iff_eq] at h ⊢
  grind

theorem RunningValid.mono {revision revision' : ℕ} (h : RunningValid codec revision running)
    (hrevision : revision ≤ revision') :
    RunningValid codec revision' running where
  fields := taskFieldsValid_mono hrevision h.fields
  request := h.request
  slot := h.slot

theorem RunningValid.interval_pos {revision : ℕ} (h : RunningValid codec revision running) :
    0 < running.task.intervalSeconds := by
  have hfields := h.fields
  simp only [taskFieldsValid, Bool.and_eq_true, decide_eq_true_eq] at hfields
  omega

/-- Among all the checks of the ingest worker, only the ones of `InTime` can fail. -/
theorem executeTask_valid_iff {revision : ℕ} (h : RunningValid codec revision running)
    (agentId : String) (workspacePk : ℕ) (attempts : ℕ → Attempt) (ingestNowMs : ℤ) :
    probeResultValid workspacePk agentId revision ingestNowMs
        (executeTask codec agentId running.task running.nominalSlotMs running.startedAtMs
          attempts) = true ↔
      InTime workspacePk running attempts ingestNowMs := by
  have hsendable := sendable_finalOutcome attempts h.request (running.task.retryCount.getD 0) 0
  have hstate := state_toNat_bounds hsendable.state
  have hfields := h.fields
  have hslot := dueSlotMs_eq running.startedAtMs running.task
  have hbefore := dueSlotMs_le running.startedAtMs h.interval_pos
  have haligned := dueSlotMs_emod running.startedAtMs running.task
  rw [← h.slot] at hslot hbefore haligned
  simp only [taskFieldsValid, Bool.and_eq_true, decide_eq_true_eq, beq_iff_eq, bne_iff_ne]
    at hfields
  simp only [probeResultValid, executeTask, truncated_summary hsendable, codec.length_hash,
    Bool.and_eq_true, decide_eq_true_eq, beq_iff_eq, bne_iff_ne]
  constructor
  · intro hvalid
    refine ⟨by tauto, ?_, ?_⟩ <;> omega
  · rintro ⟨hworkspace, hwindow, hclock⟩
    have hcode := hsendable.code
    have hsummary := hsendable.summary
    refine ⟨⟨⟨⟨⟨⟨⟨⟨⟨⟨⟨⟨⟨⟨?_, ?_⟩, ?_⟩, ?_⟩, ?_⟩, ?_⟩, ?_⟩, ?_⟩, ?_⟩, ?_⟩, ?_⟩, ?_⟩, ?_⟩, ?_⟩, ?_⟩ <;>
      first | tauto | omega

/-! ## Runs of the scheduler -/

structure SchedulerInvariant (scheduler : SchedulerState codec) : Prop where
  revision : scheduler.config.snapshot.revision ≤ scheduler.appliedConfigRevision
  running : ∀ running ∈ scheduler.running,
    RunningValid codec scheduler.appliedConfigRevision running

/-- What one tick can do. -/
structure Started (nowMs : ℤ) (tasks : List ProbeTask) (before after : SchedulerState codec) :
    Prop where
  agentId : after.agentId = before.agentId
  config : after.config = before.config
  revision : after.appliedConfigRevision = before.appliedConfigRevision
  emitted : after.emitted = before.emitted
  running : ∀ running ∈ after.running, running ∈ before.running ∨
    ∃ task ∈ tasks, running = ⟨task, dueSlotMs nowMs task, nowMs⟩

theorem startDue_started (tasks : List ProbeTask) (scheduler : SchedulerState codec) :
    Started nowMs tasks scheduler (startDue nowMs tasks scheduler) := by
  induction tasks generalizing scheduler with
  | nil => exact ⟨rfl, rfl, rfl, rfl, fun _ h ↦ .inl h⟩
  | cons task rest ih =>
    have hlift : ∀ running : RunningTask,
        (∃ other ∈ rest, running = ⟨other, dueSlotMs nowMs other, nowMs⟩) →
        ∃ other ∈ task :: rest, running = ⟨other, dueSlotMs nowMs other, nowMs⟩ := by
      rintro running ⟨other, hother, rfl⟩
      exact ⟨other, List.mem_cons_of_mem task hother, rfl⟩
    unfold startDue
    dsimp only
    split
    · have h := ih scheduler
      exact ⟨h.agentId, h.config, h.revision, h.emitted,
        fun running hmem ↦ (h.running running hmem).imp_right (hlift running)⟩
    · split
      · exact ⟨rfl, rfl, rfl, rfl, fun _ h ↦ .inl h⟩
      · have h := ih { scheduler with
          lastSlots := ((task.checkId, task.configRevision), dueSlotMs nowMs task) ::
            scheduler.lastSlots
          running := scheduler.running ++ [⟨task, dueSlotMs nowMs task, nowMs⟩] }
        refine ⟨h.agentId, h.config, h.revision, h.emitted, fun running hmem ↦ ?_⟩
        rcases h.running running hmem with hold | hnew
        · rcases List.mem_append.mp hold with hold | hnew
          · exact .inl hold
          · exact .inr ⟨task, List.mem_cons_self, List.mem_singleton.mp hnew⟩
        · exact .inr (hlift running hnew)

theorem schedulerInvariant_start (agentId : String) (config : AcceptedConfig codec) :
    SchedulerInvariant (start agentId config) where
  revision := le_rfl
  running _ h := absurd h List.not_mem_nil

theorem schedulerInvariant_step (action : SchedulerAction) (h : SchedulerInvariant scheduler) :
    SchedulerInvariant (schedulerStep scheduler action) := by
  cases action with
  | tick nowMs =>
    have hstarted := startDue_started nowMs scheduler.config.snapshot.probeTasks
      { scheduler with
        lastSlots := retainSlots scheduler.config.snapshot.probeTasks scheduler.lastSlots }
    refine ⟨?_, fun running hmem ↦ ?_⟩
    · unfold schedulerStep
      dsimp only
      rw [hstarted.config, hstarted.revision]
      exact h.revision
    · unfold schedulerStep at hmem ⊢
      dsimp only at hmem ⊢
      rw [hstarted.revision]
      rcases hstarted.running running hmem with hold | ⟨task, htask, rfl⟩
      · exact h.running running hold
      · obtain ⟨hfields, hrequest⟩ := scheduler.config.task htask
        exact ⟨taskFieldsValid_mono h.revision hfields, hrequest, rfl⟩
  | applyConfig config =>
    unfold schedulerStep
    dsimp only
    split_ifs with hvalid hnewer
    · exact ⟨le_rfl, fun running hmem ↦ (h.running running hmem).mono hnewer.le⟩
    · exact h
    · exact h
  | finish position attempts ingestNowMs =>
    unfold schedulerStep
    dsimp only
    split
    · exact h
    · exact ⟨h.revision, fun running hmem ↦ h.running running (List.mem_of_mem_eraseIdx hmem)⟩
  | restart => exact ⟨h.revision, fun _ hmem ↦ absurd hmem List.not_mem_nil⟩

/-- Every result emitted so far passes the per-result checks of `validate_report`, at the first
report that carries it and with the revision that the agent reports by then. -/
def AllAcceptable (workspacePk : ℕ) (scheduler : SchedulerState codec) : Prop :=
  ∀ emission ∈ scheduler.emitted,
    probeResultValid workspacePk scheduler.agentId scheduler.appliedConfigRevision
      emission.ingestNowMs emission.result = true

theorem schedulerStep_finish {scheduler : SchedulerState codec} {position : ℕ}
    (h : scheduler.running[position]? = some running) (attempts : ℕ → Attempt) (ingestNowMs : ℤ) :
    schedulerStep scheduler (.finish position attempts ingestNowMs) =
      { scheduler with
        running := scheduler.running.eraseIdx position
        emitted := scheduler.emitted ++ [emission scheduler running attempts ingestNowMs] } := by
  simp only [schedulerStep, h]

theorem allAcceptable_emit_iff {workspacePk : ℕ} (running : List RunningTask) (emission : Emission)
    : AllAcceptable workspacePk
        { scheduler with running, emitted := scheduler.emitted ++ [emission] } ↔
      AllAcceptable workspacePk scheduler ∧
        probeResultValid workspacePk scheduler.agentId scheduler.appliedConfigRevision
          emission.ingestNowMs emission.result = true := by
  simp only [AllAcceptable, List.forall_mem_append, List.forall_mem_singleton]

/-- An execution that ends is in time. -/
def FinishesInTime (workspacePk : ℕ) (scheduler : SchedulerState codec) :
    SchedulerAction → Prop
  | .finish position attempts ingestNowMs =>
    ∀ running, scheduler.running[position]? = some running →
      InTime workspacePk running attempts ingestNowMs
  | _ => True

theorem allAcceptable_step_iff {workspacePk : ℕ} (action : SchedulerAction)
    (h : SchedulerInvariant scheduler) (hall : AllAcceptable workspacePk scheduler) :
    AllAcceptable workspacePk (schedulerStep scheduler action) ↔
      FinishesInTime workspacePk scheduler action := by
  cases action with
  | tick nowMs =>
    have hstarted := startDue_started nowMs scheduler.config.snapshot.probeTasks
      { scheduler with
        lastSlots := retainSlots scheduler.config.snapshot.probeTasks scheduler.lastSlots }
    refine iff_of_true (fun emission hmem ↦ ?_) trivial
    unfold schedulerStep at hmem ⊢
    dsimp only at hmem ⊢
    rw [hstarted.agentId, hstarted.revision]
    rw [hstarted.emitted] at hmem
    exact hall emission hmem
  | applyConfig config =>
    refine iff_of_true ?_ trivial
    unfold schedulerStep
    dsimp only
    split_ifs with hvalid hnewer
    · exact fun emission hmem ↦ probeResultValid_mono hnewer.le le_rfl (hall emission hmem)
    · exact hall
    · exact hall
  | finish position attempts ingestNowMs =>
    unfold schedulerStep FinishesInTime
    dsimp only
    cases hposition : scheduler.running[position]? with
    | none => exact iff_of_true hall fun _ hnone ↦ absurd hnone (by simp)
    | some running =>
      have hvalid := h.running running (List.mem_of_getElem? hposition)
      have hiff := executeTask_valid_iff hvalid scheduler.agentId workspacePk attempts ingestNowMs
      dsimp only
      rw [allAcceptable_emit_iff, and_iff_right hall, emission, hiff]
      constructor
      · rintro hintime other hother
        exact Option.some.inj hother ▸ hintime
      · intro hintime
        exact hintime running rfl
  | restart => exact iff_of_true hall trivial

/-- An execution in which nothing takes any time and every peer answers. -/
def promptAttempt : Attempt where
  http := ⟨true, true, none, true, fun _ ↦ true, fun _ ↦ .failed⟩
  tcp := ⟨.done (), true, true, .done (), false, true, none, 0⟩
  icmp := ⟨.done true, .done 0, 0⟩
  durationMs := 0
  oversleepMs := 0

/-- A ping every two minutes. -/
def twoMinuteTask : ProbeTask where
  checkId := "00000000-0000-0000-0000-000000000001"
  checkPk := 1
  servicePk := 1
  workspacePk := 3
  configRevision := 1
  intervalSeconds := 120
  phaseSeconds := 0
  timeoutMs := 1000
  request := some (.icmp { hostname := "host", degradedAfterMs := 0, downAfterMs := 0 })
  retryCount := none

def unsignedConfig : AgentConfigSnapshot where
  revision := 1
  probeTasks := [twoMinuteTask]
  createdAtMs := 1
  digest := []
  sampleIntervalSeconds := none
  reportIntervalSeconds := none
  containerMonitoringEnabled := none

def twoMinuteConfig (codec : Codec) : AcceptedConfig codec where
  snapshot := { unsignedConfig with digest := codec.hash (codec.encodeConfig unsignedConfig) }
  accepted := by
    have hfields : taskFieldsValid 1 twoMinuteTask = true := by decide
    have hrequest : requestValid codec twoMinuteTask.request = true := rfl
    have htask : validateTask codec 1 twoMinuteTask = .ok () := by
      rw [validateTask, if_neg (not_not.mpr hfields), if_neg (not_not.mpr hrequest)]
    have htasks : [twoMinuteTask].forM (validateTask codec 1) = .ok () := by
      change (validateTask codec 1 twoMinuteTask >>= fun _ ↦ .ok ()) = .ok ()
      rw [htask]
      rfl
    simpa [validateConfig, unsignedConfig, intervalsValid, codec.length_hash, maxProbeTasks]
      using htasks

end AlphaPing.Agent.Probes.Scheduler
