import AlphaPing.Ingest.Requests

/-!
# Concurrent report handlers

`handle_report` is cut at every await. A handler claims its transport sequence, synchronises the
catalog, classifies the slot of its minute, does the work that the slot does not depend on, reads
what its batch needs, runs the batch and sends the acknowledgement; between two of these steps
any number of other handlers may take theirs.

The classification is a read, and the batch comes later. Its block upsert changes no row when
another report has filled the slot in the meantime, which the handler does not notice: unlike
`claim_replay`, it does not look at the number of changed rows. The module states what the worker
promises with an acknowledgement, shows a run that breaks it, and proves that every run keeps it
in which no batch meets a slot that another report has filled.
-/

namespace AlphaPing.Ingest.Concurrent

open Protocol Library.Runs Blocks Containers Telemetry Replay Requests

/-- The next step of a handler. -/
inductive Phase where
  /-- `claim_replay`. -/
  | admitted
  /-- `sync_container_catalog`. -/
  | claimed
  /-- `classify_slot`. -/
  | catalogued
  /-- Probe results, command results, the configuration and the commands. -/
  | classified (duplicate : Bool)
  /-- The read of the previous inventory; a duplicate has nothing to write. -/
  | persisted (duplicate : Bool)
  /-- The read of the block that the report closes. -/
  | inventoried (prepared : PreparedReport)
  /-- The read of the hour that the report closes. -/
  | summed (prepared : PreparedReport)
  /-- The batch. -/
  | prepared (prepared : PreparedReport)
  /-- The agent's row, the key rotation and the acknowledgement. -/
  | stored (duplicate : Bool)
  | ended

structure Handler where
  request : Request
  agentKey : AgentKeyRow
  phase : Phase

/-- An acknowledgement that has been sent. -/
structure Acknowledged where
  machinePk : ℕ
  workspacePk : ℕ
  nominalMinuteMs : ℤ
  reportId : Bytes
  payloadHash : Bytes
  status : AckStatus
  deriving DecidableEq

/-- The tables that the handlers share, the handlers, and the acknowledgements sent so far. -/
structure Worker where
  replay : ReplayTable
  catalog : Catalog
  tables : MachineTables
  handlers : List Handler
  acknowledged : List Acknowledged

inductive Action where
  /-- A request reads the row of its agent and is checked. -/
  | arrive (request : Request) (agentKey : AgentKeyRow) (now : ℤ)
  /-- A handler takes its next step. -/
  | advance (index : ℕ) (now : ℤ)
  /-- A handler ends with an error of the step it waits for. -/
  | abort (index : ℕ)

variable (codec : Codec)

/-- What `durable_ack` answers. -/
def acknowledgement (report : MachineReport) (duplicate : Bool) : Acknowledged where
  machinePk := report.machinePk
  workspacePk := report.workspacePk
  nominalMinuteMs := report.nominalMinuteMs
  reportId := report.reportId
  payloadHash := codec.payloadHash report
  status := if duplicate then .duplicate else .committed

/-- One step of a handler: the tables it leaves and the phase it reaches. -/
def proceed (worker : Worker) (handler : Handler) (now : ℤ) : Worker × Phase :=
  let report := handler.request.report
  match handler.phase with
  | .admitted =>
    match claimReplay worker.replay handler.request.agentId handler.request.keyEpoch
        handler.request.sequence now with
    | .ok replay => ({ worker with replay }, .claimed)
    | .error _ => (worker, .ended)
  | .claimed =>
    match report.containerInventory with
    | none => (worker, .catalogued)
    | some inventory =>
      match syncContainerCatalog worker.catalog handler.agentKey inventory now with
      | .ok catalog => ({ worker with catalog }, .catalogued)
      | .error _ => (worker, .ended)
  | .catalogued =>
    match classifySlot worker.tables report (codec.payloadHash report) with
    | .ok duplicate => (worker, .classified duplicate)
    | .error _ => (worker, .ended)
  | .classified duplicate => (worker, .persisted duplicate)
  | .persisted true => (worker, .stored true)
  | .persisted false =>
    match prepare codec worker.tables handler.agentKey handler.request now with
    | some prepared => (worker, .inventoried prepared)
    | none => (worker, .ended)
  | .inventoried prepared => (worker, .summed (closeBlock worker.tables prepared))
  | .summed prepared => (worker, .prepared (closeHour worker.tables prepared))
  | .prepared prepared =>
    ({ worker with tables := durableBatch worker.tables prepared }, .stored false)
  | .stored duplicate =>
    ({ worker with acknowledged := acknowledgement codec report duplicate :: worker.acknowledged },
      .ended)
  | .ended => (worker, .ended)

def Worker.setPhase (worker : Worker) (index : ℕ) (handler : Handler) (phase : Phase) : Worker :=
  { worker with handlers := worker.handlers.set index { handler with phase } }

def step (worker : Worker) : Action → Worker
  | .arrive request agentKey now =>
    if admissible request agentKey now then
      { worker with handlers := worker.handlers ++ [⟨request, agentKey, .admitted⟩] }
    else worker
  | .advance index now =>
    match worker.handlers[index]? with
    | none => worker
    | some handler =>
      (proceed codec worker handler now).1.setPhase index handler
        (proceed codec worker handler now).2
  | .abort index =>
    match worker.handlers[index]? with
    | none => worker
    | some handler => worker.setPhase index handler .ended

/-- The worker before its first request, over tables of any content. -/
def idle (replay : ReplayTable) (catalog : Catalog) (tables : MachineTables) : Worker where
  replay := replay
  catalog := catalog
  tables := tables
  handlers := []
  acknowledged := []

/-! ## What an acknowledgement promises -/

/-- The handler that takes its step. -/
def Worker.stepping (worker : Worker) : Action → Option Handler
  | .advance index _ => worker.handlers[index]?
  | _ => none

/-- What the next step of a handler writes, if it is the batch. -/
def Handler.batch (handler : Handler) : Option PreparedReport :=
  match handler.phase with
  | .prepared prepared => some prepared
  | _ => none

/-- The slot of the report's minute holds exactly its identifier and payload hash. -/
def Recorded (tables : MachineTables) (report : MachineReport) : Prop :=
  Holds tables.blocks report.machinePk report.workspacePk report.nominalMinuteMs report.reportId
    (codec.payloadHash report)

/-- What one step owes: an acknowledgement is only sent for a report that its slot holds, and a
batch whose block upsert changes no row writes nothing at all. -/
structure StepCommitted (worker : Worker) (action : Action) : Prop where
  recorded : ∀ handler duplicate, worker.stepping action = some handler →
    handler.phase = .stored duplicate → Recorded codec worker.tables handler.request.report
  silent : ∀ prepared, (worker.stepping action).bind Handler.batch = some prepared →
    (blockWrite prepared.report prepared.payloadHash).changes worker.tables.blocks = 0 →
    (step codec worker action).tables = worker.tables

/-- No two different reports of one minute are acknowledged. -/
def OnePerMinute (worker : Worker) : Prop :=
  ∀ first ∈ worker.acknowledged, ∀ second ∈ worker.acknowledged,
    first.machinePk = second.machinePk → first.nominalMinuteMs = second.nominalMinuteMs →
    first.reportId = second.reportId ∧ first.payloadHash = second.payloadHash

/-- No run sends an uncommitted acknowledgement. -/
def NoUncommittedAck (start : Worker) (actions : List Action) : Prop :=
  Along (step codec) (StepCommitted codec) start actions ∧
    Visits (step codec) OnePerMinute start actions

/-- A batch finds the slot of its minute empty, or filled by this very report. -/
def BatchFree (worker : Worker) (action : Action) : Prop :=
  ∀ prepared ∈ (worker.stepping action).bind Handler.batch,
    (blockWrite prepared.report prepared.payloadHash).Writable worker.tables.blocks

instance (worker : Worker) (action : Action) : Decidable (BatchFree worker action) :=
  inferInstanceAs (Decidable (∀ prepared ∈ (worker.stepping action).bind Handler.batch, _))

/-! ## The invariant of free batches -/

/-- A handler past its batch, and one that found its report in the slot, may acknowledge. -/
def HandlerSound (tables : MachineTables) (handler : Handler) : Prop :=
  match handler.phase with
  | .classified duplicate | .persisted duplicate =>
    duplicate = true → Recorded codec tables handler.request.report
  | .inventoried prepared | .summed prepared | .prepared prepared =>
    PreparedFor codec prepared handler.request.report
  | .stored _ => Recorded codec tables handler.request.report
  | _ => True

structure WorkerSound (worker : Worker) : Prop where
  handlers : ∀ handler ∈ worker.handlers, HandlerSound codec worker.tables handler
  acknowledged : ∀ ack ∈ worker.acknowledged,
    Holds worker.tables.blocks ack.machinePk ack.workspacePk ack.nominalMinuteMs ack.reportId
      ack.payloadHash

variable {codec}

variable (codec) in
theorem workerSound_idle (replay : ReplayTable) (catalog : Catalog) (tables : MachineTables) :
    WorkerSound codec (idle replay catalog tables) where
  handlers _ h := absurd h List.not_mem_nil
  acknowledged _ h := absurd h List.not_mem_nil

variable {worker : Worker} {tables : MachineTables} {handler : Handler}

theorem onePerMinute_of_sound (h : WorkerSound codec worker) : OnePerMinute worker := by
  intro first hfirst second hsecond hmachine hminute
  have hheld := h.acknowledged first hfirst
  rw [hmachine, hminute] at hheld
  exact hheld.eq (h.acknowledged second hsecond)

theorem tables_proceed (worker : Worker) (handler : Handler) (now : ℤ) :
    (proceed codec worker handler now).1.tables = worker.tables ∨
      ∃ prepared, handler.phase = .prepared prepared ∧
        (proceed codec worker handler now).1.tables = durableBatch worker.tables prepared := by
  unfold proceed
  dsimp only
  split
  case h_9 prepared hphase => exact .inr ⟨prepared, hphase, rfl⟩
  all_goals first | exact .inl rfl | (split <;> first | exact .inl rfl | (split <;> exact .inl rfl))

theorem holds_durableBatch {prepared : PreparedReport} {resourcePk workspacePk : ℕ}
    {nominalMinuteMs : ℤ} {id payloadHash : Bytes}
    (h : Holds tables.blocks resourcePk workspacePk nominalMinuteMs id payloadHash) :
    Holds (durableBatch tables prepared).blocks resourcePk workspacePk nominalMinuteMs id
      payloadHash := by
  rw [blocks_durableBatch]
  exact holds_perform h

theorem holds_proceed {now : ℤ} {resourcePk workspacePk : ℕ} {nominalMinuteMs : ℤ}
    {id payloadHash : Bytes}
    (h : Holds worker.tables.blocks resourcePk workspacePk nominalMinuteMs id payloadHash) :
    Holds (proceed codec worker handler now).1.tables.blocks resourcePk workspacePk
      nominalMinuteMs id payloadHash := by
  rcases tables_proceed worker handler now with heq | ⟨prepared, -, heq⟩ <;> rw [heq]
  · exact h
  · exact holds_durableBatch h

theorem handlerSound_mono {before after : MachineTables}
    (hkeep : Recorded codec before handler.request.report →
      Recorded codec after handler.request.report) (h : HandlerSound codec before handler) :
    HandlerSound codec after handler := by
  unfold HandlerSound at h ⊢
  split
  case h_1 => next hphase => simp only [hphase] at h; exact fun hdup ↦ hkeep (h hdup)
  case h_2 => next hphase => simp only [hphase] at h; exact fun hdup ↦ hkeep (h hdup)
  case h_6 => next hphase => simp only [hphase] at h; exact hkeep h
  all_goals next hphase => simp_all

theorem recorded_of_classifySlot {report : MachineReport}
    (h : classifySlot tables report (codec.payloadHash report) = .ok true) :
    Recorded codec tables report := by
  unfold classifySlot at h
  split at h
  · cases h
  · next held hread =>
    split at h
    · next hsame => exact ⟨held, hread, hsame⟩
    · cases h

theorem recorded_durableBatch {prepared : PreparedReport} {report : MachineReport}
    (h : PreparedFor codec prepared report)
    (hfree : (blockWrite prepared.report prepared.payloadHash).Writable tables.blocks) :
    Recorded codec (durableBatch tables prepared) report := by
  obtain ⟨rfl, hhash⟩ := h
  rw [Recorded, blocks_durableBatch, ← hhash]
  exact holds_perform_self hfree

theorem handlerSound_proceed {now : ℤ} (h : HandlerSound codec worker.tables handler)
    (hfree : ∀ prepared, handler.phase = .prepared prepared →
      (blockWrite prepared.report prepared.payloadHash).Writable worker.tables.blocks) :
    HandlerSound codec (proceed codec worker handler now).1.tables
      { handler with phase := (proceed codec worker handler now).2 } := by
  obtain ⟨request, agentKey, phase⟩ := handler
  cases phase with
  | admitted =>
    unfold proceed
    dsimp only
    split <;> trivial
  | claimed =>
    unfold proceed
    dsimp only
    split
    · trivial
    · split <;> trivial
  | catalogued =>
    unfold proceed
    dsimp only
    split
    · next duplicate hclassified =>
      rintro rfl
      exact recorded_of_classifySlot hclassified
    · trivial
  | classified duplicate => exact h
  | persisted duplicate =>
    cases duplicate with
    | true => exact h rfl
    | false =>
      unfold proceed
      dsimp only
      split
      · next prepared hprepared => exact prepare_of hprepared
      · trivial
  | inventoried prepared => exact closeBlock_of _ h
  | summed prepared => exact closeHour_of _ h
  | prepared prepared => exact recorded_durableBatch h (hfree prepared rfl)
  | stored duplicate => trivial
  | ended => trivial

theorem mem_acknowledged_proceed {now : ℤ} {ack : Acknowledged}
    (h : ack ∈ (proceed codec worker handler now).1.acknowledged) :
    ack ∈ worker.acknowledged ∨ ∃ duplicate, handler.phase = .stored duplicate ∧
      ack = acknowledgement codec handler.request.report duplicate := by
  unfold proceed at h
  dsimp only at h
  split at h
  case h_10 duplicate hphase =>
    rcases List.mem_cons.mp h with rfl | hold
    · exact .inr ⟨duplicate, hphase, rfl⟩
    · exact .inl hold
  all_goals first | exact .inl h | (split at h <;> first | exact .inl h |
    (split at h <;> exact .inl h))

theorem handlers_proceed (worker : Worker) (handler : Handler) (now : ℤ) :
    (proceed codec worker handler now).1.handlers = worker.handlers := by
  unfold proceed
  dsimp only
  split <;> first | rfl | (split <;> first | rfl | (split <;> rfl))

theorem workerSound_advance (h : WorkerSound codec worker) {index : ℕ} {now : ℤ}
    (hhandler : worker.handlers[index]? = some handler)
    (hfree : ∀ prepared, handler.phase = .prepared prepared →
      (blockWrite prepared.report prepared.payloadHash).Writable worker.tables.blocks) :
    WorkerSound codec ((proceed codec worker handler now).1.setPhase index handler
      (proceed codec worker handler now).2) := by
  have hsound := h.handlers handler (List.mem_of_getElem? hhandler)
  constructor
  · intro other hother
    have hmem : other ∈ worker.handlers.set index
        { handler with phase := (proceed codec worker handler now).2 } := by
      rw [← handlers_proceed worker handler now]
      exact hother
    rcases List.mem_or_eq_of_mem_set hmem with hold | rfl
    · exact handlerSound_mono holds_proceed (h.handlers other hold)
    · exact handlerSound_proceed hsound hfree
  · intro ack hack
    rcases mem_acknowledged_proceed hack with hold | ⟨duplicate, hphase, rfl⟩
    · exact holds_proceed (h.acknowledged ack hold)
    · have hrecorded : Recorded codec worker.tables handler.request.report := by
        unfold HandlerSound at hsound
        rwa [hphase] at hsound
      exact holds_proceed hrecorded

theorem workerSound_step {action : Action} (h : WorkerSound codec worker)
    (hfree : BatchFree worker action) : WorkerSound codec (step codec worker action) := by
  cases action with
  | arrive request agentKey now =>
    unfold step
    dsimp only
    split
    · refine ⟨fun handler hhandler ↦ ?_, h.acknowledged⟩
      rcases List.mem_append.mp hhandler with hold | hnew
      · exact h.handlers handler hold
      · rw [List.mem_singleton.mp hnew]
        trivial
    · exact h
  | advance index now =>
    unfold step
    dsimp only
    split
    · exact h
    · next handler hhandler =>
      refine workerSound_advance h hhandler fun prepared hphase ↦ hfree prepared ?_
      simp [Worker.stepping, hhandler, Handler.batch, hphase]
  | abort index =>
    unfold step
    dsimp only
    split
    · exact h
    · next handler hhandler =>
      refine ⟨fun other hother ↦ ?_, h.acknowledged⟩
      rcases List.mem_or_eq_of_mem_set hother with hold | rfl
      · exact h.handlers other hold
      · trivial

/-- A step of a sound worker pays what it owes, if its batch meets a free slot. -/
theorem stepCommitted_of_sound {action : Action} (h : WorkerSound codec worker)
    (hfree : BatchFree worker action) :
    StepCommitted codec worker action where
  recorded handler duplicate hstepping hphase := by
    cases action with
    | advance index now =>
      have hsound := h.handlers handler (List.mem_of_getElem? hstepping)
      unfold HandlerSound at hsound
      rwa [hphase] at hsound
    | arrive request agentKey now => cases hstepping
    | abort index => cases hstepping
  silent prepared hbatch hchanges := absurd hchanges (changes_ne_zero (hfree prepared hbatch))

/-! ## Whole runs -/

/-- Over tables of any content and for any interleaving of any requests: as long as no batch
meets a slot that another report has filled, every acknowledgement is for the report that its
slot holds, no two different reports of one minute are acknowledged, and no batch writes the
latest values, the rollups or an event of a report that its block does not store. -/
theorem noUncommittedAck_of_batchFree (replay : ReplayTable) (catalog : Catalog)
    (tables : MachineTables) (actions : List Action)
    (hfree : Along (step codec) BatchFree (idle replay catalog tables) actions) :
    NoUncommittedAck codec (idle replay catalog tables) actions := by
  have hsound := workerSound_idle codec replay catalog tables
  have hstep := fun worker action (h : WorkerSound codec worker)
    (hfree : BatchFree worker action) ↦ workerSound_step h hfree
  refine ⟨along_of_along hstep (fun _ _ ↦ stepCommitted_of_sound) hsound hfree, ?_⟩
  exact visits_mono (fun _ ↦ onePerMinute_of_sound) (visits_of_along hstep hsound hfree)

variable (codec) in
/-- A slot that is filled keeps its report. -/
def KeepsSlots (worker : Worker) (action : Action) : Prop :=
  ∀ resourcePk workspacePk nominalMinuteMs id payloadHash,
    Holds worker.tables.blocks resourcePk workspacePk nominalMinuteMs id payloadHash →
      Holds (step codec worker action).tables.blocks resourcePk workspacePk nominalMinuteMs id
        payloadHash

theorem keepsSlots (worker : Worker) (action : Action) : KeepsSlots codec worker action := by
  intro resourcePk workspacePk nominalMinuteMs id payloadHash h
  cases action with
  | arrive request agentKey now =>
    unfold step
    dsimp only
    split <;> exact h
  | advance index now =>
    unfold step
    dsimp only
    split
    · exact h
    · exact holds_proceed h
  | abort index =>
    unfold step
    dsimp only
    split <;> exact h

/-- Whether the handler has found its report in the slot. -/
def Phase.duplicate : Phase → Bool
  | .classified duplicate | .persisted duplicate | .stored duplicate => duplicate
  | _ => false

variable (codec) in
/-- A report that is called a duplicate, to its agent or in its handler, is in its slot. -/
structure DuplicatesRecorded (worker : Worker) : Prop where
  handlers : ∀ handler ∈ worker.handlers, handler.phase.duplicate = true →
    Recorded codec worker.tables handler.request.report
  acknowledged : ∀ ack ∈ worker.acknowledged, ack.status = .duplicate →
    Holds worker.tables.blocks ack.machinePk ack.workspacePk ack.nominalMinuteMs ack.reportId
      ack.payloadHash

theorem recorded_of_duplicate {now : ℤ}
    (h : handler.phase.duplicate = true → Recorded codec worker.tables handler.request.report)
    (hduplicate : (proceed codec worker handler now).2.duplicate = true) :
    Recorded codec (proceed codec worker handler now).1.tables handler.request.report := by
  obtain ⟨request, agentKey, phase⟩ := handler
  cases phase with
  | catalogued =>
    unfold proceed at hduplicate ⊢
    dsimp only at hduplicate ⊢
    split at hduplicate
    · next duplicate hclassified =>
      obtain rfl : duplicate = true := hduplicate
      exact recorded_of_classifySlot hclassified
    · cases hduplicate
  | classified duplicate => exact h hduplicate
  | persisted duplicate =>
    cases duplicate with
    | true => exact h rfl
    | false =>
      unfold proceed at hduplicate
      dsimp only at hduplicate
      split at hduplicate <;> cases hduplicate
  | admitted | claimed =>
    unfold proceed at hduplicate
    dsimp only at hduplicate
    split at hduplicate <;> first | cases hduplicate | (split at hduplicate <;> cases hduplicate)
  | _ => cases hduplicate

theorem duplicatesRecorded_step (h : DuplicatesRecorded codec worker) (action : Action) :
    DuplicatesRecorded codec (step codec worker action) := by
  cases action with
  | arrive request agentKey now =>
    unfold step
    dsimp only
    split
    · refine ⟨fun handler hhandler hduplicate ↦ ?_, h.acknowledged⟩
      rcases List.mem_append.mp hhandler with hold | hnew
      · exact h.handlers handler hold hduplicate
      · rw [List.mem_singleton.mp hnew] at hduplicate
        cases hduplicate
    · exact h
  | advance index now =>
    unfold step
    dsimp only
    split
    · exact h
    · next handler hhandler =>
      have hfound := h.handlers handler (List.mem_of_getElem? hhandler)
      refine ⟨fun other hother hduplicate ↦ ?_, fun ack hack hstatus ↦ ?_⟩
      · rw [Worker.setPhase, handlers_proceed] at hother
        rcases List.mem_or_eq_of_mem_set hother with hold | rfl
        · exact holds_proceed (h.handlers other hold hduplicate)
        · exact recorded_of_duplicate hfound hduplicate
      · rcases mem_acknowledged_proceed hack with hold | ⟨duplicate, hphase, rfl⟩
        · exact holds_proceed (h.acknowledged ack hold hstatus)
        · have hduplicate : duplicate = true := by
            cases duplicate with
            | true => rfl
            | false => cases hstatus
          exact holds_proceed (hfound (by rw [hphase]; exact hduplicate))
  | abort index =>
    unfold step
    dsimp only
    split
    · exact h
    · refine ⟨fun other hother hduplicate ↦ ?_, h.acknowledged⟩
      rcases List.mem_or_eq_of_mem_set hother with hold | rfl
      · exact h.handlers other hold hduplicate
      · cases hduplicate

/-- In any interleaving of any requests, racing ones included, the first report of a slot stays, and
an agent that is told of a duplicate has its report stored. -/
theorem slots_written_once (codec : Codec) (replay : ReplayTable) (catalog : Catalog)
    (tables : MachineTables) (actions : List Action) :
    Visits (step codec) (DuplicatesRecorded codec) (idle replay catalog tables) actions ∧
      Along (step codec) (KeepsSlots codec) (idle replay catalog tables) actions := by
  have hidle : DuplicatesRecorded codec (idle replay catalog tables) :=
    ⟨fun _ h ↦ absurd h List.not_mem_nil, fun _ h ↦ absurd h List.not_mem_nil⟩
  have hstep := fun worker action (h : DuplicatesRecorded codec worker) ↦
    duplicatesRecorded_step h action
  have hvisits := visits_invariant hstep hidle actions
  exact ⟨hvisits, along_of_visits (fun worker action _ ↦ keepsSlots worker action) hvisits⟩

/-! ## A run that breaks the promise -/

/-- A request of the only agent of a machine, with a report of the first minute. -/
def minuteRequest (sequence : ℕ) (identifier : UInt8) : Request where
  agentId := "agent"
  keyEpoch := 1
  sequence := sequence
  reportId := List.replicate 16 identifier
  report :=
    { reportId := List.replicate 16 identifier
      machinePk := 1
      workspacePk := 1
      nominalMinuteMs := 0
      samples := [{ observedAtMs := 0 }]
      schemaVersion := 4
      containerInventory := none
      probeResults := []
      appliedConfigRevision := 1
      commandResults := []
      agentVersion := "0.1.0" }

def onlyAgent : AgentKeyRow where
  machineId := "machine"
  workspaceId := "workspace"
  machinePk := 1
  workspacePk := 1
  appliedConfigRevision := 1
  desiredConfigRevision := 1
  maintenanceUntil := none
  containerCatalogDigest := none

def freshWorker : Worker :=
  idle (fun _ _ ↦ none) ⟨none, []⟩ ⟨[], [], [], [], []⟩

/-- Two reports of one minute are both classified before the batch of either has run. -/
def racingActions : List Action :=
  [.arrive (minuteRequest 1 1) onlyAgent 60000, .arrive (minuteRequest 2 2) onlyAgent 60000] ++
    List.replicate 7 (.advance 0 60000) ++ List.replicate 7 (.advance 1 60000) ++
    List.replicate 2 (.advance 0 60000) ++ List.replicate 2 (.advance 1 60000)

/-- A report on its own, from its arrival to its acknowledgement. -/
theorem noUncommittedAck_of_batchFree_single :
    NoUncommittedAck prefixCodec freshWorker
      (.arrive (minuteRequest 1 1) onlyAgent 60000 :: List.replicate 9 (.advance 0 60000)) :=
  noUncommittedAck_of_batchFree _ _ _ _ (by decide)

/-- Both racing reports are acknowledged as committed, though the slot holds the first one. -/
theorem racing_reports_both_acknowledged :
    ¬ ∀ (codec : Codec) (replay : ReplayTable) (catalog : Catalog) (tables : MachineTables)
      (actions : List Action), NoUncommittedAck codec (idle replay catalog tables) actions := by
  intro h
  have hrun : NoUncommittedAck prefixCodec freshWorker racingActions :=
    h prefixCodec _ _ _ racingActions
  have hboth := visits_run hrun.2
    (acknowledgement prefixCodec (minuteRequest 1 1).report false) (by decide)
    (acknowledgement prefixCodec (minuteRequest 2 2).report false) (by decide) rfl rfl
  exact absurd hboth.1 (by decide)

end AlphaPing.Ingest.Concurrent
