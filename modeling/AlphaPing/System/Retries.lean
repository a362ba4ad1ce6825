import AlphaPing.Checks.Rollups
import AlphaPing.Library.Retries

/-!
# Retries of a report

A handler that fails keeps what its earlier stages have stored, and the agent sends the same report
again under a new sequence. Each stage recognises what an earlier attempt has stored: the batch of
the report by the slot of its machine, the batch of a group of results by the slot of its check.

The command results of a report go to a table of the control database that nothing here reads; a
failure between them and the batch of the report is one of that batch.
-/

namespace AlphaPing.System.Retries

open Protocol Library.Runs Library.Retries Ingest.Blocks Ingest.Summaries Ingest.Database
  Ingest.Containers Ingest.Replay Ingest.Validation Ingest.Requests Checks.Persistence
  Checks.Rollups
open Ingest.Telemetry (MachineTables classifySlot blockWrite)
open Ingest.CheckResults (ResultBatch CheckConfigRow ResultGroup groupResults
  maximumResults compileBatch assignments assignmentOf)
open Ingest.Report (callOf syncInventory storeReport)

/-! ## The handler -/

/-- What the control database says about the agent and what no handler of its reports writes: the
applied revision and the digest of the catalog are those of the storage. -/
structure Control where
  agentId : String
  agent : AgentKeyRow
  checks : List CheckConfigRow

/-- The tables of blocks, latest states, events and rollups. -/
structure Observed where
  tables : MachineTables
  recording : Recording

structure Storage where
  replay : ReplayTable
  catalog : Catalog
  appliedConfigRevision : ℕ
  observed : Observed

/-- One delivery of the report; `failing` is the call of a database that fails. -/
structure Attempt where
  keyEpoch : ℕ
  sequence : ℕ
  now : ℤ
  failing : Option Ingest.Report.Stage

/-- The row of `load_agent_key`. -/
def agentKey (control : Control) (storage : Storage) : AgentKeyRow :=
  { control.agent with
    appliedConfigRevision := storage.appliedConfigRevision
    containerCatalogDigest := storage.catalog.digest }

/-- `persist_batch`. -/
def storeBatch (codec : CheckCodec) (recording : Recording) (batch : ResultBatch) :
    Except IngestError Recording :=
  match readSlot recording.store.blocks batch.config.checkPk batch.config.workspacePk
      batch.nominalMinute with
  | none => .ok (record codec recording (.agent batch))
  | some held =>
    if held.id = batch.resultId ∧
        held.payloadHash = codec.hash (codec.encodeBatch batch.payload) then .ok recording
    else .error .conflict

/-- The second part of `persist_probe_results`, for one group. -/
def storeGroup (codec : CheckCodec) (agentId : String) (recording : Recording)
    (group : ResultGroup) : Except IngestError Recording :=
  if maximumResults group.config < group.results.length then .error .badRequest
  else
    match compileBatch codec.toResultCodec group.config group.minute agentId group.results with
    | none => .error .badRequest
    | some batch => storeBatch codec recording batch

/-- The groups are stored one after the other. -/
def storeGroups (codec : CheckCodec) (agentId : String) :
    Recording → List ResultGroup → Except IngestError Unit × Recording
  | recording, [] => (.ok (), recording)
  | recording, group :: rest =>
    match storeGroup codec agentId recording group with
    | .error error => (.error error, recording)
    | .ok next => storeGroups codec agentId next rest

/-- The first part of `persist_probe_results`. -/
def resultGroups (control : Control) (report : MachineReport) :
    Except IngestError (List ResultGroup) :=
  if report.probeResults.isEmpty then .ok []
  else groupResults control.checks control.agentId report

section

variable (codec : CheckCodec) (control : Control) (report : MachineReport)

def requestOf (attempt : Attempt) : Request where
  agentId := control.agentId
  keyEpoch := attempt.keyEpoch
  sequence := attempt.sequence
  reportId := report.reportId
  report := report

/-- `persist_probe_results`. -/
def storeResults (recording : Recording) : Except IngestError Unit × Recording :=
  match resultGroups control report with
  | .error error => (.error error, recording)
  | .ok groups => storeGroups codec control.agentId recording groups

/-- The results that are stored when the database fails after some groups. -/
def interruptedResults (recording : Recording) (stored : ℕ) : Recording :=
  match resultGroups control report with
  | .error _ => recording
  | .ok groups => (storeGroups codec control.agentId recording (groups.take stored)).2

/-- `handle_report` up to the synchronisation of the catalog. -/
def enter (storage : Storage) (attempt : Attempt) : Except IngestError Unit × Storage :=
  if headerSequenceValid attempt.keyEpoch attempt.sequence = false then
    (.error .unauthorized, storage)
  else if ¬ (validateReport report report.reportId control.agent.machinePk
      control.agent.workspacePk control.agentId attempt.now).isOk then
    (.error .badRequest, storage)
  else if revisionAdmitted (agentKey control storage) report = false then
    (.error .badRequest, storage)
  else
    match callOf attempt.failing .claim (claimReplay storage.replay control.agentId
        attempt.keyEpoch attempt.sequence attempt.now) with
    | .error error => (.error error, storage)
    | .ok replay =>
      match callOf attempt.failing .catalog (syncInventory storage.catalog
          (agentKey control storage) report attempt.now) with
      | .error error => (.error error, { storage with replay })
      | .ok catalog => (.ok (), { storage with replay, catalog })

/-- `durable_ack`. -/
def acknowledge (storage : Storage) (attempt : Attempt) (duplicate : Bool) :
    Except IngestError AckStatus × Storage :=
  match callOf attempt.failing .batch (storeReport codec.toCodec storage.observed.tables
      (agentKey control storage) (requestOf control report attempt) attempt.now duplicate) with
  | .error error => (.error error, storage)
  | .ok tables =>
    let storage := { storage with observed := { storage.observed with tables } }
    if attempt.failing = some .agentRow then (.error .internal, storage)
    else
      (.ok (if duplicate then .duplicate else .committed),
        { storage with
          appliedConfigRevision :=
            if storage.appliedConfigRevision < report.appliedConfigRevision then
              report.appliedConfigRevision
            else storage.appliedConfigRevision })

/-- `handle_report` from the probe results on. -/
def storeAll (storage : Storage) (attempt : Attempt) (duplicate : Bool) :
    Except IngestError AckStatus × Storage :=
  match attempt.failing with
  | some (.probes stored) =>
    (.error .internal, { storage with
      observed := { storage.observed with
        recording := interruptedResults codec control report storage.observed.recording stored } })
  | _ =>
    match storeResults codec control report storage.observed.recording with
    | (.error error, recording) =>
      (.error error, { storage with observed := { storage.observed with recording } })
    | (.ok (), recording) =>
      acknowledge codec control report
        { storage with observed := { storage.observed with recording } } attempt duplicate

/-- `handle_report`, once the envelope is opened. -/
def process (storage : Storage) (attempt : Attempt) : Except IngestError AckStatus × Storage :=
  match enter control report storage attempt with
  | (.error error, entered) => (.error error, entered)
  | (.ok (), entered) =>
    match callOf attempt.failing .classify (classifySlot entered.observed.tables report
        (codec.payloadHash report)) with
    | .error error => (.error error, entered)
    | .ok duplicate => storeAll codec control report entered attempt duplicate

/-- One delivery after the other. -/
def deliver (storage : Storage) (attempt : Attempt) : Storage :=
  (process codec control report storage attempt).2

/-! ## Stages -/

abbrev ReportStage := Stage Observed Attempt IngestError

/-- The slot of the machine is classified. -/
def classified : ReportStage := fun _ observed ↦
  (classifySlot observed.tables report (codec.payloadHash report)).map fun _ ↦ observed

def stored (agentId : String) (group : ResultGroup) : ReportStage := fun _ observed ↦
  (storeGroup codec agentId observed.recording group).map fun recording ↦
    { observed with recording }

/-- The groups of the report, or the refusal to group its results. -/
def resultStages : List ReportStage :=
  match resultGroups control report with
  | .error error => [fun _ _ ↦ .error error]
  | .ok groups => groups.map (stored codec control.agentId)

def batched : ReportStage := fun attempt observed ↦
  match classifySlot observed.tables report (codec.payloadHash report) with
  | .error error => .error error
  | .ok duplicate =>
    (storeReport codec.toCodec observed.tables control.agent (requestOf control report attempt)
      attempt.now duplicate).map fun tables ↦ { observed with tables }

/-- The stages before the batch, which do not look at the attempt. -/
def steadyStages : List ReportStage :=
  classified codec report :: resultStages codec control report

/-- How many stages an attempt goes through. -/
def reach (storage : Storage) (attempt : Attempt) : ℕ :=
  match (enter control report storage attempt).1 with
  | .error _ => 0
  | .ok () =>
    match attempt.failing with
    | some .classify => 0
    | some (.probes stored) => 1 + min stored (resultStages codec control report).length
    | some .batch => (steadyStages codec control report).length
    | _ => (steadyStages codec control report).length + 1

end

/-! ## The handler goes through the stages -/

section Through

variable {codec : CheckCodec} {control : Control} {report : MachineReport}

variable (control report) in
theorem observed_enter (storage : Storage) (attempt : Attempt) :
    (enter control report storage attempt).2.observed = storage.observed := by
  unfold enter
  split
  · rfl
  split
  · rfl
  split
  · rfl
  split
  · rfl
  split <;> rfl

variable (attempt : Attempt)

theorem through_stored (agentId : String) (groups : List ResultGroup) (observed : Observed) :
    through attempt (groups.map (stored codec agentId)) observed =
      ((storeGroups codec agentId observed.recording groups).1,
        { observed with
          recording := (storeGroups codec agentId observed.recording groups).2 }) := by
  induction groups generalizing observed with
  | nil => rfl
  | cons group rest ih =>
    simp only [List.map_cons, through, stored, storeGroups]
    cases storeGroup codec agentId observed.recording group with
    | error error => rfl
    | ok next => exact ih _

theorem through_resultStages (observed : Observed) :
    through attempt (resultStages codec control report) observed =
      ((storeResults codec control report observed.recording).1,
        { observed with
          recording := (storeResults codec control report observed.recording).2 }) := by
  unfold resultStages storeResults
  cases resultGroups control report with
  | error error => rfl
  | ok groups => exact through_stored attempt control.agentId groups observed

theorem through_take_resultStages (observed : Observed) (count : ℕ) :
    (through attempt ((resultStages codec control report).take count) observed).2 =
      { observed with
        recording := interruptedResults codec control report observed.recording count } := by
  unfold resultStages interruptedResults
  cases resultGroups control report with
  | error error => cases count <;> rfl
  | ok groups => rw [← List.map_take, through_stored]

theorem through_classified (rest : List ReportStage) (observed : Observed) :
    through attempt (classified codec report :: rest) observed =
      match classifySlot observed.tables report (codec.payloadHash report) with
      | .error error => (.error error, observed)
      | .ok _ => through attempt rest observed := by
  rw [through, classified]
  cases classifySlot observed.tables report (codec.payloadHash report) <;> rfl

theorem observed_acknowledge {storage : Storage} {attempt : Attempt} {duplicate : Bool}
    (h : classifySlot storage.observed.tables report (codec.payloadHash report) = .ok duplicate) :
    (acknowledge codec control report storage attempt duplicate).2.observed =
      (through attempt (if attempt.failing = some .batch then [] else
        [batched codec control report]) storage.observed).2 := by
  unfold acknowledge callOf
  by_cases hbatch : attempt.failing = some .batch
  · rw [if_pos hbatch, if_pos hbatch]
    rfl
  rw [if_neg hbatch, if_neg hbatch]
  have hkey : storeReport codec.toCodec storage.observed.tables (agentKey control storage)
      (requestOf control report attempt) attempt.now duplicate =
        storeReport codec.toCodec storage.observed.tables control.agent
          (requestOf control report attempt) attempt.now duplicate := rfl
  rw [hkey, through, batched, h]
  dsimp only
  cases storeReport codec.toCodec storage.observed.tables control.agent
    (requestOf control report attempt) attempt.now duplicate with
  | error error => rfl
  | ok tables =>
    dsimp only [Except.map, through]
    split <;> rfl

theorem observed_storeAll {storage : Storage} {attempt : Attempt} {duplicate : Bool}
    (h : classifySlot storage.observed.tables report (codec.payloadHash report) = .ok duplicate)
    (hfailing : ∀ count, attempt.failing ≠ some (.probes count)) :
    (storeAll codec control report storage attempt duplicate).2.observed =
      (through attempt (resultStages codec control report ++
        if attempt.failing = some .batch then [] else [batched codec control report])
          storage.observed).2 := by
  rw [through_append, through_resultStages]
  unfold storeAll
  split
  · next count hcount => exact absurd hcount (hfailing count)
  rcases storeResults codec control report storage.observed.recording with ⟨_ | _, recording⟩
  · rfl
  · exact observed_acknowledge h

theorem observed_deliver (storage : Storage) (attempt : Attempt) :
    (deliver codec control report storage attempt).observed =
      (through attempt ((steadyStages codec control report ++ [batched codec control report]).take
        (reach codec control report storage attempt)) storage.observed).2 := by
  have hobserved := observed_enter control report storage attempt
  unfold deliver process reach
  cases hentered : enter control report storage attempt with
  | mk result entered =>
  rw [hentered] at hobserved
  cases result with
  | error error => exact hobserved
  | ok =>
  rw [← hobserved]
  dsimp only
  by_cases hclassify : attempt.failing = some .classify
  · rw [callOf, if_pos hclassify, hclassify]
    rfl
  rw [callOf, if_neg hclassify]
  cases hslot : classifySlot entered.observed.tables report (codec.payloadHash report) with
  | error error =>
    -- the first stage refuses, however far the attempt would go
    have hrefused : ∀ count, (through attempt ((steadyStages codec control report ++
        [batched codec control report]).take count) entered.observed).2 = entered.observed := by
      intro count
      cases count with
      | zero => rfl
      | succ count =>
        rw [steadyStages, List.cons_append, List.take_succ_cons, through_classified, hslot]
    exact (hrefused _).symm
  | ok duplicate =>
    have hpast : ∀ count, through attempt ((steadyStages codec control report ++
        [batched codec control report]).take (1 + count)) entered.observed =
          through attempt ((resultStages codec control report ++
            [batched codec control report]).take count) entered.observed := by
      intro count
      rw [steadyStages, List.cons_append, Nat.add_comm, List.take_succ_cons, through_classified,
        hslot]
    have hlength : (steadyStages codec control report).length =
        1 + (resultStages codec control report).length := by
      rw [steadyStages, List.length_cons, Nat.add_comm]
    by_cases hprobes : ∃ count, attempt.failing = some (.probes count)
    · obtain ⟨count, hcount⟩ := hprobes
      rw [hcount]
      dsimp only
      rw [hpast, List.take_append_of_le_length (Nat.min_le_right _ _), ← List.take_take,
        List.take_length, through_take_resultStages]
      unfold storeAll
      rw [hcount]
    · have hfailing : ∀ count, attempt.failing ≠ some (.probes count) := not_exists.mp hprobes
      rw [observed_storeAll hslot hfailing]
      by_cases hbatch : attempt.failing = some .batch
      · rw [if_pos hbatch, hbatch]
        dsimp only
        rw [hlength, hpast, List.append_nil, List.take_left']
        rfl
      · have hall : (match attempt.failing with
            | some .classify => 0
            | some (.probes stored) => 1 + min stored (resultStages codec control report).length
            | some .batch => (steadyStages codec control report).length
            | _ => (steadyStages codec control report).length + 1) =
              1 + ((resultStages codec control report).length + 1) := by
          split
          · next h => exact absurd h hclassify
          · next count h => exact absurd h (hfailing count)
          · next h => exact absurd h hbatch
          · rw [hlength, Nat.add_assoc]
        rw [if_neg hbatch, hall, hpast, List.take_of_length_le (by simp)]

end Through

/-! ## What is stored is recognised -/

section Recognise

variable {codec : CheckCodec} {control : Control} {report : MachineReport}
  {machineOwner checkOwner : ℕ → ℕ}

def HoldsBatch (codec : CheckCodec) (recording : Recording) (batch : ResultBatch) : Prop :=
  Holds recording.store.blocks batch.config.checkPk batch.config.workspacePk batch.nominalMinute
    batch.resultId (codec.hash (codec.encodeBatch batch.payload))

variable {batch : ResultBatch}

variable {recording : Recording} {group : ResultGroup} {observed : Observed}

theorem storeBatch_of_holds (h : HoldsBatch codec recording batch) :
    storeBatch codec recording batch = .ok recording := by
  obtain ⟨held, hread, hid, hhash⟩ := h
  rw [storeBatch, hread]
  exact if_pos ⟨hid, hhash⟩

variable (codec) in
theorem accepted_record
    (hempty : readSlot recording.store.blocks batch.config.checkPk batch.config.workspacePk
      batch.nominalMinute = none) :
    (record codec recording (.agent batch)).accepted = .agent batch :: recording.accepted ∧
      (record codec recording (.agent batch)).store.blocks =
        (batchSlot codec batch).perform (max · 2) recording.store.blocks := by
  have hwrites : writes codec recording.store (.agent batch) = true :=
    Option.isNone_iff_eq_none.mpr hempty
  unfold record
  dsimp only
  rw [if_pos hwrites]
  exact ⟨rfl, blocks_alone hwrites⟩

theorem holdsBatch_of_storeBatch (h : storeBatch codec recording batch = .ok recording) :
    HoldsBatch codec recording batch := by
  unfold storeBatch at h
  split at h
  · next hempty =>
    have hlength := congrArg (fun next ↦ next.accepted.length) (Except.ok.inj h)
    simp [(accepted_record codec hempty).1] at hlength
  · next held hread =>
    split at h
    · next hsame => exact ⟨held, hread, hsame⟩
    · cases h

theorem storeBatch_spec {recording next : Recording}
    (howned : BlocksOwned checkOwner recording.store.blocks)
    (howner : batch.config.workspacePk = checkOwner batch.config.checkPk)
    (h : storeBatch codec recording batch = .ok next) :
    BlocksOwned checkOwner next.store.blocks ∧ HoldsBatch codec next batch ∧
      ∀ other, HoldsBatch codec recording other → HoldsBatch codec next other := by
  unfold storeBatch at h
  split at h
  · next hempty =>
    obtain rfl := Except.ok.inj h
    obtain ⟨-, hblocks⟩ := accepted_record codec hempty
    have hwritable : (batchSlot codec batch).Writable recording.store.blocks :=
      howned.writable howner hempty
    unfold HoldsBatch
    rw [hblocks]
    exact ⟨howned.perform howner, holds_perform_self hwritable, fun _ ↦ holds_perform⟩
  · next held hread =>
    split at h
    · next hsame =>
      obtain rfl := Except.ok.inj h
      exact ⟨howned, ⟨held, hread, hsame⟩, fun _ ↦ id⟩
    · cases h

def groupBatch (codec : CheckCodec) (agentId : String) (group : ResultGroup) :
    Option ResultBatch :=
  if maximumResults group.config < group.results.length then none
  else compileBatch codec.toResultCodec group.config group.minute agentId group.results

theorem storeGroup_eq (agentId : String) (recording : Recording) (group : ResultGroup) :
    storeGroup codec agentId recording group =
      match groupBatch codec agentId group with
      | none => .error .badRequest
      | some batch => storeBatch codec recording batch := by
  unfold storeGroup groupBatch
  split
  · rfl
  · rfl

theorem config_of_groupBatch {agentId : String} (h : groupBatch codec agentId group = some batch) :
    batch.config = group.config := by
  unfold groupBatch at h
  split at h
  · cases h
  simp only [compileBatch] at h
  split at h
  · obtain rfl := Option.some.inj h
    rfl
  · cases h

theorem stored_ok {attempt : Attempt} {agentId : String} {observed next : Observed}
    (h : stored codec agentId group attempt observed = .ok next) :
    ∃ batch recording, groupBatch codec agentId group = some batch ∧
      storeBatch codec observed.recording batch = .ok recording ∧
        next = { observed with recording } := by
  rw [stored, storeGroup_eq] at h
  cases hbatch : groupBatch codec agentId group with
  | none =>
    rw [hbatch] at h
    cases h
  | some batch =>
    rw [hbatch] at h
    dsimp only at h
    cases hstored : storeBatch codec observed.recording batch with
    | error error =>
      rw [hstored] at h
      cases h
    | ok recording =>
      rw [hstored] at h
      exact ⟨batch, recording, rfl, hstored, (Except.ok.inj h).symm⟩

theorem settled_stored {agentId : String} (hbatch : groupBatch codec agentId group = some batch)
    (h : HoldsBatch codec observed.recording batch) :
    Settled (stored codec agentId group) observed := by
  intro attempt
  rw [stored, storeGroup_eq, hbatch]
  dsimp only
  rw [storeBatch_of_holds h]
  rfl

theorem classifySlot_eq_true_iff {tables : MachineTables} :
    classifySlot tables report (codec.payloadHash report) = .ok true ↔
      Holds tables.blocks report.machinePk report.workspacePk report.nominalMinuteMs
        report.reportId (codec.payloadHash report) := by
  unfold classifySlot Holds
  cases readSlot tables.blocks report.machinePk report.workspacePk report.nominalMinuteMs with
  | none => simp
  | some held =>
    dsimp only
    split
    · next hsame => exact ⟨fun _ ↦ ⟨held, rfl, hsame⟩, fun _ ↦ rfl⟩
    · next hother =>
      refine ⟨nofun, ?_⟩
      rintro ⟨columns, hcolumns, hsame⟩
      obtain rfl := Option.some.inj hcolumns
      exact absurd hsame hother

theorem settled_classified {duplicate : Bool}
    (h : classifySlot observed.tables report (codec.payloadHash report) = .ok duplicate) :
    Settled (classified codec report) observed := by
  intro attempt
  rw [classified, h]
  rfl

theorem settled_batched
    (h : classifySlot observed.tables report (codec.payloadHash report) = .ok true) :
    Settled (batched codec control report) observed := by
  intro attempt
  rw [batched, h]
  rfl

theorem blocks_storeReport {tables next : MachineTables} {agentKey : AgentKeyRow}
    {request : Request} {now : ℤ}
    (h : storeReport codec.toCodec tables agentKey request now false = .ok next) :
    next.blocks = (blockWrite request.report (codec.payloadHash request.report)).perform
      (fun _ ↦ request.report.schemaVersion) tables.blocks := by
  unfold storeReport at h
  rw [if_neg Bool.false_ne_true] at h
  split at h
  · cases h
  next prepared hprepared =>
  obtain rfl := Except.ok.inj h
  obtain ⟨hreport, hhash⟩ :=
    closeHour_of tables (closeBlock_of tables (prepare_of hprepared))
  rw [Ingest.Telemetry.blocks_durableBatch, hreport, hhash]

/-- Every block belongs to the workspace of its machine or its check. -/
structure Housed (machineOwner checkOwner : ℕ → ℕ) (observed : Observed) : Prop where
  machines : BlocksOwned machineOwner observed.tables.blocks
  checks : BlocksOwned checkOwner observed.recording.store.blocks

/-- What every stage does to the slots: what is held stays held. -/
structure Grows (codec : CheckCodec) (report : MachineReport) (machineOwner checkOwner : ℕ → ℕ)
    (observed next : Observed) : Prop where
  housed : Housed machineOwner checkOwner next
  batches : ∀ batch, HoldsBatch codec observed.recording batch →
    HoldsBatch codec next.recording batch
  report : ∀ duplicate,
    classifySlot observed.tables report (codec.payloadHash report) = .ok duplicate →
      ∃ later, classifySlot next.tables report (codec.payloadHash report) = .ok later ∧
        (duplicate = true → later = true)

/-- The stages of a report, and what the assignment of a group says about its check. -/
theorem stage_cases {stage : ReportStage}
    (hchecks : ∀ row ∈ control.checks, row.check.workspacePk = checkOwner row.check.checkPk)
    (h : stage ∈ steadyStages codec control report ++ [batched codec control report]) :
    stage = classified codec report ∨ (∃ error, stage = fun _ _ ↦ .error error) ∨
      (∃ group : ResultGroup, group.config.workspacePk = checkOwner group.config.checkPk ∧
        stage = stored codec control.agentId group) ∨ stage = batched codec control report := by
  rcases List.mem_append.mp h with hsteady | hlast
  · rcases List.mem_cons.mp hsteady with hfirst | hresults
    · exact .inl hfirst
    unfold resultStages at hresults
    split at hresults
    · exact .inr (.inl ⟨_, List.mem_singleton.mp hresults⟩)
    next groups hgroups =>
    obtain ⟨group, hgroup, rfl⟩ := List.mem_map.mp hresults
    refine .inr (.inr (.inl ⟨group, ?_, rfl⟩))
    have hrow : ∃ row ∈ control.checks, row.check = group.config := by
      unfold resultGroups at hgroups
      split at hgroups
      · obtain rfl := Except.ok.inj hgroups
        exact absurd hgroup List.not_mem_nil
      unfold groupResults at hgroups
      split_ifs at hgroups
      obtain rfl := Except.ok.inj hgroups
      obtain ⟨key, -, hkey⟩ := List.mem_filterMap.mp hgroup
      obtain ⟨config, hconfig, rfl⟩ := Option.map_eq_some_iff.mp hkey
      obtain ⟨row, hrow, rfl⟩ := List.mem_map.mp (List.mem_of_find?_eq_some hconfig)
      exact ⟨row, (List.mem_filter.mp hrow).1, rfl⟩
    obtain ⟨row, hrow, hconfig⟩ := hrow
    rw [← hconfig]
    exact hchecks row hrow
  · exact .inr (.inr (.inr (List.mem_singleton.mp hlast)))

section Stages

variable {stage : ReportStage} {attempt : Attempt} {observed next : Observed}

theorem batched_ok (hreport : report.workspacePk = machineOwner report.machinePk)
    (hhoused : Housed machineOwner checkOwner observed)
    (h : batched codec control report attempt observed = .ok next) :
    Grows codec report machineOwner checkOwner observed next ∧
      classifySlot next.tables report (codec.payloadHash report) = .ok true ∧
        (classifySlot observed.tables report (codec.payloadHash report) = .ok true →
          next = observed) := by
  unfold batched at h
  split at h
  · cases h
  next duplicate hslot =>
  cases hstore : storeReport codec.toCodec observed.tables control.agent
      (requestOf control report attempt) attempt.now duplicate with
  | error error =>
    rw [hstore] at h
    cases h
  | ok tables =>
  rw [hstore] at h
  obtain rfl := Except.ok.inj h
  cases duplicate with
  | true =>
    obtain rfl : observed.tables = tables := Except.ok.inj hstore
    exact ⟨⟨hhoused, fun _ ↦ id, fun duplicate hslot ↦ ⟨duplicate, hslot, id⟩⟩, hslot, fun _ ↦ rfl⟩
  | false =>
    have hempty := Ingest.Rollups.classifySlot_false_iff.mp hslot
    have hblocks := blocks_storeReport hstore
    have hwritable : (blockWrite report (codec.payloadHash report)).Writable
        observed.tables.blocks := hhoused.machines.writable hreport hempty
    have hheld : classifySlot tables report (codec.payloadHash report) = .ok true := by
      rw [classifySlot_eq_true_iff, hblocks]
      exact holds_perform_self hwritable
    refine ⟨⟨⟨?_, hhoused.checks⟩, fun _ ↦ id, fun _ _ ↦ ⟨true, hheld, fun _ ↦ rfl⟩⟩, hheld, ?_⟩
    · dsimp only
      rw [hblocks]
      exact hhoused.machines.perform hreport
    · intro htrue
      cases htrue.symm.trans hslot

theorem stage_ok (hreport : report.workspacePk = machineOwner report.machinePk)
    (hchecks : ∀ row ∈ control.checks, row.check.workspacePk = checkOwner row.check.checkPk)
    (hstage : stage ∈ steadyStages codec control report ++ [batched codec control report])
    (hhoused : Housed machineOwner checkOwner observed) (h : stage attempt observed = .ok next) :
    Grows codec report machineOwner checkOwner observed next ∧ Settled stage next := by
  rcases stage_cases hchecks hstage with rfl | ⟨error, rfl⟩ | ⟨group, hgroup, rfl⟩ | rfl
  · unfold classified at h
    cases hslot : classifySlot observed.tables report (codec.payloadHash report) with
    | error error =>
      rw [hslot] at h
      cases h
    | ok duplicate =>
      rw [hslot] at h
      obtain rfl := Except.ok.inj h
      exact ⟨⟨hhoused, fun _ ↦ id, fun duplicate hslot ↦ ⟨duplicate, hslot, id⟩⟩,
        settled_classified hslot⟩
  · cases h
  · obtain ⟨batch, recording, hbatch, hstored, rfl⟩ := stored_ok h
    have howner : batch.config.workspacePk = checkOwner batch.config.checkPk := by
      rw [config_of_groupBatch hbatch]
      exact hgroup
    obtain ⟨howned, hheld, hothers⟩ := storeBatch_spec hhoused.checks howner hstored
    exact ⟨⟨⟨hhoused.machines, howned⟩, hothers, fun duplicate hslot ↦ ⟨duplicate, hslot, id⟩⟩,
      settled_stored hbatch hheld⟩
  · obtain ⟨hgrows, hheld, -⟩ := batched_ok hreport hhoused h
    exact ⟨hgrows, settled_batched hheld⟩

theorem settled_of_grows (hreport : report.workspacePk = machineOwner report.machinePk)
    (hchecks : ∀ row ∈ control.checks, row.check.workspacePk = checkOwner row.check.checkPk)
    (hstage : stage ∈ steadyStages codec control report ++ [batched codec control report])
    (hhoused : Housed machineOwner checkOwner observed) (attempt : Attempt)
    (hsettled : Settled stage observed)
    (hgrows : Grows codec report machineOwner checkOwner observed next) : Settled stage next := by
  have hidle := hsettled attempt
  rcases stage_cases hchecks hstage with rfl | ⟨error, rfl⟩ | ⟨group, hgroup, rfl⟩ | rfl
  · unfold classified at hidle
    cases hslot : classifySlot observed.tables report (codec.payloadHash report) with
    | error error =>
      rw [hslot] at hidle
      cases hidle
    | ok duplicate =>
      obtain ⟨later, hlater, -⟩ := hgrows.report duplicate hslot
      exact settled_classified hlater
  · cases hidle
  · obtain ⟨batch, recording, hbatch, hstored, hsame⟩ := stored_ok hidle
    obtain rfl : observed.recording = recording := congrArg Observed.recording hsame
    exact settled_stored hbatch (hgrows.batches batch (holdsBatch_of_storeBatch hstored))
  · obtain ⟨-, hheld, -⟩ := batched_ok hreport hhoused hidle
    obtain ⟨later, hlater, hdone⟩ := hgrows.report true hheld
    rw [hdone rfl] at hlater
    exact settled_batched hlater

theorem resumable (hreport : report.workspacePk = machineOwner report.machinePk)
    (hchecks : ∀ row ∈ control.checks, row.check.workspacePk = checkOwner row.check.checkPk) :
    Resumable (Housed machineOwner checkOwner)
      (steadyStages codec control report ++ [batched codec control report]) where
  keeps _ hstage _ _ _ hhoused h := (stage_ok hreport hchecks hstage hhoused h).1.housed
  settles _ hstage _ _ _ hhoused h := (stage_ok hreport hchecks hstage hhoused h).2
  lasts _ hfirst _ hlater attempt _ _ hhoused hsettled h :=
    settled_of_grows hreport hchecks hfirst hhoused attempt hsettled
      (stage_ok hreport hchecks hlater hhoused h).1

end Stages

theorem steady_of_mem {stage : ReportStage} (h : stage ∈ steadyStages codec control report) :
    Steady stage := by
  intro first second observed
  rcases List.mem_cons.mp h with rfl | hresults
  · rfl
  unfold resultStages at hresults
  split at hresults
  · rw [List.mem_singleton.mp hresults]
  · obtain ⟨group, -, rfl⟩ := List.mem_map.mp hresults
    rfl

end Recognise

/-! ## The gate -/

section Gate

variable {codec : CheckCodec} {control : Control} {report : MachineReport}

/-- A sequence that the handler has not seen. -/
def Fresh (control : Control) (replay : ReplayTable) (keyEpoch sequence : ℕ) (now : ℤ) : Prop :=
  headerSequenceValid keyEpoch sequence = true ∧
    ∃ claimed, claimReplay replay control.agentId keyEpoch sequence now = .ok claimed

theorem callOf_eq_ok_iff {Value : Type} {failing : Option Ingest.Report.Stage}
    {stage : Ingest.Report.Stage} {call : Except IngestError Value} {value : Value} :
    callOf failing stage call = .ok value ↔ failing ≠ some stage ∧ call = .ok value := by
  unfold callOf
  split
  · next h => simp [h]
  · next h => simp [h]

/-- What an attempt that gets as far as the classification has passed. -/
structure Entered (control : Control) (report : MachineReport) (storage : Storage)
    (attempt : Attempt) (catalog : Catalog) : Prop where
  fresh : Fresh control storage.replay attempt.keyEpoch attempt.sequence attempt.now
  valid : (validateReport report report.reportId control.agent.machinePk
    control.agent.workspacePk control.agentId attempt.now).isOk = true
  revision : revisionAdmitted (agentKey control storage) report = true
  claimed : attempt.failing ≠ some .claim
  synchronised : attempt.failing ≠ some .catalog
  sync : syncInventory storage.catalog (agentKey control storage) report attempt.now = .ok catalog

variable (control report) in
theorem enter_cases (storage : Storage) (attempt : Attempt) :
    ((∃ error, (enter control report storage attempt).1 = .error error) ∧
      (enter control report storage attempt).2.catalog = storage.catalog ∧
        ∀ catalog, ¬ Entered control report storage attempt catalog) ∨
    ∃ catalog, Entered control report storage attempt catalog ∧
      (enter control report storage attempt).1 = .ok () ∧
        (enter control report storage attempt).2.catalog = catalog := by
  unfold enter
  split
  · next hheader =>
    exact .inl ⟨⟨_, rfl⟩, rfl, fun catalog h ↦ Bool.noConfusion (hheader.symm.trans h.fresh.1)⟩
  next hheader =>
  split
  · next hinvalid =>
    exact .inl ⟨⟨_, rfl⟩, rfl, fun catalog h ↦ hinvalid h.valid⟩
  next hvalid =>
  split
  · next hrevision =>
    exact .inl ⟨⟨_, rfl⟩, rfl, fun catalog h ↦ Bool.noConfusion (hrevision.symm.trans h.revision)⟩
  next hrevision =>
  split
  · next error hclaim =>
    refine .inl ⟨⟨_, rfl⟩, rfl, fun catalog h ↦ ?_⟩
    obtain ⟨-, replay, hreplay⟩ := h.fresh
    rw [callOf_eq_ok_iff.mpr ⟨h.claimed, hreplay⟩] at hclaim
    cases hclaim
  next replay hclaim =>
  obtain ⟨hclaimed, hreplay⟩ := callOf_eq_ok_iff.mp hclaim
  split
  · next error hsync =>
    refine .inl ⟨⟨_, rfl⟩, rfl, fun catalog h ↦ ?_⟩
    rw [callOf_eq_ok_iff.mpr ⟨h.synchronised, h.sync⟩] at hsync
    cases hsync
  next catalog hsync =>
  obtain ⟨hsynchronised, hcatalog⟩ := callOf_eq_ok_iff.mp hsync
  exact .inr ⟨catalog,
    { fresh := ⟨by simpa using hheader, replay, hreplay⟩
      valid := not_not.mp hvalid
      revision := by simpa using hrevision
      claimed := hclaimed
      synchronised := hsynchronised
      sync := hcatalog }, rfl, rfl⟩

variable {attempt : Attempt}

theorem scope_of_valid (h : (validateReport report report.reportId control.agent.machinePk
      control.agent.workspacePk control.agentId attempt.now).isOk = true) :
    report.machinePk = control.agent.machinePk ∧
      report.workspacePk = control.agent.workspacePk := by
  cases hvalid : validateReport report report.reportId control.agent.machinePk
      control.agent.workspacePk control.agentId attempt.now with
  | error error =>
    rw [hvalid] at h
    cases h
  | ok => exact (Ingest.Rollups.sampled_of_validateReport hvalid).2

/-- The catalog is the first one, or the one that the inventory of the report made of it. -/
def Synchronised (control : Control) (report : MachineReport) (start : Storage)
    (catalog : Catalog) : Prop :=
  catalog = start.catalog ∨
    ∃ now, syncInventory start.catalog (agentKey control start) report now = .ok catalog

variable {catalog : Catalog}

/-- A synchronisation that succeeds would have succeeded on the first catalog, and it leaves
nothing else than that one would have left. -/
theorem synchronised_sync {start storage : Storage} {now : ℤ}
    (h : Synchronised control report start storage.catalog)
    (hsync : syncInventory storage.catalog (agentKey control storage) report now = .ok catalog) :
    Synchronised control report start catalog ∧
      ∃ first, syncInventory start.catalog (agentKey control start) report now = .ok first := by
  unfold syncInventory at hsync ⊢
  unfold Synchronised syncInventory at h ⊢
  cases hinventory : report.containerInventory with
  | none =>
    rw [hinventory] at hsync h
    dsimp only at hsync h ⊢
    obtain rfl := Except.ok.inj hsync
    refine ⟨h, start.catalog, rfl⟩
  | some inventory =>
    rw [hinventory] at hsync h
    dsimp only at hsync h ⊢
    have hfirst : storage.catalog = start.catalog →
        syncContainerCatalog start.catalog (agentKey control start) inventory now =
          .ok catalog := by
      intro hsame
      have hkey : agentKey control storage = { agentKey control start with
          appliedConfigRevision := storage.appliedConfigRevision } := by
        rw [agentKey, hsame]
        rfl
      rw [hsame, hkey] at hsync
      exact hsync
    rcases h with hsame | ⟨earlier, hearlier⟩
    · exact ⟨.inr ⟨now, hfirst hsame⟩, catalog, hfirst hsame⟩
    rcases syncContainerCatalog_cases hearlier with ⟨-, hsame⟩ | ⟨-, hdigest⟩
    · exact ⟨.inr ⟨now, hfirst hsame⟩, catalog, hfirst hsame⟩
    -- the digest of the inventory is already stored
    have hidle : syncContainerCatalog storage.catalog (agentKey control storage) inventory now =
        .ok storage.catalog := if_pos (.inr hdigest)
    obtain rfl := Except.ok.inj (hidle.symm.trans hsync)
    refine ⟨.inr ⟨earlier, hearlier⟩, ?_⟩
    have hok := isOk_syncContainerCatalog start.catalog (agentKey control start) inventory earlier
      now
    rw [hearlier] at hok
    cases hnow : syncContainerCatalog start.catalog (agentKey control start) inventory now with
    | error error =>
      rw [hnow] at hok
      cases hok
    | ok first => exact ⟨first, rfl⟩

variable (codec control report) in
theorem catalog_deliver (storage : Storage) (attempt : Attempt) :
    (deliver codec control report storage attempt).catalog =
        (enter control report storage attempt).2.catalog ∧
      storage.appliedConfigRevision ≤
        (deliver codec control report storage attempt).appliedConfigRevision := by
  have happlied : (enter control report storage attempt).2.appliedConfigRevision =
      storage.appliedConfigRevision := by
    unfold enter
    split
    · rfl
    split
    · rfl
    split
    · rfl
    split
    · rfl
    split <;> rfl
  have hacknowledge : ∀ (storage : Storage) (duplicate : Bool),
      (acknowledge codec control report storage attempt duplicate).2.catalog = storage.catalog ∧
        storage.appliedConfigRevision ≤
          (acknowledge codec control report storage attempt duplicate).2.appliedConfigRevision := by
    intro storage duplicate
    unfold acknowledge
    split
    · exact ⟨rfl, le_rfl⟩
    dsimp only
    split
    · exact ⟨rfl, le_rfl⟩
    refine ⟨rfl, ?_⟩
    dsimp only
    split
    · next hraised => exact hraised.le
    · exact le_rfl
  unfold deliver process
  rw [← happlied]
  rcases enter control report storage attempt with ⟨_ | _, entered⟩
  · exact ⟨rfl, le_rfl⟩
  dsimp only
  split
  · exact ⟨rfl, le_rfl⟩
  unfold storeAll
  split
  · exact ⟨rfl, le_rfl⟩
  split
  · exact ⟨rfl, le_rfl⟩
  · exact hacknowledge _ _

/-- What a retried report may have left in the control database. -/
structure Follows (control : Control) (report : MachineReport) (start storage : Storage) :
    Prop where
  applied : start.appliedConfigRevision ≤ storage.appliedConfigRevision
  catalog : Synchronised control report start storage.catalog

theorem follows_deliver {start : Storage} (storage : Storage) (attempt : Attempt)
    (h : Follows control report start storage) :
    Follows control report start (deliver codec control report storage attempt) := by
  obtain ⟨hcatalog, happlied⟩ := catalog_deliver codec control report storage attempt
  refine ⟨h.applied.trans happlied, ?_⟩
  rw [hcatalog]
  rcases enter_cases control report storage attempt with
    ⟨-, hsame, -⟩ | ⟨catalog, hentered, -, hnext⟩
  · rw [hsame]
    exact h.catalog
  · rw [hnext]
    exact (synchronised_sync h.catalog hentered.sync).1

theorem entered_start {start storage : Storage} (h : Follows control report start storage)
    (hentered : Entered control report storage attempt catalog) {keyEpoch sequence : ℕ}
    (hfresh : Fresh control start.replay keyEpoch sequence attempt.now) :
    ∃ first, Entered control report start ⟨keyEpoch, sequence, attempt.now, none⟩ first := by
  obtain ⟨-, first, hfirst⟩ := synchronised_sync h.catalog hentered.sync
  refine ⟨first, hfresh, hentered.valid, ?_, nofun, nofun, hfirst⟩
  obtain ⟨hlower, hupper⟩ := (revisionAdmitted_iff _ _).mp hentered.revision
  exact (revisionAdmitted_iff _ _).mpr ⟨h.applied.trans hlower, hupper⟩

theorem reach_of_entered {storage : Storage} (h : Entered control report storage attempt catalog)
    (hnone : attempt.failing = none) :
    reach codec control report storage attempt =
      (steadyStages codec control report ++ [batched codec control report]).length := by
  rcases enter_cases control report storage attempt with
    ⟨-, -, hrefused⟩ | ⟨-, -, hok, -⟩
  · exact absurd h (hrefused catalog)
  · rw [reach, hok, hnone, List.length_append, List.length_singleton]

theorem entered_of_reach {storage : Storage}
    (h : (steadyStages codec control report ++ [batched codec control report]).length ≤
      reach codec control report storage attempt) :
    ∃ catalog, Entered control report storage attempt catalog := by
  rcases enter_cases control report storage attempt with
    ⟨⟨error, herror⟩, -, -⟩ | ⟨catalog, hentered, -⟩
  · rw [reach, herror, List.length_append, List.length_singleton] at h
    exact absurd h (Nat.not_succ_le_zero _)
  · exact ⟨catalog, hentered⟩

end Gate

/-! ## Any number of deliveries -/

/-- The tables that reports and results of any kind have left, each in the workspace of its
machine or its check. -/
structure Reached (codec : CheckCodec) (control : Control) (machineOwner checkOwner : ℕ → ℕ)
    (start : Storage) : Prop where
  machine : control.agent.workspacePk = machineOwner control.agent.machinePk
  checks : ∀ row ∈ control.checks, row.check.workspacePk = checkOwner row.check.checkPk
  received : ∃ arrivals : List Ingest.Rollups.Arrival,
    (∀ arrival ∈ arrivals, arrival.From machineOwner) ∧ start.observed.tables =
      (run (Ingest.Rollups.receive codec.toCodec) Ingest.Rollups.emptyReception arrivals).tables
  recorded : ∃ calls : List PersistCall,
    (∀ call ∈ calls, callWorkspace call = checkOwner (callKey call).1) ∧
      start.observed.recording = run (record codec) emptyRecording calls

theorem blocksOwned_record {codec : CheckCodec} {owner : ℕ → ℕ} (recording : Recording)
    (call : PersistCall) (h : BlocksOwned owner recording.store.blocks)
    (howner : callWorkspace call = owner (callKey call).1) :
    BlocksOwned owner (record codec recording call).store.blocks := by
  unfold record
  dsimp only
  split
  · next hwrites =>
    rw [blocks_alone hwrites]
    cases call <;> exact h.perform howner
  · next hwrites =>
    rw [alone_of_not_writes (Bool.eq_false_of_not_eq_true hwrites)]
    exact h

theorem Reached.housed {codec : CheckCodec} {control : Control} {machineOwner checkOwner : ℕ → ℕ}
    {start : Storage} (h : Reached codec control machineOwner checkOwner start) :
    Housed machineOwner checkOwner start.observed := by
  obtain ⟨arrivals, hfrom, htables⟩ := h.received
  obtain ⟨calls, howner, hrecording⟩ := h.recorded
  constructor
  · rw [htables]
    exact (run_of_along Ingest.Rollups.summarised_receive
      (Ingest.Rollups.summarised_empty machineOwner) (along_of_forall hfrom)).shows.blocks_owned
  · have hempty : BlocksOwned checkOwner emptyRecording.store.blocks :=
      fun _ hblock ↦ absurd hblock List.not_mem_nil
    rw [hrecording]
    exact visits_run (visits_of_along blocksOwned_record hempty (along_of_forall howner))

/-- One of the deliveries is admitted and meets no failure of a database. -/
def Undisturbed (codec : CheckCodec) (control : Control) (report : MachineReport)
    (start : Storage) (attempts : List Attempt) : Prop :=
  ∃ before once after, attempts = before ++ once :: after ∧ once.failing = none ∧
    ∃ catalog, Entered control report (run (deliver codec control report) start before) once
      catalog

/-- However a report is delivered, and wherever its handlers fail: once one of them was not
disturbed, the tables are those that a single delivery leaves which is not disturbed and made at
the time of one of them. -/
theorem deliveries_leave_one (codec : CheckCodec) (control : Control) (report : MachineReport)
    (machineOwner checkOwner : ℕ → ℕ) (start : Storage)
    (hreached : Reached codec control machineOwner checkOwner start) (attempts : List Attempt)
    (hdone : Undisturbed codec control report start attempts) :
    ∃ once ∈ attempts, ∀ keyEpoch sequence,
      Fresh control start.replay keyEpoch sequence once.now →
        (run (deliver codec control report) start attempts).observed =
          (deliver codec control report start ⟨keyEpoch, sequence, once.now, none⟩).observed := by
  obtain ⟨before, whole, after, hsplit, hnone, catalog, hentered⟩ := hdone
  obtain ⟨hmachine, hworkspace⟩ := scope_of_valid hentered.valid
  have hreport : report.workspacePk = machineOwner report.machinePk := by
    rw [hworkspace, hreached.machine, hmachine]
  have hwhole : Uninterrupted (deliver codec control report) (reach codec control report)
      (steadyStages codec control report ++ [batched codec control report]) start attempts whole :=
    ⟨before, after, hsplit, (reach_of_entered hentered hnone).ge⟩
  obtain ⟨once, ⟨earlier, later, rfl, hreach⟩, hleft⟩ :=
    (resumable hreport hreached.checks).view_run (fun _ ↦ steady_of_mem) observed_deliver
      hreached.housed ⟨whole, hwhole⟩
  refine ⟨once, by simp, fun keyEpoch sequence hfresh ↦ ?_⟩
  obtain ⟨_, honce⟩ := entered_of_reach hreach
  have hfollows : Follows control report start
      (run (deliver codec control report) start earlier) :=
    run_invariant follows_deliver ⟨le_rfl, .inl rfl⟩ earlier
  obtain ⟨_, hfirst⟩ := entered_start hfollows honce hfresh
  have hsame : ∀ stage ∈ steadyStages codec control report ++ [batched codec control report],
      ∀ observed, stage ⟨keyEpoch, sequence, once.now, none⟩ observed = stage once observed := by
    intro stage hstage observed
    rcases List.mem_append.mp hstage with hsteady | hlast
    · exact steady_of_mem hsteady _ _ _
    · rw [List.mem_singleton.mp hlast]
      rfl
  rw [hleft, observed_deliver, reach_of_entered hfirst rfl, List.take_length,
    through_congr hsame]

/-- An agent without checks. -/
def soleControl : Control := ⟨"agent", Ingest.Rollups.soleAgent, []⟩

def emptyStorage : Storage where
  replay := fun _ _ ↦ none
  catalog := ⟨none, []⟩
  appliedConfigRevision := 1
  observed := ⟨Ingest.Rollups.emptyReception.tables, emptyRecording⟩

/-- A delivery whose batch fails, and the next one. -/
def failedDelivery : Attempt := ⟨1, 1, 300000, some .batch⟩

def secondDelivery : Attempt := ⟨1, 2, 360000, none⟩

theorem undisturbed_secondDelivery :
    Undisturbed sampleCodec soleControl (Ingest.Rollups.singleSample 1 0) emptyStorage
      [failedDelivery, secondDelivery] := by
  refine ⟨[failedDelivery], secondDelivery, [], rfl, rfl, ⟨none, []⟩, ?_⟩
  exact
    { fresh := ⟨by decide, _, rfl⟩
      valid := by decide
      revision := by decide
      claimed := nofun
      synchronised := nofun
      sync := rfl }

/-- The batch of the first delivery fails, the second delivery stores the report. -/
theorem deliveries_leave_one_second : ∃ once ∈ [failedDelivery, secondDelivery],
    ∀ keyEpoch sequence, Fresh soleControl emptyStorage.replay keyEpoch sequence once.now →
      (run (deliver sampleCodec soleControl (Ingest.Rollups.singleSample 1 0)) emptyStorage
        [failedDelivery, secondDelivery]).observed =
          (deliver sampleCodec soleControl (Ingest.Rollups.singleSample 1 0) emptyStorage
            ⟨keyEpoch, sequence, once.now, none⟩).observed :=
  deliveries_leave_one _ _ _ (fun _ ↦ 1) (fun _ ↦ 1) _
    ⟨rfl, by simp [soleControl], ⟨[], by simp, rfl⟩, ⟨[], by simp, rfl⟩⟩ _
      undisturbed_secondDelivery

end AlphaPing.System.Retries
