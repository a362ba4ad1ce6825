import AlphaPing.Ingest.Report
import AlphaPing.Ingest.Summaries

/-!
# Rollups of machines

`closed_rollups` writes the five-minute row when the report of the last minute of a block is
stored, and the hourly row when the report of the last minute of the hour is. A report that is
accepted later goes to its slot and into no rollup.
-/

namespace AlphaPing.Ingest.Rollups

open Protocol Library.Tables Library.Runs Library.Closing Blocks Summaries Telemetry Requests
  Validation Containers Report

/-! ## Rows -/

def machineKeys : RowKeys RollupRow where
  resourcePk := RollupRow.machinePk
  workspacePk := RollupRow.workspacePk
  bucketStart := RollupRow.bucketStart

def rollupRow (rollup : MachineRollup) (machinePk workspacePk : ℕ) (start : ℤ) : RollupRow where
  machinePk := machinePk
  workspacePk := workspacePk
  bucketStart := start
  sampleCount := rollup.sampleCount
  cpuAvgPermille := rollup.cpuAveragePermille
  cpuMaxPermille := rollup.cpuMaxPermille
  memoryAvgBytes := rollup.memoryAverageBytes
  storageMaxBytes := rollup.storageMaxBytes
  networkRxBytes := rollup.networkRxBytes
  networkTxBytes := rollup.networkTxBytes

/-- The fold of the statistics over reports. -/
def foldReports (reports : List MachineReport) : MachineRollup :=
  reports.foldl MachineRollup.addReport {}

/-- The rows as functions of what they are made of. -/
def machineRules (owner : ℕ → ℕ) : Rules HourOf MachineReport RollupRow 11 where
  closeBucket group bucket reports :=
    rollupRow (foldReports reports) group.1 (owner group.1) (bucketStart group.2 bucket)
  closeGroup group rows reports :=
    rollupRow ((rows.foldl MachineRollup.addStored {}).addBucket (foldReports reports)) group.1
      (owner group.1) (group.2 * 3600000)

def rollupStatement (row : RollupRow) : RowWrite machineKeys where
  new := row
  condition old := old.workspacePk == row.workspacePk
  change old := { row with
    machinePk := old.machinePk
    workspacePk := old.workspacePk
    bucketStart := old.bucketStart }
  condition_of old h := beq_iff_eq.mpr h
  key_change _ := rfl
  change_eq old hkey hworkspace := by
    obtain ⟨hmachine, hstart⟩ := Prod.mk.inj hkey
    simp only [machineKeys] at hmachine hstart hworkspace
    simp only [hmachine, hstart, hworkspace]

/-! ## Sample counts -/

theorem sampleCount_foldl_addSample (samples : List MetricSample) (rollup : MachineRollup) :
    (samples.foldl MachineRollup.addSample rollup).sampleCount =
      rollup.sampleCount + samples.length := by
  induction samples generalizing rollup with
  | nil => rfl
  | cons sample rest ih =>
    have hsample : (rollup.addSample sample).sampleCount = rollup.sampleCount + 1 := rfl
    rw [List.foldl_cons, ih, hsample, List.length_cons, Nat.add_assoc, Nat.add_comm 1]

theorem sampleCount_foldl_addReport (reports : List MachineReport) (rollup : MachineRollup) :
    (reports.foldl MachineRollup.addReport rollup).sampleCount =
      rollup.sampleCount + (reports.map fun report ↦ report.samples.length).sum := by
  induction reports generalizing rollup with
  | nil => rfl
  | cons report rest ih =>
    rw [List.foldl_cons, ih, MachineRollup.addReport, sampleCount_foldl_addSample, List.map_cons,
      List.sum_cons, Nat.add_assoc]

theorem sampleCount_foldl_addStored (rows : List RollupRow) (rollup : MachineRollup)
    (h : rollup.sampleCount + (rows.map RollupRow.sampleCount).sum ≤ maxU64) :
    (rows.foldl MachineRollup.addStored rollup).sampleCount =
      rollup.sampleCount + (rows.map RollupRow.sampleCount).sum := by
  induction rows generalizing rollup with
  | nil => rfl
  | cons row rest ih =>
    rw [List.map_cons, List.sum_cons] at h ⊢
    have hcount : (rollup.addStored row).sampleCount = rollup.sampleCount + row.sampleCount := by
      simp only [MachineRollup.addStored, saturatingAdd]
      omega
    rw [List.foldl_cons, ih _ (by omega), hcount, Nat.add_assoc]

theorem sampleCount_hour (rows : List RollupRow) (reports : List MachineReport)
    (h : (rows.map RollupRow.sampleCount).sum +
      (reports.map fun report ↦ report.samples.length).sum ≤ maxU64) :
    ((rows.foldl MachineRollup.addStored {}).addBucket (foldReports reports)).sampleCount =
      (rows.map RollupRow.sampleCount).sum +
        (reports.map fun report ↦ report.samples.length).sum := by
  have hstored : (rows.foldl MachineRollup.addStored {}).sampleCount =
      0 + (rows.map RollupRow.sampleCount).sum :=
    sampleCount_foldl_addStored rows {} (by rw [Nat.zero_add]; omega)
  have hfold : (foldReports reports).sampleCount =
      0 + (reports.map fun report ↦ report.samples.length).sum :=
    sampleCount_foldl_addReport reports {}
  rw [MachineRollup.addBucket, hstored, hfold, Nat.zero_add, Nat.zero_add]
  exact Nat.min_eq_left h

/-- An accepted report has some samples and not too many. -/
def Sampled (report : MachineReport) : Prop :=
  0 < report.samples.length ∧ report.samples.length ≤ maxReportSamples

theorem sampled_of_validateReport {report : MachineReport} {authenticatedReportId : Bytes}
    {machinePk workspacePk : ℕ} {agentId : String} {now : ℤ}
    (h : validateReport report authenticatedReportId machinePk workspacePk agentId now = .ok ()) :
    Sampled report ∧ report.machinePk = machinePk ∧ report.workspacePk = workspacePk := by
  have hvalid := validateReport_eq_ok_iff.mp h
  have hscope := hvalid.scope
  have hsamples := hvalid.sampleCount
  simp only [not_or, not_not, not_lt, List.isEmpty_iff] at hscope hsamples
  exact ⟨⟨List.length_pos_iff.mpr hsamples.1, hsamples.2⟩, hscope⟩

def machineTally (owner : ℕ → ℕ) : Tally (machineRules owner) 4 Unit where
  valid := Sampled
  weight _ report := report.samples.length
  count _ row := row.sampleCount
  limit := maxReportSamples
  presence := ()
  weight_pos _ h := h.1
  weight_le _ _ h := h.2
  count_closeBucket _ _ _ reports _ := by
    simp [machineRules, rollupRow, foldReports, sampleCount_foldl_addReport]
  count_closeGroup _ _ rows reports hlength hrows _ hreports := by
    have hsum := List.sum_le_card_nsmul (rows.map RollupRow.sampleCount)
      ((4 + 1) * maxReportSamples) (by simpa using hrows)
    rw [List.length_map, smul_eq_mul] at hsum
    have hbound := hsum.trans (Nat.mul_le_mul_right _ hlength)
    refine sampleCount_hour rows reports ((Nat.add_le_add hbound hreports).trans ?_)
    decide

/-! ## Receiving reports -/

/-- A report of an agent that passes validation. -/
structure Arrival where
  agentKey : AgentKeyRow
  request : Request
  now : ℤ
  valid : validateReport request.report request.reportId agentKey.machinePk agentKey.workspacePk
    request.agentId now = .ok ()

def Arrival.report (arrival : Arrival) : MachineReport := arrival.request.report

/-- The tables, and the reports that were accepted; the newest one comes first. -/
structure Reception where
  tables : MachineTables
  accepted : List MachineReport

variable (codec : Codec)

/-- A report is classified and stored. -/
def receive (reception : Reception) (arrival : Arrival) : Reception :=
  match classifySlot reception.tables arrival.report (codec.payloadHash arrival.report) with
  | .error _ => reception
  | .ok duplicate =>
    match storeReport codec reception.tables arrival.agentKey arrival.request arrival.now
        duplicate with
    | .error _ => reception
    | .ok tables =>
      { tables
        accepted := if duplicate then reception.accepted
          else arrival.report :: reception.accepted }

def emptyReception : Reception := ⟨⟨[], [], [], [], []⟩, []⟩

/-- The statement on `machine_rollups_5m` that a report brings. -/
def dueFive (tables : MachineTables) (report : MachineReport) : Option (RowWrite machineKeys) :=
  if closesBlock report then
    some (rollupStatement ((closedFive tables report).toRow report
      (blockStart report.nominalMinuteMs)))
  else none

/-- The statement on `machine_rollups_1h` that a report brings. -/
def dueHour (tables : MachineTables) (report : MachineReport) : Option (RowWrite machineKeys) :=
  if closesBlock report && closesHour report then
    some (rollupStatement ((closedHour tables report (closedFive tables report)).toRow report
      (hourStart report)))
  else none

def summaryTables (tables : MachineTables) : SummaryTables MachineReport RollupRow :=
  ⟨tables.blocks, tables.rollups5m, tables.rollups1h⟩

variable {codec}

theorem classifySlot_false_iff {tables : MachineTables} {report : MachineReport}
    {payloadHash : Bytes} :
    classifySlot tables report payloadHash = .ok false ↔
      readSlot tables.blocks report.machinePk report.workspacePk report.nominalMinuteMs = none := by
  unfold classifySlot
  split
  · next hnone => simp [hnone]
  · next hheld =>
    rw [hheld]
    split <;> simp

theorem summaryTables_storeReport {tables next : MachineTables} {arrival : Arrival}
    (h : storeReport codec tables arrival.agentKey arrival.request arrival.now false = .ok next) :
    summaryTables next =
      ⟨(blockWrite arrival.report (codec.payloadHash arrival.report)).perform
          (fun _ ↦ arrival.report.schemaVersion) tables.blocks,
        performDue (dueFive tables arrival.report) tables.rollups5m,
        performDue (dueHour tables arrival.report) tables.rollups1h⟩ := by
  unfold storeReport at h
  rw [if_neg Bool.false_ne_true] at h
  split at h
  · cases h
  next prepared hprepared =>
  obtain rfl := Except.ok.inj h
  obtain ⟨sample, -, rfl⟩ := Option.map_eq_some_iff.mp hprepared
  unfold closeBlock dueFive dueHour Arrival.report
  by_cases hblock : closesBlock arrival.request.report = true
  · by_cases hhour : closesHour arrival.request.report = true
    · simp only [hblock, hhour, closeHour, if_true, Bool.and_self]
      rfl
    · simp only [hblock, hhour, closeHour, if_true, Bool.and_false]
      rfl
  · simp only [hblock, closeHour, Bool.false_and]
    rfl

/-! ## The tables as a ledger -/

def entryOf (report : MachineReport) : Entry HourOf MachineReport 4 11 where
  place := placeOf report.machinePk report.nominalMinuteMs
  payload := report

/-- The tables show the ledger of the accepted reports. -/
structure Summarised (owner : ℕ → ℕ) (reception : Reception) : Prop where
  shows : Shows machineKeys owner (summaryTables reception.tables)
    (ledgerOf (machineRules owner) (reception.accepted.map entryOf))
  valid : (machineTally owner).Valid (reception.accepted.map entryOf)

theorem summarised_empty (owner : ℕ → ℕ) : Summarised owner emptyReception where
  shows := shows_empty
  valid := ⟨fun _ h ↦ absurd h List.not_mem_nil, List.nodup_nil⟩

theorem closedFive_eq (tables : MachineTables) (report : MachineReport) :
    closedFive tables report = foldReports (earlierPayloads tables.blocks report.machinePk
      report.workspacePk (blockStart report.nominalMinuteMs) ++ [report]) := by
  rw [foldReports, List.foldl_append]
  rfl

theorem closedHour_eq (tables : MachineTables) (report : MachineReport) (five : MachineRollup) :
    closedHour tables report five =
      ((selectHour machineKeys tables.rollups5m report.machinePk report.workspacePk
        (hourStart report) (blockStart report.nominalMinuteMs)).foldl MachineRollup.addStored
          {}).addBucket five :=
  rfl

theorem closes_iff (report : MachineReport) :
    (closesBlock report && closesHour report) = true ↔
      slotOf report.nominalMinuteMs = 4 ∧ bucketOf report.nominalMinuteMs = 11 := by
  simp only [closesBlock, closesHour, Bool.and_eq_true, beq_iff_eq]
  refine and_congr_right fun hslot ↦ ?_
  simp only [slotOf, bucketOf, blockStart, Fin.ext_iff] at hslot ⊢
  omega

section Due

variable {owner : ℕ → ℕ} {tables : MachineTables}
  {ledger : Ledger HourOf MachineReport RollupRow 4 11}
  {report : MachineReport}

theorem dueFive_writesAt (howner : report.workspacePk = owner report.machinePk) :
    WritesAt owner report.machinePk (blockStart report.nominalMinuteMs)
      (dueFive tables report) := by
  intro due hdue
  unfold dueFive at hdue
  split at hdue
  · obtain rfl := Option.some.inj hdue
    exact ⟨rfl, howner⟩
  · cases hdue

theorem dueHour_writesAt (howner : report.workspacePk = owner report.machinePk) :
    WritesAt owner report.machinePk (hourOf report.nominalMinuteMs * 3600000)
      (dueHour tables report) := by
  intro due hdue
  unfold dueHour at hdue
  split at hdue
  · obtain rfl := Option.some.inj hdue
    exact ⟨rfl, howner⟩
  · cases hdue

theorem dueFive_new (h : Shows machineKeys owner (summaryTables tables) ledger)
    (howner : report.workspacePk = owner report.machinePk) :
    (dueFive tables report).map RowWrite.new =
      if slotOf report.nominalMinuteMs = 4 then
        (accept (machineRules owner) ledger (entryOf report)).bucketRows
          (report.machinePk, hourOf report.nominalMinuteMs) (bucketOf report.nominalMinuteMs)
      else none := by
  unfold dueFive
  by_cases hslot : slotOf report.nominalMinuteMs = 4
  · rw [if_pos (by simpa [closesBlock] using hslot), if_pos hslot, entryOf,
      h.bucketRows_accept hslot, Option.map_some, closedFive_eq]
    simp only [machineRules, rollupStatement, bucketStart_of, ← howner]
    rfl
  · rw [if_neg (by simpa [closesBlock] using hslot), if_neg hslot, Option.map_none]

theorem dueHour_new (h : Shows machineKeys owner (summaryTables tables) ledger)
    (howner : report.workspacePk = owner report.machinePk) :
    (dueHour tables report).map RowWrite.new =
      if slotOf report.nominalMinuteMs = 4 ∧ bucketOf report.nominalMinuteMs = 11 then
        (accept (machineRules owner) ledger (entryOf report)).groupRows
          (report.machinePk, hourOf report.nominalMinuteMs)
      else none := by
  unfold dueHour
  by_cases hcloses : slotOf report.nominalMinuteMs = 4 ∧ bucketOf report.nominalMinuteMs = 11
  · obtain ⟨hslot, hbucket⟩ := hcloses
    rw [if_pos ((closes_iff report).mpr ⟨hslot, hbucket⟩), if_pos ⟨hslot, hbucket⟩, entryOf,
      h.groupRows_accept hslot hbucket, Option.map_some, closedHour_eq, closedFive_eq]
    simp only [machineRules, rollupStatement, ← howner]
    rfl
  · rw [if_neg (fun h ↦ hcloses ((closes_iff report).mp h)), if_neg hcloses, Option.map_none]

end Due

/-- The reports of a machine come from its workspace. -/
def Arrival.From (owner : ℕ → ℕ) (arrival : Arrival) : Prop :=
  arrival.agentKey.workspacePk = owner arrival.agentKey.machinePk

theorem summarised_receive {owner : ℕ → ℕ} (reception : Reception) (arrival : Arrival)
    (h : Summarised owner reception) (hfrom : arrival.From owner) :
    Summarised owner (receive codec reception arrival) := by
  obtain ⟨hsampled, hmachine, hworkspace⟩ := sampled_of_validateReport arrival.valid
  have howner : arrival.report.workspacePk = owner arrival.report.machinePk := by
    rw [Arrival.report, hworkspace, hfrom, hmachine]
  unfold receive
  split
  · exact h
  next duplicate hclassified =>
  split
  · exact h
  next tables hstored =>
  cases duplicate with
  | true =>
    unfold storeReport at hstored
    obtain rfl := Except.ok.inj hstored
    exact h
  | false =>
    have hempty := classifySlot_false_iff.mp hclassified
    refine ⟨?_, ⟨?_, ?_⟩⟩
    · rw [summaryTables_storeReport hstored]
      exact shows_accept h.shows (blockWrite arrival.report _) _ howner hempty (machineRules owner) rfl
        (dueFive_writesAt howner) (dueHour_writesAt howner) (dueFive_new h.shows howner)
        (dueHour_new h.shows howner)
    · exact List.forall_mem_cons.mpr ⟨hsampled, h.valid.payloads⟩
    · exact List.nodup_cons.mpr ⟨h.shows.placeOf_not_mem howner hempty, h.valid.distinct⟩

/-! ## What the rollups cover -/

def reportKey (report : MachineReport) : ℕ × ℤ := (report.machinePk, report.nominalMinuteMs)

/-- The five-minute row of a minute's block is the fold over what the block stores. -/
def FiveSettled (tables : MachineTables) (machinePk workspacePk : ℕ) (minute : ℤ) : Prop :=
  let reports := storedPayloads tables.blocks machinePk workspacePk (blockStart minute)
  reports ≠ [] → lookup machineKeys.key (machinePk, blockStart minute) tables.rollups5m =
    some (rollupRow (foldReports reports) machinePk workspacePk (blockStart minute))

/-- The hourly row of a minute's hour counts the samples that its blocks store. -/
def HourSettled (tables : MachineTables) (machinePk workspacePk : ℕ) (minute : ℤ) : Prop :=
  let reports := storedHour tables.blocks machinePk workspacePk (hourOf minute)
  reports ≠ [] → ∃ row, lookup machineKeys.key (machinePk, hourOf minute * 3600000)
    tables.rollups1h = some row ∧
      row.sampleCount = (reports.map fun report ↦ report.samples.length).sum

theorem place_entryOf (report : MachineReport) :
    (entryOf report).place = placeOf (reportKey report).1 (reportKey report).2 :=
  rfl

section Summarised

variable {owner : ℕ → ℕ} {reception : Reception}

theorem Summarised.stored (h : Summarised owner reception) {report : MachineReport}
    (hreport : report ∈ reception.accepted) :
    (readSlot reception.tables.blocks report.machinePk (owner report.machinePk)
      report.nominalMinuteMs).map SlotColumns.payload = some report :=
  h.shows.readSlot_of_mem h.valid.distinct (List.mem_map_of_mem hreport) rfl

theorem Summarised.fiveSettled_iff (h : Summarised owner reception) (machinePk : ℕ) (minute : ℤ) :
    FiveSettled reception.tables machinePk (owner machinePk) minute ↔
      ClosedBlock reportKey machinePk minute reception.accepted := by
  rw [← bucketClosedLast_iff place_entryOf, ← h.valid.bucketSettled_iff,
    h.shows.bucketSettled_iff]
  simp only [FiveSettled, machineRules, bucketStart_of]
  rfl

theorem Summarised.hourSettled_iff (h : Summarised owner reception) (machinePk : ℕ) (minute : ℤ) :
    HourSettled reception.tables machinePk (owner machinePk) minute ↔
      ClosedHour reportKey machinePk minute reception.accepted := by
  rw [← groupClosedLast_iff place_entryOf, ← h.valid.groupSettled_iff,
    h.shows.groupSettled_iff (machineTally owner)]
  exact imp_congr_right fun _ ↦ exists_congr fun row ↦ and_congr_right fun _ ↦
    ⟨fun hcount _ ↦ hcount, fun hcount ↦ hcount ()⟩

end Summarised

/-- Every accepted report is stored; the rollups of a block and of an hour cover what is stored
exactly when the block and the hour were closed last. -/
structure RollupsFollow (owner : ℕ → ℕ) (reception : Reception) : Prop where
  stored : ∀ report ∈ reception.accepted,
    (readSlot reception.tables.blocks report.machinePk (owner report.machinePk)
      report.nominalMinuteMs).map SlotColumns.payload = some report
  five : ∀ machinePk minute, FiveSettled reception.tables machinePk (owner machinePk) minute ↔
    ClosedBlock reportKey machinePk minute reception.accepted
  hour : ∀ machinePk minute, HourSettled reception.tables machinePk (owner machinePk) minute ↔
    ClosedHour reportKey machinePk minute reception.accepted

theorem rollupsFollow_of_summarised {owner : ℕ → ℕ} {reception : Reception}
    (h : Summarised owner reception) : RollupsFollow owner reception where
  stored _ := h.stored
  five := h.fiveSettled_iff
  hour := h.hourSettled_iff

theorem visits_rollupsFollow (codec : Codec) {owner : ℕ → ℕ} {arrivals : List Arrival}
    (h : ∀ arrival ∈ arrivals, arrival.From owner) :
    Visits (receive codec) (RollupsFollow owner) emptyReception arrivals :=
  visits_mono (fun _ ↦ rollupsFollow_of_summarised)
    (visits_of_along summarised_receive (summarised_empty owner) (along_of_forall h))

/-! ## A report that comes late -/

def singleSample (identifier : UInt8) (minute : ℤ) : MachineReport where
  reportId := List.replicate 16 identifier
  machinePk := 1
  workspacePk := 1
  nominalMinuteMs := minute
  samples := [{ observedAtMs := minute }]
  schemaVersion := 4
  containerInventory := none
  probeResults := []
  appliedConfigRevision := 1
  commandResults := []
  agentVersion := "0.1.0"

def soleAgent : AgentKeyRow where
  machineId := "machine"
  workspaceId := "workspace"
  machinePk := 1
  workspacePk := 1
  appliedConfigRevision := 1
  desiredConfigRevision := 1
  maintenanceUntil := none
  containerCatalogDigest := none

/-- The report of the last minute of a block. -/
def closingArrival : Arrival where
  agentKey := soleAgent
  request := ⟨"agent", 1, 1, List.replicate 16 1, singleSample 1 240000⟩
  now := 300000
  valid := by decide

/-- The report of the first minute of the block. -/
def firstArrival : Arrival where
  agentKey := soleAgent
  request := ⟨"agent", 1, 2, List.replicate 16 2, singleSample 2 0⟩
  now := 300000
  valid := by decide

end AlphaPing.Ingest.Rollups
