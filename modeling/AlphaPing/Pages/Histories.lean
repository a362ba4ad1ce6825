import AlphaPing.Checks.Rollups
import AlphaPing.Library.Pages
import AlphaPing.Live.MachineReports
import AlphaPing.System.CheckHistory

/-!
# The history of a machine or a check

A history is read page by page: each page comes with a cursor, the time of the last row that it
was made of, until nothing is left. The rows are rollups, or blocks of reports or results, of which
a page takes as many as fit.
-/

namespace AlphaPing.Pages.Histories

open Library.Pages Library.Tables
open Checks.Rollups (CheckRollupRow)
open Ingest.Telemetry (RollupRow)
open Library.Json (Json)
open Library.SealedMessages (Bytes)
open Live.Frames (LiveMetric)
open Live.MachineReports (decodeCompressedMachineSamples)
open System.CheckHistory (RawCheckHistoryPoint byteLength decodeStoredCheckHistoryPayload)
open System.StoredInventories (maxSafeInteger)

/-! ## Ranges and cursors -/

inductive RollupResolution where
  | fiveMinutes
  | hour
  deriving DecidableEq

inductive HistoryResolution where
  | raw
  | rollup (resolution : RollupResolution)
  deriving DecidableEq

def maximumRange : HistoryResolution → ℤ
  | .raw => 86400000
  | .rollup .fiveMinutes => 7 * 86400000
  | .rollup .hour => 31 * 86400000

/-- What `validateMachineHistoryRange` and `validateServiceHistoryRange` accept. -/
structure HistoryRange (resolution : HistoryResolution) where
  start : ℤ
  stop : ℤ
  start_nonneg : 0 ≤ start
  start_lt_stop : start < stop
  stop_safe : stop ≤ maxSafeInteger
  length_le : stop - start ≤ maximumRange resolution

/-- The errors of machines and of services have the same cases. -/
inductive HistoryError where
  | range
  | data
  | cursor

/-- What the text of a cursor stands for, without its version. -/
structure HistoryCursorPayload where
  resolution : HistoryResolution
  last : ℤ

def encodeHistoryCursor (resolution : HistoryResolution) (last : ℤ) :
    Except HistoryError HistoryCursorPayload :=
  if maxSafeInteger < last ∨ last < 0 then .error .cursor else .ok ⟨resolution, last⟩

def decodeHistoryCursor (resolution : HistoryResolution) :
    Option HistoryCursorPayload → Except HistoryError (Option ℤ)
  | none => .ok none
  | some data =>
    if data.resolution ≠ resolution ∨ maxSafeInteger < data.last ∨ data.last < 0 then
      .error .cursor
    else .ok (some data.last)

variable {resolution : HistoryResolution}

/-- `validateCursor` and `validatedCursor`. -/
def validateCursor (range : HistoryRange resolution) (cursor : Option HistoryCursorPayload) :
    Except HistoryError (Option ℤ) :=
  match decodeHistoryCursor resolution cursor with
  | .error _ => .error .range
  | .ok none => .ok none
  | .ok (some last) =>
    if last < range.start - 300000 ∨ range.stop ≤ last then .error .range else .ok (some last)

/-! ## The tables -/

/-- A row of `telemetry_blocks_5m` or `check_result_blocks_5m`. -/
structure RawBlockRow (Payload : Type) where
  resourcePk : ℕ
  workspacePk : ℕ
  blockStart : ℤ
  /-- The five columns. -/
  payloads : List (Option Payload)

structure HistoryTables where
  machineBlocks : List (RawBlockRow Bytes)
  machineRollups : RollupResolution → List RollupRow
  checkBlocks : List (RawBlockRow Json)
  checkRollups : RollupResolution → List CheckRollupRow
  machineBlocks_key : UniqueKey (fun row ↦ (row.resourcePk, row.blockStart)) machineBlocks
  machineRollups_key (resolution : RollupResolution) :
    UniqueKey (fun row ↦ (row.machinePk, row.bucketStart)) (machineRollups resolution)
  checkBlocks_key : UniqueKey (fun row ↦ (row.resourcePk, row.blockStart)) checkBlocks
  checkRollups_key (resolution : RollupResolution) :
    UniqueKey (fun row ↦ (row.checkPk, row.bucketStart)) (checkRollups resolution)

/-- What an authorized request is about. -/
structure Scope where
  workspacePk : ℕ
  resourcePk : ℕ
  deriving DecidableEq

/-! ## A page -/

structure HistoryPage (Point : Type) where
  points : List Point
  nextCursor : Option HistoryCursorPayload

/-- What the loaders differ in: the rows of their queries, the number of them on a page, and the
points of the rows that a page has room for, with the number of these rows. -/
structure History (resolution : HistoryResolution) (Row Point : Type) where
  range : HistoryRange resolution
  rows : HistoryTables → List Row
  time : Row → ℤ
  pageSize : ℕ
  process : List Row → Option (List Point × ℕ)

variable {Row Point Payload : Type}

/-- What is made of the results of a query. -/
def History.page (history : History resolution Row Point) (results : List Row) :
    Except HistoryError (HistoryPage Point) :=
  match history.process (results.take history.pageSize) with
  | none => .error .data
  | some (points, processed) =>
    match (results.take processed).getLast? with
    | none => .ok ⟨points, none⟩
    | some last =>
      if processed < results.length then do
        let nextCursor ← encodeHistoryCursor resolution (history.time last)
        .ok ⟨points, some nextCursor⟩
      else .ok ⟨points, none⟩

def History.load (history : History resolution Row Point) (tables : HistoryTables)
    (cursor : Option HistoryCursorPayload) : Except HistoryError (HistoryPage Point) := do
  let after ← validateCursor history.range cursor
  history.page (selectOrdered history.time (history.pageSize + 1)
    ((history.rows tables).filter fun row ↦ after.all fun last ↦ decide (last < history.time row)))

/-- The pages up to the end of a history, and no more than so many. -/
def History.follow (history : History resolution Row Point) (tables : HistoryTables) :
    ℕ → Option HistoryCursorPayload → Except HistoryError (List (HistoryPage Point))
  | 0, _ => .ok []
  | count + 1, cursor => do
    let page ← history.load tables cursor
    match page.nextCursor with
    | none => return [page]
    | some next => return page :: (← history.follow tables count (some next))

/-! ## Rollups -/

/-- A page of rollups has room for 744 rows. -/
def rollupHistory (range : HistoryRange resolution) (scope : Scope)
    (table : HistoryTables → List Row) (owner : Row → Scope) (time : Row → ℤ)
    (point : Row → Point) : History resolution Row Point where
  range := range
  rows tables := (table tables).filter fun row ↦
    decide (scope = owner row) && decide (range.start ≤ time row ∧ time row < range.stop)
  time := time
  pageSize := 744
  process page := some (page.map point, page.length)

structure MachineHistoryPoint where
  bucketStart : ℤ
  sampleCount : ℕ
  cpuAveragePermille : ℕ
  cpuMaxPermille : ℕ
  memoryAverageBytes : ℕ
  memoryTotalBytes : Option ℕ
  storageMaxBytes : ℕ
  storageTotalBytes : Option ℕ
  networkRxBytes : ℕ
  networkTxBytes : ℕ
  networkRxBps : Option ℕ
  networkTxBps : Option ℕ
  load1mMilli : Option ℕ
  uptimeSeconds : Option ℕ

def rollupPoint (row : RollupRow) : MachineHistoryPoint :=
  ⟨row.bucketStart, row.sampleCount, row.cpuAvgPermille, row.cpuMaxPermille, row.memoryAvgBytes,
    none, row.storageMaxBytes, none, row.networkRxBytes, row.networkTxBytes, none, none, none,
    none⟩

/-- Its branch for rollups. -/
def loadMachineHistory (scope : Scope) (resolution : RollupResolution)
    (range : HistoryRange (.rollup resolution)) :
    History (.rollup resolution) RollupRow MachineHistoryPoint :=
  rollupHistory range scope (HistoryTables.machineRollups · resolution)
    (fun row ↦ ⟨row.workspacePk, row.machinePk⟩) RollupRow.bucketStart rollupPoint

structure CheckRollupHistoryPoint where
  bucketStart : ℤ
  totalCount : ℕ
  healthyCount : ℕ
  degradedCount : ℕ
  downCount : ℕ
  unknownCount : ℕ
  latencyAverageMs : Option ℕ
  latencyMaxMs : Option ℕ

def checkRollupPoint (row : CheckRollupRow) : CheckRollupHistoryPoint :=
  ⟨row.bucketStart, row.totalCount, row.healthyCount, row.degradedCount, row.downCount,
    row.totalCount - row.healthyCount - row.degradedCount - row.downCount, row.latencyAvgMs,
    row.latencyMaxMs⟩

/-- Its branch for rollups. -/
def loadServiceCheckHistory (scope : Scope) (resolution : RollupResolution)
    (range : HistoryRange (.rollup resolution)) :
    History (.rollup resolution) CheckRollupRow CheckRollupHistoryPoint :=
  rollupHistory range scope (HistoryTables.checkRollups · resolution)
    (fun row ↦ ⟨row.workspacePk, row.checkPk⟩) CheckRollupRow.bucketStart checkRollupPoint

/-! ## Blocks -/

/-- `RAW_COMPRESSED_PAGE_BYTES` and `RAW_PAYLOAD_PAGE_BYTES`. -/
def rawPageBytes : ℕ := 4 * 1024 * 1024

/-- What the histories of machines and of checks differ in. -/
structure RawReader (Payload Point : Type) where
  byteLength : Payload → ℕ
  decode : Payload → Option (List Point)
  time : Point → ℤ
  pointLimit : ℕ

/-- The loop over the blocks of a page. -/
def RawReader.loop (reader : RawReader Payload Point) (range : HistoryRange .raw) :
    List (RawBlockRow Payload) → ℕ → ℕ → List Point → Option (List Point × ℕ)
  | [], _, processedRows, points => some (points, processedRows)
  | block :: rest, bytes, processedRows, points =>
    let payloads := block.payloads.reduceOption
    let blockBytes := (payloads.map reader.byteLength).sum
    if 0 < processedRows ∧ rawPageBytes < bytes + blockBytes then some (points, processedRows)
    else do
      let samples ← payloads.mapM reader.decode
      let points := points ++ samples.flatten.filter fun point ↦
        decide (range.start ≤ reader.time point ∧ reader.time point < range.stop)
      if reader.pointLimit < points.length then none
      else reader.loop range rest (bytes + blockBytes) (processedRows + 1) points

/-- A page of blocks has room for 72 rows. -/
def rawHistory (reader : RawReader Payload Point) (scope : Scope) (range : HistoryRange .raw)
    (blocks : HistoryTables → List (RawBlockRow Payload)) :
    History .raw (RawBlockRow Payload) Point where
  range := range
  rows tables := (blocks tables).filter fun row ↦
    decide (scope = ⟨row.workspacePk, row.resourcePk⟩) &&
      decide (range.start / 300000 * 300000 ≤ row.blockStart ∧ row.blockStart < range.stop)
  time := RawBlockRow.blockStart
  pageSize := 72
  process page := (reader.loop range page 0 0 []).map fun (points, processedRows) ↦
    (points.insertionSort fun left right ↦ reader.time left ≤ reader.time right, processedRows)

def samplePoint (sample : LiveMetric) : MachineHistoryPoint :=
  ⟨sample.observedAt, 1, sample.cpuPermille, sample.cpuPermille, sample.memoryUsedBytes,
    sample.memoryTotalBytes, sample.storageUsedBytes, sample.storageTotalBytes, 0, 0,
    sample.networkRxBps, sample.networkTxBps, sample.load1mMilli, sample.uptimeSeconds⟩

/-- What a report inflates to is a parameter. -/
def loadRawHistory (inflateZlib : Bytes → Option Bytes) (scope : Scope)
    (range : HistoryRange .raw) : History .raw (RawBlockRow Bytes) MachineHistoryPoint :=
  rawHistory
    { byteLength := List.length
      decode report := (decodeCompressedMachineSamples inflateZlib report).map (·.map samplePoint)
      time := MachineHistoryPoint.bucketStart
      pointLimit := 2160 } scope range HistoryTables.machineBlocks

def loadRawCheckHistory (scope : Scope) (range : HistoryRange .raw) :
    History .raw (RawBlockRow Json) RawCheckHistoryPoint :=
  rawHistory
    { byteLength := byteLength
      decode := decodeStoredCheckHistoryPayload
      time := RawCheckHistoryPoint.observedAt
      pointLimit := 4320 } scope range HistoryTables.checkBlocks

/-! ## What is listed -/

/-- Following the cursor lists every row once, in the order of their times, and comes to an end,
unless a page is refused. -/
def History.Followed (history : History resolution Row Point) : Prop :=
  ∀ tables count, (history.rows tables).length < count →
    match history.follow tables count none with
    | .ok pages => (∃ page ∈ pages, page.nextCursor = none) ∧ ∃ portions : List (List Row),
        List.Forall₂ (fun page portion ↦
          history.process portion = some (page.points, portion.length)) pages portions ∧
        portions.flatten.Pairwise (fun row other ↦ history.time row < history.time other) ∧
        ∀ row, row ∈ portions.flatten ↔ row ∈ history.rows tables
    | .error error =>
      error = .data ∧ ∃ page, page ⊆ history.rows tables ∧ history.process page = none

structure History.Sound (history : History resolution Row Point) : Prop where
  pageSize_pos : 0 < history.pageSize
  unique (tables : HistoryTables) : UniqueKey history.time (history.rows tables)
  bounded (tables : HistoryTables) : ∀ row ∈ history.rows tables, 0 ≤ history.time row ∧
    history.range.start - 300000 ≤ history.time row ∧ history.time row < history.range.stop
  processes {page : List Row} {points : List Point} {count : ℕ}
    (h : history.process page = some (points, count)) : count ≤ page.length ∧
      (page ≠ [] → 0 < count) ∧ history.process (page.take count) = some (points, count)

/-- A cursor and the time that it stands for. -/
inductive Stands (range : HistoryRange resolution) :
    Option HistoryCursorPayload → Option ℤ → Prop where
  | start : Stands range none none
  | after (last : ℤ) (hpos : 0 ≤ last) (hlow : range.start - 300000 ≤ last)
      (hhigh : last < range.stop) : Stands range (some ⟨resolution, last⟩) (some last)

section Sound

variable {history : History resolution Row Point} {cursor : Option HistoryCursorPayload}
  {after : Option ℤ}

theorem validateCursor_of_stands {range : HistoryRange resolution}
    (h : Stands range cursor after) : validateCursor range cursor = .ok after := by
  cases h with
  | start => rfl
  | after last hpos hlow hhigh =>
    have hsafe : ¬(maxSafeInteger < last ∨ last < 0) := by
      have hstop := range.stop_safe
      omega
    have hrange : ¬(last < range.start - 300000 ∨ range.stop ≤ last) := by omega
    simp only [validateCursor, decodeHistoryCursor, ne_eq, not_true_eq_false, false_or,
      if_neg hsafe, if_neg hrange]

/-- A page takes rows from those behind its cursor, and its own cursor leaves the others. -/
theorem History.Sound.load (h : history.Sound) (hcursor : Stands history.range cursor after)
    (tables : HistoryTables) {rest : List Row}
    (hrest : remaining history.time (after.getD (-1)) (history.rows tables) = rest) :
    (history.load tables cursor = .error .data ∧
      ∃ page, page ⊆ history.rows tables ∧ history.process page = none) ∨
    ∃ page count, history.load tables cursor = .ok page ∧
      history.process (rest.take count) = some (page.points, count) ∧ count ≤ rest.length ∧
      (page.nextCursor = none ∧ count = rest.length ∨
        ∃ next last, page.nextCursor = some next ∧ Stands history.range (some next) (some last) ∧
          0 < count ∧ remaining history.time last (history.rows tables) = rest.drop count) := by
  have hload : history.load tables cursor = history.page (rest.take (history.pageSize + 1)) := by
    have hafter : ((history.rows tables).filter fun row ↦
        after.all fun last ↦ decide (last < history.time row)) =
          (history.rows tables).filter fun row ↦ after.getD (-1) < history.time row := by
      refine List.filter_congr fun row hrow ↦ ?_
      have hnonneg := (h.bounded tables row hrow).1
      cases after with
      | none => simp; omega
      | some last => rfl
    rw [History.load, validateCursor_of_stands hcursor, ← hrest, remaining, ← hafter]
    rfl
  have hstored : rest ⊆ history.rows tables := fun row hrow ↦ (mem_remaining.mp (hrest ▸ hrow)).1
  rw [hload, History.page, List.take_take, Nat.min_eq_left (Nat.le_succ _)]
  cases hprocess : history.process (rest.take history.pageSize) with
  | none => exact .inl ⟨rfl, _, fun row hrow ↦ hstored (List.mem_of_mem_take hrow), hprocess⟩
  | some processed =>
    obtain ⟨points, count⟩ := processed
    obtain ⟨hcount, hpos, hsame⟩ := h.processes hprocess
    rw [List.length_take] at hcount
    have hlimit : count ≤ history.pageSize := hcount.trans (Nat.min_le_left _ _)
    have hlength : count ≤ rest.length := hcount.trans (Nat.min_le_right _ _)
    rw [List.take_take, Nat.min_eq_left hlimit] at hsame
    right
    dsimp only
    rw [List.take_take, Nat.min_eq_left (hlimit.trans (Nat.le_succ _)), List.length_take]
    cases hlast : (rest.take count).getLast? with
    | none =>
      refine ⟨_, count, rfl, hsame, hlength, .inl ⟨rfl, ?_⟩⟩
      have htaken := congrArg List.length (List.getLast?_eq_none_iff.mp hlast)
      rw [List.length_take, Nat.min_eq_left hlength, List.length_nil] at htaken
      by_contra hne
      have htake : rest.take history.pageSize ≠ [] := fun hnil ↦
        (List.take_eq_nil_iff.mp hnil).elim h.pageSize_pos.ne' fun hempty ↦
          hne (by rw [htaken, hempty]; rfl)
      exact (hpos htake).ne' htaken
    | some last =>
      have hmem := hstored (List.mem_of_mem_take (List.mem_of_getLast? hlast))
      obtain ⟨hnonneg, hlow, hstop⟩ := h.bounded tables last hmem
      have hsafe : ¬(maxSafeInteger < history.time last ∨ history.time last < 0) := by
        have hrange := history.range.stop_safe
        omega
      by_cases hmore : count < min (history.pageSize + 1) rest.length
      · subst hrest
        refine ⟨_, count, by simp only [if_pos hmore, encodeHistoryCursor, if_neg hsafe]; rfl,
          hsame, hlength, .inr ⟨_, _, rfl, .after _ hnonneg hlow hstop, ?_,
            remaining_last (h.unique tables) hlast⟩⟩
        exact Nat.pos_of_ne_zero fun hzero ↦ by simp [hzero] at hlast
      · exact ⟨⟨points, none⟩, count, if_neg hmore, hsame, hlength, .inl ⟨rfl, by omega⟩⟩

theorem History.Sound.follow (h : history.Sound) (hcursor : Stands history.range cursor after)
    (tables : HistoryTables) {count : ℕ} {rest : List Row}
    (hrest : remaining history.time (after.getD (-1)) (history.rows tables) = rest)
    (hcount : rest.length < count) :
    (history.follow tables count cursor = .error .data ∧
      ∃ page, page ⊆ history.rows tables ∧ history.process page = none) ∨
    ∃ pages portions, history.follow tables count cursor = .ok pages ∧
      (∃ page ∈ pages, page.nextCursor = none) ∧
      List.Forall₂ (fun page portion ↦
        history.process portion = some (page.points, portion.length)) pages portions ∧
      portions.flatten = rest := by
  induction count generalizing cursor after rest with
  | zero => exact absurd hcount (Nat.not_lt_zero _)
  | succ count ih =>
    rw [History.follow]
    rcases h.load hcursor tables hrest with
      ⟨hload, hrefused⟩ | ⟨⟨points, nextCursor⟩, taken, hload, hprocess, htaken, hnext⟩
    · exact .inl ⟨by rw [hload]; rfl, hrefused⟩
    have hportion :
        history.process (rest.take taken) = some (points, (rest.take taken).length) := by
      rw [List.length_take, Nat.min_eq_left htaken]
      exact hprocess
    rw [hload]
    rcases hnext with ⟨rfl, rfl⟩ | ⟨next, last, rfl, hcursor', hpos, hrest'⟩
    · exact .inr ⟨_, [rest.take rest.length], rfl, ⟨_, List.mem_singleton_self _, rfl⟩,
        .cons hportion .nil, by simp⟩
    · have hlater : (rest.drop taken).length < count := by
        rw [List.length_drop]
        omega
      rcases ih hcursor' hrest' hlater with
        ⟨hfollow, hrefused⟩ | ⟨pages, portions, hfollow, ⟨page, hpage, hnone⟩, hpages, hflat⟩
      · exact .inl ⟨by dsimp only [bind, Except.bind]; rw [hfollow], hrefused⟩
      · exact .inr ⟨_, rest.take taken :: portions,
          by dsimp only [bind, Except.bind]; rw [hfollow]; rfl,
          ⟨page, List.mem_cons_of_mem _ hpage, hnone⟩, .cons hportion hpages,
          by rw [List.flatten_cons, hflat, List.take_append_drop]⟩

theorem History.Sound.followed (h : history.Sound) : history.Followed := by
  intro tables count hcount
  have hall (row : Row) : row ∈ remaining history.time (-1) (history.rows tables) ↔
      row ∈ history.rows tables :=
    mem_remaining.trans (and_iff_left_of_imp fun hrow ↦ by
      have hnonneg := (h.bounded tables row hrow).1
      omega)
  have hlength : (remaining history.time (-1) (history.rows tables)).length < count := by
    rw [remaining, List.length_insertionSort]
    exact (List.length_filter_le _ _).trans_lt hcount
  rcases h.follow .start tables rfl hlength with
    ⟨hfollow, hrefused⟩ | ⟨pages, portions, hfollow, hend, hpages, hflat⟩
  · rw [hfollow]
    exact ⟨rfl, hrefused⟩
  · rw [hfollow]
    exact ⟨hend, portions, hpages, hflat ▸ pairwise_remaining (h.unique tables),
      fun row ↦ hflat ▸ hall row⟩

end Sound

/-! ## The histories -/

/-- The rows of one machine or check are told apart by their times. -/
theorem uniqueKey_owned {time : Row → ℤ} {rows : List Row} {scope : Scope} {owner : Row → Scope}
    (h : UniqueKey (fun row ↦ ((owner row).resourcePk, time row)) rows) (inside : Row → Bool) :
    UniqueKey time (rows.filter fun row ↦ decide (scope = owner row) && inside row) := by
  refine List.Nodup.map_on (fun first hfirst second hsecond heq ↦ ?_) (h.filter _).of_map
  simp only [List.mem_filter, Bool.and_eq_true, decide_eq_true_eq] at hfirst hsecond
  refine h.eq_of_mem hfirst.1 hsecond.1 ?_
  rw [← hfirst.2.1, ← hsecond.2.1, heq]

theorem sound_rollupHistory {range : HistoryRange resolution} {table : HistoryTables → List Row}
    {scope : Scope} {owner : Row → Scope} {time : Row → ℤ} (point : Row → Point)
    (hkey : ∀ tables, UniqueKey (fun row ↦ ((owner row).resourcePk, time row)) (table tables)) :
    (rollupHistory range scope table owner time point).Sound where
  pageSize_pos := Nat.zero_lt_succ _
  unique tables := uniqueKey_owned (hkey tables) _
  bounded tables row hrow := by
    have hinside := of_decide_eq_true (Bool.and_eq_true _ _ ▸ (List.mem_filter.mp hrow).2).2
    have hnonneg := range.start_nonneg
    simp only [rollupHistory]
    omega
  processes h := by
    obtain ⟨rfl, rfl⟩ := Prod.mk.inj (Option.some.inj h)
    exact ⟨le_rfl, List.length_pos_iff.mpr, by rw [List.take_length]; rfl⟩

theorem loop_take {reader : RawReader Payload Point} {range : HistoryRange .raw}
    {blocks : List (RawBlockRow Payload)} {bytes processedRows count : ℕ}
    {points found : List Point}
    (h : reader.loop range blocks bytes processedRows points = some (found, count)) :
    ∃ taken ≤ blocks.length, count = processedRows + taken ∧ (blocks ≠ [] → 0 < count) ∧
      reader.loop range (blocks.take taken) bytes processedRows points = some (found, count) := by
  induction blocks generalizing bytes processedRows points with
  | nil =>
    obtain ⟨rfl, rfl⟩ := Prod.mk.inj (Option.some.inj h)
    exact ⟨0, le_rfl, rfl, fun hne ↦ absurd rfl hne, rfl⟩
  | cons block rest ih =>
    rw [RawReader.loop] at h
    dsimp only at h
    split_ifs at h with hfull
    · obtain ⟨rfl, rfl⟩ := Prod.mk.inj (Option.some.inj h)
      exact ⟨0, Nat.zero_le _, rfl, fun _ ↦ hfull.1, rfl⟩
    · obtain ⟨samples, hsamples, hrest⟩ := Option.bind_eq_some_iff.mp h
      split_ifs at hrest with hlimit
      obtain ⟨taken, htaken, hcount, -, hsame⟩ := ih hrest
      refine ⟨taken + 1, Nat.succ_le_succ htaken, by omega, fun _ ↦ by omega, ?_⟩
      rw [List.take_succ_cons, RawReader.loop]
      dsimp only
      rw [if_neg hfull, hsamples]
      exact (if_neg hlimit).trans hsame

theorem sound_rawHistory (reader : RawReader Payload Point) (scope : Scope)
    (range : HistoryRange .raw) {blocks : HistoryTables → List (RawBlockRow Payload)}
    (hkey : ∀ tables, UniqueKey (fun row ↦ (row.resourcePk, row.blockStart)) (blocks tables)) :
    (rawHistory reader scope range blocks).Sound := by
  refine ⟨Nat.zero_lt_succ _, fun tables ↦ uniqueKey_owned (hkey tables) _,
    fun tables row hrow ↦ ?_, fun h ↦ ?_⟩
  · have hinside := of_decide_eq_true (Bool.and_eq_true _ _ ▸ (List.mem_filter.mp hrow).2).2
    have hnonneg := range.start_nonneg
    simp only [rawHistory]
    omega
  obtain ⟨⟨found, count⟩, hloop, hfound⟩ := Option.map_eq_some_iff.mp h
  obtain ⟨rfl, rfl⟩ := Prod.mk.inj hfound
  obtain ⟨taken, htaken, rfl, hpos, hsame⟩ := loop_take hloop
  rw [Nat.zero_add] at hpos hsame ⊢
  exact ⟨htaken, hpos, by simp only [rawHistory, hsame, Option.map_some]⟩

/-- Every history of a machine or a check is listed as it is stored. -/
theorem histories_followed (inflateZlib : Bytes → Option Bytes) (scope : Scope)
    (rawRange : HistoryRange .raw) (resolution : RollupResolution)
    (range : HistoryRange (.rollup resolution)) :
    (loadRawHistory inflateZlib scope rawRange).Followed ∧
      (loadMachineHistory scope resolution range).Followed ∧
      (loadRawCheckHistory scope rawRange).Followed ∧
      (loadServiceCheckHistory scope resolution range).Followed :=
  ⟨(sound_rawHistory _ scope rawRange HistoryTables.machineBlocks_key).followed,
    (sound_rollupHistory rollupPoint fun tables ↦ tables.machineRollups_key resolution).followed,
    (sound_rawHistory _ scope rawRange HistoryTables.checkBlocks_key).followed,
    (sound_rollupHistory checkRollupPoint fun tables ↦
      tables.checkRollups_key resolution).followed⟩

end AlphaPing.Pages.Histories
