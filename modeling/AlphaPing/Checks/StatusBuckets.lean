import AlphaPing.Checks.Rollups
import AlphaPing.Library.Joins
import Mathlib.Order.Lattice.Nat

/-!
# Status buckets of services

When a worker closes the block of a check, it also writes what the check says about its service
into the status bucket of the block. The checks of a service meet in this row: each column is
joined with what it holds, except the summary code. The ingest worker puts the code of the check
that it closes there; the checks worker does so only where no check is worse than healthy.
-/

namespace AlphaPing.Checks.StatusBuckets

open Library.Tables Library.Runs Library.Joins Ingest.Blocks Ingest.Summaries StateSync Persistence
  Rollups
open Ingest.Telemetry (saturatingMul)

/-! ## States by their rank -/

/-- The order in which the upserts ask for states. -/
def rank : ServiceState → ℕ
  | .unknown => 0
  | .healthy => 1
  | .degraded => 2
  | .down => 3
  | .maintenance => 4

theorem rank_injective : Function.Injective rank := by
  intro first second h
  cases first <;> cases second <;> first | rfl | cases h

instance : LinearOrder ServiceState :=
  LinearOrder.lift' rank rank_injective

theorem serviceReason_injective : Function.Injective serviceReason := by
  intro first second h
  cases first <;> cases second <;> first | rfl | exact absurd h (by decide)

/-! ## The row -/

/-- A row of `status_buckets`. -/
structure StatusBucket where
  resourceType : ℕ
  resourcePk : ℕ
  workspacePk : ℕ
  bucketStart : ℤ
  bucketSeconds : ℕ
  state : ServiceState
  availabilityPermille : ℕ
  latencyAvgMs : Option ℕ
  latencyMaxMs : Option ℕ
  summaryCode : String

/-- The primary key. -/
structure BucketKey where
  resourceType : ℕ
  resourcePk : ℕ
  bucketSeconds : ℕ
  bucketStart : ℤ
  deriving DecidableEq

def StatusBucket.key (row : StatusBucket) : BucketKey :=
  ⟨row.resourceType, row.resourcePk, row.bucketSeconds, row.bucketStart⟩

/-- A worker closes the block of a check. -/
structure Closing where
  executor : Rollups.Executor
  servicePk : ℕ
  workspacePk : ℕ
  critical : Bool
  maintenanceUntil : Option ℤ
  nominalMinute : ℤ
  rollup : CheckRollup

namespace Closing

/-- What the check says about its service. -/
def state (closing : Closing) : ServiceState :=
  if closing.maintenanceUntil.any fun until_ ↦ decide (closing.nominalMinute < until_) then
    .maintenance
  else if 0 < closing.rollup.down then
    if closing.critical then .down else .degraded
  else if 0 < closing.rollup.degraded then .degraded
  else if 0 < closing.rollup.healthy then .healthy
  else .unknown

/-- The ingest worker truncates, the checks worker rounds half up. -/
def availability (closing : Closing) : ℕ :=
  if closing.rollup.total = 0 then 0
  else match closing.executor with
    | .agent => saturatingMul closing.rollup.healthy 1000 / closing.rollup.total
    | .central =>
      (2 * (closing.rollup.healthy * 1000) + closing.rollup.total) / (2 * closing.rollup.total)

/-- The row that `status_bucket_statement` and `prepareStatusBucket` bind. -/
def row (closing : Closing) : StatusBucket where
  resourceType := 2
  resourcePk := closing.servicePk
  workspacePk := closing.workspacePk
  bucketStart := blockStart closing.nominalMinute
  bucketSeconds := 300
  state := closing.state
  availabilityPermille := closing.availability
  latencyAvgMs := closing.rollup.average closing.executor
  latencyMaxMs := closing.rollup.latencyMax
  summaryCode := serviceReason closing.state

def key (closing : Closing) : BucketKey :=
  closing.row.key

end Closing

/-! ## The upsert -/

/-- `state = CASE …`. -/
def mergeState (held new : ServiceState) : ServiceState :=
  if held = .maintenance ∨ new = .maintenance then .maintenance
  else if held = .down ∨ new = .down then .down
  else if held = .degraded ∨ new = .degraded then .degraded
  else if held = .healthy ∨ new = .healthy then .healthy
  else .unknown

/-- `latency_avg_ms = CASE …` and `latency_max_ms = CASE …`. -/
def mergeLatency (held new : Option ℕ) : Option ℕ :=
  match held, new with
  | none, new => new
  | held, none => held
  | some held, some new => some (max held new)

/-- `summary_code = …`, as each worker has it. -/
def mergeSummary (executor : Rollups.Executor) (held new : StatusBucket) : String :=
  match executor with
  | .agent => new.summaryCode
  | .central =>
    if held.state = .maintenance ∨ new.state = .maintenance then "maintenance_window"
    else if held.state = .down ∨ new.state = .down then "check_down"
    else if held.state = .degraded ∨ new.state = .degraded then "check_degraded"
    else new.summaryCode

/-- `DO UPDATE SET …`. -/
def merge (executor : Rollups.Executor) (new held : StatusBucket) : StatusBucket :=
  { held with
    state := mergeState held.state new.state
    availabilityPermille := min held.availabilityPermille new.availabilityPermille
    latencyAvgMs := mergeLatency held.latencyAvgMs new.latencyAvgMs
    latencyMaxMs := mergeLatency held.latencyMaxMs new.latencyMaxMs
    summaryCode := mergeSummary executor held new }

/-- `status_bucket_statement` and `prepareStatusBucket`. -/
def close (table : List StatusBucket) (closing : Closing) : List StatusBucket :=
  upsert StatusBucket.key (fun held ↦ held.workspacePk == closing.row.workspacePk)
    (merge closing.executor closing.row) closing.row table

theorem mergeState_eq (held new : ServiceState) : mergeState held new = max held new := by
  cases held <;> cases new <;> rfl

/-- A missing latency is below every other one. -/
def latencyLevel : Option ℕ → WithBot ℕ
  | none => ⊥
  | some latency => latency

theorem latencyLevel_injective : Function.Injective latencyLevel := by
  intro first second h
  cases first <;> cases second
  · rfl
  · cases h
  · cases h
  · exact congrArg some (WithBot.coe_injective h)

theorem latencyLevel_merge (held new : Option ℕ) :
    latencyLevel (mergeLatency held new) = latencyLevel held ⊔ latencyLevel new := by
  cases held <;> cases new <;> rfl

/-- A state that the checks worker gives its own summary. -/
def Severe (state : ServiceState) : Prop :=
  ServiceState.degraded ≤ state

instance (state : ServiceState) : Decidable (Severe state) :=
  inferInstanceAs (Decidable (ServiceState.degraded ≤ state))

/-- The summary is the reason of the merged state where the checks worker looks at it, and the
reason of the new state elsewhere. -/
theorem mergeSummary_row (closing : Closing) (held : StatusBucket) :
    mergeSummary closing.executor held closing.row =
      if closing.executor = .central ∧ Severe (max held.state closing.state) then
        serviceReason (max held.state closing.state)
      else serviceReason closing.state := by
  have hnew : closing.row.state = closing.state := rfl
  have hcode : closing.row.summaryCode = serviceReason closing.state := rfl
  unfold mergeSummary
  rw [hnew, hcode]
  cases closing.executor with
  | agent => rfl
  | central => cases held.state <;> cases closing.state <;> rfl

/-! ## The table as registers -/

/-- What is joined: the state, the availability downwards, and the latencies, which may lack. -/
abbrev Level :=
  ServiceState × ℕᵒᵈ × WithBot ℕ × WithBot ℕ

def StatusBucket.level (row : StatusBucket) : Level :=
  (row.state, OrderDual.toDual row.availabilityPermille, latencyLevel row.latencyAvgMs,
    latencyLevel row.latencyMaxMs)

def Closing.level (closing : Closing) : Level :=
  closing.row.level

def registers (table : List StatusBucket) : Registers BucketKey Level :=
  fun key ↦ (lookup StatusBucket.key key table).map StatusBucket.level

theorem level_merge (executor : Rollups.Executor) (new held : StatusBucket) :
    (merge executor new held).level = held.level ⊔ new.level := by
  unfold StatusBucket.level merge
  dsimp only
  rw [mergeState_eq, latencyLevel_merge, latencyLevel_merge, Prod.mk_sup_mk, Prod.mk_sup_mk,
    Prod.mk_sup_mk, toDual_min]

/-- A service belongs to one workspace. -/
def Owned (owner : ℕ → ℕ) (table : List StatusBucket) : Prop :=
  ∀ row ∈ table, row.resourceType = 2 → row.workspacePk = owner row.resourcePk

def Closing.OwnedBy (owner : ℕ → ℕ) (closing : Closing) : Prop :=
  closing.workspacePk = owner closing.servicePk

instance (owner : ℕ → ℕ) (closing : Closing) : Decidable (closing.OwnedBy owner) :=
  inferInstanceAs (Decidable (closing.workspacePk = owner closing.servicePk))

section Close

variable {owner : ℕ → ℕ} {table : List StatusBucket} {closing : Closing} {key : BucketKey}

theorem owned_close (h : Owned owner table) (hclosing : closing.OwnedBy owner) :
    Owned owner (close table closing) := by
  intro row hrow htype
  rcases mem_upsert hrow with hold | rfl | ⟨old, hold, -, rfl⟩
  · exact h row hold htype
  · exact hclosing
  · exact h old hold htype

theorem lookup_close_other (h : closing.key ≠ key) :
    lookup StatusBucket.key key (close table closing) = lookup StatusBucket.key key table :=
  lookup_upsert_other (by intro row; rfl) h.symm

theorem workspacePk_of_lookup (h : Owned owner table) (hclosing : closing.OwnedBy owner)
    {held : StatusBucket} (hheld : lookup StatusBucket.key closing.key table = some held) :
    held.workspacePk = closing.workspacePk := by
  obtain ⟨hmem, hkey⟩ := lookup_some hheld
  have htype : held.resourceType = 2 := congrArg BucketKey.resourceType hkey
  have hservice : held.resourcePk = closing.servicePk := congrArg BucketKey.resourcePk hkey
  rw [h held hmem htype, hservice, hclosing]

theorem lookup_close_self (h : Owned owner table) (hclosing : closing.OwnedBy owner) :
    lookup StatusBucket.key closing.key (close table closing) =
      some (((lookup StatusBucket.key closing.key table).map
        (merge closing.executor closing.row)).getD closing.row) := by
  unfold close Closing.key
  rw [lookup_upsert_self (by intro row; rfl)]
  cases hfound : lookup StatusBucket.key closing.row.key table with
  | none => rfl
  | some held =>
    have hworkspace : held.workspacePk = closing.row.workspacePk :=
      workspacePk_of_lookup h hclosing hfound
    simp [hworkspace]

theorem registers_close (h : Owned owner table) (hclosing : closing.OwnedBy owner) :
    registers (close table closing) = join Closing.key Closing.level (registers table) closing := by
  funext key
  by_cases hkey : closing.key = key
  · subst hkey
    rw [join_self, registers, lookup_close_self h hclosing, registers]
    cases lookup StatusBucket.key closing.key table with
    | none => rfl
    | some held => exact congrArg some (level_merge _ _ _)
  · rw [join_other hkey, registers, lookup_close_other hkey, registers]

theorem summaryCode_close (h : Owned owner table) (hclosing : closing.OwnedBy owner)
    {row : StatusBucket}
    (hrow : lookup StatusBucket.key closing.key (close table closing) = some row) :
    row.summaryCode = if closing.executor = .central ∧ Severe row.state then
      serviceReason row.state else serviceReason closing.state := by
  rw [lookup_close_self h hclosing] at hrow
  obtain rfl := Option.some.inj hrow
  cases lookup StatusBucket.key closing.key table with
  | none => exact (ite_self _).symm
  | some held =>
    change mergeSummary closing.executor held closing.row = _
    rw [mergeSummary_row]
    simp only [Option.map_some, Option.getD_some, merge, mergeState_eq]
    rfl

end Close

/-! ## Runs of closings -/

def closingsOf (key : BucketKey) (closings : List Closing) : Set Closing :=
  broughtTo Closing.key key closings

/-- The columns are what the closings say together. -/
structure Columns (key : BucketKey) (closings : Set Closing) (row : StatusBucket) : Prop where
  key : row.key = key
  workspace : ∀ closing ∈ closings, row.workspacePk = closing.workspacePk
  state : IsGreatest (Closing.state '' closings) row.state
  availability : IsLeast (Closing.availability '' closings) row.availabilityPermille
  latencyAvg : IsGreatest ((fun closing ↦
    latencyLevel (closing.rollup.average closing.executor)) '' closings)
      (latencyLevel row.latencyAvgMs)
  latencyMax : IsGreatest ((fun closing ↦ latencyLevel closing.rollup.latencyMax) '' closings)
    (latencyLevel row.latencyMaxMs)

/-- The row is what the closings say together, and its summary is the reason of its state. -/
structure Settled (key : BucketKey) (closings : Set Closing) (row : StatusBucket) : Prop
    extends Columns key closings row where
  summary : row.summaryCode = serviceReason row.state

variable {closings : Set Closing}

theorem settled_unique {key : BucketKey} {row other : StatusBucket}
    (hrow : Settled key closings row) (hother : Settled key closings other) : row = other := by
  have hkey := hrow.key.trans hother.key.symm
  have hstate := hrow.state.unique hother.state
  have havailability := hrow.availability.unique hother.availability
  have havg := latencyLevel_injective (hrow.latencyAvg.unique hother.latencyAvg)
  have hmax := latencyLevel_injective (hrow.latencyMax.unique hother.latencyMax)
  have hsummary := hrow.summary
  rw [hstate, ← hother.summary] at hsummary
  obtain ⟨closing, hclosing, -⟩ := hrow.state.1
  have hworkspace : row.workspacePk = other.workspacePk :=
    (hrow.workspace closing hclosing).trans (hother.workspace closing hclosing).symm
  obtain ⟨htype, hservice, hseconds, hstart⟩ := BucketKey.mk.inj hkey
  cases row
  cases other
  simp only at *
  subst htype hservice hseconds hstart hstate havailability havg hmax hsummary hworkspace
  rfl

section Run

variable {owner : ℕ → ℕ} {table : List StatusBucket} {closings : List Closing} {key : BucketKey}

theorem owned_run (h : Owned owner table)
    (hclosings : ∀ closing ∈ closings, closing.OwnedBy owner) :
    Owned owner (run close table closings) := by
  induction closings generalizing table with
  | nil => exact h
  | cons closing rest ih =>
    obtain ⟨hclosing, hrest⟩ := List.forall_mem_cons.mp hclosings
    exact ih (owned_close h hclosing) hrest

theorem registers_run (h : Owned owner table)
    (hclosings : ∀ closing ∈ closings, closing.OwnedBy owner) :
    registers (run close table closings) =
      run (join Closing.key Closing.level) (registers table) closings := by
  induction closings generalizing table with
  | nil => rfl
  | cons closing rest ih =>
    obtain ⟨hclosing, hrest⟩ := List.forall_mem_cons.mp hclosings
    rw [run_cons, run_cons, ih (owned_close h hclosing) hrest, registers_close h hclosing]

theorem lookup_run (h : Owned owner table) (hclosings : ∀ closing ∈ closings, closing.OwnedBy owner)
    (hclosed : (closingsOf key closings).Nonempty) :
    ∃ row, lookup StatusBucket.key key (run close table closings) = some row := by
  obtain ⟨closing, hclosing⟩ := hclosed
  have hle := (run_join_le_iff.mp (le_refl
    (run (join Closing.key Closing.level) (registers table) closings key))).2 closing hclosing
  rw [← registers_run h hclosings, registers] at hle
  cases hfound : lookup StatusBucket.key key (run close table closings) with
  | none =>
    rw [hfound] at hle
    exact absurd (le_bot_iff.mp hle) WithBot.coe_ne_bot
  | some row => exact ⟨row, rfl⟩

theorem columns_run (h : Owned owner table)
    (hclosings : ∀ closing ∈ closings, closing.OwnedBy owner)
    (hfresh : lookup StatusBucket.key key table = none)
    (hclosed : (closingsOf key closings).Nonempty) {row : StatusBucket}
    (hrow : lookup StatusBucket.key key (run close table closings) = some row) :
    Columns key (closingsOf key closings) row := by
  have hempty : registers table key = ⊥ := by
    rw [registers, hfresh]
    rfl
  have hvalue :
      run (join Closing.key Closing.level) (registers table) closings key = row.level := by
    rw [← registers_run h hclosings, registers, hrow]
    rfl
  have hfinite : (closingsOf key closings).Finite := finite_broughtTo key closings
  obtain ⟨hstate, hrest⟩ := isLUB_prod.mp (isLUB_of_run_join hempty hvalue)
  obtain ⟨havailability, hrest⟩ := isLUB_prod.mp hrest
  obtain ⟨havg, hmax⟩ := isLUB_prod.mp hrest
  simp only [Set.image_image] at hstate havailability havg hmax
  obtain ⟨hmem, hkey⟩ := lookup_some hrow
  have hgreatest {Value : Type} [LinearOrder Value] {column : Closing → Value} {value : Value}
      (hlub : IsLUB (column '' closingsOf key closings) value) :
      IsGreatest (column '' closingsOf key closings) value :=
    isGreatest_of_isLUB (hfinite.image column) (hclosed.image column) hlub
  refine ⟨hkey, ?_, hgreatest hstate, ?_, hgreatest havg, hgreatest hmax⟩
  · intro closing hclosing
    refine workspacePk_of_lookup (owned_run h hclosings) (hclosings closing hclosing.1) ?_
    rw [hclosing.2, hrow]
  · exact hgreatest havailability

theorem summaryCode_run (h : Owned owner table)
    (hclosings : ∀ closing ∈ closings, closing.OwnedBy owner) {last : Closing}
    (hlast : (closings.filter fun closing ↦ closing.key = key).getLast? = some last)
    {row : StatusBucket}
    (hrow : lookup StatusBucket.key key (run close table closings) = some row) :
    row.summaryCode = if last.executor = .central ∧ Severe row.state then
      serviceReason row.state else serviceReason last.state := by
  induction closings using List.reverseRecOn with
  | nil => cases hlast
  | append_singleton earlier closing ih =>
    obtain ⟨hearlier, hclosing⟩ := List.forall_mem_append.mp hclosings
    have howned := owned_run h hearlier
    rw [run_concat] at hrow
    rw [List.filter_append, List.filter_singleton] at hlast
    by_cases hkey : closing.key = key
    · subst hkey
      rw [decide_eq_true rfl, cond_true, List.getLast?_concat] at hlast
      obtain rfl := Option.some.inj hlast
      exact summaryCode_close howned (hclosing closing List.mem_cons_self) hrow
    · rw [decide_eq_false hkey, cond_false, List.append_nil] at hlast
      rw [lookup_close_other hkey] at hrow
      exact ih hearlier hlast hrow

end Run

/-! ## The summary -/

/-- The last closing of the bucket has the worst state, or the checks worker has written it while
some state is worse than healthy. -/
def Prevails (key : BucketKey) (closings : List Closing) : Prop :=
  ∀ last, (closings.filter fun closing ↦ closing.key = key).getLast? = some last →
    (∀ closing ∈ closingsOf key closings, closing.state ≤ last.state) ∨
      (last.executor = .central ∧ ∃ closing ∈ closingsOf key closings, Severe closing.state)

theorem mem_closingsOf_iff {key : BucketKey} {closings : List Closing} {closing : Closing} :
    closing ∈ closingsOf key closings ↔
      closing ∈ closings.filter fun closing ↦ closing.key = key := by
  simp [closingsOf, broughtTo]

theorem severe_greatest_iff {state : ServiceState}
    (h : IsGreatest (Closing.state '' closings) state) :
    Severe state ↔ ∃ closing ∈ closings, Severe closing.state := by
  constructor
  · intro hsevere
    obtain ⟨closing, hclosing, hstate⟩ := h.1
    exact ⟨closing, hclosing, hstate ▸ hsevere⟩
  · rintro ⟨closing, hclosing, hsevere⟩
    exact hsevere.trans (h.2 (Set.mem_image_of_mem _ hclosing))

theorem state_eq_greatest_iff {state : ServiceState}
    (h : IsGreatest (Closing.state '' closings) state) {last : Closing} (hlast : last ∈ closings) :
    last.state = state ↔ ∀ closing ∈ closings, closing.state ≤ last.state := by
  constructor
  · rintro rfl closing hclosing
    exact h.2 (Set.mem_image_of_mem _ hclosing)
  · intro hall
    apply le_antisymm (h.2 (Set.mem_image_of_mem _ hlast))
    obtain ⟨closing, hclosing, rfl⟩ := h.1
    exact hall closing hclosing

def Settles (table : List StatusBucket) (closings : List Closing) (key : BucketKey) : Prop :=
  ∃ row, lookup StatusBucket.key key (run close table closings) = some row ∧
    Settled key (closingsOf key closings) row

theorem summary_iff_prevails {owner : ℕ → ℕ} {table : List StatusBucket} {closings : List Closing}
    {key : BucketKey} (h : Owned owner table)
    (hclosings : ∀ closing ∈ closings, closing.OwnedBy owner) {row : StatusBucket}
    (hrow : lookup StatusBucket.key key (run close table closings) = some row)
    (hcolumns : Columns key (closingsOf key closings) row) :
    row.summaryCode = serviceReason row.state ↔ Prevails key closings := by
  obtain ⟨first, hfirst, -⟩ := hcolumns.state.1
  obtain ⟨last, hlast⟩ : ∃ last,
      (closings.filter fun closing ↦ closing.key = key).getLast? = some last :=
    ⟨_, List.getLast?_eq_some_getLast (List.ne_nil_of_mem (mem_closingsOf_iff.mp hfirst))⟩
  have hmem : last ∈ closingsOf key closings :=
    mem_closingsOf_iff.mpr (List.mem_of_getLast? hlast)
  have hprevails : Prevails key closings ↔
      last.state = row.state ∨ last.executor = .central ∧ Severe row.state := by
    rw [state_eq_greatest_iff hcolumns.state hmem, severe_greatest_iff hcolumns.state, Prevails]
    constructor
    · exact fun hall ↦ hall last hlast
    · intro hone other hother
      obtain rfl := Option.some.inj (hlast.symm.trans hother)
      exact hone
  rw [hprevails, summaryCode_run h hclosings hlast hrow]
  split
  · next hcentral => exact iff_of_true rfl (.inr hcentral)
  · next hother => rw [serviceReason_injective.eq_iff, or_iff_left hother]

/-- In every run of closings by either worker the state, the availability and the latencies of a
bucket are joined. The whole row is what its closings say together exactly when the last closing
prevails; two such runs with the same closings leave the same row. -/
theorem settles_iff_prevails (owner : ℕ → ℕ) (table : List StatusBucket) (key : BucketKey)
    (htable : Owned owner table) (hfresh : lookup StatusBucket.key key table = none)
    (closings : List Closing) (hclosings : ∀ closing ∈ closings, closing.OwnedBy owner)
    (hclosed : ∃ closing ∈ closings, closing.key = key) :
    (∃ row, lookup StatusBucket.key key (run close table closings) = some row ∧
        Columns key (closingsOf key closings) row) ∧
      (Settles table closings key ↔ Prevails key closings) ∧
      ∀ other, closingsOf key other = closingsOf key closings →
        Settles table closings key → Settles table other key →
          lookup StatusBucket.key key (run close table other) =
            lookup StatusBucket.key key (run close table closings) := by
  have hnonempty : (closingsOf key closings).Nonempty := hclosed
  obtain ⟨row, hrow⟩ := lookup_run htable hclosings hnonempty
  have hcolumns := columns_run htable hclosings hfresh hnonempty hrow
  have hsummary := summary_iff_prevails htable hclosings hrow hcolumns
  refine ⟨⟨row, hrow, hcolumns⟩, ⟨?_, ?_⟩, ?_⟩
  · rintro ⟨settled, hsettled, hholds⟩
    obtain rfl := Option.some.inj (hrow.symm.trans hsettled)
    exact hsummary.mp hholds.summary
  · intro hprevails
    exact ⟨row, hrow, hcolumns, hsummary.mpr hprevails⟩
  · rintro other hsame ⟨settled, hsettled, hholds⟩ ⟨others, hothers, hholds'⟩
    rw [hsame] at hholds'
    rw [hsettled, hothers, settled_unique hholds' hholds]

/-- A check that the ingest worker closes, of one service. -/
def agentClosing (rollup : CheckRollup) : Closing where
  executor := .agent
  servicePk := 1
  workspacePk := 1
  critical := true
  maintenanceUntil := none
  nominalMinute := 240000
  rollup := rollup

/-- A critical check was down for the whole block. -/
def downClosing : Closing :=
  agentClosing { total := 5, down := 5 }

/-- Another check was healthy for the whole block. -/
def healthyClosing : Closing :=
  agentClosing
    { total := 5, healthy := 5, latencyTotal := 100, latencyCount := 5, latencyMax := some 20 }

/-- The same check, executed by the checks worker. -/
def centralClosing : Closing :=
  { healthyClosing with executor := .central }

/-- The checks worker closes its healthy check after the one that is down. -/
theorem settles_iff_prevails_central :
    let closings := [downClosing, centralClosing]
    (∃ row, lookup StatusBucket.key downClosing.key (run close [] closings) = some row ∧
        Columns downClosing.key (closingsOf downClosing.key closings) row) ∧
      (Settles [] closings downClosing.key ↔ Prevails downClosing.key closings) ∧
      ∀ other, closingsOf downClosing.key other = closingsOf downClosing.key closings →
        Settles [] closings downClosing.key → Settles [] other downClosing.key →
          lookup StatusBucket.key downClosing.key (run close [] other) =
            lookup StatusBucket.key downClosing.key (run close [] closings) :=
  settles_iff_prevails (fun _ ↦ 1) [] downClosing.key (fun _ h ↦ absurd h List.not_mem_nil) rfl _
    (by decide) ⟨downClosing, List.mem_cons_self, rfl⟩

/-- The same two closings in both orders: the service is down both times, and one of the rows
gives the reason of a healthy service. -/
theorem order_of_closings_shows :
    ((lookup StatusBucket.key downClosing.key (run close [] [downClosing, healthyClosing])).map
        fun row ↦ (row.state, row.summaryCode)) = some (.down, "check_healthy") ∧
      ((lookup StatusBucket.key downClosing.key (run close [] [healthyClosing, downClosing])).map
        fun row ↦ (row.state, row.summaryCode)) = some (.down, "check_down") := by
  decide

/-! ## Calls -/

/-- What a call closes, when it comes in the last minute of a block. -/
def closingOf (blocks : List (Block StoredResult)) (call : PersistCall) : Option Closing :=
  if slotOf (callKey call).2 = 4 then
    let rollup := closedFive blocks call
    match call with
    | .agent batch => some ⟨.agent, batch.config.servicePk, batch.config.workspacePk,
        batch.config.critical, batch.config.maintenanceUntil, batch.nominalMinute, rollup⟩
    | .central call => some ⟨.central, call.config.servicePk, call.config.workspacePk,
        call.config.critical, call.config.maintenanceUntil, call.nominalMinute, rollup⟩
  else none

/-- What a call closes in the tables as it finds them. -/
def closingsBy (codec : CheckCodec) (recording : Recording) (call : PersistCall) : List Closing :=
  if writes codec recording.store call then (closingOf recording.store.blocks call).toList else []

def recordStatus (codec : CheckCodec) (held : Recording × List StatusBucket) (call : PersistCall) :
    Recording × List StatusBucket :=
  (record codec held.1 call, run close held.2 (closingsBy codec held.1 call))

/-- The closings of a run, in their order. -/
def closingsAlong (codec : CheckCodec) : Recording → List PersistCall → List Closing
  | _, [] => []
  | recording, call :: rest =>
    closingsBy codec recording call ++ closingsAlong codec (record codec recording call) rest

theorem run_recordStatus (codec : CheckCodec) (recording : Recording) (table : List StatusBucket)
    (calls : List PersistCall) :
    run (recordStatus codec) (recording, table) calls =
      (run (record codec) recording calls,
        run close table (closingsAlong codec recording calls)) := by
  induction calls generalizing recording table with
  | nil => rfl
  | cons call rest ih => rw [run_cons, recordStatus, ih, closingsAlong, run_append, run_cons]

/-- Whatever both workers have recorded in whatever order: the buckets join what was closed. -/
theorem columns_recordStatus (codec : CheckCodec) (owner : ℕ → ℕ) (key : BucketKey)
    (calls : List PersistCall)
    (hclosings : ∀ closing ∈ closingsAlong codec emptyRecording calls, closing.OwnedBy owner)
    (hclosed : (closingsOf key (closingsAlong codec emptyRecording calls)).Nonempty) :
    ∃ row, lookup StatusBucket.key key
        (run (recordStatus codec) (emptyRecording, []) calls).2 = some row ∧
      Columns key (closingsOf key (closingsAlong codec emptyRecording calls)) row := by
  have howned : Owned owner [] := fun _ h ↦ absurd h List.not_mem_nil
  rw [run_recordStatus]
  obtain ⟨row, hrow⟩ := lookup_run howned hclosings hclosed
  exact ⟨row, hrow, columns_run howned hclosings rfl hclosed hrow⟩

end AlphaPing.Checks.StatusBuckets
