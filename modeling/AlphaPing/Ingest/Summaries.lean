import AlphaPing.Ingest.Blocks
import AlphaPing.Library.Closing
import Mathlib.Data.Int.Order.Lemmas

/-!
# Tables of summaries

The rollup tables of machines and of checks have one layout: a row belongs to a resource and to
the start of its bucket, and the statement that closes a bucket replaces the row as a whole. With
the blocks they are a ledger whose buckets are the twelve blocks of an hour.
-/

namespace AlphaPing.Ingest.Summaries

open Library.Tables Library.Closing Blocks

variable {Payload Row : Type}

/-! ## Places -/

def hourOf (nominalMinuteMs : ℤ) : ℤ := nominalMinuteMs / 3600000

instance neZero_twelve : NeZero 12 := ⟨by decide⟩

/-- The block of a minute in its hour. -/
def bucketOf (nominalMinuteMs : ℤ) : Fin 12 :=
  ⟨(nominalMinuteMs % 3600000 / 300000).toNat, by omega⟩

/-- A resource in an hour. -/
abbrev HourOf := ℕ × ℤ

def placeOf (resourcePk : ℕ) (nominalMinuteMs : ℤ) : Place HourOf 4 11 where
  group := (resourcePk, hourOf nominalMinuteMs)
  bucket := bucketOf nominalMinuteMs
  slot := slotOf nominalMinuteMs

def bucketStart (hour : ℤ) (bucket : Fin 12) : ℤ := hour * 3600000 + bucket * 300000

def minuteAt (hour : ℤ) (bucket : Fin 12) (slot : Fin 5) : ℤ :=
  bucketStart hour bucket + slot * 60000

theorem bucketStart_of (nominalMinuteMs : ℤ) :
    bucketStart (hourOf nominalMinuteMs) (bucketOf nominalMinuteMs) = blockStart nominalMinuteMs := by
  simp only [bucketStart, hourOf, bucketOf, blockStart]
  omega

theorem bucketStart_inj {hour hour' : ℤ} {bucket bucket' : Fin 12}
    (h : bucketStart hour bucket = bucketStart hour' bucket') : hour = hour' ∧ bucket = bucket' := by
  simp only [bucketStart] at h
  have := bucket.isLt
  have := bucket'.isLt
  exact ⟨by omega, by omega⟩

theorem placeOf_minuteAt (resourcePk : ℕ) (hour : ℤ) (bucket : Fin 12) (slot : Fin 5) :
    placeOf resourcePk (minuteAt hour bucket slot) = ⟨(resourcePk, hour), bucket, slot⟩ := by
  have := bucket.isLt
  have := slot.isLt
  simp only [placeOf, hourOf, bucketOf, slotOf, minuteAt, bucketStart, blockStart, Place.mk.injEq,
    Prod.mk.injEq, Fin.ext_iff, true_and]
  refine ⟨?_, ?_, ?_⟩ <;> omega

theorem placeOf_eq_iff {resourcePk resourcePk' : ℕ} {minute minute' : ℤ} :
    placeOf resourcePk minute = placeOf resourcePk' minute' ↔
      (resourcePk, blockStart minute) = (resourcePk', blockStart minute') ∧
        slotOf minute = slotOf minute' := by
  simp only [placeOf, hourOf, bucketOf, slotOf, blockStart, Place.mk.injEq, Prod.mk.injEq,
    Fin.ext_iff]
  omega

theorem closesBucket_placeOf {resourcePk resourcePk' : ℕ} {minute hour : ℤ} {bucket : Fin 12} :
    (placeOf resourcePk minute).closesBucket (resourcePk', hour) bucket = true ↔
      resourcePk = resourcePk' ∧ hourOf minute = hour ∧ bucketOf minute = bucket ∧
        slotOf minute = 4 := by
  simp only [Place.closesBucket, Place.inBucket, placeOf, Bool.and_eq_true, decide_eq_true_eq,
    Prod.mk.injEq, and_assoc]
  refine and_congr_right fun _ ↦ and_congr_right fun _ ↦ and_congr_right fun _ ↦ ?_
  exact ⟨fun hlast ↦ of_decide_eq_true hlast, fun hlast ↦ decide_eq_true hlast⟩

/-! ## Slots -/

theorem readSlot_congr {blocks : List (Block Payload)} {resourcePk workspacePk : ℕ}
    {minute minute' : ℤ} (hblock : blockStart minute = blockStart minute')
    (hslot : slotOf minute = slotOf minute') :
    readSlot blocks resourcePk workspacePk minute = readSlot blocks resourcePk workspacePk minute' := by
  rw [readSlot, readSlot, hblock, hslot]

theorem readSlot_perform_other_slot {write : SlotWrite Payload} {version : ℕ → ℕ}
    {blocks : List (Block Payload)} {minute : ℤ}
    (hblock : blockStart minute = blockStart write.nominalMinuteMs)
    (hslot : slotOf minute ≠ slotOf write.nominalMinuteMs) :
    readSlot (write.perform version blocks) write.resourcePk write.workspacePk minute =
      readSlot blocks write.resourcePk write.workspacePk minute := by
  have hkey : (write.resourcePk, blockStart minute) = write.block.key := by
    rw [hblock]
    rfl
  rw [readSlot, readSlot, hkey, SlotWrite.perform, lookup_upsert_self key_update]
  cases lookup Block.key write.block.key blocks with
  | none => simp [SlotWrite.block, hslot]
  | some block =>
    dsimp only
    split
    · simp [SlotWrite.update, Block.setSlot, hslot]
    · rfl

/-- Every block belongs to the workspace of its resource. -/
def BlocksOwned (owner : ℕ → ℕ) (blocks : List (Block Payload)) : Prop :=
  ∀ block ∈ blocks, block.workspacePk = owner block.resourcePk

section BlocksOwned

variable {owner : ℕ → ℕ} {blocks : List (Block Payload)} {write : SlotWrite Payload}

theorem BlocksOwned.perform (h : BlocksOwned owner blocks)
    (howner : write.workspacePk = owner write.resourcePk) {version : ℕ → ℕ} :
    BlocksOwned owner (write.perform version blocks) := by
  intro block hblock
  rcases mem_upsert hblock with hold | rfl | ⟨old, hold, -, rfl⟩
  · exact h block hold
  · exact howner
  · exact h old hold

theorem BlocksOwned.writable (h : BlocksOwned owner blocks)
    (howner : write.workspacePk = owner write.resourcePk)
    (hempty : readSlot blocks write.resourcePk write.workspacePk write.nominalMinuteMs = none) :
    write.Writable blocks := by
  unfold SlotWrite.Writable
  cases hfound : lookup Block.key write.block.key blocks with
  | none => rfl
  | some block =>
    obtain ⟨hmem, hkey⟩ := lookup_some hfound
    have hworkspace : block.workspacePk = write.workspacePk := by
      rw [h block hmem, howner]
      exact congrArg owner (congrArg Prod.fst hkey)
    have hslot : block.slots (slotOf write.nominalMinuteMs) = none := by
      have hread : lookup Block.key (write.resourcePk, blockStart write.nominalMinuteMs)
        blocks = some block := hfound
      rw [readSlot, hread] at hempty
      simpa [hworkspace] using hempty
    simp [SlotWrite.admits, hworkspace, hslot]

end BlocksOwned

/-- The payloads of a block in the order of their slots. -/
def storedPayloads (blocks : List (Block Payload)) (resourcePk workspacePk : ℕ) (start : ℤ) :
    List Payload :=
  [0, 1, 2, 3, 4].filterMap fun minute : ℤ ↦
    (readSlot blocks resourcePk workspacePk (start + minute * 60000)).map SlotColumns.payload

def storedHour (blocks : List (Block Payload)) (resourcePk workspacePk : ℕ) (hour : ℤ) :
    List Payload :=
  (List.finRange 12).flatMap fun bucket ↦
    storedPayloads blocks resourcePk workspacePk (bucketStart hour bucket)

/-! ## Rows -/

/-- The columns by which a row of a summary is found. -/
structure RowKeys (Row : Type) where
  resourcePk : Row → ℕ
  workspacePk : Row → ℕ
  bucketStart : Row → ℤ

variable (keys : RowKeys Row)

/-- The primary key. -/
def RowKeys.key (row : Row) : ℕ × ℤ := (keys.resourcePk row, keys.bucketStart row)

/-- The summaries of the hour's blocks before a time. -/
def selectHour (rows : List Row) (resourcePk workspacePk : ℕ) (hourStart before : ℤ) : List Row :=
  (rows.filter fun row ↦
    keys.workspacePk row == workspacePk && keys.resourcePk row == resourcePk &&
      decide (hourStart ≤ keys.bucketStart row) &&
      decide (keys.bucketStart row < before)).insertionSort
    fun first second ↦ keys.bucketStart first ≤ keys.bucketStart second

/-- A statement that replaces the row of a bucket. -/
structure RowWrite (keys : RowKeys Row) where
  new : Row
  condition : Row → Bool
  change : Row → Row
  condition_of : ∀ old, keys.workspacePk old = keys.workspacePk new → condition old = true
  key_change : ∀ old, keys.key (change old) = keys.key old
  change_eq : ∀ old, keys.key old = keys.key new →
    keys.workspacePk old = keys.workspacePk new → change old = new

def RowWrite.perform {keys : RowKeys Row} (write : RowWrite keys) (rows : List Row) : List Row :=
  upsert keys.key write.condition write.change write.new rows

variable {keys} {rows : List Row} {owner : ℕ → ℕ}

/-- The rows of a resource belong to its workspace. -/
def Owned (keys : RowKeys Row) (owner : ℕ → ℕ) (rows : List Row) : Prop :=
  ∀ row ∈ rows, keys.workspacePk row = owner (keys.resourcePk row)

theorem lookup_perform {write : RowWrite keys} (howned : Owned keys owner rows)
    (hnew : keys.workspacePk write.new = owner (keys.resourcePk write.new)) (value : ℕ × ℤ) :
    lookup keys.key value (write.perform rows) =
      if value = keys.key write.new then some write.new else lookup keys.key value rows := by
  split
  · next hvalue =>
    rw [hvalue, RowWrite.perform, lookup_upsert_self write.key_change]
    cases hfound : lookup keys.key (keys.key write.new) rows with
    | none => rfl
    | some old =>
      obtain ⟨hmem, hkey⟩ := lookup_some hfound
      have hworkspace : keys.workspacePk old = keys.workspacePk write.new := by
        rw [howned old hmem, hnew, show keys.resourcePk old = keys.resourcePk write.new from
          congrArg Prod.fst hkey]
      dsimp only
      rw [if_pos (write.condition_of old hworkspace), write.change_eq old hkey hworkspace]
  · next hvalue => exact lookup_upsert_other write.key_change hvalue

theorem mem_perform {write : RowWrite keys} (howned : Owned keys owner rows)
    (hnew : keys.workspacePk write.new = owner (keys.resourcePk write.new)) {row : Row}
    (h : row ∈ write.perform rows) : row ∈ rows ∨ row = write.new := by
  rcases mem_upsert h with hold | rfl | ⟨old, hold, hkey, rfl⟩
  · exact .inl hold
  · exact .inr rfl
  · refine .inr (write.change_eq old hkey ?_)
    rw [howned old hold, hnew, show keys.resourcePk old = keys.resourcePk write.new from
      congrArg Prod.fst hkey]

/-- The rows of a resource start with buckets. -/
def Placed (keys : RowKeys Row) (rows : List Row) : Prop :=
  ∀ row ∈ rows, ∃ hour bucket, keys.bucketStart row = bucketStart hour bucket

theorem selectHour_eq (hunique : UniqueKey keys.key rows) (howned : Owned keys owner rows)
    (hplaced : Placed keys rows) (resourcePk : ℕ) (hour : ℤ) :
    selectHour keys rows resourcePk (owner resourcePk) (hour * 3600000)
        (bucketStart hour (Fin.last 11)) =
      (List.finRange 11).filterMap fun bucket ↦
        lookup keys.key (resourcePk, bucketStart hour bucket.castSucc) rows := by
  have hmem : ∀ row, (row ∈ rows ∧ keys.resourcePk row = resourcePk ∧
      ∃ bucket : Fin 11, keys.bucketStart row = bucketStart hour bucket.castSucc) ↔
        row ∈ rows.filter fun row ↦ keys.workspacePk row == owner resourcePk &&
          keys.resourcePk row == resourcePk && decide (hour * 3600000 ≤ keys.bucketStart row) &&
            decide (keys.bucketStart row < bucketStart hour (Fin.last 11)) := by
    intro row
    simp only [List.mem_filter, Bool.and_eq_true, beq_iff_eq, decide_eq_true_eq]
    refine and_congr_right fun hrow ↦ ⟨?_, ?_⟩
    · rintro ⟨rfl, bucket, hstart⟩
      have := bucket.isLt
      rw [hstart]
      simp only [bucketStart, Fin.val_castSucc, Fin.val_last]
      exact ⟨⟨⟨howned row hrow, trivial⟩, by omega⟩, by omega⟩
    · rintro ⟨⟨⟨-, rfl⟩, hafter⟩, hbefore⟩
      obtain ⟨hour', bucket, hstart⟩ := hplaced row hrow
      have := bucket.isLt
      rw [hstart] at hafter hbefore ⊢
      simp only [bucketStart, Fin.val_last] at hafter hbefore
      obtain rfl : hour' = hour := by omega
      exact ⟨rfl, ⟨bucket, by omega⟩, rfl⟩
  have hstart : ∀ {bucket : Fin 11} {row : Row},
      lookup keys.key (resourcePk, bucketStart hour bucket.castSucc) rows = some row →
        keys.bucketStart row = bucketStart hour bucket.castSucc :=
    fun hrow ↦ congrArg Prod.snd (lookup_some hrow).2
  refine eq_of_pairwise_lt (pairwise_lt_insertionSort ?_) ?_ fun row ↦ ?_
  · have hrows : rows.Nodup := List.Nodup.of_map _ hunique
    refine List.Nodup.map_on (fun first hfirst second hsecond hstart ↦ ?_)
      (hrows.sublist List.filter_sublist)
    obtain ⟨hfirst, hresource, -⟩ := (hmem first).mpr hfirst
    obtain ⟨hsecond, hresource', -⟩ := (hmem second).mpr hsecond
    exact hunique.eq_of_mem hfirst hsecond
      (Prod.ext (hresource.trans hresource'.symm) hstart)
  · rw [List.pairwise_filterMap]
    refine (List.pairwise_lt_finRange 11).imp fun hlt row hrow other hother ↦ ?_
    rw [hstart hrow, hstart hother]
    simp only [bucketStart, Fin.val_castSucc]
    have := Fin.lt_def.mp hlt
    omega
  · rw [selectHour, List.mem_insertionSort, ← hmem, List.mem_filterMap]
    constructor
    · rintro ⟨hrow, rfl, bucket, hbucket⟩
      exact ⟨bucket, List.mem_finRange bucket,
        hunique.lookup_eq_some_iff.mpr ⟨hrow, Prod.ext rfl hbucket⟩⟩
    · rintro ⟨bucket, -, hfound⟩
      obtain ⟨hrow, hkey⟩ := lookup_some hfound
      exact ⟨hrow, congrArg Prod.fst hkey, bucket, congrArg Prod.snd hkey⟩

/-! ## Tables as a ledger -/

/-- The blocks, and the summaries of five minutes and of an hour. -/
structure SummaryTables (Payload Row : Type) where
  blocks : List (Block Payload)
  fiveMinutes : List Row
  hours : List Row

structure Shows (keys : RowKeys Row) (owner : ℕ → ℕ) (tables : SummaryTables Payload Row)
    (ledger : Ledger HourOf Payload Row 4 11) : Prop where
  slots : ∀ resourcePk minute, (readSlot tables.blocks resourcePk (owner resourcePk) minute).map
    SlotColumns.payload = ledger.slots (placeOf resourcePk minute)
  blocks_owned : ∀ block ∈ tables.blocks, block.workspacePk = owner block.resourcePk
  fiveMinutes : ∀ resourcePk hour bucket,
    lookup keys.key (resourcePk, bucketStart hour bucket) tables.fiveMinutes =
      ledger.bucketRows (resourcePk, hour) bucket
  five_unique : UniqueKey keys.key tables.fiveMinutes
  five_owned : Owned keys owner tables.fiveMinutes
  five_placed : Placed keys tables.fiveMinutes
  hours : ∀ resourcePk hour, lookup keys.key (resourcePk, hour * 3600000) tables.hours =
    ledger.groupRows (resourcePk, hour)
  hours_owned : Owned keys owner tables.hours

theorem shows_empty : Shows keys owner ⟨([] : List (Block Payload)), [], []⟩ .empty where
  slots _ _ := rfl
  blocks_owned _ h := absurd h List.not_mem_nil
  fiveMinutes _ _ _ := rfl
  five_unique := uniqueKey_nil
  five_owned _ h := absurd h List.not_mem_nil
  five_placed _ h := absurd h List.not_mem_nil
  hours _ _ := rfl
  hours_owned _ h := absurd h List.not_mem_nil

section Show

variable {tables : SummaryTables Payload Row} {ledger : Ledger HourOf Payload Row 4 11}

theorem Shows.storedPayloads (h : Shows keys owner tables ledger) (resourcePk : ℕ) (hour : ℤ)
    (bucket : Fin 12) :
    storedPayloads tables.blocks resourcePk (owner resourcePk) (bucketStart hour bucket) =
      ledger.stored (resourcePk, hour) bucket := by
  have hslot : ∀ slot : Fin 5, (readSlot tables.blocks resourcePk (owner resourcePk)
      (bucketStart hour bucket + slot * 60000)).map SlotColumns.payload =
        ledger.slots ⟨(resourcePk, hour), bucket, slot⟩ := by
    intro slot
    rw [h.slots, ← placeOf_minuteAt]
    rfl
  have hindices : ([0, 1, 2, 3, 4] : List ℤ) = (List.finRange 5).map fun slot : Fin 5 ↦ (slot.val : ℤ) := rfl
  rw [Summaries.storedPayloads, hindices, List.filterMap_map]
  exact List.filterMap_congr fun slot _ ↦ hslot slot

theorem Shows.selectHour (h : Shows keys owner tables ledger) (resourcePk : ℕ) (hour : ℤ) :
    selectHour keys tables.fiveMinutes resourcePk (owner resourcePk) (hour * 3600000)
      (bucketStart hour (Fin.last 11)) = ledger.earlierRows (resourcePk, hour) := by
  rw [selectHour_eq h.five_unique h.five_owned h.five_placed]
  exact List.filterMap_congr fun bucket _ ↦ h.fiveMinutes resourcePk hour bucket.castSucc

theorem Shows.bucketSettled_iff (h : Shows keys owner tables ledger)
    (rules : Rules HourOf Payload Row 11) (resourcePk : ℕ) (minute : ℤ) :
    BucketSettled rules ledger (resourcePk, hourOf minute) (bucketOf minute) ↔
      (Summaries.storedPayloads tables.blocks resourcePk (owner resourcePk)
        (blockStart minute) ≠ [] →
          lookup keys.key (resourcePk, blockStart minute) tables.fiveMinutes =
            some (rules.closeBucket (resourcePk, hourOf minute) (bucketOf minute)
              (Summaries.storedPayloads tables.blocks resourcePk (owner resourcePk)
                (blockStart minute)))) := by
  rw [BucketSettled, ← h.storedPayloads, ← h.fiveMinutes, bucketStart_of]

variable {rules : Rules HourOf Payload Row 11} {resourcePk : ℕ} {minute : ℤ}

theorem Shows.groupSettled_iff (h : Shows keys owner tables ledger) {Column : Type}
    (tally : Tally rules 4 Column) (resourcePk : ℕ) (hour : ℤ) :
    tally.GroupSettled ledger (resourcePk, hour) ↔
      (storedHour tables.blocks resourcePk (owner resourcePk) hour ≠ [] →
        ∃ row, lookup keys.key (resourcePk, hour * 3600000) tables.hours = some row ∧
          ∀ column, tally.count column row =
            ((storedHour tables.blocks resourcePk (owner resourcePk) hour).map
              (tally.weight column)).sum) := by
  have hsum : ∀ weight : Payload → ℕ,
      ((storedHour tables.blocks resourcePk (owner resourcePk) hour).map weight).sum =
        ∑ bucket, ((ledger.stored (resourcePk, hour) bucket).map weight).sum := by
    intro weight
    rw [storedHour, List.map_flatMap, List.flatMap, List.sum_flatten, List.map_map,
      Fin.sum_univ_def]
    simp only [Function.comp_def, h.storedPayloads]
  have hempty : storedHour tables.blocks resourcePk (owner resourcePk) hour ≠ [] ↔
      ∃ bucket, ledger.stored (resourcePk, hour) bucket ≠ [] := by
    simp [storedHour, List.flatMap_eq_nil_iff, h.storedPayloads]
  rw [Tally.GroupSettled, hempty, ← h.hours]
  simp only [hsum]

/-- The payloads before the last slot of a block. -/
def earlierPayloads (blocks : List (Block Payload)) (resourcePk workspacePk : ℕ) (start : ℤ) :
    List Payload :=
  [0, 1, 2, 3].filterMap fun minute : ℤ ↦
    (readSlot blocks resourcePk workspacePk (start + minute * 60000)).map SlotColumns.payload

theorem Shows.stored_accept (h : Shows keys owner tables ledger) {payload : Payload}
    (hslot : slotOf minute = 4) :
    (accept rules ledger ⟨placeOf resourcePk minute, payload⟩).stored
        (resourcePk, hourOf minute) (bucketOf minute) =
      earlierPayloads tables.blocks resourcePk (owner resourcePk) (blockStart minute) ++
        [payload] := by
  have hearlier : ∀ slot : Fin 4, (readSlot tables.blocks resourcePk (owner resourcePk)
      (blockStart minute + slot * 60000)).map SlotColumns.payload =
        (accept rules ledger ⟨placeOf resourcePk minute, payload⟩).slots
          ⟨(resourcePk, hourOf minute), bucketOf minute, slot.castSucc⟩ := by
    intro slot
    rw [h.slots, ← bucketStart_of]
    have hplace := placeOf_minuteAt resourcePk (hourOf minute) (bucketOf minute) slot.castSucc
    rw [minuteAt] at hplace
    simp only [Fin.val_castSucc] at hplace
    rw [hplace]
    refine (Function.update_of_ne (fun heq ↦ ?_) _ _).symm
    have hlast : slot.castSucc = slotOf minute := congrArg Place.slot heq
    exact Fin.castSucc_ne_last slot (hlast.trans hslot)
  have hlast : (accept rules ledger ⟨placeOf resourcePk minute, payload⟩).slots
      ⟨(resourcePk, hourOf minute), bucketOf minute, 4⟩ = some payload := by
    rw [← hslot]
    exact Function.update_self ..
  have hindices : ([0, 1, 2, 3] : List ℤ) = (List.finRange 4).map fun slot : Fin 4 ↦
    (slot.val : ℤ) := rfl
  have hslots : List.finRange 5 = (List.finRange 4).map Fin.castSucc ++ [4] := rfl
  rw [Ledger.stored, hslots, List.filterMap_append, earlierPayloads, hindices,
    List.filterMap_map, List.filterMap_map]
  congr 1
  · exact List.filterMap_congr fun slot _ ↦ (hearlier slot).symm
  · simp [hlast]

theorem Shows.bucketRows_accept (h : Shows keys owner tables ledger) {payload : Payload}
    (hslot : slotOf minute = 4) :
    (accept rules ledger ⟨placeOf resourcePk minute, payload⟩).bucketRows
        (resourcePk, hourOf minute) (bucketOf minute) =
      some (rules.closeBucket (resourcePk, hourOf minute) (bucketOf minute)
        (earlierPayloads tables.blocks resourcePk (owner resourcePk) (blockStart minute) ++
          [payload])) := by
  rw [Library.Closing.bucketRows_accept, if_pos (closesBucket_placeOf.mpr ⟨rfl, rfl, rfl, hslot⟩),
    h.stored_accept hslot]

theorem Shows.groupRows_accept (h : Shows keys owner tables ledger) {payload : Payload}
    (hslot : slotOf minute = 4) (hbucket : bucketOf minute = 11) :
    (accept rules ledger ⟨placeOf resourcePk minute, payload⟩).groupRows
        (resourcePk, hourOf minute) =
      some (rules.closeGroup (resourcePk, hourOf minute)
        (Summaries.selectHour keys tables.fiveMinutes resourcePk (owner resourcePk)
          (hourOf minute * 3600000) (blockStart minute))
        (earlierPayloads tables.blocks resourcePk (owner resourcePk) (blockStart minute) ++
          [payload])) := by
  have hstored : (accept rules ledger ⟨placeOf resourcePk minute, payload⟩).stored
      (resourcePk, hourOf minute) (bucketOf minute) = _ := h.stored_accept hslot
  have hstart := bucketStart_of minute
  rw [hbucket] at hstored hstart
  have hcloses : (placeOf resourcePk minute).closesGroup (resourcePk, hourOf minute) = true :=
    closesBucket_placeOf.mpr ⟨rfl, rfl, hbucket, hslot⟩
  rw [Library.Closing.groupRows_accept, if_pos hcloses, ← hstored, ← hstart]
  refine congrArg some (congrArg (rules.closeGroup _ · _) ?_)
  exact (h.selectHour resourcePk (hourOf minute)).symm

theorem Shows.slots_perform (h : Shows keys owner tables ledger) {write : SlotWrite Payload}
    (version : ℕ → ℕ) (howner : write.workspacePk = owner write.resourcePk)
    (hempty : readSlot tables.blocks write.resourcePk write.workspacePk write.nominalMinuteMs =
      none) (resourcePk : ℕ) (minute : ℤ) :
    (readSlot (write.perform version tables.blocks) resourcePk (owner resourcePk) minute).map
        SlotColumns.payload =
      Function.update ledger.slots (placeOf write.resourcePk write.nominalMinuteMs)
        (some write.columns.payload) (placeOf resourcePk minute) := by
  have hwritable : write.Writable tables.blocks :=
    BlocksOwned.writable h.blocks_owned howner hempty
  by_cases hplace : placeOf resourcePk minute = placeOf write.resourcePk write.nominalMinuteMs
  · obtain ⟨hkey, hslot⟩ := placeOf_eq_iff.mp hplace
    obtain ⟨rfl, hblock⟩ := Prod.mk.inj hkey
    rw [hplace, Function.update_self, ← howner, readSlot_congr hblock hslot,
      readSlot_perform_self hwritable]
    rfl
  · rw [Function.update_of_ne hplace, ← h.slots]
    congr 1
    by_cases hkey : (resourcePk, blockStart minute) = write.block.key
    · obtain ⟨rfl, hblock⟩ := Prod.mk.inj hkey
      have hslot : slotOf minute ≠ slotOf write.nominalMinuteMs := fun hslot ↦
        hplace (placeOf_eq_iff.mpr ⟨hkey, hslot⟩)
      have hother : readSlot (write.perform version tables.blocks) write.resourcePk
          write.workspacePk minute =
            readSlot tables.blocks write.resourcePk write.workspacePk minute :=
        readSlot_perform_other_slot hblock hslot
      rwa [howner] at hother
    · exact readSlot_perform_other_key hkey

/-- A summary that is due is written. -/
def performDue (write : Option (RowWrite keys)) (rows : List Row) : List Row :=
  match write with
  | none => rows
  | some write => write.perform rows

/-- A statement for a resource and a start of a bucket. -/
def WritesAt (owner : ℕ → ℕ) (resourcePk : ℕ) (start : ℤ) (write : Option (RowWrite keys)) : Prop :=
  ∀ due ∈ write, keys.key due.new = (resourcePk, start) ∧
    keys.workspacePk due.new = owner resourcePk

theorem lookup_performDue {write : Option (RowWrite keys)} {start : ℤ}
    (howned : Owned keys owner rows) (hwrite : WritesAt owner resourcePk start write)
    (value : ℕ × ℤ) :
    lookup keys.key value (performDue write rows) =
      if value = (resourcePk, start) then (write.map RowWrite.new).or (lookup keys.key value rows)
      else lookup keys.key value rows := by
  cases write with
  | none => simp [performDue]
  | some due =>
    obtain ⟨hkey, hworkspace⟩ := hwrite due rfl
    have hnew : keys.workspacePk due.new = owner (keys.resourcePk due.new) := by
      rw [hworkspace, show keys.resourcePk due.new = resourcePk from congrArg Prod.fst hkey]
    rw [performDue, lookup_perform howned hnew, hkey]
    rfl

theorem mem_performDue {write : Option (RowWrite keys)} {start : ℤ} (howned : Owned keys owner rows)
    (hwrite : WritesAt owner resourcePk start write) {row : Row} (h : row ∈ performDue write rows) :
    row ∈ rows ∨ keys.workspacePk row = owner (keys.resourcePk row) ∧
      keys.bucketStart row = start := by
  cases write with
  | none => exact .inl h
  | some due =>
    obtain ⟨hkey, hworkspace⟩ := hwrite due rfl
    have hnew : keys.workspacePk due.new = owner (keys.resourcePk due.new) := by
      rw [hworkspace, show keys.resourcePk due.new = resourcePk from congrArg Prod.fst hkey]
    refine (mem_perform howned hnew h).imp_right ?_
    rintro rfl
    exact ⟨hnew, congrArg Prod.snd hkey⟩

theorem uniqueKey_performDue (write : Option (RowWrite keys)) (h : UniqueKey keys.key rows) :
    UniqueKey keys.key (performDue write rows) := by
  cases write with
  | none => exact h
  | some due => exact h.upsert fun old _ ↦ due.key_change old

/-- A payload is accepted: its slot is stored, and the summaries that its slot closes are written
from the tables. -/
theorem shows_accept (h : Shows keys owner tables ledger) (write : SlotWrite Payload)
    (version : ℕ → ℕ) (howner : write.workspacePk = owner write.resourcePk)
    (hempty : readSlot tables.blocks write.resourcePk write.workspacePk write.nominalMinuteMs =
      none) (rules : Rules HourOf Payload Row 11) {five hour : Option (RowWrite keys)}
    {next : Ledger HourOf Payload Row 4 11}
    (hnext : next = accept rules ledger
      ⟨placeOf write.resourcePk write.nominalMinuteMs, write.columns.payload⟩)
    (hfive : WritesAt owner write.resourcePk (blockStart write.nominalMinuteMs) five)
    (hhour : WritesAt owner write.resourcePk (hourOf write.nominalMinuteMs * 3600000) hour)
    (hfive_new : five.map RowWrite.new =
      if slotOf write.nominalMinuteMs = 4 then
        next.bucketRows (write.resourcePk, hourOf write.nominalMinuteMs)
          (bucketOf write.nominalMinuteMs)
      else none)
    (hhour_new : hour.map RowWrite.new =
      if slotOf write.nominalMinuteMs = 4 ∧ bucketOf write.nominalMinuteMs = 11 then
        next.groupRows (write.resourcePk, hourOf write.nominalMinuteMs)
      else none) :
    Shows keys owner
      ⟨write.perform version tables.blocks, performDue five tables.fiveMinutes,
        performDue hour tables.hours⟩ next where
  slots resourcePk minute := by
    rw [h.slots_perform version howner hempty, hnext]
    rfl
  blocks_owned := BlocksOwned.perform h.blocks_owned howner
  fiveMinutes resourcePk hour bucket := by
    rw [lookup_performDue h.five_owned hfive, h.fiveMinutes, hfive_new, ← bucketStart_of]
    by_cases hcloses : (placeOf write.resourcePk write.nominalMinuteMs).closesBucket
        (resourcePk, hour) bucket = true
    · obtain ⟨rfl, rfl, rfl, hslot⟩ := closesBucket_placeOf.mp hcloses
      rw [if_pos rfl, if_pos hslot, hnext, bucketRows_accept, if_pos hcloses]
      rfl
    · have hother : next.bucketRows (resourcePk, hour) bucket =
          ledger.bucketRows (resourcePk, hour) bucket := by
        rw [hnext, bucketRows_accept, if_neg hcloses]
      rw [hother]
      split
      · next hkey =>
        obtain ⟨rfl, hstart⟩ := Prod.mk.inj hkey
        obtain ⟨rfl, rfl⟩ := bucketStart_inj hstart
        rw [if_neg fun hslot ↦ hcloses (closesBucket_placeOf.mpr ⟨rfl, rfl, rfl, hslot⟩)]
        rfl
      · rfl
  five_unique := uniqueKey_performDue five h.five_unique
  five_owned row hrow := by
    rcases mem_performDue h.five_owned hfive hrow with hold | ⟨hnew, -⟩
    · exact h.five_owned row hold
    · exact hnew
  five_placed row hrow := by
    rcases mem_performDue h.five_owned hfive hrow with hold | ⟨-, hstart⟩
    · exact h.five_placed row hold
    · exact ⟨_, _, hstart.trans (bucketStart_of _).symm⟩
  hours resourcePk hour := by
    rw [lookup_performDue h.hours_owned hhour, h.hours, hhour_new]
    by_cases hcloses : (placeOf write.resourcePk write.nominalMinuteMs).closesGroup
        (resourcePk, hour) = true
    · obtain ⟨rfl, rfl, hbucket, hslot⟩ := closesBucket_placeOf.mp hcloses
      rw [if_pos rfl, if_pos ⟨hslot, hbucket⟩, hnext, groupRows_accept, if_pos hcloses]
      rfl
    · have hother : next.groupRows (resourcePk, hour) = ledger.groupRows (resourcePk, hour) := by
        rw [hnext, groupRows_accept, if_neg hcloses]
      rw [hother]
      split
      · next hkey =>
        obtain ⟨rfl, hstart⟩ := Prod.mk.inj hkey
        obtain rfl : hour = hourOf write.nominalMinuteMs := by omega
        rw [if_neg fun hslot ↦ hcloses (closesBucket_placeOf.mpr ⟨rfl, rfl, hslot.2, hslot.1⟩)]
        rfl
      · rfl
  hours_owned row hrow := by
    rcases mem_performDue h.hours_owned hhour hrow with hold | ⟨hnew, -⟩
    · exact h.hours_owned row hold
    · exact hnew

theorem Shows.placeOf_not_mem {log : List (Entry HourOf Payload 4 11)}
    (h : Shows keys owner tables (ledgerOf rules log)) {resourcePk workspacePk : ℕ}
    (howner : workspacePk = owner resourcePk)
    (hempty : readSlot tables.blocks resourcePk workspacePk minute = none) :
    placeOf resourcePk minute ∉ log.map Entry.place := by
  have hslots := h.slots resourcePk minute
  rw [← howner, hempty] at hslots
  exact not_mem_of_slots_eq_none hslots.symm

theorem Shows.readSlot_of_mem {log : List (Entry HourOf Payload 4 11)}
    (h : Shows keys owner tables (ledgerOf rules log)) (hdistinct : Distinct log)
    {entry : Entry HourOf Payload 4 11} (hentry : entry ∈ log)
    (hplace : entry.place = placeOf resourcePk minute) :
    (readSlot tables.blocks resourcePk (owner resourcePk) minute).map SlotColumns.payload =
      some entry.payload := by
  rw [h.slots, ← hplace, slots_of_mem hdistinct hentry]

end Show

/-! ## The order of acceptance -/

section Order

variable {Item : Type} (key : Item → ℕ × ℤ)

/-- The newest item of a block is the one of its last slot; the newest item comes first. -/
def ClosedBlock (resourcePk : ℕ) (minute : ℤ) (accepted : List Item) : Prop :=
  ∀ item ∈ (accepted.filter fun item ↦ (key item).1 == resourcePk &&
    blockStart (key item).2 == blockStart minute).head?, slotOf (key item).2 = 4

/-- The newest item of an hour is the one of its last minute, and its blocks are closed. -/
def ClosedHour (resourcePk : ℕ) (minute : ℤ) (accepted : List Item) : Prop :=
  (∀ item ∈ (accepted.filter fun item ↦ (key item).1 == resourcePk &&
    hourOf (key item).2 == hourOf minute).head?,
      slotOf (key item).2 = 4 ∧ bucketOf (key item).2 = 11) ∧
    ∀ other, hourOf other = hourOf minute → ClosedBlock key resourcePk other accepted

variable {key} {entry : Item → Entry HourOf Payload 4 11} {accepted : List Item}
  {resourcePk : ℕ} {minute : ℤ}

theorem inBucket_placeOf {other : ℕ} {minute' : ℤ} :
    (placeOf other minute').inBucket (resourcePk, hourOf minute) (bucketOf minute) =
      (other == resourcePk && blockStart minute' == blockStart minute) := by
  rw [Bool.eq_iff_iff]
  simp only [Place.inBucket, placeOf, decide_eq_true_eq, Prod.mk.injEq, Bool.and_eq_true,
    beq_iff_eq, and_assoc]
  refine and_congr_right fun _ ↦ ⟨fun h ↦ ?_, fun h ↦ ?_⟩
  · rw [← bucketStart_of, ← bucketStart_of, h.1, h.2]
  · rw [← bucketStart_of, ← bucketStart_of minute] at h
    exact bucketStart_inj h

theorem closedLast_map {inside closes : Entry HourOf Payload 4 11 → Bool} :
    ClosedLast inside closes (accepted.map entry) ↔
      ∀ item ∈ (accepted.filter fun item ↦ inside (entry item)).head?,
        closes (entry item) = true := by
  rw [ClosedLast, List.filter_map, List.head?_map]
  simp [Function.comp_def]

theorem bucketClosedLast_iff
    (hplace : ∀ item, (entry item).place = placeOf (key item).1 (key item).2) :
    BucketClosedLast (resourcePk, hourOf minute) (bucketOf minute) (accepted.map entry) ↔
      ClosedBlock key resourcePk minute accepted := by
  rw [BucketClosedLast, closedLast_map]
  simp only [hplace, inBucket_placeOf]
  refine forall₂_congr fun item hitem ↦ ?_
  have hmem := (List.mem_filter.mp (List.mem_of_mem_head? hitem)).2
  rw [← inBucket_placeOf] at hmem
  rw [Place.closesBucket, hmem, Bool.true_and]
  exact ⟨fun h ↦ of_decide_eq_true h, fun h ↦ decide_eq_true h⟩

theorem groupClosedLast_iff
    (hplace : ∀ item, (entry item).place = placeOf (key item).1 (key item).2) :
    GroupClosedLast (resourcePk, hourOf minute) (accepted.map entry) ↔
      ClosedHour key resourcePk minute accepted := by
  have hinside : ∀ item, (placeOf (key item).1 (key item).2).inGroup
      (resourcePk, hourOf minute) =
        ((key item).1 == resourcePk && hourOf (key item).2 == hourOf minute) := by
    intro item
    rw [Bool.eq_iff_iff]
    simp only [Place.inGroup, placeOf, decide_eq_true_eq, Prod.mk.injEq, Bool.and_eq_true,
      beq_iff_eq]
  refine and_congr ?_ ⟨fun h other hother ↦ ?_, fun h bucket ↦ ?_⟩
  · rw [closedLast_map]
    simp only [hplace, hinside]
    refine forall₂_congr fun item hitem ↦ ?_
    have hmem := (List.mem_filter.mp (List.mem_of_mem_head? hitem)).2
    simp only [Bool.and_eq_true, beq_iff_eq] at hmem
    rw [Place.closesGroup, closesBucket_placeOf]
    exact ⟨fun h ↦ ⟨h.2.2.2, h.2.2.1⟩, fun h ↦ ⟨hmem.1, hmem.2, h.2, h.1⟩⟩
  · rw [← bucketClosedLast_iff hplace, hother]
    exact h (bucketOf other)
  · have hminute := placeOf_minuteAt resourcePk (hourOf minute) bucket 0
    have hhour : hourOf (minuteAt (hourOf minute) bucket 0) = hourOf minute :=
      congrArg (fun place ↦ place.group.2) hminute
    have hbucket : bucketOf (minuteAt (hourOf minute) bucket 0) = bucket :=
      congrArg Place.bucket hminute
    have hclosed := (bucketClosedLast_iff hplace).mpr (h _ hhour)
    rwa [hhour, hbucket] at hclosed

end Order

end AlphaPing.Ingest.Summaries
