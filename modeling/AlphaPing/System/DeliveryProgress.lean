import AlphaPing.Library.Texts
import AlphaPing.Protocol.Lengths
import AlphaPing.System.CollectedInventories

/-!
# Progress of delivery creation

A creation always turns to the oldest unassigned sample. When the minute of that sample already
has a delivery, the sample is parked on it, so that newer minutes are not blocked. When the report
of the minute cannot be built, because a stored message or the whole report is longer than the
protocol allows, the call fails and leaves everything where it was: the next call meets the same
minute again.

The calls follow one another here, at times and with identifiers of their own. As long as each of
them finds a minute that fits, one unassigned sample less is left after it.
-/

namespace AlphaPing.System.DeliveryProgress

open Agent Agent.Spool Protocol
open Library.Tables Library.Runs ReportTimes

/-- The codec together with the encoded lengths of the messages that the spool stores one by one:
`decode_message` refuses a longer one than `MAX_DECOMPRESSED_BYTES`. -/
structure Wire extends Codec where
  sampleLen : MetricSample → ℕ
  inventoryLen : ContainerInventory → ℕ
  resultLen : ProbeResult → ℕ
  commandLen : AgentCommandResult → ℕ

variable (wire : Wire)

/-- `decode_message` succeeds on all that a new delivery of the minute reads. -/
def Wire.decodes (spool : Spool) (minute : ℤ) : Bool :=
  (spool.packedSamples minute).all (fun row ↦ wire.sampleLen row.payload ≤ maxDecompressedBytes) &&
    (spool.snapshotOf minute).all (fun inventory ↦
      wire.inventoryLen inventory ≤ maxDecompressedBytes) &&
    (spool.packedProbes minute).all (fun row ↦ wire.resultLen row.payload ≤ maxDecompressedBytes) &&
    spool.packedCommands.all fun row ↦ wire.commandLen row.payload ≤ maxDecompressedBytes

/-- `create_next_delivery`, with the decoding of what is stored. -/
def Wire.createNextDelivery (spool : Spool) (machinePk workspacePk : ℕ) (reportId : Bytes)
    (nowMs : ℤ) : Outcome (Option Bytes) :=
  match nextMinute (floorMinute nowMs) 256 spool with
  | (none, parked) => (.ok none, parked)
  | (some minute, parked) =>
    if (parked.packedSamples minute).isEmpty then (.ok none, parked)
    else if ¬ wire.decodes parked minute then
      (.error "payload exceeds the protocol size limit", parked)
    else spool.createNextDelivery wire.toCodec machinePk workspacePk reportId nowMs

/-- The tables after a call. -/
def Wire.apply (spool : Spool) : Operation → Spool
  | .createNextDelivery machinePk workspacePk reportId nowMs =>
    (wire.createNextDelivery spool machinePk workspacePk reportId nowMs).2
  | operation => spool.apply wire.toCodec operation

def StampedPastEpoch : Operation → Prop
  | .appendSample sample _ => 0 ≤ sample.observedAtMs
  | _ => True

/-- The payload satisfies both limits of the protocol. -/
def Sized (codec : Codec) (report : MachineReport) : Prop :=
  codec.fits report = true ∧ (codec.compress report).length ≤ maxEnvelopeBytes

/-! ## Calls one after another -/

/-- The arguments of the calls, in their order. -/
structure Calls where
  machinePk : ℕ
  workspacePk : ℕ
  reportIds : ℕ → Bytes
  clock : ℕ → ℤ

variable (calls : Calls)

/-- The outcome of one of the calls. -/
def outcome (index : ℕ) (spool : Spool) : Outcome (Option Bytes) :=
  wire.createNextDelivery spool calls.machinePk calls.workspacePk (calls.reportIds index)
    (calls.clock index)

def after (spool : Spool) : ℕ → Spool
  | 0 => spool
  | done + 1 => (outcome wire calls done (after spool done)).2

def Calls.report (index : ℕ) (parked : Spool) (minute : ℤ) : MachineReport :=
  parked.buildReport calls.machinePk calls.workspacePk (calls.reportIds index) minute

/-- No call comes before the given time, and each draws an identifier that is not in use. -/
structure Drawn (spool : Spool) (nowMs : ℤ) : Prop where
  later : ∀ index, nowMs ≤ calls.clock index
  fresh : ∀ index, ∀ row ∈ (after wire calls spool index).deliveries,
    row.reportId ≠ calls.reportIds index

/-- Every call succeeds, every payload satisfies the limits, and after some of the calls each
minute that was past and had an unattached sample has a delivery. -/
structure Progresses (spool : Spool) (nowMs : ℤ) : Prop where
  ok : ∀ index, ∃ created, (outcome wire calls index (after wire calls spool index)).1 = .ok created
  sized : ∀ index reportId,
    (outcome wire calls index (after wire calls spool index)).1 = .ok (some reportId) →
      ∃ row ∈ (after wire calls spool (index + 1)).deliveries,
        row.reportId = reportId ∧ Sized wire.toCodec row.payload
  covered : ∃ count, ∀ row ∈ spool.unassigned, row.observedAt < floorMinute nowMs →
    ∃ delivery ∈ (after wire calls spool count).deliveries,
      delivery.nominalMinute = floorMinute row.observedAt

/-- If the call comes to a minute, what is stored for that minute decodes, and what is packed for
it stays within the limits. -/
def FitsNext (index : ℕ) (spool : Spool) : Prop :=
  ∀ minute parked, nextMinute (floorMinute (calls.clock index)) 256 spool = (some minute, parked) →
    wire.decodes parked minute = true ∧
      Sized wire.toCodec (calls.report index parked minute)

/-! ## The search for a minute -/

structure Sound (spool : Spool) : Prop where
  wellformed : spool.Wellformed
  nonneg : ∀ row ∈ spool.samples, 0 ≤ row.observedAt

theorem truncatedMinute_eq_floorMinute {timeMs : ℤ} (h : 0 ≤ timeMs) :
    truncatedMinute timeMs = floorMinute timeMs := by
  rw [truncatedMinute, floorMinute, Int.tdiv_eq_ediv_of_nonneg h]

theorem floorMinute_le (timeMs : ℤ) : floorMinute timeMs ≤ timeMs := by
  unfold floorMinute
  omega

theorem lt_floorMinute_add (timeMs : ℤ) : timeMs < floorMinute timeMs + 60000 := by
  unfold floorMinute
  omega

theorem floorMinute_of_mem {timeMs other : ℤ} (hlow : floorMinute timeMs ≤ other)
    (hhigh : other < floorMinute timeMs + 60000) : floorMinute other = floorMinute timeMs := by
  unfold floorMinute at hlow hhigh ⊢
  omega

theorem sound_of_parkedFrom {before after : Spool} (h : Sound before)
    (hparked : ParkedFrom before after) : Sound after where
  wellformed := hparked.wellformed h.wellformed
  nonneg := hparked.samples ▸ h.nonneg

variable {spool : Spool} {currentMinute : ℤ}

theorem mem_of_oldestUnassigned {row : SampleRow}
    (h : spool.oldestUnassigned currentMinute = some row) :
    row ∈ spool.unassigned ∧ row.observedAt < currentMinute := by
  obtain ⟨hmem, hbefore⟩ :=
    List.mem_filter.mp (mem_of_mem_selectOrdered (List.mem_of_mem_head? h))
  exact ⟨hmem, of_decide_eq_true hbefore⟩

theorem exists_oldestUnassigned {row : SampleRow} (hrow : row ∈ spool.unassigned)
    (hbefore : row.observedAt < currentMinute) :
    ∃ oldest, spool.oldestUnassigned currentMinute = some oldest := by
  cases holdest : spool.oldestUnassigned currentMinute with
  | some oldest => exact ⟨oldest, rfl⟩
  | none =>
    have hnil := List.head?_eq_none_iff.mp holdest
    rw [selectOrdered_eq_nil_iff Nat.one_pos, List.filter_eq_nil_iff] at hnil
    exact absurd (decide_eq_true hbefore) (hnil row hrow)

theorem nextMinute_succ (currentMinute : ℤ) (left : ℕ) {oldest : SampleRow}
    (holdest : spool.oldestUnassigned currentMinute = some oldest) (hnonneg : 0 ≤ oldest.observedAt)
    : nextMinute currentMinute (left + 1) spool =
      match spool.deliveryOf (floorMinute oldest.observedAt) with
      | none => (some (floorMinute oldest.observedAt), spool)
      | some delivery => nextMinute currentMinute left
          (spool.park delivery.reportId (floorMinute oldest.observedAt)) := by
  cases hdelivery : spool.deliveryOf (floorMinute oldest.observedAt) <;>
    simp only [nextMinute, holdest, truncatedMinute_eq_floorMinute hnonneg, hdelivery]

theorem nextMinute_succ_none (currentMinute : ℤ) (left : ℕ)
    (h : spool.oldestUnassigned currentMinute = none) :
    nextMinute currentMinute (left + 1) spool = (none, spool) := by
  rw [nextMinute, h]

/-- The minute that is found is the minute of a sample that is still unassigned. -/
theorem exists_unassigned_of_nextMinute {currentMinute minute : ℤ} (left : ℕ) (hsound : Sound spool)
    (h : (nextMinute currentMinute left spool).1 = some minute) :
    ∃ row ∈ (nextMinute currentMinute left spool).2.unassigned,
      minute = floorMinute row.observedAt := by
  induction left generalizing spool with
  | zero => cases h
  | succ left ih =>
    cases holdest : spool.oldestUnassigned currentMinute with
    | none =>
      rw [nextMinute_succ_none _ _ holdest] at h
      cases h
    | some oldest =>
      have hmem := (mem_of_oldestUnassigned holdest).1
      have hnonneg := hsound.nonneg oldest (mem_unassigned.mp hmem).1
      rw [nextMinute_succ _ _ holdest hnonneg] at h ⊢
      cases hdelivery : spool.deliveryOf (floorMinute oldest.observedAt) with
      | none =>
        rw [hdelivery] at h
        exact ⟨oldest, hmem, (Option.some.inj h).symm⟩
      | some delivery =>
        obtain ⟨hdelivered, hminute⟩ := deliveryOf_some hdelivery
        have hpark := parkedFrom_park spool hdelivered
        rw [hminute] at hpark
        rw [hdelivery] at h
        exact ih (sound_of_parkedFrom hsound hpark) h

/-! ## What a call attaches -/

/-- A call keeps samples, deliveries and attachments, and attaches a sample to nothing but a
delivery of its minute. -/
structure Covers (before after : Spool) : Prop where
  samples : after.samples = before.samples
  deliveries : before.deliveries ⊆ after.deliveries
  kept : before.deliverySamples ⊆ after.deliverySamples
  attached : ∀ link ∈ after.deliverySamples, link ∈ before.deliverySamples ∨
    ∃ delivery ∈ after.deliveries, ∃ row ∈ before.unassigned,
      row.id = link.sampleId ∧ delivery.nominalMinute = floorMinute row.observedAt

theorem Covers.refl (spool : Spool) : Covers spool spool where
  samples := rfl
  deliveries := List.Subset.refl _
  kept := List.Subset.refl _
  attached _ h := .inl h

theorem Covers.unassigned_subset {before after : Spool} (h : Covers before after) :
    after.unassigned ⊆ before.unassigned := by
  intro row hrow
  obtain ⟨hmem, hfree⟩ := mem_unassigned.mp hrow
  rw [h.samples] at hmem
  exact mem_unassigned.mpr ⟨hmem, fun link hlink ↦ hfree link (h.kept hlink)⟩

theorem Covers.trans {first second third : Spool} (h : Covers first second)
    (h' : Covers second third) : Covers first third where
  samples := h'.samples.trans h.samples
  deliveries := List.Subset.trans h.deliveries h'.deliveries
  kept := List.Subset.trans h.kept h'.kept
  attached link hlink := by
    rcases h'.attached link hlink with hold | ⟨delivery, hdelivery, row, hrow, hid, hminute⟩
    · rcases h.attached link hold with hfirst | ⟨delivery, hdelivery, hrest⟩
      · exact .inl hfirst
      · exact .inr ⟨delivery, h'.deliveries hdelivery, hrest⟩
    · exact .inr ⟨delivery, hdelivery, row, h.unassigned_subset hrow, hid, hminute⟩

theorem Covers.exists_delivery {before after : Spool} (h : Covers before after)
    (hsound : Sound before) {row : SampleRow} (hrow : row ∈ before.unassigned)
    (hattached : row ∉ after.unassigned) :
    ∃ delivery ∈ after.deliveries, delivery.nominalMinute = floorMinute row.observedAt := by
  obtain ⟨hmem, hfree⟩ := mem_unassigned.mp hrow
  have hlinked : ∃ link ∈ after.deliverySamples, link.sampleId = row.id := by
    by_contra hnone
    push Not at hnone
    exact hattached (mem_unassigned.mpr ⟨h.samples ▸ hmem, hnone⟩)
  obtain ⟨link, hlink, hid⟩ := hlinked
  rcases h.attached link hlink with hold | ⟨delivery, hdelivery, other, hother, hsame, hminute⟩
  · exact absurd hid (hfree link hold)
  · obtain rfl := hsound.wellformed.sample_unique.eq_of_mem hmem (mem_unassigned.mp hother).1
      (hid.symm.trans hsame.symm)
    exact ⟨delivery, hdelivery, hminute⟩

theorem covers_park {delivery : DeliveryRow} {timeMs : ℤ}
    (hdelivery : spool.deliveryOf (floorMinute timeMs) = some delivery) :
    Covers spool (spool.park delivery.reportId (floorMinute timeMs)) where
  samples := rfl
  deliveries := List.Subset.refl _
  kept := List.subset_append_left _ _
  attached link hlink := by
    obtain ⟨hmem, hminute⟩ := deliveryOf_some hdelivery
    rcases List.mem_append.mp hlink with hold | hnew
    · exact .inl hold
    · obtain ⟨row, hrow, rfl⟩ := List.mem_map.mp hnew
      obtain ⟨hfree, hlow, hhigh⟩ := mem_unassignedIn.mp hrow
      exact .inr ⟨delivery, hmem, row, hfree, rfl,
        hminute.trans (floorMinute_of_mem hlow hhigh).symm⟩

theorem covers_nextMinute (currentMinute : ℤ) (left : ℕ) (hsound : Sound spool) :
    Covers spool (nextMinute currentMinute left spool).2 := by
  induction left generalizing spool with
  | zero => exact .refl spool
  | succ left ih =>
    cases holdest : spool.oldestUnassigned currentMinute with
    | none =>
      rw [nextMinute_succ_none _ _ holdest]
      exact .refl spool
    | some oldest =>
      have hmem := (mem_of_oldestUnassigned holdest).1
      rw [nextMinute_succ _ _ holdest (hsound.nonneg oldest (mem_unassigned.mp hmem).1)]
      cases hdelivery : spool.deliveryOf (floorMinute oldest.observedAt) with
      | none => exact .refl spool
      | some delivery =>
        obtain ⟨hdelivered, hminute⟩ := deliveryOf_some hdelivery
        have hpark := parkedFrom_park spool hdelivered
        rw [hminute] at hpark
        exact (covers_park hdelivery).trans (ih (sound_of_parkedFrom hsound hpark))

/-- A search that ends without a minute has parked the sample that it began with. -/
theorem parked_of_nextMinute_none (left : ℕ) (hsound : Sound spool) {oldest : SampleRow}
    (holdest : spool.oldestUnassigned currentMinute = some oldest)
    (h : (nextMinute currentMinute (left + 1) spool).1 = none) :
    oldest ∉ (nextMinute currentMinute (left + 1) spool).2.unassigned := by
  have hmem := (mem_of_oldestUnassigned holdest).1
  rw [nextMinute_succ _ _ holdest (hsound.nonneg oldest (mem_unassigned.mp hmem).1)] at h ⊢
  cases hdelivery : spool.deliveryOf (floorMinute oldest.observedAt) with
  | none =>
    rw [hdelivery] at h
    cases h
  | some delivery =>
    obtain ⟨hdelivered, hminute⟩ := deliveryOf_some hdelivery
    have hpark := parkedFrom_park spool hdelivered
    rw [hminute] at hpark
    have hcovers := covers_nextMinute currentMinute left (sound_of_parkedFrom hsound hpark)
    intro hlater
    -- the attachment that parking made is still there
    have hfree := (mem_unassigned.mp (hcovers.unassigned_subset hlater)).2
    refine hfree ⟨delivery.reportId, oldest.id⟩ (List.mem_append_right _ ?_) rfl
    refine List.mem_map.mpr ⟨oldest, mem_unassignedIn.mpr ⟨hmem, ?_⟩, rfl⟩
    exact ⟨floorMinute_le _, lt_floorMinute_add _⟩

/-! ## One call -/

section Call

variable {wire} {spool : Spool} {machinePk workspacePk : ℕ} {reportId : Bytes} {nowMs : ℤ}

theorem packedSamples_ne_nil {parked : Spool} {row : SampleRow} (hrow : row ∈ parked.unassigned) :
    parked.packedSamples (floorMinute row.observedAt) ≠ [] := by
  intro hnil
  rw [packedSamples, selectOrdered_eq_nil_iff (by decide)] at hnil
  have hmem : row ∈ parked.unassignedIn (floorMinute row.observedAt) :=
    mem_unassignedIn.mpr ⟨hrow, floorMinute_le _, lt_floorMinute_add _⟩
  exact absurd (hnil ▸ hmem) List.not_mem_nil

theorem createNextDelivery_idle {parked : Spool}
    (hfound : nextMinute (floorMinute nowMs) 256 spool = (none, parked)) :
    wire.createNextDelivery spool machinePk workspacePk reportId nowMs = (.ok none, parked) := by
  rw [Wire.createNextDelivery, hfound]

theorem createNextDelivery_found (hsound : Sound spool)
    (hfresh : ∀ row ∈ spool.deliveries, row.reportId ≠ reportId) {minute : ℤ} {parked : Spool}
    (hfound : nextMinute (floorMinute nowMs) 256 spool = (some minute, parked)) :
    wire.createNextDelivery spool machinePk workspacePk reportId nowMs =
      if wire.decodes parked minute = true ∧
          wire.fits (parked.buildReport machinePk workspacePk reportId minute) = true then
        (.ok (some reportId), parked.insertDelivery wire.toCodec
          (parked.buildReport machinePk workspacePk reportId minute) nowMs)
      else (.error "payload exceeds the protocol size limit", parked) := by
  obtain ⟨hparked, hfree⟩ := nextMinute_spec (floorMinute nowMs) 256 spool
  have hunassigned := exists_unassigned_of_nextMinute 256 hsound (congrArg Prod.fst hfound)
  rw [hfound] at hparked hfree hunassigned
  obtain ⟨row, hrow, rfl⟩ := hunassigned
  have hpacked : ¬(parked.packedSamples (floorMinute row.observedAt)).isEmpty = true := fun h ↦
    packedSamples_ne_nil hrow (List.isEmpty_iff.mp h)
  have hunique : ¬(parked.deliveries.any fun other ↦ other.reportId == reportId ||
      other.nominalMinute == floorMinute row.observedAt) = true := by
    rw [List.any_eq_true]
    rintro ⟨other, hother, hclash⟩
    rw [Bool.or_eq_true, beq_iff_eq, beq_iff_eq] at hclash
    rcases hclash with hid | hminute
    · exact hfresh other (hparked.deliveries ▸ hother) hid
    · exact deliveryOf_none (hfree _ rfl) other hother hminute
  rw [Wire.createNextDelivery, hfound]
  dsimp only
  rw [if_neg hpacked, Spool.createNextDelivery, hfound]
  dsimp only
  rw [if_neg hpacked, if_neg hunique]
  by_cases hdecodes : wire.decodes parked (floorMinute row.observedAt) = true
  · rw [if_neg (not_not.mpr hdecodes)]
    by_cases hfits : wire.fits (parked.buildReport machinePk workspacePk reportId
        (floorMinute row.observedAt)) = true
    · rw [if_neg (not_not.mpr hfits), if_pos ⟨hdecodes, hfits⟩]
    · rw [if_pos hfits, if_neg fun h ↦ hfits h.2]
  · rw [if_pos hdecodes, if_neg fun h ↦ hdecodes h.1]

theorem covers_insertDelivery {parked : Spool} (codec : Codec) {timeMs : ℤ} :
    Covers parked (parked.insertDelivery codec
      (parked.buildReport machinePk workspacePk reportId (floorMinute timeMs)) nowMs) where
  samples := rfl
  deliveries := List.subset_append_left _ _
  kept := List.subset_append_left _ _
  attached link hlink := by
    rcases List.mem_append.mp hlink with hold | hnew
    · exact .inl hold
    · obtain ⟨row, hrow, rfl⟩ := List.mem_map.mp hnew
      obtain ⟨hfree, hlow, hhigh⟩ := mem_unassignedIn.mp (mem_of_mem_selectOrdered hrow)
      exact .inr ⟨_, List.mem_append_right _ List.mem_cons_self, row, hfree, rfl,
        (floorMinute_of_mem hlow hhigh).symm⟩

theorem createNextDelivery_outcome (hsound : Sound spool)
    (hfresh : ∀ row ∈ spool.deliveries, row.reportId ≠ reportId) :
    let found := nextMinute (floorMinute nowMs) 256 spool
    (wire.createNextDelivery spool machinePk workspacePk reportId nowMs).2 = found.2 ∨
      ∃ row ∈ found.2.unassigned, found.1 = some (floorMinute row.observedAt) ∧
        wire.createNextDelivery spool machinePk workspacePk reportId nowMs =
          (.ok (some reportId), found.2.insertDelivery wire.toCodec (found.2.buildReport
            machinePk workspacePk reportId (floorMinute row.observedAt)) nowMs) := by
  intro found
  cases hminute : found.1 with
  | none =>
    rw [createNextDelivery_idle (Prod.ext hminute rfl)]
    exact .inl rfl
  | some minute =>
    rw [createNextDelivery_found hsound hfresh (Prod.ext hminute rfl)]
    split
    · obtain ⟨row, hrow, rfl⟩ := exists_unassigned_of_nextMinute 256 hsound hminute
      exact .inr ⟨row, hrow, rfl, rfl⟩
    · exact .inl rfl

theorem covers_createNextDelivery (hsound : Sound spool)
    (hfresh : ∀ row ∈ spool.deliveries, row.reportId ≠ reportId) :
    Covers spool (wire.createNextDelivery spool machinePk workspacePk reportId nowMs).2 := by
  have hparked := covers_nextMinute (floorMinute nowMs) 256 hsound
  rcases @createNextDelivery_outcome wire spool machinePk workspacePk reportId nowMs hsound hfresh
    with hsame | ⟨row, hrow, -, hcall⟩
  · rw [hsame]
    exact hparked
  · rw [hcall]
    exact hparked.trans (covers_insertDelivery wire.toCodec)

theorem wellformed_wireCreate (h : spool.Wellformed) :
    (wire.createNextDelivery spool machinePk workspacePk reportId nowMs).2.Wellformed := by
  have hparked := (nextMinute_spec (floorMinute nowMs) 256 spool).1.wellformed h
  unfold Wire.createNextDelivery
  generalize nextMinute (floorMinute nowMs) 256 spool = found at hparked
  obtain ⟨minute, parked⟩ := found
  cases minute with
  | none => exact hparked
  | some minute =>
    dsimp only
    split
    · exact hparked
    · split
      · exact hparked
      · exact wellformed_createNextDelivery h wire.toCodec machinePk workspacePk reportId nowMs

theorem samples_wireCreate :
    (wire.createNextDelivery spool machinePk workspacePk reportId nowMs).2.samples =
      spool.samples := by
  have hparked := (nextMinute_spec (floorMinute nowMs) 256 spool).1.samples
  unfold Wire.createNextDelivery
  generalize nextMinute (floorMinute nowMs) 256 spool = found at hparked
  obtain ⟨minute, parked⟩ := found
  cases minute with
  | none => exact hparked
  | some minute =>
    dsimp only
    split
    · exact hparked
    · split
      · exact hparked
      · exact samples_createNextDelivery spool wire.toCodec machinePk workspacePk reportId nowMs

theorem sound_createNextDelivery (h : Sound spool) :
    Sound (wire.createNextDelivery spool machinePk workspacePk reportId nowMs).2 where
  wellformed := wellformed_wireCreate h.wellformed
  nonneg := by
    rw [samples_wireCreate]
    exact h.nonneg

end Call

/-! ## Every run -/

theorem sound_empty : Sound Spool.empty where
  wellformed := wellformed_empty
  nonneg _ h := absurd h List.not_mem_nil

theorem nonneg_apply {codec : Codec} (h : ∀ row ∈ spool.samples, 0 ≤ row.observedAt)
    {operation : Operation} (hstamped : StampedPastEpoch operation) :
    ∀ row ∈ (spool.apply codec operation).samples, 0 ≤ row.observedAt := by
  cases operation with
  | appendSample sample nowMs =>
    unfold Spool.apply appendSample
    dsimp only
    split
    · exact h
    · intro row hrow
      rcases List.mem_append.mp hrow with hold | hnew
      · exact h row hold
      · rw [List.mem_singleton.mp hnew]
        exact hstamped
  | appendContainerInventory inventory nowMs =>
    unfold Spool.apply appendContainerInventory
    dsimp only
    split <;> exact h
  | createNextDelivery machinePk workspacePk reportId nowMs =>
    rw [Spool.apply, samples_createNextDelivery]
    exact h
  | appendProbeResult result nowMs =>
    unfold Spool.apply appendProbeResult
    dsimp only
    split <;> exact h
  | completeCommand result =>
    unfold Spool.apply completeCommand
    dsimp only
    split <;> exact h
  | _ => exact fun row hrow ↦ h row ((kept_apply codec spool id).samples hrow)

theorem sound_apply (h : Sound spool) {operation : Operation}
    (hstamped : StampedPastEpoch operation) : Sound (wire.apply spool operation) := by
  cases operation with
  | createNextDelivery machinePk workspacePk reportId nowMs => exact sound_createNextDelivery h
  | _ => exact ⟨wellformed_apply h.wellformed _, nonneg_apply h.nonneg hstamped⟩

theorem sound_run {operations : List Operation}
    (hrun : Along wire.apply (fun _ ↦ StampedPastEpoch) Spool.empty operations) :
    Sound (run wire.apply Spool.empty operations) := by
  have hvisits : Visits wire.apply Sound Spool.empty operations := by
    apply visits_of_along (fun _ _ hsound hstamped ↦ sound_apply wire hsound hstamped) ?_ hrun
    exact sound_empty
  exact visits_run hvisits

/-! ## Call after call -/

section Calls

variable {wire calls} {spool : Spool} {nowMs : ℤ}

theorem sound_after (hsound : Sound spool) (count : ℕ) : Sound (after wire calls spool count) := by
  induction count with
  | zero => exact hsound
  | succ count ih => exact sound_createNextDelivery ih

theorem covers_after (hsound : Sound spool) (hdrawn : Drawn wire calls spool nowMs) (count : ℕ) :
    Covers spool (after wire calls spool count) := by
  induction count with
  | zero => exact .refl spool
  | succ count ih =>
    exact ih.trans (covers_createNextDelivery (sound_after hsound count)
      (hdrawn.fresh count))

/-- A call succeeds within the limits exactly when the minute that it comes to fits. -/
theorem fitsNext_iff (index : ℕ) (hsound : Sound spool)
    (hfresh : ∀ row ∈ spool.deliveries, row.reportId ≠ calls.reportIds index) :
    FitsNext wire calls index spool ↔
      (∃ created, (outcome wire calls index spool).1 = .ok created) ∧
        ∀ reportId, (outcome wire calls index spool).1 = .ok (some reportId) →
          ∃ row ∈ (outcome wire calls index spool).2.deliveries,
            row.reportId = reportId ∧ Sized wire.toCodec row.payload := by
  cases hfound : nextMinute (floorMinute (calls.clock index)) 256 spool with
  | mk minute parked =>
  cases minute with
  | none =>
    have hcall : outcome wire calls index spool = (.ok none, parked) :=
      createNextDelivery_idle hfound
    rw [FitsNext, hfound, hcall]
    constructor
    · intro _
      refine ⟨⟨none, rfl⟩, fun reportId h ↦ ?_⟩
      cases h
    · intro _ minute parked h
      cases h
  | some minute =>
    have hcall := @createNextDelivery_found wire spool calls.machinePk calls.workspacePk
      (calls.reportIds index) (calls.clock index) hsound hfresh minute parked hfound
    have hdeliveries := (nextMinute_spec (floorMinute (calls.clock index)) 256 spool).1.deliveries
    rw [hfound] at hdeliveries
    rw [FitsNext, hfound, outcome, hcall]
    constructor
    · intro hfits
      obtain ⟨hdecodes, hsized⟩ := hfits minute parked rfl
      rw [if_pos ⟨hdecodes, hsized.1⟩]
      refine ⟨⟨_, rfl⟩, fun reportId h ↦ ?_⟩
      obtain rfl := Option.some.inj (Except.ok.inj h)
      exact ⟨_, List.mem_append_right _ List.mem_cons_self, rfl, hsized⟩
    · rintro ⟨⟨created, hok⟩, hpayload⟩ minute' parked' hsame
      cases hsame
      by_cases hlengths : wire.decodes parked minute = true ∧
          wire.fits (parked.buildReport calls.machinePk calls.workspacePk (calls.reportIds index)
            minute) = true
      · rw [if_pos hlengths] at hpayload
        obtain ⟨row, hrow, hid, hsized⟩ := hpayload _ rfl
        rcases List.mem_append.mp hrow with hold | hnew
        · exact absurd hid (hfresh row (hdeliveries ▸ hold))
        · rw [List.mem_singleton.mp hnew] at hsized
          exact ⟨hlengths.1, hsized⟩
      · rw [if_neg hlengths] at hok
        cases hok

theorem exists_attached (index : ℕ) (hsound : Sound spool)
    (hfresh : ∀ row ∈ spool.deliveries, row.reportId ≠ calls.reportIds index)
    (hfits : FitsNext wire calls index spool) {row : SampleRow} (hrow : row ∈ spool.unassigned)
    (hbefore : row.observedAt < floorMinute (calls.clock index)) :
    ∃ taken ∈ spool.unassigned, taken ∉ (outcome wire calls index spool).2.unassigned := by
  obtain ⟨oldest, holdest⟩ := exists_oldestUnassigned hrow hbefore
  cases hfound : nextMinute (floorMinute (calls.clock index)) 256 spool with
  | mk minute parked =>
  cases minute with
  | none =>
    have hcall : outcome wire calls index spool = (.ok none, parked) :=
      createNextDelivery_idle hfound
    have hparked := parked_of_nextMinute_none 255 hsound holdest (congrArg Prod.fst hfound)
    rw [hfound] at hparked
    rw [hcall]
    exact ⟨oldest, (mem_of_oldestUnassigned holdest).1, hparked⟩
  | some minute =>
    obtain ⟨hdecodes, hsized⟩ := hfits minute parked hfound
    obtain ⟨sample, hsample, rfl⟩ :=
      exists_unassigned_of_nextMinute 256 hsound (congrArg Prod.fst hfound)
    have hcovers := covers_nextMinute (floorMinute (calls.clock index)) 256 hsound
    rw [hfound] at hsample hcovers
    rw [outcome, createNextDelivery_found hsound hfresh hfound, if_pos ⟨hdecodes, hsized.1⟩]
    obtain ⟨taken, htaken⟩ := List.exists_mem_of_ne_nil _ (packedSamples_ne_nil hsample)
    refine ⟨taken, hcovers.unassigned_subset (mem_unassigned_of_packed htaken), fun hlater ↦ ?_⟩
    refine (mem_unassigned.mp hlater).2 ⟨calls.reportIds index, taken.id⟩ ?_ rfl
    exact List.mem_append_right _ (List.mem_map.mpr ⟨taken, htaken, rfl⟩)

theorem length_unassigned_lt {before after : Spool} (h : Covers before after) {taken : SampleRow}
    (hbefore : taken ∈ before.unassigned) (hafter : taken ∉ after.unassigned) :
    after.unassigned.length < before.unassigned.length := by
  have hfilter : after.unassigned = before.unassigned.filter fun row ↦ !after.attached row.id := by
    unfold unassigned
    rw [h.samples, List.filter_filter]
    apply List.filter_congr
    intro row _
    cases hattached : before.attached row.id with
    | false => rw [Bool.not_false, Bool.and_true]
    | true =>
      obtain ⟨link, hlink, hid⟩ := List.any_eq_true.mp hattached
      have hlater : after.attached row.id = true := List.any_eq_true.mpr ⟨link, h.kept hlink, hid⟩
      rw [hlater]
      rfl
  rw [hfilter, List.length_filter_lt_length_iff_exists]
  refine ⟨taken, hbefore, fun hfree ↦ hafter ?_⟩
  rw [hfilter]
  exact List.mem_filter.mpr ⟨hbefore, hfree⟩

theorem floorMinute_mono {first second : ℤ} (h : first ≤ second) :
    floorMinute first ≤ floorMinute second := by
  unfold floorMinute
  omega

theorem exists_settled (hsound : Sound spool) (hdrawn : Drawn wire calls spool nowMs)
    (hfits : ∀ index, FitsNext wire calls index (after wire calls spool index)) :
    ∃ count, ∀ row ∈ (after wire calls spool count).unassigned,
      ¬ row.observedAt < floorMinute nowMs := by
  have hstops : ∃ count, ¬(after wire calls spool (count + 1)).unassigned.length <
      (after wire calls spool count).unassigned.length :=
    WellFounded.not_rel_apply_succ fun index ↦ (after wire calls spool index).unassigned.length
  obtain ⟨count, hcount⟩ := hstops
  refine ⟨count, fun row hrow hbefore ↦ hcount ?_⟩
  have hthis : Sound (after wire calls spool count) := sound_after hsound count
  have hlater := hbefore.trans_le (floorMinute_mono (hdrawn.later count))
  have hfresh := hdrawn.fresh count
  obtain ⟨taken, hbefore, hafter⟩ :=
    exists_attached count hthis hfresh (hfits count) hrow hlater
  exact length_unassigned_lt (covers_createNextDelivery hthis hfresh) hbefore hafter

end Calls

/-- From every spool that a run reaches, creation progresses if and only if each call finds a
minute that fits. -/
theorem delivery_creation_progresses_iff {operations : List Operation}
    (hrun : Along wire.apply (fun _ ↦ StampedPastEpoch) Spool.empty operations) {nowMs : ℤ}
    (hdrawn : Drawn wire calls (run wire.apply Spool.empty operations) nowMs) :
    Progresses wire calls (run wire.apply Spool.empty operations) nowMs ↔
      ∀ index, FitsNext wire calls index
        (after wire calls (run wire.apply Spool.empty operations) index) := by
  have hsound := sound_run wire hrun
  generalize run wire.apply Spool.empty operations = spool at hdrawn hsound ⊢
  have hstep (index : ℕ) := @fitsNext_iff wire calls (after wire calls spool index) index
    (sound_after hsound index) (hdrawn.fresh index)
  constructor
  · intro h index
    exact (hstep index).mpr ⟨h.ok index, h.sized index⟩
  · intro h
    obtain ⟨count, hcount⟩ := exists_settled hsound hdrawn h
    refine ⟨fun index ↦ ((hstep index).mp (h index)).1, fun index ↦ ((hstep index).mp (h index)).2,
      count, fun row hrow hbefore ↦ ?_⟩
    exact (covers_after hsound hdrawn count).exists_delivery hsound hrow fun hlater ↦
      hcount row hlater hbefore

/-! ## Examples of calls -/

/-- The lengths that the encoder gives to messages whose other fields are empty. -/
def protobufWire : Wire :=
  { prefixCodec with
    encodedLen := machineReportLen
    sampleLen := metricSampleLen
    inventoryLen := containerInventoryLen
    resultLen := probeResultLen
    commandLen := commandResultLen }

/-! ### One minute after another -/

/-- Calls once in a minute, with identifiers of growing length. -/
def everyMinute (startMs : ℤ) : Calls where
  machinePk := 7
  workspacePk := 3
  reportIds index := List.replicate (16 + index) 0
  clock index := startMs + 60000 * index

/-- One sample of the minute before. -/
def sampledOnce : List Operation := [.appendSample { observedAtMs := 30000 } 30000]

/-- The spool after the delivery of that minute. -/
def deliveredOnce : Spool :=
  after protobufWire (everyMinute 90000) (run protobufWire.apply Spool.empty sampledOnce) 1

theorem nextMinute_deliveredOnce (currentMinute : ℤ) (left : ℕ) :
    nextMinute currentMinute left deliveredOnce = (none, deliveredOnce) := by
  cases left with
  | zero => rfl
  | succ left =>
    apply nextMinute_succ_none
    have hnone : deliveredOnce.unassigned = [] := by decide +kernel
    rw [oldestUnassigned, hnone]
    rfl

theorem after_deliveredOnce (count : ℕ) :
    after protobufWire (everyMinute 90000) (run protobufWire.apply Spool.empty sampledOnce)
      (count + 1) = deliveredOnce := by
  induction count with
  | zero => rfl
  | succ count ih =>
    rw [after, ih, outcome, createNextDelivery_idle (nextMinute_deliveredOnce _ _)]

theorem drawn_sampledOnce :
    Drawn protobufWire (everyMinute 90000) (run protobufWire.apply Spool.empty sampledOnce)
      90000 where
  later index := by
    simp only [everyMinute]
    omega
  fresh index row hrow := by
    cases index with
    | zero => exact absurd hrow List.not_mem_nil
    | succ index =>
      have hids : deliveredOnce.deliveries.map DeliveryRow.reportId = [List.replicate 16 0] := by
        decide +kernel
      rw [after_deliveredOnce] at hrow
      have hid := List.mem_map_of_mem hrow (f := DeliveryRow.reportId)
      rw [hids, List.mem_singleton] at hid
      rw [hid]
      intro hsame
      have hlength := congrArg List.length hsame
      simp only [everyMinute, List.length_replicate] at hlength
      omega

theorem sample_delivered :
    Progresses protobufWire (everyMinute 90000) (run protobufWire.apply Spool.empty sampledOnce)
      90000 := by
  refine (delivery_creation_progresses_iff protobufWire (everyMinute 90000)
    (along_of_forall (by simp [sampledOnce, StampedPastEpoch])) drawn_sampledOnce).mpr ?_
  intro index
  cases index with
  | zero =>
    have hfound : nextMinute (floorMinute ((everyMinute 90000).clock 0)) 256
        (run protobufWire.apply Spool.empty sampledOnce) =
          (some 0, run protobufWire.apply Spool.empty sampledOnce) := rfl
    intro minute parked h
    obtain ⟨hminute, rfl⟩ := Prod.mk.inj (hfound.symm.trans h)
    obtain rfl := Option.some.inj hminute
    exact ⟨by decide +kernel, by decide +kernel, by decide +kernel⟩
  | succ index =>
    rw [after_deliveredOnce]
    intro minute parked h
    rw [nextMinute_deliveredOnce] at h
    cases h

/-! ### A container with a very long name -/

/-- Docker lists one container, whose name has the given length. -/
def namedAnswers (length : ℕ) : RuntimeAdapters.Answers where
  surroundings := ⟨none, ["unix:/var/run/docker.sock"], []⟩
  docker _ :=
    { version := .ok ⟨"1.47", "27.3.1"⟩
      listed := .ok [⟨"0123456789ab", [String.ofList ('/' :: List.replicate length 'a')],
        "nginx:latest", "running", []⟩]
      inspect := fun _ ↦ none
      stats := fun _ ↦ none }
  colima := ⟨.error .notFound, fun _ ↦ .error .notFound⟩
  apple := ⟨false, .error .notFound, .error .notFound⟩

/-- The containers are collected, and then a sample is taken. -/
def namedOperations (length : ℕ) : List Operation :=
  [.appendContainerInventory
      (CollectedInventories.collected prefixCodec [] (namedAnswers length) 30000) 30000,
    .appendSample { observedAtMs := 30000 } 30000]

variable (length : ℕ)

theorem trimSlashes_slash :
    RuntimeAdapters.trimSlashes (String.ofList ('/' :: List.replicate length 'a')) =
      String.ofList (List.replicate length 'a') := by
  rw [RuntimeAdapters.trimSlashes, String.toList_ofList]
  cases length <;> rfl

def namedContainer (length : ℕ) : RuntimeAdapters.ListContainer :=
  ⟨"0123456789ab", [String.ofList ('/' :: List.replicate length 'a')], "nginx:latest", "running",
    []⟩

theorem gather_namedAnswers :
    (RuntimeAdapters.gather prefixCodec (namedAnswers length)).2 =
      [RuntimeAdapters.dockerRecord prefixCodec ⟨.docker, "default", "unix:/var/run/docker.sock"⟩
        (namedContainer length) {} {}] := by
  have hversion : RuntimeAdapters.validApiVersion "1.47" = true := by decide
  have hid : RuntimeAdapters.validContainerId "0123456789ab" = true := by decide
  simp [RuntimeAdapters.gather, RuntimeAdapters.collectDocker, RuntimeAdapters.discoverEndpoints,
    RuntimeAdapters.addEndpoint, RuntimeAdapters.endpointFound, RuntimeAdapters.collectEndpoint,
    RuntimeAdapters.collectColima, RuntimeAdapters.collectApple, RuntimeAdapters.maxContainers,
    namedAnswers, namedContainer, bind, Except.bind, hversion, hid]

theorem exists_named_entry {length : ℕ} (hlength : length ≠ 0) :
    ∃ entry ∈ (CollectedInventories.collected prefixCodec [] (namedAnswers length) 30000).catalog,
      entry.name = String.ofList (List.replicate length 'a') := by
  rw [CollectedInventories.catalog_collected, CollectedInventories.keptContainers,
    gather_namedAnswers]
  have hkept (container : RuntimeAdapters.ContainerRecord) :
      (AlphaPing.Library.Distinct.distinct RuntimeAdapters.ContainerRecord.sortKey [container]).take
        RuntimeAdapters.maxContainers = [container] := rfl
  rw [hkept, List.map_singleton]
  refine ⟨_, List.mem_cons_self, ?_⟩
  have hname : (String.ofList (List.replicate length 'a')).isEmpty = false := by
    simp [hlength]
  rw [RuntimeAdapters.catalogEntry, RuntimeAdapters.dockerRecord]
  simp only [RuntimeAdapters.dockerName, namedContainer, List.head?_cons, Option.map_some,
    trimSlashes_slash, Option.filter_some, hname, Bool.not_false, if_true, Option.getD_some]

/-- The spool that is left: the snapshot and the sample of one minute, and no delivery. -/
def namedSpool (length : ℕ) : Spool :=
  { Spool.empty with
    nextSampleId := 2
    samples := [⟨1, 30000, 30000, { observedAtMs := 30000 }, 30000⟩]
    containerSnapshots := [⟨0, 30000,
      CollectedInventories.collected prefixCodec [] (namedAnswers length) 30000, 30000⟩] }

theorem run_namedOperations :
    run protobufWire.apply Spool.empty (namedOperations length) = namedSpool length := rfl

theorem along_namedOperations :
    Along protobufWire.apply (fun _ ↦ StampedPastEpoch) Spool.empty (namedOperations length) := by
  apply along_of_forall
  simp [namedOperations, StampedPastEpoch]

theorem nextMinute_namedSpool (hlater : 30000 < currentMinute) (left : ℕ) :
    nextMinute currentMinute (left + 1) (namedSpool length) = (some 0, namedSpool length) := by
  have holdest : (namedSpool length).oldestUnassigned currentMinute =
      some ⟨1, 30000, 30000, { observedAtMs := 30000 }, 30000⟩ := by
    simp [oldestUnassigned, unassigned, attached, selectOrdered, namedSpool, Spool.empty, hlater]
  rw [nextMinute_succ _ _ holdest (by decide)]
  rfl

/-- What is stored for the minute does not decode when the name is too long. -/
theorem decodes_namedSpool {length : ℕ} (hlength : maxDecompressedBytes < length) :
    protobufWire.decodes (namedSpool length) 0 = false := by
  obtain ⟨entry, hentry, hname⟩ := exists_named_entry (Nat.ne_zero_of_lt hlength)
  have hlong : length ≤ entry.name.utf8ByteSize := by
    have hchars := AlphaPing.Library.Texts.length_le_utf8ByteSize entry.name
    rwa [hname, String.toList_ofList, List.length_replicate, ← hname] at hchars
  have hinventory := hlong.trans (name_le_containerInventoryLen hentry)
  have hsnapshot : (namedSpool length).snapshotOf 0 =
      some (CollectedInventories.collected prefixCodec [] (namedAnswers length) 30000) := rfl
  have hrefused : ¬(protobufWire.inventoryLen (CollectedInventories.collected prefixCodec []
      (namedAnswers length) 30000) ≤ maxDecompressedBytes) :=
    not_le.mpr (hlength.trans_le hinventory)
  rw [Wire.decodes, hsnapshot, Option.all_some, decide_eq_false hrefused, Bool.and_false,
    Bool.false_and, Bool.false_and]

/-- A container whose name is longer than a message may be blocks every later delivery: each call
fails and leaves the spool as it was. -/
theorem outcome_namedSpool {length : ℕ} (hlength : maxDecompressedBytes < length) (index : ℕ) :
    outcome protobufWire (everyMinute 90000) index (namedSpool length) =
      (.error "payload exceeds the protocol size limit", namedSpool length) := by
  have hlater : 30000 < floorMinute ((everyMinute 90000).clock index) := by
    simp only [everyMinute, floorMinute]
    omega
  have hfound := nextMinute_namedSpool length hlater 255
  have hsound : Sound (namedSpool length) := by
    rw [← run_namedOperations]
    exact sound_run protobufWire (along_namedOperations length)
  rw [outcome, createNextDelivery_found hsound (fun _ h ↦ absurd h List.not_mem_nil) hfound,
    if_neg]
  rw [decodes_namedSpool hlength]
  exact fun h ↦ absurd h.1 Bool.false_ne_true

theorem after_namedSpool {length : ℕ} (hlength : maxDecompressedBytes < length) (count : ℕ) :
    after protobufWire (everyMinute 90000) (namedSpool length) count = namedSpool length := by
  induction count with
  | zero => rfl
  | succ count ih => rw [after, ih, outcome_namedSpool hlength]

/-- A name of 262145 bytes, which Docker takes, stops all deliveries. -/
theorem long_container_name_blocks_deliveries :
    Along protobufWire.apply (fun _ ↦ StampedPastEpoch) Spool.empty (namedOperations 262145) ∧
      Drawn protobufWire (everyMinute 90000)
        (run protobufWire.apply Spool.empty (namedOperations 262145)) 90000 ∧
      ¬Progresses protobufWire (everyMinute 90000)
        (run protobufWire.apply Spool.empty (namedOperations 262145)) 90000 := by
  rw [run_namedOperations]
  refine ⟨along_namedOperations 262145, ⟨fun index ↦ ?_, fun index row hrow ↦ ?_⟩, fun h ↦ ?_⟩
  · simp only [everyMinute]
    omega
  · rw [after_namedSpool (by decide)] at hrow
    exact absurd hrow List.not_mem_nil
  · obtain ⟨created, hok⟩ := h.ok 0
    rw [after_namedSpool (by decide), outcome_namedSpool (by decide)] at hok
    cases hok

end AlphaPing.System.DeliveryProgress
