import Mathlib.Algebra.BigOperators.Fin
import Mathlib.Algebra.Order.BigOperators.Group.Finset

/-!
# Summaries that the last slot writes

Entries arrive in any order and fill slots. A bucket has a fixed number of slots and a group a
fixed number of buckets. The entry of a bucket's last slot writes the summary of the bucket from
what is stored then, and the entry of a group's last slot also writes the summary of the group
from the summaries of its buckets. No other entry writes a summary.

A summary covers what is stored at the end exactly when its last slot was filled last.
-/

namespace AlphaPing.Library.Closing

variable {Group Payload Row Column : Type*} {width length : ℕ}

/-! ## Logs -/

section Log

variable {Entry : Type*}

/-- What an entry after the last closing one contributes is not in this part of a log, which has
its newest entry first. -/
def closed (closes : Entry → Bool) (log : List Entry) : List Entry :=
  log.dropWhile fun entry ↦ !closes entry

/-- The newest of the entries in question is a closing one, if there is any. -/
def ClosedLast (inside closes : Entry → Bool) (log : List Entry) : Prop :=
  ∀ entry ∈ (log.filter inside).head?, closes entry = true

instance (inside closes : Entry → Bool) (log : List Entry) :
    Decidable (ClosedLast inside closes log) :=
  inferInstanceAs (Decidable (∀ entry ∈ (log.filter inside).head?, closes entry = true))

/-- The weight of some entries of a log. -/
def total (inside : Entry → Bool) (weight : Entry → ℕ) (log : List Entry) : ℕ :=
  ((log.filter inside).map weight).sum

variable {inside closes : Entry → Bool} {weight : Entry → ℕ} {log part : List Entry}

theorem closed_cons_of_closes {entry : Entry} (h : closes entry = true) :
    closed closes (entry :: log) = entry :: log := by
  simp [closed, h]

theorem closed_cons_of_not {entry : Entry} (h : closes entry = false) :
    closed closes (entry :: log) = closed closes log := by
  simp [closed, h]

theorem closes_of_closed_eq_cons {entry : Entry} (h : closed closes log = entry :: part) :
    closes entry = true := by
  induction log with
  | nil => simp [closed] at h
  | cons newest earlier ih =>
    by_cases hnewest : closes newest = true
    · rw [closed_cons_of_closes hnewest] at h
      exact (List.cons.inj h).1 ▸ hnewest
    · rw [closed_cons_of_not (Bool.eq_false_of_not_eq_true hnewest)] at h
      exact ih h

theorem closed_suffix : closed closes log <:+ log :=
  List.dropWhile_suffix _

theorem closed_suffix_closed (h : part <:+ log) : closed closes part <:+ closed closes log := by
  induction log with
  | nil => rw [List.suffix_nil.mp h]
  | cons entry earlier ih =>
    rcases List.suffix_cons_iff.mp h with rfl | hpart
    · exact List.suffix_refl _
    · by_cases hentry : closes entry = true
      · rw [closed_cons_of_closes hentry]
        exact closed_suffix.trans h
      · rw [closed_cons_of_not (Bool.eq_false_of_not_eq_true hentry)]
        exact ih hpart

theorem total_le_of_suffix (h : part <:+ log) :
    total inside weight part ≤ total inside weight log := by
  obtain ⟨newer, rfl⟩ := h
  simp [total]

theorem total_cons (entry : Entry) :
    total inside weight (entry :: log) =
      (if inside entry then weight entry else 0) + total inside weight log := by
  unfold total
  split <;> simp_all

/-- When the newest entry closes, nothing is left out. -/
theorem filter_closed_of_closedLast (h : ClosedLast inside closes log) :
    (closed closes log).filter inside = log.filter inside := by
  induction log with
  | nil => rfl
  | cons entry earlier ih =>
    by_cases hentry : closes entry = true
    · rw [closed_cons_of_closes hentry]
    · have hinside : inside entry = false := by
        by_contra hnot
        refine hentry (h entry ?_)
        simp [List.filter_cons_of_pos (Bool.eq_true_of_not_eq_false hnot)]
      rw [closed_cons_of_not (Bool.eq_false_of_not_eq_true hentry),
        List.filter_cons_of_neg (by simp [hinside])]
      refine ih fun newest hnewest ↦ h newest ?_
      rwa [List.filter_cons_of_neg (by simp [hinside])]

/-- When nothing is left out, the newest entry closes. -/
theorem closedLast_of_total_closed (hcloses : ∀ entry, closes entry = true → inside entry = true)
    (hweight : ∀ entry ∈ log, 0 < weight entry)
    (h : total inside weight (closed closes log) = total inside weight log) :
    ClosedLast inside closes log := by
  induction log with
  | nil => exact fun entry hentry ↦ by simp at hentry
  | cons entry earlier ih =>
    by_cases hentry : closes entry = true
    · intro newest hnewest
      rw [List.filter_cons_of_pos (hcloses entry hentry)] at hnewest
      obtain rfl : entry = newest := by simpa using hnewest
      exact hentry
    · rw [closed_cons_of_not (Bool.eq_false_of_not_eq_true hentry), total_cons] at h
      have hle : total inside weight (closed closes earlier) ≤ total inside weight earlier :=
        total_le_of_suffix closed_suffix
      by_cases hinside : inside entry = true
      · have hpos := hweight entry List.mem_cons_self
        rw [if_pos hinside] at h
        omega
      · rw [if_neg hinside, Nat.zero_add] at h
        unfold ClosedLast
        rw [List.filter_cons_of_neg hinside]
        exact ih (fun other hother ↦ hweight other (List.mem_cons_of_mem _ hother)) h

end Log

/-! ## Ledgers -/

/-- A slot of a bucket of a group. -/
structure Place (Group : Type*) (width length : ℕ) where
  group : Group
  bucket : Fin (length + 1)
  slot : Fin (width + 1)
  deriving DecidableEq

structure Entry (Group Payload : Type*) (width length : ℕ) where
  place : Place Group width length
  payload : Payload

/-- How summaries are made: of a bucket from its payloads, and of a group from the summaries of
its earlier buckets and the payloads of its last one. -/
structure Rules (Group Payload Row : Type*) (length : ℕ) where
  closeBucket : Group → Fin (length + 1) → List Payload → Row
  closeGroup : Group → List Row → List Payload → Row

/-- What is stored: the slots, and the summaries. -/
structure Ledger (Group Payload Row : Type*) (width length : ℕ) where
  slots : Place Group width length → Option Payload
  bucketRows : Group → Fin (length + 1) → Option Row
  groupRows : Group → Option Row

namespace Ledger

def empty : Ledger Group Payload Row width length := ⟨fun _ ↦ none, fun _ _ ↦ none, fun _ ↦ none⟩

/-- The payloads of a bucket in the order of their slots. -/
def stored (ledger : Ledger Group Payload Row width length) (group : Group)
    (bucket : Fin (length + 1)) : List Payload :=
  (List.finRange (width + 1)).filterMap fun slot ↦ ledger.slots ⟨group, bucket, slot⟩

/-- The summaries of the buckets before the last one of a group. -/
def earlierRows (ledger : Ledger Group Payload Row width length) (group : Group) : List Row :=
  (List.finRange length).filterMap fun bucket ↦ ledger.bucketRows group bucket.castSucc

end Ledger

variable [DecidableEq Group]

namespace Place

/-- A place in a bucket. -/
def inBucket (group : Group) (bucket : Fin (length + 1)) (place : Place Group width length) :
    Bool :=
  decide (place.group = group ∧ place.bucket = bucket)

def inGroup (group : Group) (place : Place Group width length) : Bool :=
  decide (place.group = group)

/-- The last place of a bucket. -/
def closesBucket (group : Group) (bucket : Fin (length + 1)) (place : Place Group width length) :
    Bool :=
  place.inBucket group bucket && decide (place.slot = Fin.last width)

/-- The last place of a group. -/
def closesGroup (group : Group) (place : Place Group width length) : Bool :=
  place.closesBucket group (Fin.last length)

end Place

variable (rules : Rules Group Payload Row length)

/-- An entry is stored. -/
def accept (ledger : Ledger Group Payload Row width length)
    (entry : Entry Group Payload width length) : Ledger Group Payload Row width length :=
  let place := entry.place
  let slots := Function.update ledger.slots place (some entry.payload)
  let contents := Ledger.stored ⟨slots, ledger.bucketRows, ledger.groupRows⟩ place.group place.bucket
  { slots
    bucketRows := fun group bucket ↦
      if place.closesBucket group bucket then some (rules.closeBucket group bucket contents)
      else ledger.bucketRows group bucket
    groupRows := fun group ↦
      if place.closesGroup group then
        some (rules.closeGroup group (ledger.earlierRows group) contents)
      else ledger.groupRows group }

section Accept

variable {rules} {ledger : Ledger Group Payload Row width length}
  {entry : Entry Group Payload width length} {group : Group} {bucket : Fin (length + 1)}

/-- The entry of a bucket's last slot writes its summary, of what is stored then. -/
theorem bucketRows_accept :
    (accept rules ledger entry).bucketRows group bucket =
      if entry.place.closesBucket group bucket then
        some (rules.closeBucket group bucket ((accept rules ledger entry).stored group bucket))
      else ledger.bucketRows group bucket := by
  by_cases hcloses : entry.place.closesBucket group bucket = true
  · obtain ⟨hgroup, hbucket⟩ := of_decide_eq_true (Bool.and_eq_true_iff.mp hcloses).1
    simp only [accept, if_pos hcloses, hgroup, hbucket]
    rfl
  · simp only [accept, if_neg hcloses]

theorem groupRows_accept :
    (accept rules ledger entry).groupRows group =
      if entry.place.closesGroup group then
        some (rules.closeGroup group (ledger.earlierRows group)
          ((accept rules ledger entry).stored group (Fin.last length)))
      else ledger.groupRows group := by
  by_cases hcloses : entry.place.closesGroup group = true
  · obtain ⟨hgroup, hbucket⟩ := of_decide_eq_true (Bool.and_eq_true_iff.mp hcloses).1
    simp only [accept, if_pos hcloses, hgroup, hbucket]
    rfl
  · simp only [accept, if_neg hcloses]

end Accept

/-- The ledger of a log, whose newest entry comes first. -/
def ledgerOf : List (Entry Group Payload width length) → Ledger Group Payload Row width length
  | [] => .empty
  | entry :: earlier => accept rules (ledgerOf earlier) entry

/-! ## What a ledger shows of its log -/

section Reads

variable {rules} {log part : List (Entry Group Payload width length)} {group : Group}
  {bucket : Fin (length + 1)}

theorem slots_ledgerOf (place : Place Group width length) :
    (ledgerOf rules log).slots place =
      (log.find? fun entry ↦ entry.place = place).map Entry.payload := by
  induction log with
  | nil => rfl
  | cons entry earlier ih =>
    simp only [ledgerOf, accept, Function.update_apply]
    by_cases hplace : entry.place = place
    · rw [List.find?_cons_of_pos (by simpa using hplace), if_pos hplace.symm]
      rfl
    · rw [List.find?_cons_of_neg (by simpa using hplace), if_neg (Ne.symm hplace)]
      exact ih

theorem not_mem_of_slots_eq_none {place : Place Group width length}
    (h : (ledgerOf rules log).slots place = none) : place ∉ log.map Entry.place := by
  rw [slots_ledgerOf, Option.map_eq_none_iff, List.find?_eq_none] at h
  rintro hmem
  obtain ⟨entry, hentry, hplace⟩ := List.mem_map.mp hmem
  exact h entry hentry (decide_eq_true hplace)

variable {entry : Entry Group Payload width length}

/-- The entries of a log that fills no slot twice are all stored. -/
theorem slots_of_mem (hdistinct : (log.map Entry.place).Nodup) (h : entry ∈ log) :
    (ledgerOf rules log).slots entry.place = some entry.payload := by
  rw [slots_ledgerOf]
  cases hfound : log.find? fun other ↦ other.place = entry.place with
  | none =>
    rw [List.find?_eq_none] at hfound
    exact absurd rfl (of_decide_eq_false (Bool.eq_false_of_not_eq_true (hfound entry h)))
  | some other =>
    have hplace : other.place = entry.place := by simpa using List.find?_some hfound
    rw [List.inj_on_of_nodup_map hdistinct (List.mem_of_find?_eq_some hfound) h hplace]
    rfl

theorem stored_congr
    (h : (log.filter fun entry ↦ entry.place.inBucket group bucket) =
      part.filter fun entry ↦ entry.place.inBucket group bucket) :
    (ledgerOf rules log).stored group bucket = (ledgerOf rules part).stored group bucket := by
  have hfind : ∀ (entries : List (Entry Group Payload width length)) (slot : Fin (width + 1)),
      (entries.find? fun entry ↦ entry.place = ⟨group, bucket, slot⟩) =
        (entries.filter fun entry ↦ entry.place.inBucket group bucket).find?
          fun entry ↦ entry.place = ⟨group, bucket, slot⟩ := by
    intro entries slot
    rw [List.find?_filter]
    congr 1
    funext entry
    by_cases hplace : entry.place = ⟨group, bucket, slot⟩
    · simp [hplace, Place.inBucket]
    · simp [hplace]
  unfold Ledger.stored
  refine List.filterMap_congr fun slot _ ↦ ?_
  rw [slots_ledgerOf, slots_ledgerOf, hfind log, hfind part, h]

theorem stored_eq_nil (h : (log.filter fun entry ↦ entry.place.inBucket group bucket) = []) :
    (ledgerOf rules log).stored group bucket = [] := by
  have hempty : (ledgerOf rules log).stored group bucket =
      (ledgerOf rules []).stored group bucket :=
    stored_congr (by rw [h, List.filter_nil])
  rw [hempty]
  simp [ledgerOf, Ledger.stored, Ledger.empty]

/-- The part of a log that the summary of a bucket covers. -/
abbrev closedBucket (group : Group) (bucket : Fin (length + 1))
    (log : List (Entry Group Payload width length)) : List (Entry Group Payload width length) :=
  closed (fun entry ↦ entry.place.closesBucket group bucket) log

/-- The part of a log that the summary of a group covers. -/
abbrev closedGroup (group : Group) (log : List (Entry Group Payload width length)) :
    List (Entry Group Payload width length) :=
  closed (fun entry ↦ entry.place.closesGroup group) log

theorem bucketRows_ledgerOf :
    (ledgerOf rules log).bucketRows group bucket =
      if closedBucket group bucket log = [] then none
      else some (rules.closeBucket group bucket
        ((ledgerOf rules (closedBucket group bucket log)).stored group bucket)) := by
  induction log with
  | nil => rfl
  | cons entry earlier ih =>
    by_cases hcloses : entry.place.closesBucket group bucket = true
    · rw [closedBucket, closed_cons_of_closes (by exact hcloses), if_neg (List.cons_ne_nil _ _),
        ledgerOf, bucketRows_accept, if_pos hcloses]
    · rw [closedBucket, closed_cons_of_not (by simpa using hcloses), ledgerOf, bucketRows_accept,
        if_neg hcloses]
      exact ih

theorem earlierRows_cons (h : entry.place.closesGroup group = true) :
    (ledgerOf rules (entry :: log)).earlierRows group = (ledgerOf rules log).earlierRows group := by
  refine List.filterMap_congr fun bucket _ ↦ ?_
  rw [ledgerOf, bucketRows_accept, if_neg]
  intro hbucket
  have hhere := (of_decide_eq_true (Bool.and_eq_true_iff.mp hbucket).1).2
  have hlast := (of_decide_eq_true (Bool.and_eq_true_iff.mp h).1).2
  exact Fin.castSucc_ne_last bucket (hhere.symm.trans hlast)

theorem groupRows_ledgerOf :
    (ledgerOf rules log).groupRows group =
      if closedGroup group log = [] then none
      else some (rules.closeGroup group ((ledgerOf rules (closedGroup group log)).earlierRows group)
        ((ledgerOf rules (closedGroup group log)).stored group (Fin.last length))) := by
  induction log with
  | nil => rfl
  | cons entry earlier ih =>
    by_cases hcloses : entry.place.closesGroup group = true
    · rw [closedGroup, closed_cons_of_closes (by exact hcloses), if_neg (List.cons_ne_nil _ _),
        earlierRows_cons hcloses, ledgerOf, groupRows_accept, if_pos hcloses]
    · rw [closedGroup, closed_cons_of_not (by simpa using hcloses), ledgerOf, groupRows_accept,
        if_neg hcloses]
      exact ih

end Reads

/-! ## Counting -/

/-- No slot is filled twice. -/
def Distinct (log : List (Entry Group Payload width length)) : Prop :=
  (log.map Entry.place).Nodup

section Weights

variable {rules} {log : List (Entry Group Payload width length)} {group : Group}

theorem sum_filterMap {Index : Type*} (read : Index → Option Payload) (weight : Payload → ℕ)
    (indices : List Index) :
    ((indices.filterMap read).map weight).sum =
      (indices.map fun index ↦ (read index).elim 0 weight).sum := by
  induction indices with
  | nil => rfl
  | cons index rest ih =>
    cases hread : read index <;> simp [hread, ih]

theorem sum_stored (weight : Payload → ℕ) (hdistinct : Distinct log) (bucket : Fin (length + 1)) :
    (((ledgerOf rules log).stored group bucket).map weight).sum =
      total (fun entry ↦ entry.place.inBucket group bucket) (fun entry ↦ weight entry.payload)
        log := by
  rw [Ledger.stored, sum_filterMap, ← Fin.sum_univ_def]
  induction log with
  | nil => simp [ledgerOf, Ledger.empty, total]
  | cons entry earlier ih =>
    obtain ⟨hnew, hearlier⟩ := List.nodup_cons.mp hdistinct
    have hempty : (ledgerOf rules earlier).slots entry.place = none := by
      rw [slots_ledgerOf, List.find?_eq_none.mpr, Option.map_none]
      intro other hother hplace
      exact hnew (of_decide_eq_true hplace ▸ List.mem_map_of_mem hother)
    have hslot : ∀ slot, ((ledgerOf rules (entry :: earlier)).slots ⟨group, bucket, slot⟩).elim 0
        weight = (if entry.place = ⟨group, bucket, slot⟩ then weight entry.payload else 0) +
          ((ledgerOf rules earlier).slots ⟨group, bucket, slot⟩).elim 0 weight := by
      intro slot
      simp only [ledgerOf, accept, Function.update_apply]
      by_cases hplace : entry.place = ⟨group, bucket, slot⟩
      · rw [if_pos hplace.symm, if_pos hplace, ← hplace, hempty]
        simp
      · rw [if_neg (Ne.symm hplace), if_neg hplace, Nat.zero_add]
    rw [total_cons, ← ih hearlier, Finset.sum_congr rfl fun slot _ ↦ hslot slot,
      Finset.sum_add_distrib]
    congr 1
    by_cases hinside : entry.place.inBucket group bucket = true
    · rw [if_pos hinside]
      obtain ⟨hgroup, hbucket⟩ := of_decide_eq_true hinside
      rw [Finset.sum_eq_single entry.place.slot]
      · rw [if_pos (by rw [← hgroup, ← hbucket])]
      · intro slot _ hslot
        exact if_neg fun heq ↦ hslot (by rw [heq])
      · exact fun h ↦ absurd (Finset.mem_univ _) h
    · rw [if_neg hinside]
      refine Finset.sum_eq_zero fun slot _ ↦ if_neg fun heq ↦ hinside ?_
      simp [Place.inBucket, heq]

theorem total_inGroup (weight : Entry Group Payload width length → ℕ) :
    total (fun entry ↦ entry.place.inGroup group) weight log =
      ∑ bucket, total (fun entry ↦ entry.place.inBucket group bucket) weight log := by
  induction log with
  | nil => simp [total]
  | cons entry earlier ih =>
    simp only [total_cons, Finset.sum_add_distrib, ← ih]
    congr 1
    by_cases hgroup : entry.place.group = group
    · rw [if_pos (by simpa [Place.inGroup] using hgroup), Finset.sum_eq_single entry.place.bucket]
      · rw [if_pos (by simpa [Place.inBucket] using hgroup)]
      · intro bucket _ hbucket
        exact if_neg (by simpa [Place.inBucket] using fun _ ↦ Ne.symm hbucket)
      · exact fun h ↦ absurd (Finset.mem_univ _) h
    · rw [if_neg (by simpa [Place.inGroup] using hgroup)]
      exact (Finset.sum_eq_zero fun bucket _ ↦
        if_neg (by simp [Place.inBucket, hgroup])).symm

end Weights

section Settled

variable {rules} {log : List (Entry Group Payload width length)} {group : Group}
  {bucket : Fin (length + 1)}

theorem inBucket_of_closesBucket {place : Place Group width length}
    (h : place.closesBucket group bucket = true) : place.inBucket group bucket = true :=
  (Bool.and_eq_true_iff.mp h).1

theorem inGroup_of_inBucket {place : Place Group width length}
    (h : place.inBucket group bucket = true) : place.inGroup group = true :=
  decide_eq_true (of_decide_eq_true h).1

/-- A bucket that stores something has its summary, of what it stores. -/
def BucketSettled (rules : Rules Group Payload Row length)
    (ledger : Ledger Group Payload Row width length) (group : Group)
    (bucket : Fin (length + 1)) : Prop :=
  ledger.stored group bucket ≠ [] → ledger.bucketRows group bucket =
    some (rules.closeBucket group bucket (ledger.stored group bucket))

/-- The last slot of a bucket was filled last. -/
abbrev BucketClosedLast (group : Group) (bucket : Fin (length + 1))
    (log : List (Entry Group Payload width length)) : Prop :=
  ClosedLast (fun entry ↦ entry.place.inBucket group bucket)
    (fun entry ↦ entry.place.closesBucket group bucket) log

/-- The last slot of a group was filled last, and in each of its buckets as well. -/
abbrev GroupClosedLast (group : Group) (log : List (Entry Group Payload width length)) : Prop :=
  ClosedLast (fun entry ↦ entry.place.inGroup group) (fun entry ↦ entry.place.closesGroup group)
    log ∧ ∀ bucket, BucketClosedLast group bucket log

/-- When the newest entry of a group closes it, its summary covers every bucket. -/
theorem filter_closedGroup
    (h : ClosedLast (fun entry ↦ entry.place.inGroup group)
      (fun entry ↦ entry.place.closesGroup group) log) (bucket : Fin (length + 1)) :
    ((closedGroup group log).filter fun entry ↦ entry.place.inBucket group bucket) =
      log.filter fun entry ↦ entry.place.inBucket group bucket := by
  have hinside : ∀ entries : List (Entry Group Payload width length),
      (entries.filter fun entry ↦ entry.place.inBucket group bucket) =
        (entries.filter fun entry ↦ entry.place.inGroup group).filter fun entry ↦
          entry.place.inBucket group bucket := by
    intro entries
    rw [List.filter_filter]
    refine List.filter_congr fun entry _ ↦ ?_
    by_cases hentry : entry.place.inBucket group bucket = true
    · rw [hentry, inGroup_of_inBucket hentry, Bool.and_true]
    · rw [Bool.eq_false_of_not_eq_true hentry, Bool.false_and]
  rw [hinside, hinside log, filter_closed_of_closedLast h]

end Settled

/-- Columns of the summaries that add up something of the payloads. -/
structure Tally (rules : Rules Group Payload Row length) (width : ℕ) (Column : Type*) where
  valid : Payload → Prop
  weight : Column → Payload → ℕ
  count : Column → Row → ℕ
  limit : ℕ
  /-- A column in which every payload counts. -/
  presence : Column
  weight_pos : ∀ payload, valid payload → 0 < weight presence payload
  weight_le : ∀ column payload, valid payload → weight column payload ≤ limit
  count_closeBucket : ∀ column group bucket payloads, (∀ payload ∈ payloads, valid payload) →
    count column (rules.closeBucket group bucket payloads) = (payloads.map (weight column)).sum
  count_closeGroup : ∀ column group rows payloads, rows.length ≤ length →
    (∀ row ∈ rows, count column row ≤ (width + 1) * limit) →
    (∀ payload ∈ payloads, valid payload) →
    (payloads.map (weight column)).sum ≤ (width + 1) * limit →
    count column (rules.closeGroup group rows payloads) =
      (rows.map (count column)).sum + (payloads.map (weight column)).sum

namespace Tally

variable {rules} (tally : Tally rules width Column)
  {log part : List (Entry Group Payload width length)} {group : Group}
  {bucket : Fin (length + 1)} {column : Column}

/-- What the entries of a bucket add to a column. -/
def entered (column : Column) (group : Group) (bucket : Fin (length + 1))
    (log : List (Entry Group Payload width length)) : ℕ :=
  total (fun entry ↦ entry.place.inBucket group bucket)
    (fun entry ↦ tally.weight column entry.payload) log

/-- The entries of a log that the tables can hold. -/
structure Valid (log : List (Entry Group Payload width length)) : Prop where
  payloads : ∀ entry ∈ log, tally.valid entry.payload
  distinct : Distinct log

variable {tally}

omit [DecidableEq Group] in
theorem Valid.of_suffix (h : tally.Valid log) (hpart : part <:+ log) : tally.Valid part where
  payloads entry hentry := h.payloads entry (hpart.subset hentry)
  distinct := h.distinct.sublist (hpart.sublist.map _)

theorem Valid.stored (h : tally.Valid log) :
    ∀ payload ∈ (ledgerOf rules log).stored group bucket, tally.valid payload := by
  intro payload hpayload
  obtain ⟨slot, -, hslot⟩ := List.mem_filterMap.mp hpayload
  rw [slots_ledgerOf] at hslot
  obtain ⟨entry, hfound, rfl⟩ := Option.map_eq_some_iff.mp hslot
  exact h.payloads entry (List.mem_of_find?_eq_some hfound)

theorem Valid.sum_stored_le (h : tally.Valid log) :
    (((ledgerOf rules log).stored group bucket).map (tally.weight column)).sum ≤
      (width + 1) * tally.limit := by
  have hlength : ((ledgerOf rules log).stored group bucket).length ≤ width + 1 := by
    unfold Ledger.stored
    exact (List.length_filterMap_le _ _).trans_eq List.length_finRange
  have hsum := List.sum_le_card_nsmul
    (((ledgerOf rules log).stored group bucket).map (tally.weight column)) tally.limit (by
      intro value hvalue
      obtain ⟨payload, hpayload, rfl⟩ := List.mem_map.mp hvalue
      exact tally.weight_le column payload (h.stored payload hpayload))
  rw [List.length_map, smul_eq_mul] at hsum
  exact hsum.trans (Nat.mul_le_mul_right _ hlength)

theorem Valid.sum_stored (h : tally.Valid log) :
    (((ledgerOf rules log).stored group bucket).map (tally.weight column)).sum =
      tally.entered column group bucket log :=
  Closing.sum_stored _ h.distinct bucket

theorem Valid.count_bucketRow (h : tally.Valid log) (column : Column) (group : Group)
    (bucket : Fin (length + 1)) :
    ((ledgerOf rules log).bucketRows group bucket).elim 0 (tally.count column) =
      tally.entered column group bucket (closedBucket group bucket log) := by
  have hpart : tally.Valid (closedBucket group bucket log) := h.of_suffix closed_suffix
  rw [bucketRows_ledgerOf]
  split
  · next hempty => simp [hempty, entered, total]
  · rw [Option.elim_some, tally.count_closeBucket column group bucket _ hpart.stored,
      hpart.sum_stored]

/-- A summary of a group counts what the summaries of its buckets covered at that time. -/
theorem Valid.count_groupRow (h : tally.Valid log) (column : Column) {row : Row}
    (hrow : (ledgerOf rules log).groupRows group = some row) :
    tally.count column row = ∑ bucket, tally.entered column group bucket
      (closedBucket group bucket (closedGroup group log)) := by
  have hpart : tally.Valid (closedGroup group log) := h.of_suffix closed_suffix
  rw [groupRows_ledgerOf] at hrow
  split at hrow
  · cases hrow
  next hsome =>
  obtain rfl := Option.some.inj hrow
  have hlast : closedBucket group (Fin.last length) (closedGroup group log) =
      closedGroup group log := by
    obtain ⟨entry, earlier, hcons⟩ := List.exists_cons_of_ne_nil hsome
    have hcloses := closes_of_closed_eq_cons hcons
    rw [hcons, closedBucket, closed_cons_of_closes (by exact hcloses)]
  have hbucket : ∀ bucket, ∀ row, (ledgerOf rules (closedGroup group log)).bucketRows group
      bucket = some row → tally.count column row ≤ (width + 1) * tally.limit := by
    intro bucket row hrow
    have hcount := hpart.count_bucketRow column group bucket
    have hclosed : tally.Valid (closedBucket group bucket (closedGroup group log)) :=
      hpart.of_suffix closed_suffix
    rw [hrow, Option.elim_some, ← hclosed.sum_stored] at hcount
    exact hcount.trans_le hclosed.sum_stored_le
  rw [tally.count_closeGroup column group _ _ ?_ ?_ hpart.stored hpart.sum_stored_le,
    hpart.sum_stored, Fin.sum_univ_castSucc, hlast, Ledger.earlierRows, sum_filterMap,
    ← Fin.sum_univ_def]
  · exact congrArg (· + _) (Finset.sum_congr rfl fun bucket _ ↦ hpart.count_bucketRow ..)
  · exact (List.length_filterMap_le _ _).trans_eq List.length_finRange
  · intro row hrow
    obtain ⟨bucket, -, hsome⟩ := List.mem_filterMap.mp hrow
    exact hbucket _ row hsome

theorem Valid.entered_pos (h : tally.Valid log) {entry : Entry Group Payload width length}
    (hentry : entry ∈ log) (hinside : entry.place.inBucket group bucket = true) :
    0 < tally.entered tally.presence group bucket log := by
  have hmem : tally.weight tally.presence entry.payload ∈
      (log.filter fun entry ↦ entry.place.inBucket group bucket).map
        fun entry ↦ tally.weight tally.presence entry.payload :=
    List.mem_map.mpr ⟨entry, List.mem_filter.mpr ⟨hentry, hinside⟩, rfl⟩
  exact (tally.weight_pos _ (h.payloads entry hentry)).trans_le (List.le_sum_of_mem hmem)

theorem Valid.stored_eq_nil_iff (h : tally.Valid log) :
    (ledgerOf rules log).stored group bucket = [] ↔
      (log.filter fun entry ↦ entry.place.inBucket group bucket) = [] := by
  refine ⟨fun hnil ↦ List.filter_eq_nil_iff.mpr fun entry hentry hinside ↦ ?_, stored_eq_nil⟩
  have hpos := h.entered_pos hentry hinside
  rw [← h.sum_stored, hnil] at hpos
  exact absurd hpos (lt_irrefl _)

/-- A group that stores something has its summary, which counts what its buckets store. -/
def GroupSettled (tally : Tally rules width Column)
    (ledger : Ledger Group Payload Row width length) (group : Group) : Prop :=
  (∃ bucket, ledger.stored group bucket ≠ []) → ∃ row, ledger.groupRows group = some row ∧
    ∀ column, tally.count column row =
      ∑ bucket, ((ledger.stored group bucket).map (tally.weight column)).sum

theorem Valid.bucketClosedLast_of_entered (h : tally.Valid log)
    (hentered : tally.entered tally.presence group bucket (closedBucket group bucket log) =
      tally.entered tally.presence group bucket log) :
    BucketClosedLast group bucket log :=
  closedLast_of_total_closed (fun _ ↦ inBucket_of_closesBucket)
    (fun entry hentry ↦ tally.weight_pos _ (h.payloads entry hentry)) hentered

theorem Valid.bucketSettled_iff (h : tally.Valid log) :
    BucketSettled rules (ledgerOf rules log) group bucket ↔ BucketClosedLast group bucket log := by
  constructor
  · intro hsettled
    by_cases hnil : (ledgerOf rules log).stored group bucket = []
    · intro entry hentry
      simp [h.stored_eq_nil_iff.mp hnil] at hentry
    · have hcount := h.count_bucketRow tally.presence group bucket
      rw [hsettled hnil, Option.elim_some, tally.count_closeBucket _ _ _ _ h.stored,
        h.sum_stored] at hcount
      exact h.bucketClosedLast_of_entered hcount.symm
  · intro hlast hstored
    have hfilter := filter_closed_of_closedLast hlast
    rw [bucketRows_ledgerOf, if_neg, stored_congr hfilter]
    intro hempty
    rw [closedBucket] at hempty
    rw [hempty, List.filter_nil] at hfilter
    exact hstored (stored_eq_nil hfilter.symm)

theorem Valid.groupClosedLast_of_settled (h : tally.Valid log)
    (hsettled : GroupSettled tally (ledgerOf rules log) group) : GroupClosedLast group log := by
  by_cases hnil : ∃ bucket, (ledgerOf rules log).stored group bucket ≠ []
  · obtain ⟨row, hrow, hcount⟩ := hsettled hnil
    have hcovered := h.count_groupRow tally.presence hrow
    rw [hcount] at hcovered
    simp only [h.sum_stored] at hcovered
    -- the summary covers a part of a part of each bucket, and nothing is missing in the sum
    have hpart : ∀ bucket, tally.entered tally.presence group bucket
        (closedBucket group bucket (closedGroup group log)) ≤
          tally.entered tally.presence group bucket (closedBucket group bucket log) :=
      fun bucket ↦ total_le_of_suffix (closed_suffix_closed closed_suffix)
    have hclosed : ∀ bucket, tally.entered tally.presence group bucket
        (closedBucket group bucket (closedGroup group log)) ≤
          tally.entered tally.presence group bucket (closedGroup group log) :=
      fun bucket ↦ total_le_of_suffix closed_suffix
    have hbucket : ∀ bucket, tally.entered tally.presence group bucket
        (closedBucket group bucket log) ≤ tally.entered tally.presence group bucket log :=
      fun bucket ↦ total_le_of_suffix closed_suffix
    have hgroup : ∀ bucket, tally.entered tally.presence group bucket (closedGroup group log) ≤
        tally.entered tally.presence group bucket log :=
      fun bucket ↦ total_le_of_suffix closed_suffix
    have heach := (Finset.sum_eq_sum_iff_of_le fun bucket _ ↦
      (hpart bucket).trans (hbucket bucket)).mp hcovered.symm
    refine ⟨closedLast_of_total_closed (fun _ hcloses ↦ inGroup_of_inBucket
      (inBucket_of_closesBucket hcloses)) (fun entry hentry ↦
        tally.weight_pos _ (h.payloads entry hentry)) ?_, fun bucket ↦ ?_⟩
    · rw [total_inGroup, total_inGroup]
      exact Finset.sum_congr rfl fun bucket hmem ↦ le_antisymm (hgroup bucket)
        ((heach bucket hmem).ge.trans (hclosed bucket))
    · exact h.bucketClosedLast_of_entered (le_antisymm (hbucket bucket)
        ((heach bucket (Finset.mem_univ _)).ge.trans (hpart bucket)))
  · have hempty : ∀ bucket, (log.filter fun entry ↦ entry.place.inBucket group bucket) = [] :=
      fun bucket ↦ h.stored_eq_nil_iff.mp (not_not.mp fun hne ↦ hnil ⟨bucket, hne⟩)
    refine ⟨fun entry hentry ↦ ?_, fun bucket entry hentry ↦ by simp [hempty bucket] at hentry⟩
    have hmem := List.mem_filter.mp (List.mem_of_mem_head? hentry)
    have hnot := List.filter_eq_nil_iff.mp (hempty entry.place.bucket) entry hmem.1
    exact absurd (decide_eq_true ⟨of_decide_eq_true hmem.2, rfl⟩) hnot

theorem Valid.groupSettled_of_closedLast (h : tally.Valid log) (hlast : GroupClosedLast group log) :
    GroupSettled tally (ledgerOf rules log) group := by
  rintro ⟨bucket, hstored⟩
  have hsome : closedGroup group log ≠ [] := by
    intro hempty
    refine hstored (stored_eq_nil ?_)
    rw [← filter_closedGroup hlast.1, hempty, List.filter_nil]
  obtain ⟨row, hrow⟩ : ∃ row, (ledgerOf rules log).groupRows group = some row := by
    rw [groupRows_ledgerOf, if_neg hsome]
    exact ⟨_, rfl⟩
  refine ⟨row, hrow, fun column ↦ ?_⟩
  rw [h.count_groupRow column hrow]
  refine Finset.sum_congr rfl fun bucket _ ↦ ?_
  have hclosed : BucketClosedLast group bucket (closedGroup group log) := by
    rw [BucketClosedLast, ClosedLast, filter_closedGroup hlast.1]
    exact hlast.2 bucket
  rw [h.sum_stored, entered, entered, total, total, closedBucket,
    filter_closed_of_closedLast hclosed, filter_closedGroup hlast.1]

theorem Valid.groupSettled_iff (h : tally.Valid log) :
    GroupSettled tally (ledgerOf rules log) group ↔ GroupClosedLast group log :=
  ⟨h.groupClosedLast_of_settled, h.groupSettled_of_closedLast⟩

end Tally

end AlphaPing.Library.Closing
