import Mathlib.Data.Finset.Card
import Mathlib.Data.List.Sort

/-!
# Sorting, removing repetitions and truncating

A list that is sorted by a key and rid of equal neighbours holds the first of the entries of each
key. Truncated, it keeps the entries whose keys have few smaller keys. Both are said about the
list that was given, so that nothing needs to look at the sorted one.
-/

namespace AlphaPing.Library.Distinct

variable {Row Key : Type*} [LinearOrder Key] (key : Row → Key)

/-- Of equal neighbours the first stays; `last` is the key of the entry before. -/
def dedupAfter : Option Key → List Row → List Row
  | _, [] => []
  | last, row :: rest =>
    if last = some (key row) then dedupAfter last rest
    else row :: dedupAfter (some (key row)) rest

def sortByKey (rows : List Row) : List Row :=
  rows.insertionSort fun first second ↦ key first ≤ key second

/-- The sorted list without repetitions. -/
def distinct (rows : List Row) : List Row :=
  dedupAfter key none (sortByKey key rows)

/-- The entry is the first of its key. -/
def IsFirst (rows : List Row) (row : Row) : Prop :=
  rows.find? (fun other ↦ key other = key row) = some row

/-- The number of smaller keys. -/
def rank (rows : List Row) (row : Row) : ℕ :=
  ((rows.map key).toFinset.filter (· < key row)).card

section

variable {key} {rows : List Row} {row : Row}

theorem pairwise_sortByKey (rows : List Row) :
    (sortByKey key rows).Pairwise fun first second ↦ key first ≤ key second := by
  have : Std.Total fun first second : Row ↦ key first ≤ key second :=
    ⟨fun first second ↦ le_total (key first) (key second)⟩
  have : IsTrans Row fun first second ↦ key first ≤ key second :=
    ⟨fun _ _ _ ↦ le_trans⟩
  exact List.pairwise_insertionSort _ rows

theorem perm_sortByKey (rows : List Row) : (sortByKey key rows).Perm rows :=
  List.perm_insertionSort _ rows

theorem filter_sortByKey (rows : List Row) (value : Key) :
    (sortByKey key rows).filter (fun other ↦ key other = value) =
      rows.filter fun other ↦ key other = value := by
  have : Std.Total fun first second : Row ↦ key first ≤ key second :=
    ⟨fun first second ↦ le_total (key first) (key second)⟩
  have : IsTrans Row fun first second ↦ key first ≤ key second :=
    ⟨fun _ _ _ ↦ le_trans⟩
  have hequal : (rows.filter fun other ↦ key other = value).Pairwise
      fun first second ↦ key first ≤ key second := by
    refine List.pairwise_of_forall_mem_list fun first hfirst second hsecond ↦ ?_
    have hkeyFirst := of_decide_eq_true (List.mem_filter.mp hfirst).2
    have hkeySecond := of_decide_eq_true (List.mem_filter.mp hsecond).2
    exact (hkeyFirst.trans hkeySecond.symm).le
  have hsub : (rows.filter fun other ↦ key other = value).Sublist (sortByKey key rows) :=
    List.sublist_insertionSort hequal List.filter_sublist
  have hfilter := hsub.filter fun other ↦ key other = value
  rw [List.filter_filter] at hfilter
  simp only [Bool.and_self] at hfilter
  refine (hfilter.eq_of_length ?_).symm
  exact ((perm_sortByKey rows).filter _).length_eq.symm

theorem isFirst_sortByKey : IsFirst key (sortByKey key rows) row ↔ IsFirst key rows row := by
  rw [IsFirst, IsFirst, ← List.head?_filter, ← List.head?_filter, filter_sortByKey]

theorem IsFirst.mem (h : IsFirst key rows row) : row ∈ rows :=
  List.mem_of_find?_eq_some h

/-- After an entry of a sorted list only greater keys are kept. -/
theorem dedupAfter_sorted {value : Key} {rows : List Row}
    (hsorted : rows.Pairwise fun first second ↦ key first ≤ key second)
    (hvalue : ∀ row ∈ rows, value ≤ key row) :
    (∀ row ∈ dedupAfter key (some value) rows, value < key row) ∧
      (dedupAfter key (some value) rows).Pairwise fun first second ↦ key first < key second := by
  induction rows generalizing value with
  | nil => exact ⟨fun row hrow ↦ absurd hrow List.not_mem_nil, List.Pairwise.nil⟩
  | cons row rest ih =>
    obtain ⟨hrow, hrest⟩ := List.pairwise_cons.mp hsorted
    rw [dedupAfter]
    split
    · exact ih hrest fun other hother ↦ hvalue other (List.mem_cons_of_mem _ hother)
    · next hne =>
      have hlt : value < key row :=
        lt_of_le_of_ne (hvalue row List.mem_cons_self) fun heq ↦ hne (congrArg some heq)
      obtain ⟨hgreater, hpairwise⟩ := ih hrest hrow
      refine ⟨?_, List.pairwise_cons.mpr ⟨hgreater, hpairwise⟩⟩
      intro other hother
      rcases List.mem_cons.mp hother with rfl | hother
      · exact hlt
      · exact hlt.trans (hgreater other hother)

/-- The kept entries of a sorted list are the first of their keys, apart from the key before. -/
theorem mem_dedupAfter_iff {last : Option Key} {rows : List Row}
    (hsorted : rows.Pairwise fun first second ↦ key first ≤ key second)
    (hlast : ∀ value ∈ last, ∀ row ∈ rows, value ≤ key row) :
    row ∈ dedupAfter key last rows ↔ IsFirst key rows row ∧ last ≠ some (key row) := by
  induction rows generalizing last with
  | nil => simp [dedupAfter, IsFirst]
  | cons first rest ih =>
    obtain ⟨hfirst, hrest⟩ := List.pairwise_cons.mp hsorted
    have hfind : IsFirst key (first :: rest) row ↔
        if key first = key row then first = row else IsFirst key rest row := by
      by_cases hkey : key first = key row
      · simp [IsFirst, hkey]
      · simp [IsFirst, hkey]
    rw [dedupAfter, hfind]
    by_cases hrepeated : last = some (key first)
    · rw [if_pos hrepeated, ih hrest fun value hvalue other hother ↦
        hlast value hvalue other (List.mem_cons_of_mem _ hother)]
      by_cases hkey : key first = key row
      · rw [if_pos hkey, hrepeated, hkey]
        simp
      · rw [if_neg hkey]
    · rw [if_neg hrepeated, List.mem_cons, ih hrest fun value hvalue other hother ↦
        Option.mem_some_iff.mp hvalue ▸ hfirst other hother]
      by_cases hkey : key first = key row
      · rw [if_pos hkey, hkey]
        simp only [ne_eq, not_true_eq_false, and_false, or_false]
        exact ⟨fun h ↦ ⟨h.symm, hkey ▸ hrepeated⟩, fun h ↦ h.1.symm⟩
      · have hne : row ≠ first := fun h ↦ hkey (congrArg key h.symm)
        rw [if_neg hkey]
        simp only [hne, false_or, ne_eq, Option.some.injEq, hkey, not_false_eq_true, and_true]
        refine ⟨fun h ↦ ⟨h, fun heq ↦ ?_⟩, And.left⟩
        -- a key before a sorted list is not above its first entry
        have hle := hlast (key row) heq first List.mem_cons_self
        exact hkey (le_antisymm (hfirst row h.mem) hle)

theorem mem_distinct_iff : row ∈ distinct key rows ↔ IsFirst key rows row := by
  rw [distinct, mem_dedupAfter_iff (pairwise_sortByKey rows) fun _ h ↦ absurd h (by simp),
    isFirst_sortByKey]
  simp

theorem pairwise_distinct (rows : List Row) :
    (distinct key rows).Pairwise fun first second ↦ key first < key second := by
  unfold distinct
  have hsorted : (sortByKey key rows).Pairwise fun first second ↦ key first ≤ key second :=
    pairwise_sortByKey rows
  cases hrows : sortByKey key rows with
  | nil => exact List.Pairwise.nil
  | cons row rest =>
    rw [hrows] at hsorted
    obtain ⟨hrow, hrest⟩ := List.pairwise_cons.mp hsorted
    rw [dedupAfter, if_neg (by simp)]
    exact List.pairwise_cons.mpr (dedupAfter_sorted hrest hrow)

variable (key) in
theorem exists_isFirst (h : row ∈ rows) :
    ∃ first, IsFirst key rows first ∧ key first = key row := by
  cases hfind : rows.find? fun other ↦ key other = key row with
  | none => exact absurd (List.find?_eq_none.mp hfind row h) (by simp)
  | some first =>
    have hkey : key first = key row := by simpa using List.find?_some hfind
    exact ⟨first, by rw [IsFirst, hkey, hfind], hkey⟩

theorem toFinset_distinct (rows : List Row) :
    ((distinct key rows).map key).toFinset = (rows.map key).toFinset := by
  ext value
  simp only [List.mem_toFinset, List.mem_map]
  constructor
  · rintro ⟨row, hrow, rfl⟩
    exact ⟨row, (mem_distinct_iff.mp hrow).mem, rfl⟩
  · rintro ⟨row, hrow, rfl⟩
    obtain ⟨first, hfirst, hkey⟩ := exists_isFirst key hrow
    exact ⟨first, mem_distinct_iff.mpr hfirst, hkey⟩

theorem nodup_distinct (rows : List Row) : ((distinct key rows).map key).Nodup :=
  List.pairwise_map.mpr ((pairwise_distinct rows).imp ne_of_lt)

theorem length_distinct (rows : List Row) :
    (distinct key rows).length = (rows.map key).toFinset.card := by
  rw [← toFinset_distinct, List.toFinset_card_of_nodup (nodup_distinct rows), List.length_map]

theorem length_filter_distinct (rows : List Row) (row : Row) :
    ((distinct key rows).filter fun other ↦ key other < key row).length = rank key rows row := by
  have hnodup : (((distinct key rows).filter fun other ↦ key other < key row).map key).Nodup :=
    (nodup_distinct rows).sublist (List.filter_sublist.map key)
  have hset : (((distinct key rows).filter fun other ↦ key other < key row).map key).toFinset =
      (rows.map key).toFinset.filter (· < key row) := by
    rw [← toFinset_distinct rows]
    ext value
    simp only [List.mem_toFinset, List.mem_map, List.mem_filter, decide_eq_true_eq,
      Finset.mem_filter]
    constructor
    · rintro ⟨other, ⟨hother, hlt⟩, rfl⟩
      exact ⟨⟨other, hother, rfl⟩, hlt⟩
    · rintro ⟨⟨other, hother, rfl⟩, hlt⟩
      exact ⟨other, ⟨hother, hlt⟩, rfl⟩
  rw [rank, ← hset, List.toFinset_card_of_nodup hnodup, List.length_map]

theorem mem_take_iff {rows : List Row}
    (hsorted : rows.Pairwise fun first second ↦ key first < key second) (limit : ℕ) :
    row ∈ rows.take limit ↔
      row ∈ rows ∧ (rows.filter fun other ↦ key other < key row).length < limit := by
  induction rows generalizing limit with
  | nil => simp
  | cons first rest ih =>
    obtain ⟨hfirst, hrest⟩ := List.pairwise_cons.mp hsorted
    cases limit with
    | zero => simp
    | succ limit =>
      rw [List.take_succ_cons, List.mem_cons, ih hrest, List.mem_cons, List.filter_cons]
      by_cases hrow : row = first
      · subst hrow
        have hnone : rest.filter (fun other ↦ key other < key row) = [] :=
          List.filter_eq_nil_iff.mpr fun other hother ↦
            by simpa using (hfirst other hother).le
        simp [hnone]
      · simp only [hrow, false_or]
        refine and_congr_right fun hmem ↦ ?_
        rw [if_pos (by simpa using hfirst row hmem), List.length_cons, Nat.succ_lt_succ_iff]

/-- The kept entries are the first ones of the keys with few smaller keys. -/
theorem mem_take_distinct_iff (limit : ℕ) :
    row ∈ (distinct key rows).take limit ↔ IsFirst key rows row ∧ rank key rows row < limit := by
  rw [mem_take_iff (pairwise_distinct rows), mem_distinct_iff, length_filter_distinct]

theorem distinct_map {change : Row → Row} (hchange : ∀ row, key (change row) = key row)
    (rows : List Row) : distinct key (rows.map change) = (distinct key rows).map change := by
  have hdedup : ∀ (last : Option Key) (rows : List Row),
      dedupAfter key last (rows.map change) = (dedupAfter key last rows).map change := by
    intro last rows
    induction rows generalizing last with
    | nil => rfl
    | cons row rest ih =>
      rw [List.map_cons, dedupAfter, dedupAfter, hchange, ih, ih]
      split <;> rfl
  have hsort : sortByKey key (rows.map change) = (sortByKey key rows).map change :=
    (List.map_insertionSort _ _ change rows fun first _ second _ ↦ by
      rw [hchange, hchange]).symm
  rw [distinct, distinct, hsort, hdedup]

end

end AlphaPing.Library.Distinct
