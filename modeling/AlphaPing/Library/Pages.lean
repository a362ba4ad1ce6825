import AlphaPing.Library.Tables
import Mathlib.Data.List.Count

/-!
# A cursor that goes round a table

A pass handles the page of rows that follow the cursor, in the order of their keys and up to a
limit. When all of them are handled the cursor moves to the last key of the page, or back to the
bottom when no row is left behind it. Otherwise it stays.

A table may change from one pass to the next. A key that is in the table in every pass is handled
once while the cursor goes round; as long as the table stays the same, so many passes that move
the cursor are enough.
-/

namespace AlphaPing.Library.Pages

open Tables

section Page

variable {Row Key : Type*} [LinearOrder Key] (key : Row → Key) (limit : ℕ) (cursor : Key)
  (rows : List Row)

/-- The rows after the cursor, up to one more than the limit. -/
def ahead : List Row :=
  selectOrdered key (limit + 1) (rows.filter fun row ↦ cursor < key row)

def page : List Row := (ahead key limit cursor rows).take limit

/-- The last key of the page, or the bottom when the page is the last one. -/
def nextCursor [OrderBot Key] : Key :=
  if limit < (ahead key limit cursor rows).length then
    ((page key limit cursor rows).getLast?.map key).getD ⊥
  else ⊥

variable {key limit cursor rows}

theorem mem_page {row : Row} (h : row ∈ page key limit cursor rows) :
    row ∈ rows ∧ cursor < key row := by
  have hahead := mem_of_mem_selectOrdered (List.mem_of_mem_take h)
  simpa using hahead

theorem page_eq_selectOrdered : page key limit cursor rows =
    selectOrdered key limit (rows.filter fun row ↦ cursor < key row) := by
  rw [page, ahead, selectOrdered, selectOrdered, List.take_take, Nat.min_eq_left (Nat.le_succ _)]

theorem last_page (h : (ahead key limit cursor rows).length ≤ limit) :
    (rows.countP fun row ↦ cursor < key row) ≤ limit ∧
      ∀ row ∈ rows, cursor < key row → row ∈ page key limit cursor rows := by
  have hlength : (rows.filter fun row ↦ cursor < key row).length ≤ limit := by
    rw [ahead, selectOrdered, List.length_take, List.length_insertionSort] at h
    omega
  constructor
  · rwa [List.countP_eq_length_filter]
  · intro row hrow hlt
    rw [page_eq_selectOrdered]
    exact mem_selectOrdered_of_length_le hlength (by simp [hrow, hlt])

theorem pairwise_page (h : UniqueKey key rows) :
    (page key limit cursor rows).Pairwise fun row other ↦ key row < key other := by
  rw [page_eq_selectOrdered]
  exact (pairwise_lt_insertionSort (h.filter _)).sublist (List.take_sublist _ _)

/-- A page with rows behind it is full, and holds what comes before its last key. -/
theorem full_page [OrderBot Key] (hunique : UniqueKey key rows) (hlimit : 0 < limit)
    (h : limit < (ahead key limit cursor rows).length) :
    cursor < nextCursor key limit cursor rows ∧
      (∀ row ∈ rows, cursor < key row → key row ≤ nextCursor key limit cursor rows →
        row ∈ page key limit cursor rows) ∧
      (rows.countP fun row ↦ cursor < key row && key row ≤ nextCursor key limit cursor rows) =
        limit := by
  have hlength : (page key limit cursor rows).length = limit := by
    rw [page, List.length_take, Nat.min_eq_left h.le]
  obtain ⟨front, last, hfront⟩ : ∃ front last, page key limit cursor rows = front ++ [last] := by
    rcases List.eq_nil_or_concat' (page key limit cursor rows) with hnil | hconcat
    · rw [hnil] at hlength
      exact absurd hlength hlimit.ne
    · exact hconcat
  have hnext : nextCursor key limit cursor rows = key last := by
    rw [nextCursor, if_pos h, hfront, List.getLast?_concat]
    rfl
  have hmem : last ∈ page key limit cursor rows := by simp [hfront]
  have hbelow : ∀ row ∈ page key limit cursor rows, key row ≤ key last := by
    have hsorted : (page key limit cursor rows).Pairwise fun row other ↦ key row < key other :=
      pairwise_page hunique
    rw [hfront] at hsorted ⊢
    intro row hrow
    rcases List.mem_append.mp hrow with hbefore | hlast
    · exact ((List.pairwise_append.mp hsorted).2.2 row hbefore last
        (List.mem_singleton_self last)).le
    · rw [List.mem_singleton.mp hlast]
  have hmembers : ∀ row ∈ rows, cursor < key row → key row ≤ key last →
      row ∈ page key limit cursor rows := by
    intro row hrow hlt hle
    rcases hle.lt_or_eq with hless | heq
    · rw [page_eq_selectOrdered] at hmem ⊢
      exact mem_selectOrdered_of_lt (by simp [hrow, hlt]) hmem hless
    · rwa [hunique.eq_of_mem hrow (mem_page hmem).1 heq]
  rw [hnext]
  refine ⟨(mem_page hmem).2, hmembers, ?_⟩
  have hperm : (rows.filter fun row ↦ cursor < key row && key row ≤ key last).Perm
      (page key limit cursor rows) := by
    refine (List.perm_ext_iff_of_nodup (hunique.of_map.filter _)
      ((pairwise_page hunique).imp fun hlt heq ↦ hlt.ne (congrArg key heq))).mpr fun row ↦ ?_
    simp only [List.mem_filter, Bool.and_eq_true, decide_eq_true_eq]
    constructor
    · rintro ⟨hrow, hlt, hle⟩
      exact hmembers row hrow hlt hle
    · intro hrow
      exact ⟨(mem_page hrow).1, (mem_page hrow).2, hbelow row hrow⟩
  rw [List.countP_eq_length_filter, hperm.length_eq, hlength]

end Page

/-! ## Passes -/

section Passes

variable {Key : Type*} [LinearOrder Key] [OrderBot Key]

/-- One pass: the cursor before and after it, the keys that the table had, and those handled. -/
structure Pass (Key : Type*) where
  start : Key
  finish : Key
  /-- The whole page was handled. -/
  advanced : Bool
  present : List Key
  handled : List Key

structure Pass.Sound (limit : ℕ) (pass : Pass Key) : Prop where
  stays : pass.advanced = false → pass.finish = pass.start
  handles : pass.advanced = true → ∀ key ∈ pass.present, pass.start < key →
    pass.finish = ⊥ ∨ key ≤ pass.finish → key ∈ pass.handled
  moves : pass.advanced = true → pass.finish = ⊥ ∨ pass.start < pass.finish
  full : pass.advanced = true → pass.finish ≠ ⊥ →
    (pass.present.countP fun key ↦ pass.start < key && key ≤ pass.finish) = limit
  more : pass.advanced = true → pass.finish ≠ ⊥ →
    limit < pass.present.countP fun key ↦ pass.start < key
  last : pass.advanced = true → pass.finish = ⊥ →
    (pass.present.countP fun key ↦ pass.start < key) ≤ limit

/-- What a pass over the table does that handles its page, or else leaves the cursor. -/
theorem sound_of_page {Row : Type*} {key : Row → Key} {limit : ℕ} {rows : List Row}
    {pass : Pass Key} (hunique : UniqueKey key rows) (hlimit : 0 < limit)
    (hpresent : pass.present = rows.map key)
    (hfinish : pass.finish =
      if pass.advanced then nextCursor key limit pass.start rows else pass.start)
    (hhandled : pass.advanced = true → ∀ row ∈ page key limit pass.start rows,
      key row ∈ pass.handled) : pass.Sound limit := by
  cases hadvanced : pass.advanced with
  | false =>
    have hstays : pass.finish = pass.start := by simpa [hadvanced] using hfinish
    have hnot : pass.advanced ≠ true := by simp [hadvanced]
    exact ⟨fun _ ↦ hstays, fun h ↦ absurd h hnot, fun h ↦ absurd h hnot, fun h ↦ absurd h hnot,
      fun h ↦ absurd h hnot, fun h ↦ absurd h hnot⟩
  | true =>
    rw [hadvanced, if_pos rfl] at hfinish
    have hcount (condition : Key → Bool) :
        pass.present.countP condition = rows.countP fun row ↦ condition (key row) := by
      rw [hpresent, List.countP_map]
      rfl
    rcases Nat.lt_or_ge limit (ahead key limit pass.start rows).length with hfull | hlast
    · obtain ⟨hmoves, hmembers, hlength⟩ := full_page hunique hlimit hfull
      rw [← hfinish] at hmoves hmembers hlength
      refine ⟨fun h ↦ absurd (hadvanced.symm.trans h) (by decide), fun _ other hother hlt hle ↦ ?_,
        fun _ ↦ .inr hmoves, fun _ _ ↦ (hcount _).trans hlength, fun _ _ ↦ ?_, fun _ hbot ↦ ?_⟩
      · rw [hpresent] at hother
        obtain ⟨row, hrow, rfl⟩ := List.mem_map.mp hother
        have hreached : key row ≤ pass.finish := hle.resolve_left (bot_le.trans_lt hmoves).ne'
        exact hhandled hadvanced row (hmembers row hrow hlt hreached)
      · rw [hcount, List.countP_eq_length_filter]
        rw [ahead, selectOrdered, List.length_take, List.length_insertionSort] at hfull
        omega
      · rw [hbot] at hmoves
        exact absurd hmoves not_lt_bot
    · obtain ⟨hlength, hmembers⟩ := last_page hlast
      have hbot : pass.finish = ⊥ := by rw [hfinish, nextCursor, if_neg (not_lt.mpr hlast)]
      refine ⟨fun h ↦ absurd (hadvanced.symm.trans h) (by decide), fun _ other hother hlt _ ↦ ?_,
        fun _ ↦ .inl hbot, fun _ hne ↦ absurd hbot hne, fun _ hne ↦ absurd hbot hne,
        fun _ _ ↦ (hcount _).trans_le hlength⟩
      rw [hpresent] at hother
      obtain ⟨row, hrow, rfl⟩ := List.mem_map.mp hother
      exact hhandled hadvanced row (hmembers row hrow hlt)

/-- Each pass starts where the one before it has left the cursor. -/
def Chained : Key → List (Pass Key) → Prop
  | _, [] => True
  | cursor, pass :: later => pass.start = cursor ∧ Chained pass.finish later

/-- The cursor after the passes. -/
def cursorAfter (cursor : Key) (passes : List (Pass Key)) : Key :=
  passes.foldl (fun _ pass ↦ pass.finish) cursor

/-- The cursor has come to the end of the table, and then to where it was at first. -/
def Round (cursor : Key) (passes : List (Pass Key)) : Prop :=
  ∃ before turn after, passes = before ++ turn :: after ∧ turn.advanced = true ∧
    turn.finish = ⊥ ∧ cursor ≤ cursorAfter cursor passes

variable {limit : ℕ} {cursor key : Key} {passes : List (Pass Key)}

omit [LinearOrder Key] [OrderBot Key] in
theorem chained_append {before after : List (Pass Key)} :
    Chained cursor (before ++ after) ↔
      Chained cursor before ∧ Chained (cursorAfter cursor before) after := by
  induction before generalizing cursor with
  | nil => exact (and_iff_right trivial).symm
  | cons pass later ih => exact (and_congr_right fun _ ↦ ih).trans and_assoc.symm

/-- A cursor does not come past a key that is in the table without handling it. -/
theorem handled_or_before (hchain : Chained cursor passes)
    (hsound : ∀ pass ∈ passes, pass.Sound limit) (hpresent : ∀ pass ∈ passes, key ∈ pass.present)
    (hbefore : cursor < key) :
    (∃ pass ∈ passes, key ∈ pass.handled) ∨
      (cursorAfter cursor passes < key ∧
        ∀ pass ∈ passes, pass.advanced = true → pass.finish ≠ ⊥) := by
  induction passes generalizing cursor with
  | nil => exact .inr ⟨hbefore, fun _ h ↦ absurd h List.not_mem_nil⟩
  | cons pass later ih =>
    obtain ⟨hstart, hlater⟩ := hchain
    obtain ⟨hpass, hrest⟩ := List.forall_mem_cons.mp hsound
    obtain ⟨hthere, hothers⟩ := List.forall_mem_cons.mp hpresent
    rw [← hstart] at hbefore
    have hstep : key ∈ pass.handled ∨
        (pass.finish < key ∧ (pass.advanced = true → pass.finish ≠ ⊥)) := by
      cases hadvanced : pass.advanced with
      | false => exact .inr ⟨(hpass.stays hadvanced).trans_lt hbefore, fun h ↦ nomatch h⟩
      | true =>
        by_cases hpassed : pass.finish = ⊥ ∨ key ≤ pass.finish
        · exact .inl (hpass.handles hadvanced key hthere hbefore hpassed)
        · rw [not_or, not_le] at hpassed
          exact .inr ⟨hpassed.2, fun _ ↦ hpassed.1⟩
    rcases hstep with hhandled | ⟨hlt, hturn⟩
    · exact .inl ⟨pass, List.mem_cons_self, hhandled⟩
    · rcases ih hlater hrest hothers hlt with ⟨other, hother, hhandled⟩ | ⟨hend, hturns⟩
      · exact .inl ⟨other, List.mem_cons_of_mem _ hother, hhandled⟩
      · exact .inr ⟨hend, List.forall_mem_cons.mpr ⟨hturn, hturns⟩⟩

/-- Once round, every key that was in the table all the time is handled. -/
theorem handled_of_round (hchain : Chained cursor passes)
    (hsound : ∀ pass ∈ passes, pass.Sound limit) (hpresent : ∀ pass ∈ passes, key ∈ pass.present)
    (hkey : ⊥ < key) (hround : Round cursor passes) : ∃ pass ∈ passes, key ∈ pass.handled := by
  obtain ⟨before, turn, after, rfl, hadvanced, hturn, hend⟩ := hround
  have hturnMem : turn ∈ before ++ turn :: after :=
    List.mem_append_right _ List.mem_cons_self
  rcases lt_or_ge cursor key with hlt | hge
  · rcases handled_or_before hchain hsound hpresent hlt with hhandled | ⟨-, hturns⟩
    · exact hhandled
    · exact absurd hturn (hturns turn hturnMem hadvanced)
  · have hafter : ∀ pass ∈ after, pass ∈ before ++ turn :: after := fun pass hpass ↦
      List.mem_append_right _ (List.mem_cons_of_mem _ hpass)
    have hlater := (chained_append.mp hchain).2.2
    rw [hturn] at hlater
    rcases handled_or_before hlater (fun pass hpass ↦ hsound pass (hafter pass hpass))
      (fun pass hpass ↦ hpresent pass (hafter pass hpass)) hkey with
      ⟨pass, hpass, hhandled⟩ | ⟨hbelow, -⟩
    · exact ⟨pass, hafter pass hpass, hhandled⟩
    · have hsame : cursorAfter cursor (before ++ turn :: after) = cursorAfter ⊥ after := by
        simp only [cursorAfter, List.foldl_append, List.foldl_cons, hturn]
      rw [hsame] at hend
      exact absurd (hbelow.trans_le hge) (not_lt.mpr hend)

/-! ### A table that stays the same -/

/-- So many passes have to move the cursor before it comes past the key. -/
def needed (limit : ℕ) (keys : List Key) (cursor key : Key) : ℕ :=
  if cursor < key then (keys.countP fun other ↦ cursor < other && other < key) / limit + 1
  else ((keys.countP fun other ↦ cursor < other) - 1) / limit + 1 +
    ((keys.countP fun other ↦ other < key) / limit + 1)

omit [OrderBot Key] in
theorem needed_le {keys : List Key} (hkey : key ∈ keys) (limit : ℕ) (cursor : Key) :
    needed limit keys cursor key ≤ (keys.length - 1) / limit + 2 := by
  rw [needed]
  split
  · have hcount : (keys.countP fun other ↦ cursor < other && other < key) < keys.length := by
      apply List.countP_lt_length_iff.mpr
      exact ⟨key, hkey, by simp⟩
    have hdiv := Nat.div_le_div_right (c := limit) (Nat.le_sub_one_of_lt hcount)
    omega
  · next hge =>
    -- Before the key and after the cursor are other rows each, none of which is the key's.
    have hcount : (keys.countP fun other ↦ other ≠ key) < keys.length := by
      apply List.countP_lt_length_iff.mpr
      exact ⟨key, hkey, by simp⟩
    have hboth : (keys.countP fun other ↦ cursor < other) +
        (keys.countP fun other ↦ other < key) ≤ keys.countP fun other ↦ other ≠ key := by
      have hsum : (keys.countP fun other ↦ cursor < other || other < key) =
          (keys.countP fun other ↦ cursor < other) + keys.countP fun other ↦ other < key := by
        apply countP_eq_add fun _ ↦ rfl
        intro other hother
        simp only [decide_eq_true_eq, decide_eq_false_iff_not, not_lt] at hother ⊢
        exact (not_lt.mp hge).trans hother.le
      rw [← hsum]
      apply List.countP_mono_left
      intro other _ hother
      simp only [Bool.or_eq_true, decide_eq_true_eq] at hother ⊢
      rcases hother with hafter | hbefore
      · exact ((not_lt.mp hge).trans_lt hafter).ne'
      · exact hbefore.ne
    generalize (keys.countP fun other ↦ cursor < other) = after at hboth
    generalize (keys.countP fun other ↦ other < key) = before at hboth
    have hsum : (after - 1) / limit + before / limit ≤ (after - 1 + before) / limit :=
      Nat.div_add_div_le_add_div
    have hdiv := Nat.div_le_div_right (c := limit)
      (show after - 1 + before ≤ keys.length - 1 by omega)
    omega

/-- A pass that moves the cursor handles the key or brings it nearer. -/
theorem needed_step {pass : Pass Key} (hsound : pass.Sound limit) (hlimit : 0 < limit)
    (hadvanced : pass.advanced = true) (hkey : key ∈ pass.present) (hbot : ⊥ < key) :
    key ∈ pass.handled ∨
      needed limit pass.present pass.finish key + 1 ≤ needed limit pass.present pass.start key := by
  by_cases hturn : pass.finish = ⊥
  · rcases lt_or_ge pass.start key with hlt | hge
    · exact .inl (hsound.handles hadvanced key hkey hlt (.inl hturn))
    · right
      rw [needed, needed, hturn, if_pos hbot, if_neg (not_lt.mpr hge)]
      have hfewer : (pass.present.countP fun other ↦ ⊥ < other && other < key) ≤
          pass.present.countP fun other ↦ other < key := by
        apply List.countP_mono_left
        intro other _ hother
        exact (Bool.and_eq_true_iff.mp hother).2
      have hdiv := Nat.div_le_div_right (c := limit) hfewer
      generalize ((pass.present.countP fun other ↦ pass.start < other) - 1) / limit = turns
      omega
  · have hmoves := (hsound.moves hadvanced).resolve_left hturn
    have hfull := hsound.full hadvanced hturn
    rcases lt_or_ge pass.start key with hlt | hge
    · rcases lt_or_ge pass.finish key with hbehind | hreached
      · right
        rw [needed, needed, if_pos hbehind, if_pos hlt]
        have hsplit : (pass.present.countP fun other ↦ pass.start < other && other < key) =
            (pass.present.countP fun other ↦ pass.start < other && other ≤ pass.finish) +
              pass.present.countP fun other ↦ pass.finish < other && other < key := by
          apply countP_eq_add
          · intro other
            rw [Bool.eq_iff_iff]
            simp only [Bool.and_eq_true, Bool.or_eq_true, decide_eq_true_eq]
            constructor
            · rintro ⟨hstart, hend⟩
              rcases lt_or_ge pass.finish other with hafter | hbefore
              · exact .inr ⟨hafter, hend⟩
              · exact .inl ⟨hstart, hbefore⟩
            · rintro (⟨hstart, hle⟩ | ⟨hafter, hend⟩)
              · exact ⟨hstart, hle.trans_lt hbehind⟩
              · exact ⟨hmoves.trans hafter, hend⟩
          · intro other hother
            simp only [Bool.and_eq_true, decide_eq_true_eq] at hother
            simp [not_lt.mpr hother.2]
        rw [hsplit, hfull, Nat.add_div_left _ hlimit]
      · exact .inl (hsound.handles hadvanced key hkey hlt (.inr hreached))
    · right
      rw [needed, needed, if_neg (not_lt.mpr (hge.trans hmoves.le)), if_neg (not_lt.mpr hge)]
      have hsplit : (pass.present.countP fun other ↦ pass.start < other) =
          (pass.present.countP fun other ↦ pass.start < other && other ≤ pass.finish) +
            pass.present.countP fun other ↦ pass.finish < other := by
        apply countP_eq_add
        · intro other
          rw [Bool.eq_iff_iff]
          simp only [Bool.and_eq_true, Bool.or_eq_true, decide_eq_true_eq]
          constructor
          · intro hstart
            rcases lt_or_ge pass.finish other with hafter | hbefore
            · exact .inr hafter
            · exact .inl ⟨hstart, hbefore⟩
          · rintro (⟨hstart, -⟩ | hafter)
            · exact hstart
            · exact hmoves.trans hafter
        · intro other hother
          simp only [Bool.and_eq_true, decide_eq_true_eq] at hother
          simp [not_lt.mpr hother.2]
      have hmore := hsound.more hadvanced hturn
      rw [hsplit, hfull] at hmore ⊢
      generalize (pass.present.countP fun other ↦ pass.finish < other) = behind at hmore ⊢
      have hdiv : (limit + behind - 1) / limit = (behind - 1) / limit + 1 := by
        rw [Nat.add_sub_assoc (by omega), Nat.add_div_left _ hlimit]
      omega

/-- In a table that stays the same, each key is handled while the cursor is moved so often. -/
theorem handled_of_advances {keys : List Key} (hlimit : 0 < limit)
    (hchain : Chained cursor passes) (hsound : ∀ pass ∈ passes, pass.Sound limit)
    (hkeys : ∀ pass ∈ passes, pass.present = keys) (hkey : key ∈ keys) (hbot : ⊥ < key)
    (hmany : needed limit keys cursor key ≤ passes.countP Pass.advanced) :
    ∃ pass ∈ passes, key ∈ pass.handled := by
  induction passes generalizing cursor with
  | nil =>
    rw [needed] at hmany
    split at hmany <;> exact absurd hmany (by simp)
  | cons pass later ih =>
    obtain ⟨hstart, hlater⟩ := hchain
    obtain ⟨hpass, hrest⟩ := List.forall_mem_cons.mp hsound
    obtain ⟨hthere, hothers⟩ := List.forall_mem_cons.mp hkeys
    have hnext (hmany : needed limit keys pass.finish key ≤ later.countP Pass.advanced) :
        ∃ other ∈ pass :: later, key ∈ other.handled := by
      obtain ⟨other, hother, hhandled⟩ := ih hlater hrest hothers hmany
      exact ⟨other, List.mem_cons_of_mem _ hother, hhandled⟩
    cases hadvanced : pass.advanced with
    | false =>
      rw [List.countP_cons_of_neg (by simp [hadvanced])] at hmany
      apply hnext
      rwa [hpass.stays hadvanced, hstart]
    | true =>
      rw [List.countP_cons_of_pos hadvanced] at hmany
      rcases needed_step hpass hlimit hadvanced (hthere ▸ hkey) hbot with hhandled | hnearer
      · exact ⟨pass, List.mem_cons_self, hhandled⟩
      · rw [hthere, hstart] at hnearer
        exact hnext (by omega)

end Passes

/-! ## Pages that are asked for one by one -/

section Remaining

variable {Row Key : Type*} [LinearOrder Key] {key : Row → Key} {cursor : Key} {rows : List Row}

def remaining (key : Row → Key) (cursor : Key) (rows : List Row) : List Row :=
  (rows.filter fun row ↦ cursor < key row).insertionSort fun first second ↦ key first ≤ key second

theorem mem_remaining {row : Row} :
    row ∈ remaining key cursor rows ↔ row ∈ rows ∧ cursor < key row := by
  rw [remaining, List.mem_insertionSort, List.mem_filter, decide_eq_true_eq]

theorem pairwise_remaining (h : UniqueKey key rows) :
    (remaining key cursor rows).Pairwise fun row other ↦ key row < key other :=
  pairwise_lt_insertionSort (h.filter _)

/-- The rows behind the last of those that were taken are the others. -/
theorem remaining_last (h : UniqueKey key rows) {count : ℕ} {last : Row}
    (hlast : ((remaining key cursor rows).take count).getLast? = some last) :
    remaining key (key last) rows = (remaining key cursor rows).drop count := by
  have hsorted : (remaining key cursor rows).Pairwise fun row other ↦ key row < key other :=
    pairwise_remaining h
  obtain ⟨front, hfront⟩ := List.getLast?_eq_some_iff.mp hlast
  have hmem := mem_remaining.mp (List.mem_of_mem_take (List.mem_of_getLast? hlast))
  refine eq_of_pairwise_lt (pairwise_remaining h) (hsorted.sublist (List.drop_sublist _ _))
    fun row ↦ ?_
  rw [← List.take_append_drop count (remaining key cursor rows), hfront, List.pairwise_append,
    List.pairwise_append] at hsorted
  obtain ⟨⟨-, -, hbefore⟩, -, hbehind⟩ := hsorted
  rw [mem_remaining]
  constructor
  · rintro ⟨hrow, hlt⟩
    have hrest := mem_remaining.mpr ⟨hrow, hmem.2.trans hlt⟩
    rw [← List.take_append_drop count (remaining key cursor rows), hfront] at hrest
    refine (List.mem_append.mp hrest).resolve_left fun htaken ↦ ?_
    rcases List.mem_append.mp htaken with hfirst | hself
    · exact (hbefore row hfirst last (List.mem_singleton_self last)).not_gt hlt
    · exact hlt.ne (congrArg key (List.mem_singleton.mp hself)).symm
  · intro hrow
    exact ⟨(mem_remaining.mp (List.mem_of_mem_drop hrow)).1,
      hbehind last (List.mem_append_right _ (List.mem_singleton_self last)) row hrow⟩

end Remaining

end AlphaPing.Library.Pages
