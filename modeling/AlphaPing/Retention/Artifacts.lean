import AlphaPing.Library.Pages
import AlphaPing.Library.Runs
import Mathlib.Data.String.Basic

/-!
# Expired artifacts

Each retention run goes on with the bucket where the last one that gave back its lease has stopped.
The row of a prefix holds the cursor and, as a token, the time until which the lease is held. Runs
may overlap, stop at any await and come back after their lease has expired; objects may be written
and deleted by others at any time.
-/

namespace AlphaPing.Retention.Artifacts

open Library.Pages Library.Runs Library.Tables

instance orderBotString : OrderBot String where
  bot := ""
  bot_le _ := not_lt.mp fun h ↦ List.not_lt_nil _ (String.lt_iff_toList_lt.mp h)

/-- `raw` is the value of the custom metadata. -/
structure Artifact where
  key : String
  raw : Option String

structure Bucket where
  rows : List Artifact
  unique : UniqueKey Artifact.key rows

def listBatch : ℕ := 500

def leaseMs : ℕ := 5 * 60000

def expiredAt (artifact : Artifact) (now : ℕ) : Bool :=
  artifact.raw.any fun raw ↦ raw.toList.all Char.isDigit && 1 ≤ raw.length && raw.length ≤ 16 &&
    raw.toNat?.any fun value ↦ value < 2 ^ 53 && value ≤ now

/-- `ARTIFACT_PREFIXES`. -/
inductive ArtifactPrefix where
  | exports | backups

def ArtifactPrefix.text : ArtifactPrefix → String
  | .exports => "exports/v1/"
  | .backups => "backups/v1/"

variable (kind : ArtifactPrefix)

/-- What the bucket has under a prefix at some time. -/
structure Listing where
  rows : List Artifact
  unique : UniqueKey Artifact.key rows
  within : ∀ artifact ∈ rows, kind.text.isPrefixOf artifact.key = true

def Bucket.list (bucket : Bucket) : Listing kind where
  rows := bucket.rows.filter fun artifact ↦ kind.text.isPrefixOf artifact.key
  unique := bucket.unique.filter _
  within _ h := (List.mem_filter.mp h).2

structure CursorRow where
  lastKey : String
  leaseUntil : ℕ

/-- How far `cleanPrefix` has got. -/
inductive Phase where
  | acquired | listed | deleted | ended
  deriving DecidableEq

/-- A run that has come to the prefix. -/
structure CleanRun where
  now : ℕ
  lastKey : String
  phase : Phase
  seen : Listing kind

namespace CleanRun

variable {kind} (run : CleanRun kind)

def leaseUntil : ℕ := run.now + leaseMs

def objects : List Artifact := page Artifact.key listBatch run.lastKey run.seen.rows

def expiredKeys : List String :=
  (run.objects.filter (expiredAt · run.now)).map Artifact.key

def nextKey : String := nextCursor Artifact.key listBatch run.lastKey run.seen.rows

end CleanRun

structure Store where
  bucket : Bucket
  cursor : Option CursorRow
  runs : List (CleanRun kind)
  /-- The runs that have given back their lease, in this order. No statement reads them. -/
  finished : List (CleanRun kind)

inductive Action where
  /-- Others write and delete objects. -/
  | change (bucket : Bucket)
  | start (scheduledTime : ℕ)
  | advance (index : ℕ)

def acquirePrefixLease (cursor : Option CursorRow) (now : ℕ) : Option CursorRow :=
  match cursor with
  | none => some ⟨"", now + leaseMs⟩
  | some row => if row.leaseUntil ≤ now then some ⟨row.lastKey, now + leaseMs⟩ else none

def deleteKeys (bucket : Bucket) (keys : List String) : Bucket where
  rows := bucket.rows.filter fun artifact ↦ artifact.key ∉ keys
  unique := bucket.unique.filter _

variable {kind} (store : Store kind)

/-- A scheduled time is claimed for one run. -/
def startRun (now : ℕ) : Store kind :=
  if store.runs.any fun run ↦ run.now = now then store
  else match acquirePrefixLease store.cursor now with
    | none => { store with runs := store.runs ++ [⟨now, "", .ended, Bucket.list kind ⟨[], .nil⟩⟩] }
    | some row => { store with
        cursor := some row
        runs := store.runs ++ [⟨now, row.lastKey, .acquired, Bucket.list kind ⟨[], .nil⟩⟩] }

def releasePrefixLease (run : CleanRun kind) : Store kind :=
  if store.cursor.any fun row ↦ row.leaseUntil = run.leaseUntil then
    { store with
      cursor := some ⟨run.nextKey, 0⟩
      finished := store.finished ++ [run] }
  else store

def advanceRun (index : ℕ) (run : CleanRun kind) : Store kind :=
  match run.phase with
  | .acquired => { store with
      runs := store.runs.set index { run with phase := .listed, seen := store.bucket.list kind } }
  | .listed => { store with
      bucket := deleteKeys store.bucket run.expiredKeys
      runs := store.runs.set index { run with phase := .deleted } }
  | .deleted => releasePrefixLease
      { store with runs := store.runs.set index { run with phase := .ended } } run
  | .ended => store

def step : Action → Store kind
  | .change bucket => { store with bucket := bucket }
  | .start scheduledTime => startRun store scheduledTime
  | .advance index => match store.runs[index]? with
    | none => store
    | some run => advanceRun store index run

variable (kind) in
def empty (bucket : Bucket) : Store kind where
  bucket := bucket
  cursor := none
  runs := []
  finished := []

/-! ## Passes -/

def pass (run : CleanRun kind) : Pass String where
  start := run.lastKey
  finish := run.nextKey
  advanced := true
  present := run.seen.rows.map Artifact.key
  handled := run.objects.map Artifact.key

/-- The cursor is where the finished runs have left it, and a run that has the token in the row goes
on from there. -/
structure Inv : Prop where
  owner : ∀ row ∈ store.cursor, ∀ run ∈ store.runs, run.phase ≠ .ended →
    row.leaseUntil = run.leaseUntil → run.lastKey = row.lastKey
  chained : Chained ⊥ (store.finished.map pass)
  cursor : cursorAfter ⊥ (store.finished.map pass) = (store.cursor.map CursorRow.lastKey).getD ⊥

variable {store} {run : CleanRun kind}

/-- The row and the finished runs stay, and so does what a run has read of the row. -/
theorem Inv.set (h : Inv store) {index : ℕ} {next : CleanRun kind}
    (hrun : store.runs[index]? = some run)
    (hsame : next.phase ≠ .ended →
      run.phase ≠ .ended ∧ next.now = run.now ∧ next.lastKey = run.lastKey) :
    Inv { store with runs := store.runs.set index next } := by
  refine { h with owner := fun row hrow other hother ↦ ?_ }
  rcases List.mem_or_eq_of_mem_set hother with hold | rfl
  · exact h.owner row hrow other hold
  · intro hactive htoken
    obtain ⟨hbefore, hnow, hkey⟩ := hsame hactive
    rw [CleanRun.leaseUntil, hnow] at htoken
    exact hkey.trans (h.owner row hrow run (List.mem_of_getElem? hrun) hbefore htoken)

theorem Inv.startRun (h : Inv store) (now : ℕ) : Inv (startRun store now) := by
  unfold Artifacts.startRun
  split
  · exact h
  next hfresh =>
  split
  · refine { h with owner := fun row hrow run hrun hactive ↦ ?_ }
    rcases List.mem_append.mp hrun with hold | hnew
    · exact h.owner row hrow run hold hactive
    · rw [List.mem_singleton.mp hnew] at hactive
      exact absurd rfl hactive
  · next row hrow =>
    have hkey : row.lastKey = (store.cursor.map CursorRow.lastKey).getD ⊥ ∧
        row.leaseUntil = now + leaseMs := by
      unfold acquirePrefixLease at hrow
      split at hrow
      · next hnone => exact Option.some.inj hrow ▸ ⟨by rw [hnone]; rfl, rfl⟩
      · next old hold =>
        split at hrow
        · exact Option.some.inj hrow ▸ ⟨by rw [hold]; rfl, rfl⟩
        · cases hrow
    refine { h with
      owner := fun other hother run hrun hactive htoken ↦ ?_
      cursor := h.cursor.trans hkey.1.symm }
    obtain rfl := Option.some.inj hother
    rcases List.mem_append.mp hrun with hold | hnew
    · rw [hkey.2, CleanRun.leaseUntil, Nat.add_right_cancel_iff] at htoken
      exact absurd (List.any_eq_true.mpr ⟨run, hold, decide_eq_true htoken.symm⟩) hfresh
    · rw [List.mem_singleton.mp hnew]

theorem Inv.releasePrefixLease (h : Inv store)
    (howner : ∀ row ∈ store.cursor, row.leaseUntil = run.leaseUntil → run.lastKey = row.lastKey) :
    Inv (releasePrefixLease store run) := by
  unfold Artifacts.releasePrefixLease
  split
  next htoken =>
    obtain ⟨row, hrow, hsame⟩ := (Option.any_eq_true _ _).mp htoken
    have hcursor : cursorAfter ⊥ (store.finished.map pass) = run.lastKey := by
      rw [h.cursor, hrow, howner row hrow (of_decide_eq_true hsame)]
      rfl
    constructor
    · intro free hfree other _ _ hzero
      rw [← Option.some.inj hfree, CleanRun.leaseUntil, leaseMs] at hzero
      exact absurd hzero (by simp)
    · rw [List.map_append]
      exact chained_append.mpr ⟨h.chained, hcursor.symm, trivial⟩
    · rw [cursorAfter, List.map_append, List.foldl_append]
      rfl
  next => exact h

theorem Inv.step (h : Inv store) (action : Action) : Inv (step store action) := by
  cases action with
  | change bucket => exact { h with }
  | start scheduledTime => exact h.startRun scheduledTime
  | advance index =>
    rw [Artifacts.step]
    cases hrun : store.runs[index]? with
    | none => exact h
    | some run =>
      dsimp only
      unfold advanceRun
      have hactive : ∀ {phase : Phase}, run.phase = phase → phase ≠ .ended →
          run.phase ≠ .ended := fun hphase hne ↦ hphase ▸ hne
      split
      · next hphase => exact h.set hrun fun _ ↦ ⟨hactive hphase (by decide), rfl, rfl⟩
      · next hphase =>
        have hset :
            Inv { store with runs := store.runs.set index { run with phase := .deleted } } :=
          h.set hrun fun _ ↦ ⟨hactive hphase (by decide), rfl, rfl⟩
        exact { hset with }
      · next hphase =>
        exact (h.set hrun fun hended ↦ absurd rfl hended).releasePrefixLease
          fun row hrow htoken ↦ h.owner row hrow run (List.mem_of_getElem? hrun)
            (hactive hphase (by decide)) htoken
      · exact h

/-! ## What is deleted -/

variable (store) in
/-- When the cursor has gone round, an object that was expired whenever it was listed has been
deleted. -/
def Sweeps : Prop :=
  ∀ before cycle after, store.finished = before ++ cycle ++ after →
    Round (cursorAfter ⊥ (before.map pass)) (cycle.map pass) → ∀ key,
      (∀ run ∈ cycle, ∃ artifact ∈ run.seen.rows,
        artifact.key = key ∧ expiredAt artifact run.now = true) →
        ∃ run ∈ cycle, key ∈ run.expiredKeys

/-- A run deletes only what it has found expired under its prefix. -/
def DeletesExpired (store : Store kind) (action : Action) : Prop :=
  ∀ artifact ∈ store.bucket.rows, artifact ∉ (step store action).bucket.rows →
    (∃ bucket, action = .change bucket) ∨ ∃ run ∈ store.runs, ∃ found ∈ run.seen.rows,
      found.key = artifact.key ∧ kind.text.isPrefixOf found.key = true ∧
        expiredAt found run.now = true

theorem bot_lt_key {artifact : Artifact} (h : artifact ∈ run.seen.rows) : ⊥ < artifact.key := by
  refine bot_lt_iff_ne_bot.mpr fun hempty ↦ ?_
  have hprefix := run.seen.within artifact h
  rw [hempty] at hprefix
  cases kind <;> exact absurd hprefix (by decide)

theorem Inv.sweeps (h : Inv store) : Sweeps store := by
  intro before cycle after hfinished hround key hexpired
  have hchain := h.chained
  rw [hfinished, List.map_append, List.map_append] at hchain
  have hpresent : ∀ turn ∈ cycle.map pass, key ∈ turn.present := by
    intro turn hturn
    obtain ⟨run, hrun, rfl⟩ := List.mem_map.mp hturn
    obtain ⟨artifact, hseen, rfl, -⟩ := hexpired run hrun
    exact List.mem_map_of_mem hseen
  have hkey : ⊥ < key := by
    obtain ⟨_, _, _, hturns, -⟩ := hround
    have hnonempty : cycle ≠ [] := by
      rintro rfl
      exact absurd hturns.symm (by simp)
    obtain ⟨artifact, hseen, rfl, -⟩ := hexpired _ (List.head_mem hnonempty)
    exact bot_lt_key hseen
  have hsound : ∀ turn ∈ cycle.map pass, turn.Sound listBatch := by
    intro turn hturn
    obtain ⟨run, -, rfl⟩ := List.mem_map.mp hturn
    exact sound_of_page run.seen.unique (by decide) rfl rfl fun _ _ ↦ List.mem_map_of_mem
  obtain ⟨_, hturn, hhandled⟩ := handled_of_round
    (chained_append.mp (chained_append.mp hchain).1).2 hsound hpresent hkey hround
  obtain ⟨run, hrun, rfl⟩ := List.mem_map.mp hturn
  obtain ⟨listed, hpage, hsame⟩ := List.mem_map.mp hhandled
  obtain ⟨artifact, hseen, heq, hnow⟩ := hexpired run hrun
  obtain rfl := run.seen.unique.eq_of_mem (mem_page hpage).1 hseen (hsame.trans heq.symm)
  exact ⟨run, hrun, hsame ▸ List.mem_map_of_mem (List.mem_filter.mpr ⟨hpage, hnow⟩)⟩

theorem deletesExpired (store : Store kind) (action : Action) : DeletesExpired store action := by
  intro artifact hold hgone
  cases action with
  | change bucket => exact .inl ⟨bucket, rfl⟩
  | start scheduledTime =>
    rw [step] at hgone
    unfold startRun at hgone
    split at hgone
    · exact absurd hold hgone
    · split at hgone <;> exact absurd hold hgone
  | advance index =>
    rw [step] at hgone
    cases hrun : store.runs[index]? with
    | none =>
      rw [hrun] at hgone
      exact absurd hold hgone
    | some run =>
      rw [hrun] at hgone
      dsimp only at hgone
      unfold advanceRun at hgone
      split at hgone
      · exact absurd hold hgone
      · have hkey : artifact.key ∈ run.expiredKeys := by
          by_contra hnot
          exact hgone (List.mem_filter.mpr ⟨hold, decide_eq_true hnot⟩)
        obtain ⟨found, hfound, hsame⟩ := List.mem_map.mp hkey
        obtain ⟨hpage, hexpired⟩ := List.mem_filter.mp hfound
        have hseen := (mem_page hpage).1
        exact .inr ⟨run, List.mem_of_getElem? hrun, found, hseen, hsame,
          run.seen.within found hseen, hexpired⟩
      · unfold releasePrefixLease at hgone
        split at hgone <;> exact absurd hold hgone
      · exact absurd hold hgone

end AlphaPing.Retention.Artifacts
