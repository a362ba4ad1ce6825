import AlphaPing.Library.Runs
import Mathlib.Data.List.Induction
import Mathlib.Order.Lattice

/-!
# Retries of staged work

Work is a list of stages. A stage changes the state or refuses, and the stages before a refusal
keep what they did. An attempt goes through the stages from the first one and may be interrupted
after any of them; the next attempt starts again from the first one.

When a stage that has succeeded finds nothing to do any more, also after later stages, any attempts
leave the state of a single one, as soon as one of them was not interrupted. Only the last stage may
depend on the attempt.
-/

namespace AlphaPing.Library.Retries

open Runs

variable {State Attempt Failure : Type*}

/-- A stage of an attempt. -/
abbrev Stage (State Attempt Failure : Type*) := Attempt → State → Except Failure State

/-- An attempt goes through stages up to the first refusal. -/
def through (attempt : Attempt) :
    List (Stage State Attempt Failure) → State → Except Failure Unit × State
  | [], state => (.ok (), state)
  | stage :: rest, state =>
    match stage attempt state with
    | .error failure => (.error failure, state)
    | .ok next => through attempt rest next

/-- The stage has nothing left to do, in any attempt. -/
def Settled (stage : Stage State Attempt Failure) (state : State) : Prop :=
  ∀ attempt, stage attempt state = .ok state

/-- The stage does the same in every attempt. -/
def Steady (stage : Stage State Attempt Failure) : Prop :=
  ∀ first second state, stage first state = stage second state

/-- A stage that succeeds is settled and stays so, in the states of an invariant. -/
structure Resumable (Inv : State → Prop) (stages : List (Stage State Attempt Failure)) : Prop where
  keeps : ∀ stage ∈ stages, ∀ attempt state next, Inv state → stage attempt state = .ok next →
    Inv next
  settles : ∀ stage ∈ stages, ∀ attempt state next, Inv state → stage attempt state = .ok next →
    Settled stage next
  lasts : ∀ first ∈ stages, ∀ later ∈ stages, ∀ attempt state next, Inv state →
    Settled first state → later attempt state = .ok next → Settled first next

theorem through_append (attempt : Attempt) (first second : List (Stage State Attempt Failure))
    (state : State) :
    through attempt (first ++ second) state =
      match through attempt first state with
      | (.error failure, next) => (.error failure, next)
      | (.ok (), next) => through attempt second next := by
  induction first generalizing state with
  | nil => rfl
  | cons stage rest ih =>
    simp only [List.cons_append, through]
    split
    · rfl
    · exact ih _

variable {stages : List (Stage State Attempt Failure)}

theorem through_of_settled {attempt : Attempt} {state : State}
    (h : ∀ stage ∈ stages, Settled stage state) :
    through attempt stages state = (.ok (), state) := by
  induction stages with
  | nil => rfl
  | cons stage rest ih =>
    obtain ⟨hstage, hrest⟩ := List.forall_mem_cons.mp h
    simp only [through, hstage attempt]
    exact ih hrest

section Resume

variable {Inv : State → Prop} {stages : List (Stage State Attempt Failure)}

variable {some : List (Stage State Attempt Failure)}

theorem Resumable.of_subset (h : Resumable Inv stages) (hsome : some ⊆ stages) :
    Resumable Inv some where
  keeps stage hstage := h.keeps stage (hsome hstage)
  settles stage hstage := h.settles stage (hsome hstage)
  lasts first hfirst later hlater := h.lasts first (hsome hfirst) later (hsome hlater)

/-- A settled stage stays settled while others are gone through. -/
theorem Resumable.settled_through (h : Resumable Inv stages) (attempt : Attempt)
    {stage : Stage State Attempt Failure} (hstage : stage ∈ stages) (hsome : some ⊆ stages)
    {state : State} (hinv : Inv state) (hsettled : Settled stage state) :
    Settled stage (through attempt some state).2 := by
  induction some generalizing state with
  | nil => exact hsettled
  | cons later rest ih =>
    obtain ⟨hlater, hrest⟩ := List.cons_subset.mp hsome
    simp only [through]
    split
    · exact hsettled
    · next next hnext =>
      exact ih hrest (h.keeps later hlater attempt state next hinv hnext)
        (h.lasts stage hstage later hlater attempt state next hinv hsettled hnext)

theorem Resumable.settled_of_ok (h : Resumable Inv stages) {attempt : Attempt} {state next : State}
    (hinv : Inv state) (hok : through attempt stages state = (.ok (), next)) :
    ∀ stage ∈ stages, Settled stage next := by
  induction stages generalizing state with
  | nil => exact fun stage hstage ↦ absurd hstage List.not_mem_nil
  | cons stage rest ih =>
    have hrest := h.of_subset (List.subset_cons_self stage rest)
    simp only [through] at hok
    split at hok
    · cases hok
    next middle hmiddle =>
    have hkept := h.keeps stage List.mem_cons_self attempt state middle hinv hmiddle
    refine List.forall_mem_cons.mpr ⟨?_, ih hrest hkept hok⟩
    have hsettled := h.settled_through attempt List.mem_cons_self (List.subset_cons_self stage rest)
      hkept (h.settles stage List.mem_cons_self attempt state middle hinv hmiddle)
    rwa [hok] at hsettled

/-- An attempt that follows an interrupted one continues it. -/
theorem Resumable.through_through (h : Resumable Inv stages) (hsteady : ∀ stage ∈ stages,
    Steady stage) (first second : Attempt) {state : State} (hinv : Inv state)
    (count reach : ℕ) :
    (count ≤ reach →
      through second (stages.take reach) (through first (stages.take count) state).2 =
        through second (stages.take reach) state) ∧
    (reach ≤ count →
      (through second (stages.take reach) (through first (stages.take count) state).2).2 =
        (through first (stages.take count) state).2) := by
  induction stages generalizing state count reach with
  | nil => simp [through]
  | cons stage rest ih =>
    cases count with
    | zero => exact ⟨fun _ ↦ rfl, fun hle ↦ by simp [Nat.le_zero.mp hle, through]⟩
    | succ count =>
      cases reach with
      | zero => exact ⟨fun hle ↦ absurd hle (Nat.not_succ_le_zero _), fun _ ↦ rfl⟩
      | succ reach =>
        simp only [List.take_succ_cons, through, Nat.add_le_add_iff_right]
        rw [hsteady stage List.mem_cons_self second first state]
        cases hstage : stage first state with
        | error failure =>
          simp [hsteady stage List.mem_cons_self second first state, hstage]
        | ok next =>
          have hrest := h.of_subset (List.subset_cons_self stage rest)
          have hkept := h.keeps stage List.mem_cons_self first state next hinv hstage
          have hsettled := h.settled_through first List.mem_cons_self
            (List.Subset.trans (List.take_subset count rest) (List.subset_cons_self stage rest)) hkept
            (h.settles stage List.mem_cons_self first state next hinv hstage)
          dsimp only
          rw [hsettled second]
          exact ih hrest (List.forall_mem_cons.mp hsteady).2 hkept count reach

end Resume

/-! ## A machine that makes attempts -/

theorem through_congr {first second : Attempt}
    (h : ∀ stage ∈ stages, ∀ state, stage first state = stage second state) (state : State) :
    through first stages state = through second stages state := by
  induction stages generalizing state with
  | nil => rfl
  | cons stage rest ih =>
    obtain ⟨hstage, hrest⟩ := List.forall_mem_cons.mp h
    simp only [through, hstage state]
    split
    · rfl
    · exact ih hrest _

/-- A refusal of the last stage leaves what the stages before it did. -/
theorem through_concat_of_error {attempt : Attempt} {steady : List (Stage State Attempt Failure)}
    {last : Stage State Attempt Failure} {state next : State} {failure : Failure}
    (h : through attempt (steady ++ [last]) state = (.error failure, next)) :
    (through attempt steady state).2 = next := by
  rw [through_append] at h
  split at h
  · next hsteady => rw [hsteady]; exact (Prod.mk.inj h).2
  next middle hsteady =>
  rw [hsteady]
  simp only [through] at h
  split at h
  · exact (Prod.mk.inj h).2
  · cases h

/-- The attempt was not interrupted: it went as far as its stages let it. -/
def Uninterrupted {Machine : Type*} (step : Machine → Attempt → Machine)
    (reach : Machine → Attempt → ℕ) (stages : List (Stage State Attempt Failure))
    (start : Machine) (attempts : List Attempt) (once : Attempt) : Prop :=
  ∃ before after, attempts = before ++ once :: after ∧
    stages.length ≤ reach (run step start before) once

section Machine

variable {Machine : Type*} {step : Machine → Attempt → Machine} {view : Machine → State}
  {reach : Machine → Attempt → ℕ} {Inv : State → Prop}
  {steady : List (Stage State Attempt Failure)} {last : Stage State Attempt Failure}

theorem uninterrupted_concat_iff {stages : List (Stage State Attempt Failure)} {start : Machine}
    {attempts : List Attempt} {attempt once : Attempt} :
    Uninterrupted step reach stages start (attempts ++ [attempt]) once ↔
      Uninterrupted step reach stages start attempts once ∨
        once = attempt ∧ stages.length ≤ reach (run step start attempts) attempt := by
  constructor
  · rintro ⟨before, after, hsplit, hreach⟩
    rcases List.eq_nil_or_concat after with rfl | ⟨initial, final, rfl⟩
    · obtain ⟨rfl, hlast⟩ := List.append_inj' hsplit rfl
      obtain rfl := List.singleton_inj.mp hlast
      exact .inr ⟨rfl, hreach⟩
    · rw [List.concat_eq_append, ← List.cons_append, ← List.append_assoc] at hsplit
      obtain ⟨rfl, -⟩ := List.append_inj' hsplit rfl
      exact .inl ⟨before, initial, rfl, hreach⟩
  · rintro (⟨before, after, rfl, hreach⟩ | ⟨rfl, hreach⟩)
    · exact ⟨before, after ++ [attempt], by simp, hreach⟩
    · exact ⟨attempts, [], rfl, hreach⟩

/-- After an interrupted attempt, another interrupted one goes as far as the longer of both. -/
theorem Resumable.through_interrupted (h : Resumable Inv (steady ++ [last]))
    (hsteady : ∀ stage ∈ steady, Steady stage) (attempt : Attempt) {state : State}
    (hinv : Inv state) (count reach : ℕ) :
    (through attempt (steady.take reach) (through attempt (steady.take count) state).2).2 =
      (through attempt (steady.take (max count reach)) state).2 := by
  have hsome := h.of_subset (List.subset_append_left steady [last])
  obtain ⟨hlonger, hshorter⟩ := hsome.through_through hsteady attempt attempt hinv count reach
  rcases Nat.le_total count reach with hle | hle
  · rw [hlonger hle, max_eq_right hle]
  · rw [hshorter hle, max_eq_left hle]

/-- After an interrupted attempt, one that is not interrupted leaves what it leaves by itself. -/
theorem Resumable.through_whole (h : Resumable Inv (steady ++ [last]))
    (hsteady : ∀ stage ∈ steady, Steady stage) (attempt : Attempt) {state : State}
    (hinv : Inv state) {count : ℕ} (hcount : count ≤ steady.length) :
    through attempt (steady ++ [last]) (through attempt (steady.take count) state).2 =
      through attempt (steady ++ [last]) state := by
  have hsome := h.of_subset (List.subset_append_left steady [last])
  have hlonger := (hsome.through_through hsteady attempt attempt hinv count steady.length).1 hcount
  rw [List.take_length] at hlonger
  rw [through_append, through_append, hlonger]

/-- What is left while every attempt was interrupted, and after one that was not. -/
def Progress (step : Machine → Attempt → Machine) (view : Machine → State)
    (reach : Machine → Attempt → ℕ) (steady : List (Stage State Attempt Failure))
    (last : Stage State Attempt Failure) (start : Machine) (attempts : List Attempt) : Prop :=
  ((∀ once, ¬ Uninterrupted step reach (steady ++ [last]) start attempts once) ∧
    ∃ count ≤ steady.length, ∀ attempt, view (run step start attempts) =
      (through attempt (steady.take count) (view start)).2) ∨
  ∃ once, Uninterrupted step reach (steady ++ [last]) start attempts once ∧
    view (run step start attempts) = (through once (steady ++ [last]) (view start)).2

theorem Resumable.progress (h : Resumable Inv (steady ++ [last]))
    (hsteady : ∀ stage ∈ steady, Steady stage)
    (hview : ∀ machine attempt, view (step machine attempt) =
      (through attempt ((steady ++ [last]).take (reach machine attempt)) (view machine)).2)
    {start : Machine} (hinv : Inv (view start)) (attempts : List Attempt) :
    Progress step view reach steady last start attempts := by
  induction attempts using List.reverseRecOn with
  | nil =>
    refine .inl ⟨?_, 0, Nat.zero_le _, fun _ ↦ rfl⟩
    rintro once ⟨before, after, hsplit, -⟩
    exact absurd hsplit.symm (by simp)
  | append_singleton attempts attempt ih =>
    have hnext := hview (run step start attempts) attempt
    rw [← run_concat step] at hnext
    by_cases hreach : (steady ++ [last]).length ≤ reach (run step start attempts) attempt
    · have hwhole : Uninterrupted step reach (steady ++ [last]) start (attempts ++ [attempt])
          attempt := uninterrupted_concat_iff.mpr (.inr ⟨rfl, hreach⟩)
      rw [List.take_of_length_le hreach] at hnext
      refine .inr ?_
      rcases ih with ⟨-, count, hcount, hleft⟩ | ⟨once, honce, hleft⟩
      · refine ⟨attempt, hwhole, ?_⟩
        rw [hnext, hleft attempt, h.through_whole hsteady attempt hinv hcount]
      cases hresult : through once (steady ++ [last]) (view start) with
      | mk result left =>
      rw [hresult] at hleft
      cases result with
      | ok =>
        refine ⟨once, uninterrupted_concat_iff.mpr (.inl honce), ?_⟩
        rw [hnext, hleft, through_of_settled (h.settled_of_ok hinv hresult), hresult]
      | error failure =>
        refine ⟨attempt, hwhole, ?_⟩
        have hstages := through_concat_of_error hresult
        rw [through_congr fun stage hstage ↦ hsteady stage hstage once attempt,
          ← List.take_length (l := steady)] at hstages
        rw [hnext, hleft, ← hstages, h.through_whole hsteady attempt hinv le_rfl]
    · have hshort : reach (run step start attempts) attempt ≤ steady.length := by
        rw [List.length_append, List.length_singleton] at hreach
        omega
      rw [List.take_append_of_le_length hshort] at hnext
      rcases ih with ⟨hnone, count, hcount, hleft⟩ | ⟨once, honce, hleft⟩
      · refine .inl ⟨fun once honce ↦ ?_, _, max_le hcount hshort, fun other ↦ ?_⟩
        · rcases uninterrupted_concat_iff.mp honce with hbefore | ⟨-, hlong⟩
          · exact hnone once hbefore
          · exact hreach hlong
        · rw [hnext, hleft attempt, h.through_interrupted hsteady attempt hinv]
          exact congrArg Prod.snd (through_congr
            (fun stage hstage ↦ hsteady stage (List.mem_of_mem_take hstage) attempt other) _)
      · refine .inr ⟨once, uninterrupted_concat_iff.mpr (.inl honce), ?_⟩
        cases hresult : through once (steady ++ [last]) (view start) with
        | mk result left =>
        rw [hresult] at hleft
        cases result with
        | ok =>
          have hsettled := h.settled_of_ok hinv hresult
          rw [hnext, hleft, through_of_settled fun stage hstage ↦ hsettled stage
            (List.mem_append_left _ (List.mem_of_mem_take hstage))]
        | error failure =>
          have hstages := through_concat_of_error hresult
          rw [through_congr fun stage hstage ↦ hsteady stage hstage once attempt,
          ← List.take_length (l := steady)] at hstages
          rw [hnext, hleft, ← hstages, h.through_interrupted hsteady attempt hinv,
            max_eq_left hshort]

/-- As soon as one attempt was not interrupted, the attempts leave what such a one leaves by
itself. -/
theorem Resumable.view_run (h : Resumable Inv (steady ++ [last]))
    (hsteady : ∀ stage ∈ steady, Steady stage)
    (hview : ∀ machine attempt, view (step machine attempt) =
      (through attempt ((steady ++ [last]).take (reach machine attempt)) (view machine)).2)
    {start : Machine} (hinv : Inv (view start)) {attempts : List Attempt}
    (hdone : ∃ once, Uninterrupted step reach (steady ++ [last]) start attempts once) :
    ∃ once, Uninterrupted step reach (steady ++ [last]) start attempts once ∧
      view (run step start attempts) = (through once (steady ++ [last]) (view start)).2 := by
  obtain ⟨once, honce⟩ := hdone
  rcases h.progress hsteady hview hinv attempts with ⟨hnone, -⟩ | hwhole
  · exact absurd honce (hnone once)
  · exact hwhole

end Machine

end AlphaPing.Library.Retries
