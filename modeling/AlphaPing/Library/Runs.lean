import Mathlib.Data.List.Basic

/-!
# Runs of a deterministic machine

A machine is a total step function; an action that is not enabled leaves the state as it is.
Nondeterminism (scheduling, a lost message, a crash) is the choice of the next action, so a
statement about every run is a statement about every list of actions.

The rules of this module are the only inductions over runs in the development. They name no
state, no action and no step of any particular program.
-/

namespace AlphaPing.Library.Runs

variable {State Action : Type*} (step : State → Action → State)

/-- The state after performing the actions in order. -/
def run (start : State) (actions : List Action) : State :=
  actions.foldl step start

/-- `P` holds in the first state, in the last one and in every state between. -/
def Visits (P : State → Prop) : State → List Action → Prop
  | start, [] => P start
  | start, action :: rest => P start ∧ Visits P (step start action) rest

/-- Every action satisfies `ok` in the state in which it is performed. -/
def Along (ok : State → Action → Prop) : State → List Action → Prop
  | _, [] => True
  | start, action :: rest => ok start action ∧ Along ok (step start action) rest

/-- A guard that can be evaluated can be evaluated along a run. -/
def decidableAlong (ok : State → Action → Prop) [∀ state action, Decidable (ok state action)] :
    (start : State) → (actions : List Action) → Decidable (Along step ok start actions)
  | _, [] => isTrue trivial
  | start, action :: rest =>
    have := decidableAlong ok (step start action) rest
    inferInstanceAs (Decidable (ok start action ∧ Along step ok (step start action) rest))

instance {ok : State → Action → Prop} [∀ state action, Decidable (ok state action)]
    {start : State} {actions : List Action} : Decidable (Along step ok start actions) :=
  decidableAlong step ok start actions

@[simp] theorem run_nil (start : State) : run step start [] = start := rfl

@[simp] theorem run_cons (start : State) (action : Action) (rest : List Action) :
    run step start (action :: rest) = run step (step start action) rest := rfl

theorem run_append (start : State) (first second : List Action) :
    run step start (first ++ second) = run step (run step start first) second :=
  List.foldl_append

theorem run_concat (start : State) (actions : List Action) (action : Action) :
    run step start (actions ++ [action]) = step (run step start actions) action :=
  run_append step start actions [action]

variable {step}

variable {start : State} {actions : List Action} {P : State → Prop} {Inv : State → Prop}
  {ok : State → Action → Prop}

theorem visits_start (h : Visits step P start actions) : P start := by
  cases actions with
  | nil => exact h
  | cons action rest => exact h.1

theorem visits_run (h : Visits step P start actions) : P (run step start actions) := by
  induction actions generalizing start with
  | nil => exact h
  | cons action rest ih => exact ih h.2

/-- A property of every state visited is a property of the state after every prefix. -/
theorem visits_iff_prefixes :
    Visits step P start actions ↔
      ∀ done rest, actions = done ++ rest → P (run step start done) := by
  induction actions generalizing start with
  | nil =>
    constructor
    · intro h done rest hsplit
      obtain ⟨rfl, -⟩ := List.append_eq_nil_iff.mp hsplit.symm
      exact h
    · intro h
      exact h [] [] rfl
  | cons action later ih =>
    constructor
    · intro h done rest hsplit
      cases done with
      | nil => exact h.1
      | cons head done =>
        obtain ⟨rfl, hlater⟩ := List.cons.inj hsplit
        exact ih.mp h.2 done rest hlater
    · intro h
      refine ⟨h [] _ rfl, ih.mpr fun done rest hsplit ↦ ?_⟩
      exact h (action :: done) rest (by rw [hsplit, List.cons_append])

theorem visits_mono {P Q : State → Prop} (hPQ : ∀ state, P state → Q state)
    (h : Visits step P start actions) : Visits step Q start actions := by
  induction actions generalizing start with
  | nil => exact hPQ _ h
  | cons action rest ih => exact ⟨hPQ _ h.1, ih h.2⟩

theorem visits_and {P Q : State → Prop} (hP : Visits step P start actions)
    (hQ : Visits step Q start actions) :
    Visits step (fun state ↦ P state ∧ Q state) start actions := by
  induction actions generalizing start with
  | nil => exact ⟨hP, hQ⟩
  | cons action rest ih => exact ⟨⟨hP.1, hQ.1⟩, ih hP.2 hQ.2⟩

/-- What holds in each state visited says something about each step. -/
theorem along_of_visits {good : State → Action → Prop}
    (hgood : ∀ state action, P state → good state action) (h : Visits step P start actions) :
    Along step good start actions := by
  induction actions generalizing start with
  | nil => trivial
  | cons action rest ih => exact ⟨hgood start action h.1, ih h.2⟩

theorem along_mono {ok good : State → Action → Prop}
    (hgood : ∀ state action, ok state action → good state action) (h : Along step ok start actions)
    : Along step good start actions := by
  induction actions generalizing start with
  | nil => trivial
  | cons action rest ih => exact ⟨hgood start action h.1, ih h.2⟩

/-! ## Invariants -/

/-- An invariant kept by every step holds after every run. -/
theorem run_invariant (hstep : ∀ state action, Inv state → Inv (step state action))
    (hstart : Inv start) (actions : List Action) :
    Inv (run step start actions) := by
  induction actions generalizing start with
  | nil => exact hstart
  | cons action rest ih => exact ih (hstep start action hstart)

/-- An invariant kept by the guarded steps holds in every state of a guarded run. -/
theorem visits_of_along
    (hstep : ∀ state action, Inv state → ok state action → Inv (step state action))
    (hstart : Inv start) (hok : Along step ok start actions) : Visits step Inv start actions := by
  induction actions generalizing start with
  | nil => exact hstart
  | cons action rest ih => exact ⟨hstart, ih (hstep start action hstart hok.1) hok.2⟩

/-- A guard that does not look at the state is one on every action. -/
theorem along_of_forall {ok : Action → Prop} (h : ∀ action ∈ actions, ok action) :
    Along step (fun _ ↦ ok) start actions := by
  induction actions generalizing start with
  | nil => trivial
  | cons action rest ih =>
    obtain ⟨haction, hrest⟩ := List.forall_mem_cons.mp h
    exact ⟨haction, ih hrest⟩

/-- What an invariant and the guard give in one step, they give along a guarded run. -/
theorem along_of_along {ok good : State → Action → Prop}
    (hstep : ∀ state action, Inv state → ok state action → Inv (step state action))
    (hgood : ∀ state action, Inv state → ok state action → good state action) (hstart : Inv start)
    (hok : Along step ok start actions) : Along step good start actions := by
  induction actions generalizing start with
  | nil => trivial
  | cons action rest ih =>
    exact ⟨hgood start action hstart hok.1, ih (hstep start action hstart hok.1) hok.2⟩

/-- An invariant kept by every step holds in every state of every run. -/
theorem visits_invariant (hstep : ∀ state action, Inv state → Inv (step state action))
    (hstart : Inv start) (actions : List Action) : Visits step Inv start actions := by
  induction actions generalizing start with
  | nil => exact hstart
  | cons action rest ih => exact ⟨hstart, ih (hstep start action hstart)⟩

/-- What an invariant gives in one step, it gives along every run. -/
theorem along_invariant {good : State → Action → Prop}
    (hstep : ∀ state action, Inv state → Inv (step state action))
    (hgood : ∀ state action, Inv state → good state action) (hstart : Inv start)
    (actions : List Action) : Along step good start actions := by
  induction actions generalizing start with
  | nil => trivial
  | cons action rest ih => exact ⟨hgood start action hstart, ih (hstep start action hstart)⟩

theorem run_of_along (hstep : ∀ state action, Inv state → ok state action → Inv (step state action))
    (hstart : Inv start) (hok : Along step ok start actions) : Inv (run step start actions) :=
  visits_run (visits_of_along hstep hstart hok)

/-- When, under an invariant, a step keeps `P` exactly if it satisfies `ok`, the runs that stay
in `P` are exactly the runs all of whose steps satisfy `ok`. -/
theorem visits_iff_along {Inv P : State → Prop}
    (hinv : ∀ state action, Inv state → P state → ok state action → Inv (step state action))
    (hiff : ∀ state action, Inv state → P state → (P (step state action) ↔ ok state action))
    (hstart : Inv start) (hP : P start) (actions : List Action) :
    Visits step P start actions ↔ Along step ok start actions := by
  induction actions generalizing start with
  | nil => exact ⟨fun _ ↦ trivial, fun _ ↦ hP⟩
  | cons action rest ih =>
    constructor
    · rintro ⟨-, hrest⟩
      have hok := (hiff start action hstart hP).mp (visits_start hrest)
      exact ⟨hok, (ih (hinv start action hstart hP hok) (visits_start hrest)).mp hrest⟩
    · rintro ⟨hok, hrest⟩
      have hnext := (hiff start action hstart hP).mpr hok
      exact ⟨hP, (ih (hinv start action hstart hP hok) hnext).mpr hrest⟩

/-! ## Repetition -/

/-- A state with `P` is reached by repeating an action. -/
def Eventually (step : State → Action → State) (action : Action) (P : State → Prop)
    (start : State) : Prop :=
  ∃ count, P (run step start (List.replicate count action))

theorem eventually_of_holds {action : Action} (h : P start) : Eventually step action P start :=
  ⟨0, h⟩

theorem eventually_of_step {action : Action} (h : Eventually step action P (step start action)) :
    Eventually step action P start := by
  obtain ⟨count, hP⟩ := h
  exact ⟨count + 1, hP⟩

end AlphaPing.Library.Runs
