import AlphaPing.Library.Runs
import Mathlib.Data.List.Perm.Basic

/-!
# Interleaved transactions

A transaction reads a shared store by queries, each of which decides what comes next, and ends
with at most one atomic change. Calls of transactions are interleaved at every query and change.

Nothing holds the store between a read and the change that depends on it. A call is current in a
store when all its queries would be answered as they were; when every change is made by a current
call, the store is the one of the serial execution in the order of the changes.
-/

namespace AlphaPing.Library.Transactions

open Runs

universe u v w

inductive Transaction (Store : Type u) : Type (u + 1) where
  | read {View : Type u} [DecidableEq View] (query : Store → View)
      (next : View → Transaction Store)
  | commit (change : Store → Store)
  | done

variable {Store : Type u} {Request : Type v}

/-- The transaction by itself. -/
def Transaction.alone : Transaction Store → Store → Store
  | read query next, store => (next (query store)).alone store
  | commit change, store => change store
  | done, store => store

/-- Whatever is read, one change is made in the end. -/
inductive Transaction.Leads (change : Store → Store) : Transaction Store → Prop
  | read {View : Type u} [DecidableEq View] (query : Store → View)
    (next : View → Transaction Store) (h : ∀ view, Leads change (next view)) :
    Leads change (.read query next)
  | commit : Leads change (.commit change)

/-- Whatever is read, a change that is made is one of `Change`. -/
inductive Transaction.Makes (Change : (Store → Store) → Prop) : Transaction Store → Prop
  | read {View : Type u} [DecidableEq View] (query : Store → View)
    (next : View → Transaction Store) (h : ∀ view, Makes Change (next view)) :
    Makes Change (.read query next)
  | commit (change : Store → Store) (h : Change change) : Makes Change (.commit change)
  | done : Makes Change .done

structure Call (Store : Type u) (Request : Type v) where
  request : Request
  rest : Transaction Store
  /-- For each query made, whether a store answers it as it was answered. -/
  answers : List (Store → Bool)

structure System (Store : Type u) (Request : Type v) where
  store : Store
  calls : List (Call Store Request)
  /-- The requests whose changes were made, in their order. -/
  committed : List Request

inductive Action (Request : Type v) where
  | call (request : Request)
  | advance (index : ℕ)

variable (program : Request → Transaction Store)

/-- One query or the change of a call. -/
def advance (system : System Store Request) (index : ℕ) (call : Call Store Request) :
    System Store Request :=
  match call.rest with
  | @Transaction.read _ _ _ query next =>
    let answer := query system.store
    { system with
      calls := system.calls.set index { call with
        rest := next answer
        answers := (fun store ↦ decide (query store = answer)) :: call.answers } }
  | .commit change =>
    { store := change system.store
      calls := system.calls.set index { call with rest := .done }
      committed := system.committed ++ [call.request] }
  | .done => system

def step (system : System Store Request) : Action Request → System Store Request
  | .call request => { system with calls := system.calls ++ [⟨request, program request, []⟩] }
  | .advance index =>
    match system.calls[index]? with
    | none => system
    | some call => advance system index call

def start (store : Store) : System Store Request := ⟨store, [], []⟩

/-- The requests one after the other. -/
def serial (store : Store) (requests : List Request) : Store :=
  requests.foldl (fun store request ↦ (program request).alone store) store

theorem serial_concat (store : Store) (requests : List Request) (request : Request) :
    serial program store (requests ++ [request]) =
      (program request).alone (serial program store requests) := by
  simp [serial]

/-- Every query of a call would be answered as it was. -/
def Call.current (store : Store) (call : Call Store Request) : Bool :=
  call.answers.all fun answered ↦ answered store

/-- The change comes next. -/
def Transaction.commits : Transaction Store → Bool
  | commit _ => true
  | _ => false

def Transaction.isDone : Transaction Store → Bool
  | done => true
  | _ => false

/-- A change is made by a call that is current. -/
def Fresh (system : System Store Request) : Action Request → Prop
  | .call _ => True
  | .advance index => ∀ call ∈ system.calls[index]?, call.rest.commits = true →
    call.current system.store = true

instance (system : System Store Request) :
    (action : Action Request) → Decidable (Fresh system action)
  | .call _ => isTrue trivial
  | .advance index => inferInstanceAs (Decidable (∀ call ∈ system.calls[index]?,
      call.rest.commits = true → call.current system.store = true))

/-- What is observed of the store is as after some serial execution of the requests that have
made their changes. -/
def Serializable {Observation : Type w} (observe : Store → Observation) (initial : Store)
    (system : System Store Request) : Prop :=
  ∃ order, order.Perm system.committed ∧
    observe (serial program initial order) = observe system.store

variable {program}

/-- A current call does with its rest what its transaction does by itself. -/
structure Sound (program : Request → Transaction Store) (initial : Store)
    (system : System Store Request) : Prop where
  store : system.store = serial program initial system.committed
  calls : ∀ call ∈ system.calls, call.rest.isDone = false → ∀ store, call.current store = true →
    (program call.request).alone store = call.rest.alone store

theorem sound_start (initial : Store) : Sound program initial (start initial) where
  store := rfl
  calls _ h := absurd h List.not_mem_nil

variable {system : System Store Request} {initial : Store}
  {Change : Request → (Store → Store) → Prop}

/-- An answer makes the call current in the stores that give the same one. -/
theorem sound_advance (h : Sound program initial system) {index : ℕ} {call : Call Store Request}
    (hcall : system.calls[index]? = some call)
    (hfresh : call.rest.commits = true → call.current system.store = true) :
    Sound program initial (advance system index call) := by
  have hsound := h.calls call (List.mem_of_getElem? hcall)
  obtain ⟨request, rest, answers⟩ := call
  cases rest with
  | read query next =>
    refine ⟨h.store, fun other hother hlive store hcurrent ↦ ?_⟩
    rcases List.mem_or_eq_of_mem_set hother with hold | rfl
    · exact h.calls other hold hlive store hcurrent
    · obtain ⟨hanswer, hbefore⟩ := Bool.and_eq_true_iff.mp hcurrent
      rw [hsound rfl store hbefore, Transaction.alone, of_decide_eq_true hanswer]
  | commit change =>
    refine ⟨?_, fun other hother hlive store hcurrent ↦ ?_⟩
    · have halone := hsound rfl system.store (hfresh rfl)
      have hserial : serial program initial (system.committed ++ [request]) =
          (program request).alone system.store := by
        rw [serial_concat, h.store]
      exact (hserial.trans halone).symm
    · rcases List.mem_or_eq_of_mem_set hother with hold | rfl
      · exact h.calls other hold hlive store hcurrent
      · cases hlive
  | done => exact h

theorem sound_step (system : System Store Request) (action : Action Request)
    (h : Sound program initial system) (hfresh : Fresh system action) :
    Sound program initial (step program system action) := by
  cases action with
  | call request =>
    refine ⟨h.store, fun call hcall hlive store hcurrent ↦ ?_⟩
    rcases List.mem_append.mp hcall with hold | hnew
    · exact h.calls call hold hlive store hcurrent
    · rw [List.mem_singleton.mp hnew]
  | advance index =>
    simp only [step]
    split
    · exact h
    · next call hcall => exact sound_advance h hcall (hfresh call hcall)

theorem perm_pair {order : List Request} {first second : Request}
    (h : order.Perm [first, second]) : order = [first, second] ∨ order = [second, first] := by
  obtain ⟨head, last, rfl⟩ := List.length_eq_two.mp h.length_eq
  have hmem : head ∈ [first, second] := h.subset List.mem_cons_self
  rcases List.mem_cons.mp hmem with rfl | hsecond
  · rw [List.singleton_perm_singleton.mp ((List.perm_cons head).mp h)]
    exact .inl rfl
  · obtain rfl := List.mem_singleton.mp hsecond
    have hswap := h.trans (List.Perm.swap head first [])
    rw [List.singleton_perm_singleton.mp ((List.perm_cons head).mp hswap)]
    exact .inr rfl

theorem not_serializable_pair {Observation : Type w} {observe : Store → Observation}
    (first second : Request) (hcommitted : system.committed = [first, second])
    (hfirst : observe (serial program initial [first, second]) ≠ observe system.store)
    (hsecond : observe (serial program initial [second, first]) ≠ observe system.store) :
    ¬ Serializable program observe initial system := by
  rintro ⟨order, hperm, hobserve⟩
  rcases perm_pair (hcommitted ▸ hperm) with rfl | rfl
  · exact hfirst hobserve
  · exact hsecond hobserve

/-- When every change is made by a current call, the store is the one of the serial execution in
the order of the changes. -/
theorem visits_serial_of_fresh (initial : Store) {actions : List (Action Request)}
    (hfresh : Along (step program) Fresh (start initial) actions) :
    Visits (step program) (fun system ↦ system.store = serial program initial system.committed)
      (start initial) actions :=
  visits_mono (fun _ h ↦ h.store) (visits_of_along sound_step (sound_start initial) hfresh)

theorem serializable_of_eq {Observation : Type w} {observe : Store → Observation}
    (h : system.store = serial program initial system.committed) :
    Serializable program observe initial system :=
  ⟨system.committed, List.Perm.refl _, congrArg observe h.symm⟩

/-! ### What a step does to the store -/

/-- An action changes the store by a transition of the request that it commits, or not at all. -/
def Commits (program : Request → Transaction Store)
    (Transition : Request → Store → Store → Prop) (system : System Store Request)
    (action : Action Request) : Prop :=
  ((step program system action).store = system.store ∧
    (step program system action).committed = system.committed) ∨
  ∃ request, (step program system action).committed = system.committed ++ [request] ∧
    Transition request system.store (step program system action).store

/-- The calls have made changes of their requests, and will. -/
def Making (Change : Request → (Store → Store) → Prop) (system : System Store Request) : Prop :=
  ∀ call ∈ system.calls, call.rest.Makes (Change call.request)

theorem making_set (h : Making Change system) {index : ℕ} {call other : Call Store Request}
    (hcall : call.rest.Makes (Change call.request)) (hother : other ∈ system.calls.set index call) :
    other.rest.Makes (Change other.request) := by
  rcases List.mem_or_eq_of_mem_set hother with hold | rfl
  · exact h other hold
  · exact hcall

theorem making_advance (system : System Store Request) (index : ℕ) (h : Making Change system) :
    Making Change (step program system (.advance index)) := by
  simp only [step]
  split
  · exact h
  · next call hcall =>
    have hmakes := h call (List.mem_of_getElem? hcall)
    obtain ⟨request, rest, answers⟩ := call
    cases hmakes with
    | read query next hnext => exact fun _ ↦ making_set h (hnext _)
    | commit change hchange => exact fun _ ↦ making_set h .done
    | done => exact h

theorem making_call {request : Request} (hprogram : (program request).Makes (Change request))
    (h : Making Change system) : Making Change (step program system (.call request)) := by
  intro call hcall
  rcases List.mem_append.mp hcall with hold | hnew
  · exact h call hold
  · rw [List.mem_singleton.mp hnew]
    exact hprogram

theorem making_step (hprogram : ∀ request, (program request).Makes (Change request))
    (system : System Store Request) (action : Action Request) (h : Making Change system) :
    Making Change (step program system action) := by
  cases action with
  | call request => exact making_call (hprogram request) h
  | advance index => exact making_advance system index h

variable {Transition : Request → Store → Store → Prop}

theorem commits_step
    (h : Making (fun request change ↦ ∀ store, Transition request store (change store)) system)
    (action : Action Request) : Commits program Transition system action := by
  cases action with
  | call request => exact .inl ⟨rfl, rfl⟩
  | advance index =>
    cases hcall : system.calls[index]? with
    | none =>
      have hstep : step program system (.advance index) = system := by simp only [step, hcall]
      rw [Commits, hstep]
      exact .inl ⟨rfl, rfl⟩
    | some call =>
      have hstep : step program system (.advance index) = advance system index call := by
        simp only [step, hcall]
      have hmakes := h call (List.mem_of_getElem? hcall)
      rw [Commits, hstep]
      obtain ⟨request, rest, answers⟩ := call
      cases hmakes with
      | read query next hnext => exact .inl ⟨rfl, rfl⟩
      | commit change hchange => exact .inr ⟨request, rfl, hchange system.store⟩
      | done => exact .inl ⟨rfl, rfl⟩

/-- A transition that every change of a transaction makes is the one of every action that
commits its request, however the calls are interleaved. -/
theorem along_commits (hprogram : ∀ request, (program request).Makes fun change ↦
      ∀ store, Transition request store (change store)) (initial : Store)
    (actions : List (Action Request)) :
    Along (step program) (Commits program Transition) (start initial) actions := by
  have hstart : Making (fun request change ↦ ∀ store, Transition request store (change store))
      (start initial : System Store Request) := fun call h ↦ absurd h List.not_mem_nil
  exact along_invariant (making_step hprogram) (fun _ action h ↦ commits_step h action) hstart
    actions

end AlphaPing.Library.Transactions
