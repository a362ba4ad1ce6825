import Mathlib.Tactic.Common

/-!
# Sequential programs that may fail or be cut off

A program acts on a durable state by operations. An operation can be performed, it can fail, or
the process can be gone before it has ended; in the last two cases the part of it that is done
may be any one that the operation itself allows. What befalls the operations is a list of fates,
so a statement about every list covers every crash point and every fault.

`Ensures` is the weakest precondition of a program, with one postcondition for each way to end.
The module has a rule for each construct of the language and a rule of consequence.
-/

namespace AlphaPing.Library.Programs

universe u v

/-- What befalls one operation; the number says how far it got. -/
inductive Fate where
  | performed
  | failed (progress : ℕ)
  | interrupted (progress : ℕ)

inductive Ending (Value : Type u) where
  | returned (value : Value)
  | raised (message : String)
  | interrupted

def Program (State : Type v) (Value : Type u) :=
  State → List Fate → Ending Value × State × List Fate

/-- The message of an operation that the environment makes fail. -/
def ioError : String := "input/output error"

namespace Program

variable {State : Type v} {Value : Type u}

instance : Monad (Program State) where
  pure value := fun state fates ↦ (.returned value, state, fates)
  bind program next := fun state fates ↦
    match program state fates with
    | (.returned value, state, fates) => next value state fates
    | (.raised message, state, fates) => (.raised message, state, fates)
    | (.interrupted, state, fates) => (.interrupted, state, fates)

theorem bind_apply {Other : Type u} (program : Program State Value)
    (next : Value → Program State Other) (state : State) (fates : List Fate) :
    (program >>= next) state fates =
      match program state fates with
      | (.returned value, state, fates) => next value state fates
      | (.raised message, state, fates) => (.raised message, state, fates)
      | (.interrupted, state, fates) => (.interrupted, state, fates) :=
  rfl

def read : Program State State :=
  fun state fates ↦ (.returned state, state, fates)

/-- A change of memory, which cannot fail. -/
def modify (change : State → State) : Program State Unit :=
  fun state fates ↦ (.returned (), change state, fates)

def raise (message : String) : Program State Value :=
  fun state fates ↦ (.raised message, state, fates)

/-- An operation on the durable state. `progress` gives the states that it can leave behind when
it is not performed to its end. -/
def operation (full : State → Except String Value × State) (progress : ℕ → State → State) :
    Program State Value := fun state fates ↦
  match fates.headD .performed with
  | .performed =>
    match full state with
    | (.ok value, next) => (.returned value, next, fates.tail)
    | (.error message, next) => (.raised message, next, fates.tail)
  | .failed count => (.raised ioError, progress count state, fates.tail)
  | .interrupted count => (.interrupted, progress count state, fates.tail)

/-- The program together with its error, as a value. -/
def attempt (program : Program State Value) : Program State (Except String Value) :=
  fun state fates ↦
    match program state fates with
    | (.returned value, state, fates) => (.returned (.ok value), state, fates)
    | (.raised message, state, fates) => (.returned (.error message), state, fates)
    | (.interrupted, state, fates) => (.interrupted, state, fates)

def ofExcept : Except String Value → Program State Value
  | .ok value => pure value
  | .error message => raise message

end Program

/-- The postcondition that belongs to the way in which a program ended. -/
def Ending.Satisfies {State : Type v} {Value : Type u} (returned : Value → State → Prop)
    (raised : String → State → Prop) (interrupted : State → Prop) (state : State) :
    Ending Value → Prop
  | .returned value => returned value state
  | .raised message => raised message state
  | .interrupted => interrupted state

/-- Whatever befalls its operations, the program ends as the postconditions say. -/
def Ensures {State : Type v} {Value : Type u} (program : Program State Value) (state : State)
    (returned : Value → State → Prop) (raised : String → State → Prop)
    (interrupted : State → Prop) : Prop :=
  ∀ fates, (program state fates).1.Satisfies returned raised interrupted
    (program state fates).2.1

section Rules

variable {State : Type v} {Value Other : Type u} {state : State}
  {returned returned' : Value → State → Prop} {raised raised' : String → State → Prop}
  {interrupted interrupted' : State → Prop} {program : Program State Value}

theorem ensures_pure {value : Value} (h : returned value state) :
    Ensures (pure value : Program State Value) state returned raised interrupted :=
  fun _ ↦ h

theorem ensures_read {returned : State → State → Prop} (h : returned state state) :
    Ensures Program.read state returned raised interrupted :=
  fun _ ↦ h

theorem ensures_modify {change : State → State} {returned : Unit → State → Prop}
    (h : returned () (change state)) :
    Ensures (Program.modify change) state returned raised interrupted :=
  fun _ ↦ h

theorem ensures_raise {message : String} (h : raised message state) :
    Ensures (Program.raise message : Program State Value) state returned raised interrupted :=
  fun _ ↦ h

theorem ensures_mono (h : Ensures program state returned raised interrupted)
    (hreturned : ∀ value next, returned value next → returned' value next)
    (hraised : ∀ message next, raised message next → raised' message next)
    (hinterrupted : ∀ next, interrupted next → interrupted' next) :
    Ensures program state returned' raised' interrupted' := by
  intro fates
  have hend := h fates
  generalize (program state fates).1 = ending at hend ⊢
  cases ending with
  | returned value => exact hreturned _ _ hend
  | raised message => exact hraised _ _ hend
  | interrupted => exact hinterrupted _ hend

/-- Only the result and the state of a program that returns are weakened. -/
theorem ensures_returned (h : Ensures program state returned raised interrupted)
    (hreturned : ∀ value next, returned value next → returned' value next) :
    Ensures program state returned' raised interrupted :=
  ensures_mono h hreturned (fun _ _ ↦ id) fun _ ↦ id

theorem ensures_bind {next : Value → Program State Other}
    {returned : Other → State → Prop}
    (h : Ensures program state (fun value after ↦
      Ensures (next value) after returned raised interrupted) raised interrupted) :
    Ensures (program >>= next) state returned raised interrupted := by
  intro fates
  have hend := h fates
  rw [Program.bind_apply]
  generalize program state fates = outcome at hend ⊢
  obtain ⟨ending, after, left⟩ := outcome
  cases ending with
  | returned value => exact hend left
  | raised message => exact hend
  | interrupted => exact hend

theorem ensures_operation {full : State → Except String Value × State}
    {progress : ℕ → State → State}
    (hfull : (Ending.Satisfies returned raised interrupted (full state).2
      (match (full state).1 with
        | .ok value => .returned value
        | .error message => .raised message)))
    (hfailed : ∀ count, raised ioError (progress count state))
    (hgone : ∀ count, interrupted (progress count state)) :
    Ensures (Program.operation full progress) state returned raised interrupted := by
  intro fates
  unfold Program.operation
  cases fates.headD .performed with
  | performed =>
    dsimp only
    generalize full state = outcome at hfull ⊢
    obtain ⟨result, after⟩ := outcome
    cases result with
    | ok value => exact hfull
    | error message => exact hfull
  | failed count => exact hfailed count
  | interrupted count => exact hgone count

theorem ensures_attempt {returned : Except String Value → State → Prop}
    (h : Ensures program state (fun value ↦ returned (.ok value))
      (fun message ↦ returned (.error message)) interrupted) :
    Ensures program.attempt state returned raised interrupted := by
  intro fates
  have hend := h fates
  unfold Program.attempt
  generalize program state fates = outcome at hend ⊢
  obtain ⟨ending, after, left⟩ := outcome
  cases ending with
  | returned value => exact hend
  | raised message => exact hend
  | interrupted => exact hend

theorem ensures_ofExcept {result : Except String Value}
    (hok : ∀ value, result = .ok value → returned value state)
    (herror : ∀ message, result = .error message → raised message state) :
    Ensures (Program.ofExcept result) state returned raised interrupted := by
  cases result with
  | ok value => exact ensures_pure (hok value rfl)
  | error message => exact ensures_raise (herror message rfl)

theorem ensures_ite {condition : Prop} [Decidable condition] {other : Program State Value}
    (hthen : condition → Ensures program state returned raised interrupted)
    (helse : ¬ condition → Ensures other state returned raised interrupted) :
    Ensures (if condition then program else other) state returned raised interrupted := by
  split
  · next h => exact hthen h
  · next h => exact helse h

end Rules

/-! ## Invariants -/

/-- However the program ends, it leaves the invariant as it found it. -/
def Maintains {State : Type v} {Value : Type u} (invariant : State → Prop)
    (program : Program State Value) : Prop :=
  ∀ state, invariant state →
    Ensures program state (fun _ ↦ invariant) (fun _ ↦ invariant) invariant

section Maintains

variable {State : Type v} {Value Other : Type u} {invariant : State → Prop}
  {program : Program State Value}

theorem maintains_pure (value : Value) : Maintains invariant (pure value : Program State Value) :=
  fun _ h ↦ ensures_pure h

theorem maintains_read : Maintains invariant (Program.read : Program State State) :=
  fun _ h ↦ ensures_read h

theorem maintains_raise (message : String) :
    Maintains invariant (Program.raise message : Program State Value) :=
  fun _ h ↦ ensures_raise h

theorem maintains_ofExcept (result : Except String Value) :
    Maintains invariant (Program.ofExcept result : Program State Value) :=
  fun _ h ↦ ensures_ofExcept (fun _ _ ↦ h) fun _ _ ↦ h

theorem maintains_modify {change : State → State}
    (h : ∀ state, invariant state → invariant (change state)) :
    Maintains invariant (Program.modify change) :=
  fun state hstate ↦ ensures_modify (h state hstate)

theorem maintains_operation {full : State → Except String Value × State}
    {progress : ℕ → State → State} (hfull : ∀ state, invariant state → invariant (full state).2)
    (hprogress : ∀ count state, invariant state → invariant (progress count state)) :
    Maintains invariant (Program.operation full progress) := by
  intro state hstate
  refine ensures_operation ?_ (fun count ↦ hprogress count state hstate)
    fun count ↦ hprogress count state hstate
  cases (full state).1 with
  | ok value => exact hfull state hstate
  | error message => exact hfull state hstate

theorem maintains_bind {next : Value → Program State Other} (h : Maintains invariant program)
    (hnext : ∀ value, Maintains invariant (next value)) : Maintains invariant (program >>= next) :=
  fun state hstate ↦ ensures_bind (ensures_returned (h state hstate) hnext)

theorem maintains_ite {condition : Prop} [Decidable condition] {other : Program State Value}
    (h : Maintains invariant program) (hother : Maintains invariant other) :
    Maintains invariant (if condition then program else other) :=
  fun state hstate ↦ ensures_ite (fun _ ↦ h state hstate) fun _ ↦ hother state hstate

theorem maintains_attempt (h : Maintains invariant program) : Maintains invariant program.attempt :=
  fun state hstate ↦ ensures_attempt (h state hstate)

end Maintains

end AlphaPing.Library.Programs
