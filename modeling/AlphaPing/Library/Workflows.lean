import AlphaPing.Library.Runs

/-!
# Interleaved workflows

A workflow serves one request. It asks the shared store questions, sends batches to it, and ends;
what it does next depends on the answers. A question is answered and a batch performed at once.
Between two steps of a workflow any others may take theirs, the workflow may be lost at the step
it waits for, and a batch may have been performed all the same when its sender is lost.

The module has the rely–guarantee rule for such systems. A batch is sound in a store when
performing it keeps the invariant and stays within the rely. What a workflow has read is still of
use when the batch is performed, if the rely keeps it.
-/

namespace AlphaPing.Library.Workflows

open Runs

inductive Workflow (Store Batch Reply Outcome : Type) : Type 1 where
  | ask {View : Type} (query : Store → View) (next : View → Workflow Store Batch Reply Outcome)
  | send (batch : Batch) (next : Reply → Workflow Store Batch Reply Outcome)
  | ended (outcome : Outcome)
  /-- The step it waited for has failed, after or before its batch was performed. -/
  | lost (performed : Bool)

/-- A request with what is left of its workflow. -/
structure Call (Request Store Batch Reply Outcome : Type) where
  request : Request
  rest : Workflow Store Batch Reply Outcome

structure System (Request Store Batch Reply Outcome : Type) where
  store : Store
  calls : List (Call Request Store Batch Reply Outcome)

inductive Action (Request : Type) where
  | call (request : Request)
  | advance (index : ℕ)
  /-- The step that a call waits for fails; a batch may have been performed. -/
  | fail (index : ℕ) (performed : Bool)

variable {Request Store Batch Reply Outcome : Type}

def start (store : Store) : System Request Store Batch Reply Outcome := ⟨store, []⟩

variable (program : Request → Workflow Store Batch Reply Outcome)
  (perform : Batch → Store → Store × Reply)

/-- The store after one step of a workflow, and what is left of it. -/
def Workflow.proceed (store : Store) :
    Workflow Store Batch Reply Outcome → Store × Workflow Store Batch Reply Outcome
  | .ask query next => (store, next (query store))
  | .send batch next => ((perform batch store).1, next (perform batch store).2)
  | rest => (store, rest)

/-- The same when the step fails. -/
def Workflow.lose (performed : Bool) (store : Store) :
    Workflow Store Batch Reply Outcome → Store × Workflow Store Batch Reply Outcome
  | .ask _ _ => (store, .lost false)
  | .send batch _ => (if performed then (perform batch store).1 else store, .lost performed)
  | rest => (store, rest)

/-- A call has taken a step. -/
def System.update (system : System Request Store Batch Reply Outcome) (index : ℕ)
    (call : Call Request Store Batch Reply Outcome)
    (result : Store × Workflow Store Batch Reply Outcome) :
    System Request Store Batch Reply Outcome where
  store := result.1
  calls := system.calls.set index { call with rest := result.2 }

def step (system : System Request Store Batch Reply Outcome) :
    Action Request → System Request Store Batch Reply Outcome
  | .call request => { system with calls := system.calls ++ [⟨request, program request⟩] }
  | .advance index =>
    match system.calls[index]? with
    | some call => system.update index call (call.rest.proceed perform system.store)
    | none => system
  | .fail index performed =>
    match system.calls[index]? with
    | some call => system.update index call (call.rest.lose perform performed system.store)
    | none => system

/-- The batch that comes next. -/
def Workflow.batch? : Workflow Store Batch Reply Outcome → Option Batch
  | .send batch _ => some batch
  | _ => none

/-- The batch that an action performs. -/
def performs (system : System Request Store Batch Reply Outcome) : Action Request → Option Batch
  | .call _ => none
  | .advance index => (system.calls[index]?).bind fun call ↦ call.rest.batch?
  | .fail index performed =>
    if performed then (system.calls[index]?).bind fun call ↦ call.rest.batch? else none

/-- The batch that an action performs satisfies `ok` in the store that it meets. -/
def Performs (ok : Store → Batch → Prop) (system : System Request Store Batch Reply Outcome)
    (action : Action Request) : Prop :=
  ∀ batch ∈ performs system action, ok system.store batch

instance {ok : Store → Batch → Prop} [∀ store batch, Decidable (ok store batch)]
    (system : System Request Store Batch Reply Outcome) (action : Action Request) :
    Decidable (Performs ok system action) :=
  inferInstanceAs (Decidable (∀ batch ∈ performs system action, ok system.store batch))

/-! ## The store of a step -/

section Store

variable {program perform} {system : System Request Store Batch Reply Outcome}

theorem step_store (program : Request → Workflow Store Batch Reply Outcome)
    (perform : Batch → Store → Store × Reply)
    (system : System Request Store Batch Reply Outcome) (action : Action Request) :
    (step program perform system action).store = system.store ∨
      ∃ batch ∈ performs system action,
        (step program perform system action).store = (perform batch system.store).1 := by
  cases action with
  | call request => exact .inl rfl
  | advance index =>
    dsimp only [step, performs]
    rcases system.calls[index]? with _ | ⟨request, rest⟩
    · exact .inl rfl
    · cases rest with
      | send batch next => exact .inr ⟨batch, rfl, rfl⟩
      | ask query next => exact .inl rfl
      | ended outcome => exact .inl rfl
      | lost performed => exact .inl rfl
  | fail index performed =>
    dsimp only [step, performs]
    rcases system.calls[index]? with _ | ⟨request, rest⟩
    · exact .inl rfl
    · cases rest with
      | send batch next =>
        cases performed with
        | true => exact .inr ⟨batch, rfl, rfl⟩
        | false => exact .inl rfl
      | ask query next => exact .inl rfl
      | ended outcome => exact .inl rfl
      | lost performed => exact .inl rfl

theorem store_of_performs {action : Action Request} {batch : Batch}
    (h : batch ∈ performs system action) :
    (step program perform system action).store = (perform batch system.store).1 := by
  have hnext (index : ℕ)
      (h' : batch ∈ (system.calls[index]?).bind fun call ↦ call.rest.batch?) :
      ∃ request next, system.calls[index]? = some ⟨request, .send batch next⟩ := by
    obtain ⟨⟨request, rest⟩, hcall, hrest⟩ := Option.bind_eq_some_iff.mp h'
    cases rest with
    | send other next =>
      obtain rfl := Option.some.inj hrest
      exact ⟨request, next, hcall⟩
    | ask query next => cases hrest
    | ended outcome => cases hrest
    | lost performed => cases hrest
  cases action with
  | call request => cases h
  | advance index =>
    obtain ⟨request, next, hcall⟩ := hnext index h
    simp only [step, hcall]
    rfl
  | fail index performed =>
    cases performed with
    | false => cases h
    | true =>
      obtain ⟨request, next, hcall⟩ := hnext index h
      simp only [step, hcall]
      rfl

/-- What every batch keeps that is `ok`, a run keeps that performs no other. -/
theorem visits_of_performs {P : Store → Prop} {ok : Store → Batch → Prop}
    (hbatch : ∀ store batch, P store → ok store batch → P (perform batch store).1)
    (hstart : P system.store) {actions : List (Action Request)}
    (hok : Along (step program perform) (Performs ok) system actions) :
    Visits (step program perform) (fun system ↦ P system.store) system actions := by
  have hstep : ∀ (system : System Request Store Batch Reply Outcome) (action : Action Request),
      P system.store → Performs ok system action →
        P (step program perform system action).store := by
    intro system action hP hok
    rcases step_store program perform system action with hsame | ⟨batch, hmem, hperform⟩
    · rwa [hsame]
    · rw [hperform]
      exact hbatch system.store batch hP (hok batch hmem)
  exact visits_of_along hstep hstart hok

end Store

/-! ## What a workflow is made of -/

section Parts

/-- Every batch that the workflow may send, with what follows it, satisfies `P`. -/
def Workflow.Sends (P : Batch → (Reply → Workflow Store Batch Reply Outcome) → Prop) :
    Workflow Store Batch Reply Outcome → Prop
  | .ask query next => ∀ store, (next (query store)).Sends P
  | .send batch next => P batch next ∧ ∀ reply, (next reply).Sends P
  | .ended _ => True
  | .lost _ => True

/-- The workflow has ended well. -/
def Workflow.endsWith (good : Outcome → Bool) : Workflow Store Batch Reply Outcome → Bool
  | .ended outcome => good outcome
  | _ => false

/-- A good end follows a batch only, which has added one to what is paid. -/
def Workflow.Pays (good : Outcome → Bool) (paid : Store → ℕ) :
    Workflow Store Batch Reply Outcome → Prop
  | .ask query next => ∀ store, (next (query store)).endsWith good = false ∧
      (next (query store)).Pays good paid
  | .send batch next => ∀ store, (next (perform batch store).2).Pays good paid ∧
      ((next (perform batch store).2).endsWith good = true →
        paid store + 1 ≤ paid (perform batch store).1)
  | .ended _ => True
  | .lost _ => True

/-- As long as its batches meet stores in which they are `ok`, the workflow ends well. -/
def Workflow.Ends (ok : Store → Batch → Prop) (good : Outcome → Prop) :
    Workflow Store Batch Reply Outcome → Prop
  | .ask query next => ∀ store, (next (query store)).Ends ok good
  | .send batch next => ∀ store, ok store batch → (next (perform batch store).2).Ends ok good
  | .ended outcome => good outcome
  | .lost _ => True

/-- What one step makes of a workflow and the store. -/
inductive Workflow.Moves (store : Store) :
    Workflow Store Batch Reply Outcome → Store × Workflow Store Batch Reply Outcome → Prop where
  | answered {View : Type} (query : Store → View) (next) :
      Moves store (.ask query next) (store, next (query store))
  | unanswered {View : Type} (query : Store → View) (next) :
      Moves store (.ask query next) (store, .lost false)
  | replied (batch next) :
      Moves store (.send batch next) ((perform batch store).1, next (perform batch store).2)
  | unperformed (batch next) : Moves store (.send batch next) (store, .lost false)
  | unheard (batch next) : Moves store (.send batch next) ((perform batch store).1, .lost true)
  | ended (outcome) : Moves store (.ended outcome) (store, .ended outcome)
  | lost (performed) : Moves store (.lost performed) (store, .lost performed)

variable {perform} {program}

theorem Workflow.moves_proceed (store : Store) (rest : Workflow Store Batch Reply Outcome) :
    rest.Moves perform store (rest.proceed perform store) := by
  cases rest with
  | ask query next => exact .answered query next
  | send batch next => exact .replied batch next
  | ended outcome => exact .ended outcome
  | lost performed => exact .lost performed

theorem Workflow.moves_lose (store : Store) (performed : Bool)
    (rest : Workflow Store Batch Reply Outcome) :
    rest.Moves perform store (rest.lose perform performed store) := by
  cases rest with
  | ask query next => exact .unanswered query next
  | send batch next =>
    cases performed with
    | false => exact .unperformed batch next
    | true => exact .unheard batch next
  | ended outcome => exact .ended outcome
  | lost performed => exact .lost performed

/-- A request arrives, or a call takes a step, or nothing happens. -/
theorem step_cases (program : Request → Workflow Store Batch Reply Outcome)
    (perform : Batch → Store → Store × Reply)
    (system : System Request Store Batch Reply Outcome) (action : Action Request) :
    (∃ request, step program perform system action =
      { system with calls := system.calls ++ [⟨request, program request⟩] }) ∨
    step program perform system action = system ∨
    ∃ index call result, system.calls[index]? = some call ∧
      call.rest.Moves perform system.store result ∧
      step program perform system action = system.update index call result := by
  cases action with
  | call request => exact .inl ⟨request, rfl⟩
  | advance index =>
    cases hindex : system.calls[index]? with
    | none => exact .inr (.inl (by simp [step, hindex]))
    | some call =>
      exact .inr (.inr ⟨index, call, _, hindex, call.rest.moves_proceed system.store,
        by simp [step, hindex]⟩)
  | fail index performed =>
    cases hindex : system.calls[index]? with
    | none => exact .inr (.inl (by simp [step, hindex]))
    | some call =>
      exact .inr (.inr ⟨index, call, _, hindex, call.rest.moves_lose system.store performed,
        by simp [step, hindex]⟩)

variable {P : Request → Workflow Store Batch Reply Outcome → Prop}
  {system : System Request Store Batch Reply Outcome}

/-- What the programs satisfy, and every step keeps, holds of each call. -/
theorem forall_calls_step (hprogram : ∀ request, P request (program request))
    (hmove : ∀ request store rest result, P request rest → rest.Moves perform store result →
      P request result.2) (system : System Request Store Batch Reply Outcome)
    (action : Action Request) (hcalls : ∀ call ∈ system.calls, P call.request call.rest) :
    ∀ call ∈ (step program perform system action).calls, P call.request call.rest := by
  rcases step_cases program perform system action with
    ⟨request, hstep⟩ | hstep | ⟨index, call, result, hindex, hmoves, hstep⟩
  all_goals rw [hstep]
  · intro call hcall
    rcases List.mem_append.mp hcall with hold | hnew
    · exact hcalls call hold
    · rw [List.mem_singleton.mp hnew]
      exact hprogram request
  · exact hcalls
  · intro other hother
    rcases List.mem_or_eq_of_mem_set hother with hold | rfl
    · exact hcalls other hold
    · exact hmove call.request system.store call.rest result
        (hcalls call (List.mem_of_getElem? hindex)) hmoves

/-- What every request's workflow satisfies, and every step keeps, holds along a run. -/
theorem visits_calls (hprogram : ∀ request, P request (program request))
    (hmove : ∀ request store rest result, P request rest → rest.Moves perform store result →
      P request result.2) (store : Store) (actions : List (Action Request)) :
    Visits (step program perform)
      (fun system ↦ ∀ call ∈ system.calls, P call.request call.rest) (start store) actions :=
  visits_invariant (forall_calls_step hprogram hmove)
    (fun _ hcall ↦ absurd hcall List.not_mem_nil) actions

variable {rest : Workflow Store Batch Reply Outcome}
  {result : Store × Workflow Store Batch Reply Outcome} {store : Store}

theorem Workflow.Sends.moves {P : Batch → (Reply → Workflow Store Batch Reply Outcome) → Prop}
    (h : rest.Sends P) (hmoves : rest.Moves perform store result) : result.2.Sends P := by
  cases hmoves with
  | answered query next => exact h store
  | replied batch next => exact h.2 _
  | unanswered query next => trivial
  | unperformed batch next => trivial
  | unheard batch next => trivial
  | ended outcome => trivial
  | lost performed => trivial

theorem Workflow.Sends.mono {P Q : Batch → (Reply → Workflow Store Batch Reply Outcome) → Prop}
    (h : rest.Sends P) (hPQ : ∀ batch next, P batch next → Q batch next) : rest.Sends Q := by
  induction rest with
  | ask query next ih => exact fun store ↦ ih _ (h store)
  | send batch next ih => exact ⟨hPQ batch next h.1, fun reply ↦ ih reply (h.2 reply)⟩
  | ended outcome => trivial
  | lost performed => trivial

theorem exists_send_of_performs {action : Action Request} {batch : Batch}
    (hbatch : batch ∈ performs system action) :
    ∃ call ∈ system.calls, ∃ next, call.rest = .send batch next := by
  have hnext (index : ℕ) (h : batch ∈ (system.calls[index]?).bind fun call ↦ call.rest.batch?) :
      ∃ call ∈ system.calls, ∃ next, call.rest = .send batch next := by
    obtain ⟨⟨request, rest⟩, hcall, hrest⟩ := Option.bind_eq_some_iff.mp h
    refine ⟨_, List.mem_of_getElem? hcall, ?_⟩
    cases rest with
    | send other next => exact ⟨next, by rw [Option.some.inj hrest]⟩
    | ask query next => cases hrest
    | ended outcome => cases hrest
    | lost performed => cases hrest
  cases action with
  | call request => cases hbatch
  | advance index => exact hnext index hbatch
  | fail index performed =>
    cases performed with
    | false => cases hbatch
    | true => exact hnext index hbatch

/-- A batch that an action performs is one that its request may send. -/
theorem Workflow.Sends.performs {P : Batch → Prop}
    (hcalls : ∀ call ∈ system.calls, call.rest.Sends fun batch _ ↦ P batch)
    {action : Action Request} {batch : Batch} (hbatch : batch ∈ performs system action) :
    P batch := by
  obtain ⟨call, hcall, next, hrest⟩ := exists_send_of_performs hbatch
  have hsends := hcalls call hcall
  rw [hrest] at hsends
  exact hsends.1

/-- What every batch keeps that a request may send and that is `ok`, a run keeps whose batches
are `ok`. -/
theorem visits_of_sends {P : Store → Prop} {sent : Batch → Prop} {ok : Store → Batch → Prop}
    (hprogram : ∀ request, (program request).Sends fun batch _ ↦ sent batch)
    (hbatch : ∀ store batch, P store → sent batch → ok store batch → P (perform batch store).1)
    (hstart : P store) {actions : List (Action Request)}
    (hok : Along (step program perform) (Performs ok) (start store) actions) :
    Visits (step program perform) (fun system ↦ P system.store) (start store) actions := by
  have hstep : ∀ (system : System Request Store Batch Reply Outcome) (action : Action Request),
      (P system.store ∧ ∀ call ∈ system.calls, call.rest.Sends fun batch _ ↦ sent batch) →
      Performs ok system action → (P (step program perform system action).store ∧
        ∀ call ∈ (step program perform system action).calls,
          call.rest.Sends fun batch _ ↦ sent batch) := by
    rintro system action ⟨hP, hcalls⟩ hok
    constructor
    · rcases step_store program perform system action with hsame | ⟨batch, hmem, hperform⟩
      · rwa [hsame]
      · rw [hperform]
        exact hbatch system.store batch hP (Workflow.Sends.performs hcalls hmem) (hok batch hmem)
    · exact forall_calls_step
        (P := fun _ rest ↦ rest.Sends fun batch _ ↦ sent batch) hprogram
        (fun _ _ _ _ h hmoves ↦ h.moves hmoves) system action hcalls
  exact visits_mono (fun _ h ↦ h.1)
    (visits_of_along hstep ⟨hstart, fun _ hcall ↦ absurd hcall List.not_mem_nil⟩ hok)

/-! ### Ends -/

/-- The requests that arrive are quiet, and the batches performed are `ok`. -/
def Grants (quiet : Request → Prop) (ok : Store → Batch → Prop)
    (system : System Request Store Batch Reply Outcome) (action : Action Request) : Prop :=
  (match action with
    | .call request => quiet request
    | _ => True) ∧ Performs ok system action

instance {quiet : Request → Prop} [∀ request, Decidable (quiet request)]
    {ok : Store → Batch → Prop} [∀ store batch, Decidable (ok store batch)]
    (system : System Request Store Batch Reply Outcome) :
    (action : Action Request) → Decidable (Grants quiet ok system action)
  | .call request => inferInstanceAs (Decidable (quiet request ∧ Performs ok system _))
  | .advance _ => inferInstanceAs (Decidable (True ∧ Performs ok system _))
  | .fail _ _ => inferInstanceAs (Decidable (True ∧ Performs ok system _))

theorem visits_ends {quiet : Request → Prop} {ok : Store → Batch → Prop}
    {good : Request → Outcome → Prop}
    (hprogram : ∀ request, quiet request → (program request).Ends perform ok (good request))
    {actions : List (Action Request)}
    (hgrants : Along (step program perform) (Grants quiet ok) (start store) actions) :
    Visits (step program perform) (fun system ↦ ∀ call ∈ system.calls, ∀ outcome,
      call.rest = .ended outcome → good call.request outcome) (start store) actions := by
  have hset {system : System Request Store Batch Reply Outcome} {index : ℕ}
      {call : Call Request Store Batch Reply Outcome}
      {result : Store × Workflow Store Batch Reply Outcome}
      (hcalls : ∀ call ∈ system.calls, call.rest.Ends perform ok (good call.request))
      (hresult : result.2.Ends perform ok (good call.request)) :
      ∀ other ∈ (system.update index call result).calls,
        other.rest.Ends perform ok (good other.request) := by
    intro other hother
    rcases List.mem_or_eq_of_mem_set hother with hold | hnew
    · exact hcalls other hold
    · rw [hnew]
      exact hresult
  have hstep : ∀ (system : System Request Store Batch Reply Outcome) (action : Action Request),
      (∀ call ∈ system.calls, call.rest.Ends perform ok (good call.request)) →
      Grants quiet ok system action → ∀ call ∈ (step program perform system action).calls,
        call.rest.Ends perform ok (good call.request) := by
    rintro system action hcalls ⟨hquiet, hok⟩
    cases action with
    | call request =>
      intro call hcall
      rcases List.mem_append.mp hcall with hold | hnew
      · exact hcalls call hold
      · rw [List.mem_singleton.mp hnew]
        exact hprogram request hquiet
    | advance index =>
      dsimp only [step]
      cases hindex : system.calls[index]? with
      | none => exact hcalls
      | some call =>
        refine hset hcalls ?_
        have hcall := hcalls call (List.mem_of_getElem? hindex)
        obtain ⟨request, rest⟩ := call
        cases rest with
        | ask query next => exact hcall system.store
        | send batch next => exact hcall system.store (hok batch (by simp [performs, hindex,
            Workflow.batch?]))
        | ended outcome => exact hcall
        | lost performed => trivial
    | fail index performed =>
      dsimp only [step]
      cases hindex : system.calls[index]? with
      | none => exact hcalls
      | some call =>
        refine hset hcalls ?_
        have hcall := hcalls call (List.mem_of_getElem? hindex)
        obtain ⟨request, rest⟩ := call
        cases rest with
        | ask query next => trivial
        | send batch next => trivial
        | ended outcome => exact hcall
        | lost performed => trivial
  refine visits_mono (fun system hcalls call hcall outcome hended ↦ ?_)
    (visits_of_along hstep (fun _ hcall ↦ absurd hcall List.not_mem_nil) hgrants)
  have hends := hcalls call hcall
  rwa [hended] at hends

theorem Workflow.Pays.moves {good : Outcome → Bool} {paid : Store → ℕ}
    (h : rest.Pays perform good paid) (hmoves : rest.Moves perform store result) :
    result.2.Pays perform good paid := by
  cases hmoves with
  | answered query next => exact (h store).2
  | replied batch next => exact (h store).1
  | unanswered query next => trivial
  | unperformed batch next => trivial
  | unheard batch next => trivial
  | ended outcome => trivial
  | lost performed => trivial

theorem Workflow.Pays.paid {good : Outcome → Bool} {paid : Store → ℕ}
    (h : rest.Pays perform good paid)
    (hpaid : ∀ batch store, paid store ≤ paid (perform batch store).1)
    (hmoves : rest.Moves perform store result) :
    paid store + (if result.2.endsWith good && !rest.endsWith good then 1 else 0) ≤
      paid result.1 := by
  cases hmoves with
  | answered query next => simp [(h store).1]
  | replied batch next =>
    dsimp only
    split
    · rename_i hends
      exact (h store).2 (Bool.and_eq_true_iff.mp hends).1
    · exact hpaid batch store
  | unanswered query next => simp [Workflow.endsWith]
  | unperformed batch next => simp [Workflow.endsWith]
  | unheard batch next => simpa [Workflow.endsWith] using hpaid batch store
  | ended outcome => simp
  | lost performed => simp

/-- The number of rows with a property when one of them is replaced. -/
theorem countP_set_le {Row : Type*} {rows : List Row} {index : ℕ} {old : Row}
    (hold : rows[index]? = some old) (new : Row) (good : Row → Bool) :
    (rows.set index new).countP good ≤
      rows.countP good + if good new && !good old then 1 else 0 := by
  obtain ⟨hlength, rfl⟩ := List.getElem?_eq_some_iff.mp hold
  have hpositive : good rows[index] = true → 0 < rows.countP good := fun hgood ↦
    List.countP_pos_iff.mpr ⟨rows[index], List.getElem_mem hlength, hgood⟩
  rw [List.countP_set hlength]
  cases hwas : good rows[index] with
  | false => cases good new <;> simp
  | true =>
    have := hpositive hwas
    cases good new
    · simp
    · show rows.countP good - 1 + 1 ≤ rows.countP good + 0
      omega

variable {good : Request → Outcome → Bool} {paid : Store → ℕ}

/-- There are no more good ends than batches have paid for. -/
def Paid (good : Request → Outcome → Bool) (paid : Store → ℕ)
    (system : System Request Store Batch Reply Outcome) : Prop :=
  (system.calls.countP fun call ↦ call.rest.endsWith (good call.request)) ≤ paid system.store

theorem visits_paid
    (hprogram : ∀ request, (program request).endsWith (good request) = false ∧
      (program request).Pays perform (good request) paid)
    (hpaid : ∀ batch store, paid store ≤ paid (perform batch store).1) (store : Store)
    (actions : List (Action Request)) :
    Visits (step program perform) (Paid good paid) (start store) actions := by
  have hstep : ∀ (system : System Request Store Batch Reply Outcome) (action : Action Request),
      (Paid good paid system ∧
        ∀ call ∈ system.calls, call.rest.Pays perform (good call.request) paid) →
      Paid good paid (step program perform system action) ∧
        ∀ call ∈ (step program perform system action).calls,
          call.rest.Pays perform (good call.request) paid := by
    rintro system action ⟨hcount, hpays⟩
    refine ⟨?_, forall_calls_step (P := fun request rest ↦ rest.Pays perform (good request) paid)
      (fun request ↦ (hprogram request).2) (fun _ _ _ _ h hmoves ↦ h.moves hmoves)
      system action hpays⟩
    rw [Paid] at hcount ⊢
    rcases step_cases program perform system action with
      ⟨request, hstep⟩ | hstep | ⟨index, call, result, hindex, hmoves, hstep⟩
    all_goals rw [hstep]
    · rw [List.countP_append, List.countP_singleton, (hprogram request).1]
      simpa using hcount
    · exact hcount
    · have hcall := (hpays call (List.mem_of_getElem? hindex)).paid hpaid hmoves
      calc
        _ ≤ (system.calls.countP fun call ↦ call.rest.endsWith (good call.request)) +
            _ := countP_set_le hindex _ _
        _ ≤ paid system.store + _ := Nat.add_le_add_right hcount _
        _ ≤ paid result.1 := hcall
  exact visits_mono (fun _ hsystem ↦ hsystem.1)
    (visits_invariant hstep ⟨Nat.zero_le _, fun _ hcall ↦ absurd hcall List.not_mem_nil⟩ actions)

end Parts

/-! ## Rely and guarantee -/

section RelyGuarantee

variable (Inv : Store → Prop) (Rely : Store → Store → Prop) (Good : Store → Batch → Prop)

/-- From this store on, whatever the others do within the rely, each batch that the workflow
sends is good in the store that it meets. -/
def Workflow.Sound : Workflow Store Batch Reply Outcome → Store → Prop
  | .ask query next, store =>
    ∀ later, Rely store later → Inv later → (next (query later)).Sound later
  | .send batch next, store =>
    ∀ later, Rely store later → Inv later →
      Good later batch ∧ (next (perform batch later).2).Sound (perform batch later).1
  | .ended _, _ => True
  | .lost _, _ => True

/-- Batches that are good keep the invariant and the rely; `ok` is what a run has to grant. -/
structure Guarantee (ok : Store → Batch → Prop) : Prop where
  refl : ∀ store, Rely store store
  trans : ∀ {first second third}, Rely first second → Rely second third → Rely first third
  inv : ∀ {store batch}, Inv store → Good store batch → ok store batch →
    Inv (perform batch store).1
  rely : ∀ {store batch}, Inv store → Good store batch → ok store batch →
    Rely store (perform batch store).1

/-- The invariant of a system: every call is sound from the present store on. -/
structure Steady (system : System Request Store Batch Reply Outcome) : Prop where
  inv : Inv system.store
  sound : ∀ call ∈ system.calls, call.rest.Sound perform Inv Rely Good system.store

variable {perform Inv Rely Good} {ok : Store → Batch → Prop}

variable {rest : Workflow Store Batch Reply Outcome} {store : Store}

theorem Workflow.Sound.later (h : Guarantee perform Inv Rely Good ok) {store later : Store}
    (hrest : rest.Sound perform Inv Rely Good store) (hlater : Rely store later) :
    rest.Sound perform Inv Rely Good later := by
  cases rest with
  | ask query next => exact fun last hlast ↦ hrest last (h.trans hlater hlast)
  | send batch next => exact fun last hlast ↦ hrest last (h.trans hlater hlast)
  | ended outcome => trivial
  | lost performed => trivial

/-- Where all that a workflow may send stays good within the rely, the workflow is sound. -/
theorem Workflow.sound_of_sends (h : Guarantee perform Inv Rely Good ok)
    (hok : ∀ store batch, ok store batch)
    (hrest : rest.Sends fun batch _ ↦ ∀ later, Rely store later → Inv later → Good later batch) :
    rest.Sound perform Inv Rely Good store := by
  induction rest generalizing store with
  | ask query next ih =>
    intro later hlater _
    exact ih _ ((hrest later).mono fun _ _ hbatch last hlast ↦ hbatch last (h.trans hlater hlast))
  | send batch next ih =>
    intro later hlater hinv
    have hgood := hrest.1 later hlater hinv
    have hrely := h.trans hlater (h.rely hinv hgood (hok later batch))
    exact ⟨hgood, ih _ ((hrest.2 _).mono fun _ _ hbatch last hlast ↦
      hbatch last (h.trans hrely hlast))⟩
  | ended outcome => trivial
  | lost performed => trivial

/-- Where all that a workflow may send is good in every store, the workflow is sound. -/
theorem Workflow.sound_of_always
    (h : rest.Sends fun batch _ ↦ ∀ later, Inv later → Good later batch) :
    rest.Sound perform Inv Rely Good store := by
  induction rest generalizing store with
  | ask query next ih => exact fun later _ _ ↦ ih _ (h later)
  | send batch next ih => exact fun later _ hinv ↦ ⟨h.1 later hinv, ih _ (h.2 _)⟩
  | ended outcome => trivial
  | lost performed => trivial

/-- A workflow is sound where what it sends stays good within the rely, and sends nothing more. -/
theorem Workflow.sound_of_last (h : Guarantee perform Inv Rely Good ok)
    (hrest : rest.Sends fun batch next ↦
      (∀ later, Rely store later → Inv later → Good later batch) ∧
        ∀ reply, (next reply).Sends fun _ _ ↦ False) :
    rest.Sound perform Inv Rely Good store := by
  induction rest generalizing store with
  | ask query next ih =>
    intro later hlater _
    exact ih _ ((hrest later).mono fun _ _ hbatch ↦
      ⟨fun last hlast ↦ hbatch.1 last (h.trans hlater hlast), hbatch.2⟩)
  | send batch next ih =>
    exact fun later hlater hinv ↦ ⟨hrest.1.1 later hlater hinv,
      sound_of_always ((hrest.1.2 _).mono fun _ _ hnone ↦ hnone.elim)⟩
  | ended outcome => trivial
  | lost performed => trivial

theorem steady_start (hstore : Inv store) :
    Steady perform Inv Rely Good (start store : System Request Store Batch Reply Outcome) :=
  ⟨hstore, fun _ hcall ↦ absurd hcall List.not_mem_nil⟩

variable {system : System Request Store Batch Reply Outcome}

theorem Steady.update (h : Guarantee perform Inv Rely Good ok)
    (hsteady : Steady perform Inv Rely Good system) (index : ℕ)
    (call : Call Request Store Batch Reply Outcome)
    {result : Store × Workflow Store Batch Reply Outcome} (hstore : Inv result.1)
    (hrely : Rely system.store result.1) (hrest : result.2.Sound perform Inv Rely Good result.1) :
    Steady perform Inv Rely Good (system.update index call result) := by
  refine ⟨hstore, fun other hother ↦ ?_⟩
  rcases List.mem_or_eq_of_mem_set hother with hold | rfl
  · exact (hsteady.sound other hold).later h hrely
  · exact hrest

theorem steady_step (h : Guarantee perform Inv Rely Good ok)
    (hprogram : ∀ request store, Inv store → (program request).Sound perform Inv Rely Good store)
    (system : System Request Store Batch Reply Outcome) (action : Action Request)
    (hsteady : Steady perform Inv Rely Good system) (hok : Performs ok system action) :
    Steady perform Inv Rely Good (step program perform system action) := by
  cases action with
  | call request =>
    refine ⟨hsteady.inv, fun call hcall ↦ ?_⟩
    rcases List.mem_append.mp hcall with hold | hnew
    · exact hsteady.sound call hold
    · rw [List.mem_singleton.mp hnew]
      exact hprogram request system.store hsteady.inv
  | advance index =>
    dsimp only [step]
    cases hcall : system.calls[index]? with
    | none => exact hsteady
    | some call =>
      have hsound := hsteady.sound call (List.mem_of_getElem? hcall)
      obtain ⟨request, rest⟩ := call
      cases rest with
      | ask query next =>
        exact hsteady.update h index _ hsteady.inv (h.refl _)
          (hsound system.store (h.refl _) hsteady.inv)
      | send batch next =>
        obtain ⟨hgood, hnext⟩ := hsound system.store (h.refl _) hsteady.inv
        have hbatch : ok system.store batch := hok batch (by simp [performs, hcall,
          Workflow.batch?])
        exact hsteady.update h index _ (h.inv hsteady.inv hgood hbatch)
          (h.rely hsteady.inv hgood hbatch) hnext
      | ended outcome => exact hsteady.update h index _ hsteady.inv (h.refl _) trivial
      | lost performed => exact hsteady.update h index _ hsteady.inv (h.refl _) trivial
  | fail index performed =>
    dsimp only [step]
    cases hcall : system.calls[index]? with
    | none => exact hsteady
    | some call =>
      have hsound := hsteady.sound call (List.mem_of_getElem? hcall)
      obtain ⟨request, rest⟩ := call
      cases rest with
      | ask query next => exact hsteady.update h index _ hsteady.inv (h.refl _) trivial
      | send batch next =>
        cases performed with
        | false => exact hsteady.update h index _ hsteady.inv (h.refl _) trivial
        | true =>
          obtain ⟨hgood, -⟩ := hsound system.store (h.refl _) hsteady.inv
          have hbatch : ok system.store batch := hok batch (by simp [performs, hcall,
            Workflow.batch?])
          exact hsteady.update h index _ (h.inv hsteady.inv hgood hbatch)
            (h.rely hsteady.inv hgood hbatch) trivial
      | ended outcome => exact hsteady.update h index _ hsteady.inv (h.refl _) trivial
      | lost performed => exact hsteady.update h index _ hsteady.inv (h.refl _) trivial

/-- The rely–guarantee rule. -/
theorem visits_inv (h : Guarantee perform Inv Rely Good ok)
    (hprogram : ∀ request store, Inv store → (program request).Sound perform Inv Rely Good store)
    (hstore : Inv store) {actions : List (Action Request)}
    (hok : Along (step program perform) (Performs ok) (start store) actions) :
    Visits (step program perform) (fun system ↦ Inv system.store) (start store) actions :=
  visits_mono (fun _ hsteady ↦ hsteady.inv)
    (visits_of_along (steady_step program h hprogram) (steady_start hstore) hok)

theorem Steady.good (h : Guarantee perform Inv Rely Good ok)
    (hsteady : Steady perform Inv Rely Good system) {action : Action Request} {batch : Batch}
    (hbatch : batch ∈ performs system action) : Good system.store batch := by
  obtain ⟨call, hcall, next, hrest⟩ := exists_send_of_performs hbatch
  have hsound := hsteady.sound call hcall
  rw [hrest] at hsound
  exact (hsound system.store (h.refl _) hsteady.inv).1

/-- In the stores of the invariant, the batches that are performed are good. -/
theorem along_good (h : Guarantee perform Inv Rely Good ok)
    (hprogram : ∀ request store, Inv store → (program request).Sound perform Inv Rely Good store)
    (hstore : Inv store) {actions : List (Action Request)}
    (hok : Along (step program perform) (Performs ok) (start store) actions) :
    Along (step program perform) (Performs fun store batch ↦ Inv store ∧ Good store batch)
      (start store) actions :=
  along_of_along (steady_step program h hprogram)
    (fun _ _ hsteady _ _ hbatch ↦ ⟨hsteady.inv, hsteady.good h hbatch⟩) (steady_start hstore) hok

end RelyGuarantee

/-! ## Calls that fail -/

section Failures

/-- The call whose step an action is. -/
def Action.of : Action Request → Option ℕ
  | .call _ => none
  | .advance index => some index
  | .fail index _ => some index

/-- However the workflow goes on, it does not end badly. -/
def Workflow.Never (bad : Outcome → Bool) : Workflow Store Batch Reply Outcome → Prop
  | .ask query next => ∀ store, (next (query store)).Never bad
  | .send batch next => ∀ store, (next (perform batch store).2).Never bad
  | .ended outcome => bad outcome = false
  | .lost _ => True

/-- In the stores of the invariant, a batch that changes something is not followed by a bad
end. -/
def Workflow.Clean (Inv : Store → Prop) (Same : Store → Store → Prop) (bad : Outcome → Bool) :
    Workflow Store Batch Reply Outcome → Prop
  | .ask query next => ∀ store, Inv store → (next (query store)).Clean Inv Same bad
  | .send batch next => ∀ store, Inv store →
      (Same store (perform batch store).1 ∧ (next (perform batch store).2).Clean Inv Same bad) ∨
        (next (perform batch store).2).Never perform bad
  | .ended _ => True
  | .lost _ => True

variable {perform} {program} {bad : Outcome → Bool}

theorem Workflow.never_of_forall (h : ∀ outcome, bad outcome = false)
    (rest : Workflow Store Batch Reply Outcome) : rest.Never perform bad := by
  induction rest with
  | ask query next ih => exact fun store ↦ ih (query store)
  | send batch next ih => exact fun store ↦ ih (perform batch store).2
  | ended outcome => exact h outcome
  | lost performed => trivial

variable {rest : Workflow Store Batch Reply Outcome}
  {system : System Request Store Batch Reply Outcome}

theorem Workflow.clean_of_never {Inv : Store → Prop} {Same : Store → Store → Prop}
    (h : rest.Never perform bad) :
    rest.Clean perform Inv Same bad := by
  induction rest with
  | ask query next ih => exact fun store _ ↦ ih (query store) (h store)
  | send batch next ih => exact fun store _ ↦ .inr (h store)
  | ended outcome => trivial
  | lost performed => trivial

/-- Where each batch changes nothing or is not followed by a bad end. -/
theorem Workflow.clean_of_sends {Inv : Store → Prop} {Same : Store → Store → Prop}
    (h : rest.Sends fun batch next ↦ ∀ store, Inv store →
      Same store (perform batch store).1 ∨ (next (perform batch store).2).Never perform bad) :
    rest.Clean perform Inv Same bad := by
  induction rest with
  | ask query next ih => exact fun store _ ↦ ih (query store) (h store)
  | send batch next ih =>
    intro store hinv
    rcases h.1 store hinv with hsame | hnever
    · exact .inl ⟨hsame, ih _ (h.2 _)⟩
    · exact .inr hnever
  | ended outcome => trivial
  | lost performed => trivial

theorem Workflow.Clean.mono {Inv : Store → Prop} {Same Same' : Store → Store → Prop}
    (hsame : ∀ store after, Same store after → Same' store after)
    (h : rest.Clean perform Inv Same bad) :
    rest.Clean perform Inv Same' bad := by
  induction rest with
  | ask query next ih => exact fun store hinv ↦ ih (query store) (h store hinv)
  | send batch next ih =>
    intro store hinv
    rcases h store hinv with ⟨hstore, hnext⟩ | hnever
    · exact .inl ⟨hsame _ _ hstore, ih _ hnext⟩
    · exact .inr hnever
  | ended outcome => trivial
  | lost performed => trivial

theorem Workflow.Never.moves {store : Store} {result : Store × Workflow Store Batch Reply Outcome}
    (h : rest.Never perform bad) (hmoves : rest.Moves perform store result) :
    result.2.Never perform bad := by
  cases hmoves with
  | answered query next => exact h store
  | replied batch next => exact h store
  | ended outcome => exact h
  | unanswered query next => trivial
  | unperformed batch next => trivial
  | unheard batch next => trivial
  | lost performed => trivial

variable {index : ℕ}

variable {call : Call Request Store Batch Reply Outcome}

variable (program perform) in
theorem call_step (hcall : system.calls[index]? = some call) (action : Action Request) :
    (action.of ≠ some index ∧ (step program perform system action).calls[index]? = some call) ∨
      ∃ result, call.rest.Moves perform system.store result ∧
        (step program perform system action).calls[index]? =
          some { call with rest := result.2 } ∧
        (step program perform system action).store = result.1 := by
  have hlength : index < system.calls.length := (List.getElem?_eq_some_iff.mp hcall).1
  -- the call takes the step, or another one does
  have hupdate (other : ℕ) (own : Call Request Store Batch Reply Outcome)
      (result : Store × Workflow Store Batch Reply Outcome)
      (hown : system.calls[other]? = some own)
      (hmoves : own.rest.Moves perform system.store result) :
      ((some other : Option ℕ) ≠ some index ∧
          (system.update other own result).calls[index]? = some call) ∨
        ∃ result', call.rest.Moves perform system.store result' ∧
          (system.update other own result).calls[index]? = some { call with rest := result'.2 } ∧
          (system.update other own result).store = result'.1 := by
    by_cases hsame : other = index
    · subst hsame
      obtain rfl := Option.some.inj (hown.symm.trans hcall)
      refine .inr ⟨result, hmoves, ?_, rfl⟩
      simp [System.update, hlength]
    · refine .inl ⟨fun h ↦ hsame (Option.some.inj h), ?_⟩
      simp [System.update, hsame, hcall]
  cases action with
  | call request =>
    refine .inl ⟨nofun, ?_⟩
    simp [step, List.getElem?_append_left hlength, hcall]
  | advance other =>
    dsimp only [step, Action.of]
    cases hown : system.calls[other]? with
    | none =>
      refine .inl ⟨fun hsame ↦ ?_, hcall⟩
      rw [← Option.some.inj hsame, hown] at hcall
      cases hcall
    | some own => exact hupdate other own _ hown (own.rest.moves_proceed system.store)
  | fail other performed =>
    dsimp only [step, Action.of]
    cases hown : system.calls[other]? with
    | none =>
      refine .inl ⟨fun hsame ↦ ?_, hcall⟩
      rw [← Option.some.inj hsame, hown] at hcall
      cases hcall
    | some own => exact hupdate other own _ hown (own.rest.moves_lose system.store performed)

variable (program perform) in
theorem call_new (hcall : system.calls[index]? = none) (action : Action Request) :
    (action.of = some index → (step program perform system action).store = system.store) ∧
      ∀ call, (step program perform system action).calls[index]? = some call →
        call.rest = program call.request := by
  have hlength : system.calls.length ≤ index := List.getElem?_eq_none_iff.mp hcall
  have hupdate (other : ℕ) (own : Call Request Store Batch Reply Outcome)
      (result : Store × Workflow Store Batch Reply Outcome)
      (hown : system.calls[other]? = some own) :
      ((some other : Option ℕ) = some index →
          (system.update other own result).store = system.store) ∧
        ∀ call, (system.update other own result).calls[index]? = some call →
          call.rest = program call.request := by
    constructor
    · intro hsame
      rw [← Option.some.inj hsame, hown] at hcall
      cases hcall
    · intro call hnew
      have hnone : (system.update other own result).calls[index]? = none := by
        rw [List.getElem?_eq_none_iff, System.update, List.length_set]
        exact hlength
      cases hnone.symm.trans hnew
  cases action with
  | call request =>
    refine ⟨nofun, fun call hnew ↦ ?_⟩
    have hmem := List.mem_of_getElem? hnew
    rcases List.mem_append.mp hmem with hold | hlast
    · dsimp only [step] at hnew
      rw [List.getElem?_append_right hlength] at hnew
      have hsingle := List.mem_singleton.mp (List.mem_of_getElem? hnew)
      rw [hsingle]
    · rw [List.mem_singleton.mp hlast]
  | advance other =>
    dsimp only [step, Action.of]
    cases hown : system.calls[other]? with
    | none => exact ⟨fun _ ↦ rfl, fun call hnew ↦ nomatch hcall.symm.trans hnew⟩
    | some own => exact hupdate other own _ hown
  | fail other performed =>
    dsimp only [step, Action.of]
    cases hown : system.calls[other]? with
    | none => exact ⟨fun _ ↦ rfl, fun call hnew ↦ nomatch hcall.symm.trans hnew⟩
    | some own => exact hupdate other own _ hown

theorem never_run (hcall : system.calls[index]? = some call) (h : call.rest.Never perform bad)
    (actions : List (Action Request)) :
    ∃ rest, (run (step program perform) system actions).calls[index]? = some ⟨call.request, rest⟩ ∧
      rest.Never perform bad := by
  induction actions generalizing system call with
  | nil => exact ⟨call.rest, hcall, h⟩
  | cons action actions ih =>
    rcases call_step program perform hcall action with ⟨-, hsame⟩ | ⟨result, hmoves, hnext, -⟩
    · exact ih hsame h
    · obtain ⟨rest, hrest, hnever⟩ := ih hnext (h.moves hmoves)
      exact ⟨rest, hrest, hnever⟩

variable {Inv : Store → Prop} {Same : Request → Store → Store → Prop}
  {bad : Request → Outcome → Bool}

theorem same_of_bad (hrefl : ∀ request store, Same request store store)
    (hprogram : ∀ request, (program request).Clean perform Inv (Same request) (bad request))
    (hcalls : ∀ call, system.calls[index]? = some call →
      call.rest.Clean perform Inv (Same call.request) (bad call.request))
    {actions : List (Action Request)}
    (hinv : Visits (step program perform) (fun system ↦ Inv system.store) system actions)
    {request : Request} {outcome : Outcome}
    (hended : (run (step program perform) system actions).calls[index]? =
      some ⟨request, .ended outcome⟩) (hbad : bad request outcome = true) :
    Along (step program perform) (fun system action ↦ action.of = some index →
      Same request system.store (step program perform system action).store) system actions := by
  induction actions generalizing system with
  | nil => trivial
  | cons action actions ih =>
    cases hcall : system.calls[index]? with
    | none =>
      obtain ⟨hstore, hnew⟩ := call_new program perform hcall action
      refine ⟨fun hof ↦ ?_, ih (fun call hcall ↦ ?_) hinv.2 hended⟩
      · rw [hstore hof]
        exact hrefl request system.store
      · rw [hnew call hcall]
        exact hprogram call.request
    | some call =>
      rcases call_step program perform hcall action with
        ⟨hother, hsame⟩ | ⟨result, hmoves, hnext, hstore⟩
      · refine ⟨fun hof ↦ absurd hof hother, ih (fun other hcall' ↦ ?_) hinv.2 hended⟩
        rw [← Option.some.inj (hsame.symm.trans hcall')]
        exact hcalls call hcall
      · have hsilent : result.2.Never perform fun _ ↦ false :=
          Workflow.never_of_forall (fun _ ↦ rfl) result.2
        obtain ⟨last, hlast, -⟩ := never_run hnext hsilent actions
        obtain ⟨owner, rest⟩ := call
        obtain rfl : owner = request :=
          (Call.mk.inj (Option.some.inj (hlast.symm.trans hended))).1
        -- what may not end badly has not
        have hnever (h : result.2.Never perform (bad owner)) : False := by
          obtain ⟨rest, hrest, hnever⟩ := never_run hnext h actions
          obtain ⟨-, rfl⟩ := Call.mk.inj (Option.some.inj (hrest.symm.trans hended))
          exact Bool.false_ne_true (hnever.symm.trans hbad)
        have hlater (h : result.2.Clean perform Inv (Same owner) (bad owner)) :
            ∀ other, (step program perform system action).calls[index]? = some other →
              other.rest.Clean perform Inv (Same other.request) (bad other.request) := by
          intro other hother
          rw [← Option.some.inj (hnext.symm.trans hother)]
          exact h
        have hclean := hcalls _ hcall
        rw [Along, hstore]
        cases hmoves with
        | answered query next =>
          exact ⟨fun _ ↦ hrefl _ _, ih (hlater (hclean _ hinv.1)) hinv.2 hended⟩
        | replied batch next =>
          rcases hclean system.store hinv.1 with ⟨hsame, hnext⟩ | hgood
          · exact ⟨fun _ ↦ hsame, ih (hlater hnext) hinv.2 hended⟩
          · exact absurd hgood hnever
        | unheard batch next => exact absurd trivial hnever
        | unanswered query next =>
          exact ⟨fun _ ↦ hrefl _ _, ih (hlater trivial) hinv.2 hended⟩
        | unperformed batch next =>
          exact ⟨fun _ ↦ hrefl _ _, ih (hlater trivial) hinv.2 hended⟩
        | ended outcome =>
          exact ⟨fun _ ↦ hrefl _ _, ih (hlater trivial) hinv.2 hended⟩
        | lost performed =>
          exact ⟨fun _ ↦ hrefl _ _, ih (hlater trivial) hinv.2 hended⟩

end Failures

/-! ## Requests served alone -/

section Alone

/-- So many steps of a workflow, without any other between them. -/
def Workflow.alone (store : Store) (rest : Workflow Store Batch Reply Outcome) :
    ℕ → Store × Workflow Store Batch Reply Outcome
  | 0 => (store, rest)
  | steps + 1 =>
    (rest.proceed perform store).2.alone (rest.proceed perform store).1 steps

variable {program perform}

theorem run_advances (request : Request) (store : Store)
    (calls : List (Call Request Store Batch Reply Outcome))
    (rest : Workflow Store Batch Reply Outcome) (steps : ℕ) :
    run (step program perform) ⟨store, calls ++ [⟨request, rest⟩]⟩
        (List.replicate steps (.advance calls.length)) =
      ⟨(rest.alone perform store steps).1,
        calls ++ [⟨request, (rest.alone perform store steps).2⟩]⟩ := by
  induction steps generalizing store rest with
  | zero => rfl
  | succ steps ih =>
    rw [List.replicate_succ, run_cons, Workflow.alone, ← ih]
    simp [step, System.update]

theorem run_call_advances (request : Request) (store : Store)
    (calls : List (Call Request Store Batch Reply Outcome)) (steps : ℕ) :
    run (step program perform) ⟨store, calls⟩
        (.call request :: List.replicate steps (.advance calls.length)) =
      ⟨((program request).alone perform store steps).1,
        calls ++ [⟨request, ((program request).alone perform store steps).2⟩]⟩ :=
  run_advances request store calls (program request) steps

/-- Requests one after the other, each with the number of its steps. -/
def inTurn : ℕ → List (Request × ℕ) → List (Action Request)
  | _, [] => []
  | index, (request, steps) :: later =>
    .call request :: List.replicate steps (.advance index) ++ inTurn (index + 1) later

theorem store_inTurn (store : Store) (calls : List (Call Request Store Batch Reply Outcome))
    (requests : List (Request × ℕ)) :
    (run (step program perform) ⟨store, calls⟩ (inTurn calls.length requests)).store =
      requests.foldl (fun store request ↦
        ((program request.1).alone perform store request.2).1) store := by
  induction requests generalizing store calls with
  | nil => rfl
  | cons request later ih =>
    rw [inTurn, run_append, run_call_advances, List.foldl_cons]
    have hlater := ih ((program request.1).alone perform store request.2).1
      (calls ++ [⟨request.1, ((program request.1).alone perform store request.2).2⟩])
    rwa [List.length_append, List.length_singleton] at hlater

end Alone

end AlphaPing.Library.Workflows
