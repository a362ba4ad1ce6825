import AlphaPing.Library.Workflows

/-!
# What a call has sent when it ends

An observer notes the batches that each call has sent, with the stores that they met. A verdict
says whether the way in which a call has ended fits what it has sent. The module has the rule
that takes verdicts from workflows to runs: a workflow accounts for its end when it reaches a
fitting one, whatever the stores are that its steps meet, as long as its batches are answered
truly; and an answer that is not true ends it in a way that does not fit.
-/

namespace AlphaPing.Library.Verdicts

open Runs Workflows

/-- A batch with the store that it met. -/
structure Sent (Store Batch : Type) where
  batch : Batch
  store : Store

/-- A system, and what each call has sent. -/
structure Observed (Request Store Batch Reply Outcome : Type) where
  system : System Request Store Batch Reply Outcome
  /-- The last batch is the first. -/
  sent : ℕ → List (Sent Store Batch)

variable {Request Store Batch Reply Outcome : Type}

def watch (store : Store) : Observed Request Store Batch Reply Outcome := ⟨start store, fun _ ↦ []⟩

/-- The batch whose answer an action brings to its sender. -/
def answers (system : System Request Store Batch Reply Outcome) : Action Request → Option Batch
  | .advance index => (system.calls[index]?).bind fun call ↦ call.rest.batch?
  | _ => none

/-- An answered batch of the store satisfies `ok`. -/
def Answers (ok : Store → Batch → Prop) (observed : Observed Request Store Batch Reply Outcome)
    (action : Action Request) : Prop :=
  ∀ batch ∈ answers observed.system action, ok observed.system.store batch

instance {ok : Store → Batch → Prop} [∀ store batch, Decidable (ok store batch)]
    (observed : Observed Request Store Batch Reply Outcome) (action : Action Request) :
    Decidable (Answers ok observed action) :=
  inferInstanceAs
    (Decidable (∀ batch ∈ answers observed.system action, ok observed.system.store batch))

variable (program : Request → Workflow Store Batch Reply Outcome)
  (perform : Batch → Store → Store × Reply)

/-- A step of the system, noted. -/
def observe (observed : Observed Request Store Batch Reply Outcome) (action : Action Request) :
    Observed Request Store Batch Reply Outcome where
  system := step program perform observed.system action
  sent := match action with
    | .advance index => Function.update observed.sent index
        (((answers observed.system action).map fun batch ↦ ⟨batch, observed.system.store⟩).toList ++
          observed.sent index)
    | _ => observed.sent

/-- Every call that has ended has done so as what it has sent demands. -/
def Fair (verdict : Request → List (Sent Store Batch) → Outcome → Prop)
    (observed : Observed Request Store Batch Reply Outcome) : Prop :=
  ∀ (index : ℕ) (request : Request) (outcome : Outcome),
    observed.system.calls[index]? = some ⟨request, .ended outcome⟩ →
      verdict request (observed.sent index) outcome

variable (Inv : Store → Prop) (given ok : Store → Batch → Prop)

/-- Whatever stores it meets, the workflow ends as what it has sent demands, unless an answer is
not true. -/
def Workflow.Accounts (verdict : List (Sent Store Batch) → Outcome → Prop) :
    List (Sent Store Batch) → Workflow Store Batch Reply Outcome → Prop
  | sent, .ask query next => ∀ store, Accounts verdict sent (next (query store))
  | sent, .send batch next => ∀ store, Inv store → given store batch →
      (ok store batch → Accounts verdict (⟨batch, store⟩ :: sent) (next (perform batch store).2)) ∧
      (¬ ok store batch → ∃ outcome, next (perform batch store).2 = .ended outcome ∧
        ¬ verdict (⟨batch, store⟩ :: sent) outcome)
  | sent, .ended outcome => verdict sent outcome
  | _, .lost _ => True

/-- Each call accounts for its end, and no call has sent anything before it began. -/
structure Steady (verdict : Request → List (Sent Store Batch) → Outcome → Prop)
    (observed : Observed Request Store Batch Reply Outcome) : Prop where
  store : Inv observed.system.store
  calls : ∀ index request rest, observed.system.calls[index]? = some ⟨request, rest⟩ →
    Workflow.Accounts perform Inv given ok (verdict request) (observed.sent index) rest
  unsent : ∀ index, observed.system.calls.length ≤ index → observed.sent index = []

variable {program perform Inv given ok}
  {verdict : Request → List (Sent Store Batch) → Outcome → Prop}
  {observed : Observed Request Store Batch Reply Outcome}

theorem Steady.fair (h : Steady perform Inv given ok verdict observed) : Fair verdict observed :=
  fun index request _ hended ↦ h.calls index request _ hended

theorem steady_watch {store : Store} (hstore : Inv store) :
    Steady perform Inv given ok verdict (watch store) where
  store := hstore
  calls index request rest hcall := by cases hcall
  unsent index _ := rfl

section Calls

variable {index other : ℕ} {request : Request} {rest : Workflow Store Batch Reply Outcome}
  {result : Store × Workflow Store Batch Reply Outcome} {sent : ℕ → List (Sent Store Batch)}

theorem Steady.update (h : Steady perform Inv given ok verdict observed)
    (hcall : observed.system.calls[index]? = some ⟨request, rest⟩) (hstore : Inv result.1)
    (hsent : ∀ other, other ≠ index → sent other = observed.sent other)
    (hnext : Workflow.Accounts perform Inv given ok (verdict request) (sent index) result.2) :
    Steady perform Inv given ok verdict
      ⟨observed.system.update index ⟨request, rest⟩ result, sent⟩ := by
  have hlength : index < observed.system.calls.length := (List.getElem?_eq_some_iff.mp hcall).1
  refine ⟨hstore, fun other owner last hother ↦ ?_, fun other hle ↦ ?_⟩
  · by_cases hsame : other = index
    · subst hsame
      rw [System.update, List.getElem?_set_self hlength] at hother
      obtain ⟨rfl, rfl⟩ := Call.mk.inj (Option.some.inj hother)
      exact hnext
    · rw [System.update, List.getElem?_set_ne (Ne.symm hsame)] at hother
      have hsame := hsent other hsame
      exact (congrArg (fun notes ↦ Workflow.Accounts perform Inv given ok (verdict owner) notes last)
        hsame).mpr (h.calls other owner last hother)
  · rw [System.update, List.length_set] at hle
    exact (hsent other (by omega)).trans (h.unsent other hle)

end Calls

section Observe

variable {index : ℕ} {request : Request} {rest : Workflow Store Batch Reply Outcome}

/-- The batch that comes next, with the store. -/
def notes (rest : Workflow Store Batch Reply Outcome) (store : Store) : List (Sent Store Batch) :=
  (rest.batch?.map fun batch ↦ ⟨batch, store⟩).toList

theorem answers_advance (hcall : observed.system.calls[index]? = some ⟨request, rest⟩) :
    answers observed.system (.advance index) = rest.batch? := by
  rw [answers, hcall]
  rfl

theorem observe_advance (hcall : observed.system.calls[index]? = some ⟨request, rest⟩) :
    observe program perform observed (.advance index) =
      ⟨observed.system.update index ⟨request, rest⟩ (rest.proceed perform observed.system.store),
        Function.update observed.sent index
          (notes rest observed.system.store ++ observed.sent index)⟩ := by
  simp only [observe, step, hcall, answers_advance hcall, notes]

theorem observe_fail (hcall : observed.system.calls[index]? = some ⟨request, rest⟩)
    (performed : Bool) :
    observe program perform observed (.fail index performed) =
      ⟨observed.system.update index ⟨request, rest⟩
        (rest.lose perform performed observed.system.store), observed.sent⟩ := by
  simp only [observe, step, hcall]

theorem observe_absent (hcall : observed.system.calls[index]? = none) (performed : Bool) :
    observe program perform observed (.advance index) = observed ∧
      observe program perform observed (.fail index performed) = observed := by
  simp [observe, step, answers, hcall]

end Observe

theorem Steady.call (hprogram : ∀ request,
      Workflow.Accounts perform Inv given ok (verdict request) [] (program request))
    (h : Steady perform Inv given ok verdict observed) (request : Request) :
    Steady perform Inv given ok verdict (observe program perform observed (.call request)) := by
  refine ⟨h.store, fun index owner rest hcall ↦ ?_, fun index hle ↦ ?_⟩
  · change (observed.system.calls ++ [⟨request, program request⟩])[index]? = _ at hcall
    by_cases hlt : index < observed.system.calls.length
    · rw [List.getElem?_append_left hlt] at hcall
      exact h.calls index owner rest hcall
    · rw [List.getElem?_append_right (Nat.le_of_not_lt hlt)] at hcall
      obtain ⟨rfl, rfl⟩ := Call.mk.inj (List.mem_singleton.mp (List.mem_of_getElem? hcall))
      have hnone : observed.sent index = [] := h.unsent index (Nat.le_of_not_lt hlt)
      exact (congrArg (fun notes ↦ Workflow.Accounts perform Inv given ok (verdict owner) notes
        (program owner)) hnone).mpr (hprogram owner)
  · change (observed.system.calls ++ [_]).length ≤ index at hle
    rw [List.length_append] at hle
    exact h.unsent index (Nat.le_trans (Nat.le_add_right _ _) hle)

theorem steady_observe (hperform : ∀ store batch, Inv store → Inv (perform batch store).1)
    (hprogram : ∀ request,
      Workflow.Accounts perform Inv given ok (verdict request) [] (program request))
    (h : Steady perform Inv given ok verdict observed) {action : Action Request}
    (hgiven : Answers given observed action) (hok : Answers ok observed action) :
    Steady perform Inv given ok verdict (observe program perform observed action) := by
  cases action with
  | call request => exact h.call hprogram request
  | advance index =>
    cases hcall : observed.system.calls[index]? with
    | none => rwa [(observe_absent hcall true).1]
    | some call =>
      obtain ⟨request, rest⟩ := call
      have hcalls := h.calls index request rest hcall
      rw [observe_advance hcall]
      apply h.update hcall _ (fun other hother ↦ Function.update_of_ne hother _ _)
      · rw [Function.update_self]
        cases rest with
        | send batch next =>
          have hmem : batch ∈ answers observed.system (.advance index) := by
            rw [answers_advance hcall]
            rfl
          exact (hcalls _ h.store (hgiven batch hmem)).1 (hok batch hmem)
        | ask query next => exact hcalls _
        | ended outcome => exact hcalls
        | lost performed => trivial
      · cases rest with
        | send batch next => exact hperform _ _ h.store
        | ask query next => exact h.store
        | ended outcome => exact h.store
        | lost performed => exact h.store
  | fail index performed =>
    cases hcall : observed.system.calls[index]? with
    | none => rwa [(observe_absent hcall performed).2]
    | some call =>
      obtain ⟨request, rest⟩ := call
      have hcalls := h.calls index request rest hcall
      rw [observe_fail hcall]
      apply h.update hcall _ (fun _ _ ↦ rfl)
      · cases rest with
        | ended outcome => exact hcalls
        | send batch next => trivial
        | ask query next => trivial
        | lost performed => trivial
      · cases rest with
        | send batch next =>
          cases performed with
          | true => exact hperform _ _ h.store
          | false => exact h.store
        | ask query next => exact h.store
        | ended outcome => exact h.store
        | lost performed => exact h.store

theorem not_fair_observe (h : Steady perform Inv given ok verdict observed)
    {action : Action Request} (hgiven : Answers given observed action)
    (hok : ¬ Answers ok observed action) :
    ¬ Fair verdict (observe program perform observed action) := by
  simp only [Answers, not_forall] at hok
  obtain ⟨batch, hbatch, hok⟩ := hok
  cases action with
  | call request => cases hbatch
  | fail index performed => cases hbatch
  | advance index =>
    obtain ⟨⟨request, rest⟩, hcall, hrest⟩ := Option.bind_eq_some_iff.mp hbatch
    have hlength : index < observed.system.calls.length := (List.getElem?_eq_some_iff.mp hcall).1
    cases rest with
    | ask query next => cases hrest
    | ended outcome => cases hrest
    | lost performed => cases hrest
    | send other next =>
      obtain rfl := Option.some.inj hrest
      obtain ⟨outcome, hended, hverdict⟩ :=
        (h.calls index request _ hcall _ h.store (hgiven other hbatch)).2 hok
      rw [observe_advance hcall]
      intro hfair
      have hlast : verdict request (Function.update observed.sent index _ index) outcome :=
        hfair index request outcome (by
          rw [System.update, List.getElem?_set_self hlength, Workflow.proceed, hended])
      apply hverdict
      rwa [Function.update_self] at hlast

/-- Calls end as what they have sent demands in every state of a run, if and only if each batch of
the run is answered truly. -/
theorem visits_fair_iff (hperform : ∀ store batch, Inv store → Inv (perform batch store).1)
    (hprogram : ∀ request,
      Workflow.Accounts perform Inv given ok (verdict request) [] (program request))
    {store : Store} (hstore : Inv store) {actions : List (Action Request)}
    (hgiven : Along (observe program perform) (Answers given) (watch store) actions) :
    Visits (observe program perform) (Fair verdict) (watch store) actions ↔
      Along (observe program perform) (Answers ok) (watch store) actions := by
  have hsteady : Steady perform Inv given ok verdict (watch store) := steady_watch hstore
  generalize watch store = observed at hgiven hsteady ⊢
  induction actions generalizing observed with
  | nil => exact ⟨fun _ ↦ trivial, fun _ ↦ hsteady.fair⟩
  | cons action rest ih =>
    have hnext (hok : Answers ok observed action) :=
      ih _ hgiven.2 (steady_observe hperform hprogram hsteady hgiven.1 hok)
    constructor
    · intro hvisits
      have hok : Answers ok observed action :=
        not_not.mp fun hfalse ↦
          not_fair_observe hsteady hgiven.1 hfalse (visits_start hvisits.2)
      exact ⟨hok, (hnext hok).mp hvisits.2⟩
    · intro halong
      exact ⟨hsteady.fair, (hnext halong.1).mpr halong.2⟩

end AlphaPing.Library.Verdicts
