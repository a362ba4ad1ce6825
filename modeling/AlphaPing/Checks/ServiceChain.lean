import AlphaPing.Checks.Writers

/-!
# The state of a service and its events under all writers

A result that is not superseded evaluates the state of its service inside its batch; an application
writes what it has computed from earlier reads. When both finish with reads that are current, every
change of the state has its event, the events chain, and the state is the aggregate of the rows
whenever nothing is under way.

An application that has read before a result is written, and writes after it, breaks all three.
-/

namespace AlphaPing.Checks.Writers

open Library.Tables Library.Runs StateSync Persistence Agreement
open Library.Transactions hiding Call

/-! ## Results -/

section Results

variable {codec : CheckCodec} {store : Store}

theorem serviceStatements_rows (store : Store) (result : ResultRow)
    (hunique : UniqueKey ServiceLatest.servicePk store.serviceLatest) :
    UniqueKey ServiceLatest.servicePk (serviceStatements store result).serviceLatest ∧
      ∀ row ∈ (serviceStatements store result).serviceLatest, row ∈ store.serviceLatest ∨
        row.servicePk = result.servicePk ∧ row.workspacePk = result.workspacePk := by
  have htransition : UniqueKey ServiceLatest.servicePk
      (recordTransition store result).serviceLatest ∧
        ∀ row ∈ (recordTransition store result).serviceLatest, row ∈ store.serviceLatest ∨
          row.servicePk = result.servicePk ∧ row.workspacePk = result.workspacePk := by
    unfold recordTransition
    split
    · exact ⟨hunique, fun row hrow ↦ .inl hrow⟩
    · split
      · exact ⟨hunique, fun row hrow ↦ .inl hrow⟩
      · refine ⟨uniqueKey_upsertState hunique _, fun row hrow ↦ ?_⟩
        rcases mem_upsertState hrow with hold | rfl
        · exact .inl hold
        · exact .inr ⟨rfl, rfl⟩
  unfold serviceStatements recordInitial
  split
  · next hinitial =>
    refine ⟨uniqueKey_append_singleton htransition.1 fun row hrow heq ↦ ?_, fun row hrow ↦ ?_⟩
    · exact List.any_eq_false.mp hinitial.2.2 row hrow (beq_iff_eq.mpr heq)
    · rcases List.mem_append.mp hrow with hold | hnew
      · exact htransition.2 row hold
      · rw [List.mem_singleton.mp hnew]
        exact .inr ⟨rfl, rfl⟩
  · exact htransition

theorem serviceStatements_eq_self {result : ResultRow}
    (h : isCurrent store.latest result = false) : serviceStatements store result = store := by
  have htransition : recordTransition store result = store :=
    recordTransition_of_not_decides (by rw [decides, h]; rfl)
  rw [serviceStatements, htransition, recordInitial, if_neg]
  rintro ⟨hcurrent, -⟩
  exact Bool.false_ne_true (h.symm.trans hcurrent)

theorem isCurrent_of_mem {latest : List CheckRow} {result : ResultRow} {row : CheckRow}
    (hrow : row ∈ latest) (hworkspace : row.latest.workspacePk = result.workspacePk)
    (hcheck : row.latest.checkPk = result.checkPk) (hid : row.latest.resultId = result.resultId)
    (hrevision : ∀ revision ∈ result.configRevision, row.configRevision = revision) :
    isCurrent latest result = true := by
  refine List.any_eq_true.mpr ⟨row, hrow, ?_⟩
  have hall : (result.configRevision.all fun revision ↦ row.configRevision == revision) = true :=
    (Option.all_eq_true _ _).mpr fun revision hmem ↦ beq_iff_eq.mpr (hrevision revision hmem)
  simp [hworkspace, hcheck, hid, hall]

def latestAfter (codec : CheckCodec) (previous : Option CheckRow) (latest : List CheckRow) :
    PersistCall → List CheckRow
  | .agent batch => batchLatest latest batch previous
  | .central call => call.latest codec latest previous

theorem latestAfter_cases (codec : CheckCodec) (previous : Option CheckRow)
    (latest : List CheckRow) (request : PersistCall) :
    latestAfter codec previous latest request = latest ∨
      isCurrent (latestAfter codec previous latest request)
        (Call.resultRow codec request) = true := by
  cases request with
  | agent batch =>
    refine Or.imp_right (fun hchanged ↦ ?_) upsert_cases
    rcases hchanged with hnew | ⟨old, -, -, hchanged⟩
    · exact isCurrent_of_mem hnew rfl rfl rfl fun _ hnone ↦ by cases hnone
    · exact isCurrent_of_mem hchanged rfl rfl rfl fun _ hnone ↦ by cases hnone
  | central call =>
    have hrevision : ∀ revision ∈ (call.resultRow codec).configRevision,
        (call.row codec previous).configRevision = revision :=
      fun _ hsome ↦ Option.some.inj hsome
    refine Or.imp_right (fun hchanged ↦ ?_) upsert_cases
    rcases hchanged with hnew | ⟨old, -, -, hchanged⟩
    · exact isCurrent_of_mem hnew rfl rfl rfl hrevision
    · exact isCurrent_of_mem hchanged rfl rfl rfl hrevision

theorem latestAfter_superseded (previous : Option CheckRow) {latest : List CheckRow}
    {request : PersistCall} (h : superseded codec latest request = true) :
    latestAfter codec previous latest request = latest ∧
      isCurrent latest (Call.resultRow codec request) = false := by
  cases request with
  | agent batch =>
    simp only [superseded, Bool.and_eq_true, Bool.not_eq_true', List.any_eq_true,
      List.all_eq_true] at h
    obtain ⟨⟨hcurrent, old, hold, hkey⟩, hrefused⟩ := h
    refine ⟨upsert_eq_self ⟨old, hold, of_decide_eq_true hkey⟩ fun row hrow heq ↦ ?_, hcurrent⟩
    have hrow := hrefused row hrow
    have hpk : row.checkPk = batch.config.checkPk := heq
    rw [hpk] at hrow
    simpa only [bne_self_eq_false, Bool.false_or, Bool.not_eq_true'] using hrow
  | central call =>
    simp only [superseded, Bool.and_eq_true, Bool.not_eq_true', List.any_eq_true,
      List.all_eq_true] at h
    obtain ⟨⟨hcurrent, old, hold, hkey⟩, hrefused⟩ := h
    refine ⟨upsert_eq_self ⟨old, hold, of_decide_eq_true hkey⟩ fun row hrow heq ↦ ?_, hcurrent⟩
    have hrow := hrefused row hrow
    have hpk : row.checkPk = call.config.telemetryPk := heq
    rw [hpk] at hrow
    simpa only [bne_self_eq_false, Bool.false_or, Bool.not_eq_true'] using hrow

theorem write_eq (codec : CheckCodec) (previous : Option CheckRow) (request : PersistCall)
    (store : Store) : ∃ blocks,
      Call.write codec previous request store = { store with blocks } ∨
        Call.historical previous request = false ∧
        Call.write codec previous request store =
          serviceStatements
            { store with blocks, latest := latestAfter codec previous store.latest request }
            (Call.resultRow codec request) := by
  cases request with
  | central call => exact ⟨_, .inr ⟨rfl, rfl⟩⟩
  | agent batch =>
    cases hhistorical : Call.historical previous (.agent batch) with
    | true => exact ⟨_, .inl (if_pos hhistorical)⟩
    | false => exact ⟨_, .inr ⟨rfl, if_neg (ne_true_of_eq_false hhistorical)⟩⟩

/-- A batch leaves what is shown, or has evaluated it with its result among the latest ones. -/
theorem write_cases (codec : CheckCodec) (previous : Option CheckRow) (request : PersistCall)
    (store : Store) :
    let after := Call.write codec previous request store
    (after.latest = store.latest ∧ after.serviceLatest = store.serviceLatest ∧
        after.events = store.events) ∨
      Call.historical previous request = false ∧
        superseded codec store.latest request = false ∧
          isCurrent after.latest (Call.resultRow codec request) = true := by
  obtain ⟨blocks, hwrite | ⟨hhistorical, hwrite⟩⟩ := write_eq codec previous request store
  · rw [hwrite]
    exact .inl ⟨rfl, rfl, rfl⟩
  · rw [hwrite]
    cases hcurrent : isCurrent (latestAfter codec previous store.latest request)
        (Call.resultRow codec request) with
    | true =>
      refine .inr ⟨hhistorical, ?_, ?_⟩
      · rw [Bool.eq_false_iff]
        intro hsuperseded
        obtain ⟨hsame, hnot⟩ := latestAfter_superseded previous hsuperseded
        rw [hsame, hnot] at hcurrent
        cases hcurrent
      · rw [(serviceStatements_frame _ _).2]
        exact hcurrent
    | false =>
      have hsame := (latestAfter_cases codec previous store.latest request).resolve_right
        (ne_true_of_eq_false hcurrent)
      rw [serviceStatements_eq_self (by exact hcurrent)]
      exact .inl ⟨hsame, rfl, rfl⟩

end Results

/-! ## The invariant -/

structure OfService (service : Service) (job : Job) : Prop where
  workspaceId : job.workspaceId = service.workspaceId
  workspacePk : job.workspacePk = service.workspacePk
  serviceId : job.serviceId = service.id
  servicePk : job.servicePk = service.telemetryPk

/-- What an application has computed is the state of what it has read. -/
def Application.Computed (application : Application) : Prop :=
  match application.stage with
  | .dropping | .failed => False
  | .comparing maintenanceUntil next | .writing maintenanceUntil _ next =>
    next = serviceState application.seen maintenanceUntil application.now
  | _ => True

structure Leads (events : List ServiceEvent) (shown : ServiceState) : Prop where
  chained : events.IsChain fun earlier later ↦ earlier.currentState = later.previousState
  last : ∀ event ∈ events.getLast?, event.currentState = shown

theorem Leads.append {events : List ServiceEvent} {shown : ServiceState} (h : Leads events shown)
    {event : ServiceEvent} (hprevious : event.previousState = shown) :
    Leads (events ++ [event]) event.currentState where
  chained := by
    refine h.chained.append (List.isChain_singleton event) fun last hlast head hhead ↦ ?_
    rw [List.head?_cons, Option.mem_some_iff] at hhead
    rw [h.last last hlast, ← hhead, hprevious]
  last := by
    intro last hlast
    rw [List.getLast?_concat, Option.mem_some_iff] at hlast
    rw [hlast]

/-- What a step does to the state that is shown and to the events. -/
inductive Outcome (state next : State) : Prop where
  | same (hshown : next.shown = state.shown) (hevents : next.events = state.events)
  | event (event : ServiceEvent) (hevents : next.events = state.events ++ [event])
      (hprevious : event.previousState = state.shown) (hcurrent : event.currentState = next.shown)

theorem Outcome.leads {state next : State} (h : Outcome state next)
    (hleads : Leads state.events state.shown) : Leads next.events next.shown := by
  cases h with
  | same hshown hevents =>
    rw [hshown, hevents]
    exact hleads
  | event event hevents hprevious hcurrent =>
    rw [hevents, ← hcurrent]
    exact hleads.append hprevious

/-- What the tables, the calls and the applications are, whatever is under way. -/
structure Steady (codec : CheckCodec) (state : State) : Prop where
  present : state.service.deleted = false
  rows : ∀ row ∈ state.system.store.serviceLatest,
    row.servicePk = state.service.telemetryPk ∧ row.workspacePk = state.service.workspacePk
  unique : UniqueKey ServiceLatest.servicePk state.system.store.serviceLatest
  calls : Making (fun request change ↦ state.serves request = true ∧
    ∃ previous, change = Call.write codec previous request) state.system
  jobs : ∀ job ∈ state.jobs, OfService state.service job
  applications : ∀ application ∈ state.applications,
    OfService state.service application.job ∧ application.Computed

/-- Unless an application is under way, the aggregate is shown. -/
def State.Settles (state : State) : Prop :=
  (∃ application ∈ state.applications, application.ended = false) ∨ state.shown = state.aggregate

structure Sound (codec : CheckCodec) (state : State) : Prop where
  steady : Steady codec state
  leads : Leads state.events state.shown
  settles : state.crossed = false → state.Settles

variable {codec : CheckCodec}

theorem Sound.consistent {state : State} (h : Sound codec state) : Consistent state := by
  intro hquiet hcrossed
  rcases h.settles hcrossed with ⟨application, hmem, hended⟩ | hshown
  · simp only [State.quiet, Bool.and_eq_true, List.all_eq_true] at hquiet
    exact absurd ((hquiet.2 application hmem).symm.trans hended) Bool.noConfusion
  · exact hshown

/-- What a step has to keep. -/
structure Keeps (codec : CheckCodec) (state next : State) : Prop where
  steady : Steady codec next
  outcome : Outcome state next
  settles : (state.crossed = false ∨ wrote state.system.store next.system.store = true) →
    inMaintenance next.service.maintenanceUntil state.clock = next.maintained → next.Settles

theorem Sound.step_of_keeps {state : State} {operation : Operation} (h : Sound codec state)
    (hkeeps : Keeps codec state (perform codec state operation)) :
    Sound codec (step codec state operation) where
  steady := ⟨hkeeps.steady.present, hkeeps.steady.rows, hkeeps.steady.unique,
    hkeeps.steady.calls, hkeeps.steady.jobs, hkeeps.steady.applications⟩
  leads := hkeeps.outcome.leads h.leads
  settles hcrossed := by
    obtain ⟨hbefore, hsame⟩ := Bool.or_eq_false_iff.mp hcrossed
    refine hkeeps.settles ?_ (by simpa using hsame)
    rcases Bool.and_eq_false_iff.mp hbefore with hnot | hwrote
    · exact .inl hnot
    · exact .inr (by simpa using hwrote)

theorem wrote_eq_false {before after : Store} (hlatest : after.latest = before.latest)
    (hservice : after.serviceLatest = before.serviceLatest) : wrote before after = false := by
  simp [wrote, hlatest, hservice]

section Steps

variable {codec : CheckCodec} {state : State}

theorem Sound.keeps_same (h : Sound codec state) {next : State} (hsteady : Steady codec next)
    (hservice : next.service = state.service)
    (hlatest : next.system.store.latest = state.system.store.latest)
    (hserviceLatest : next.system.store.serviceLatest = state.system.store.serviceLatest)
    (hevents : next.system.store.events = state.system.store.events)
    (hclock : inMaintenance state.service.maintenanceUntil state.clock = next.maintained →
      state.maintained = next.maintained)
    (happlications : (∃ application ∈ state.applications, application.ended = false) →
      ∃ application ∈ next.applications, application.ended = false) :
    Keeps codec state next := by
  have hshown : next.shown = state.shown := by
    unfold State.shown
    rw [hservice, hserviceLatest]
  refine ⟨hsteady, .same hshown hevents, fun hcrossed hsame ↦ ?_⟩
  rw [wrote_eq_false hlatest hserviceLatest] at hcrossed
  rcases h.settles (hcrossed.resolve_right Bool.false_ne_true) with hunder | haggregate
  · exact .inl (happlications hunder)
  · refine .inr ?_
    rw [hshown, haggregate, State.aggregate, State.aggregate, State.states, State.states, hservice,
      hlatest, hclock (hservice ▸ hsame)]

theorem keeps_begin {next : State} (hsteady : Steady codec next)
    (hshown : next.shown = state.shown) (hevents : next.events = state.events)
    (application : Application) (hmem : application ∈ next.applications)
    (hended : application.ended = false) : Keeps codec state next :=
  ⟨hsteady, .same hshown hevents, fun _ _ ↦ .inl ⟨application, hmem, hended⟩⟩

theorem Steady.enqueue (h : Steady codec state) {job : Job} (hjob : OfService state.service job) :
    Steady codec (state.enqueue job) where
  present := h.present
  rows := h.rows
  unique := h.unique
  calls := h.calls
  jobs other hother := by
    rcases List.mem_append.mp hother with hold | hnew
    · exact h.jobs other hold
    · exact List.mem_singleton.mp hnew ▸ hjob
  applications application hmem := by
    rcases List.mem_append.mp hmem with hold | hnew
    · exact h.applications application hold
    · rw [List.mem_singleton.mp hnew]
      exact ⟨hjob, trivial⟩

theorem Steady.keeps_enqueue {base : State} (h : Steady codec base) {job : Job}
    (hjob : OfService base.service job) (hshown : base.shown = state.shown)
    (hevents : base.events = state.events) : Keeps codec state (base.enqueue job) :=
  keeps_begin (h.enqueue hjob) hshown hevents _
    (List.mem_append_right _ (List.mem_singleton_self _)) rfl

theorem Steady.withMaintenance (h : Steady codec state) (maintenanceUntil : Option ℤ) :
    Steady codec { state with service := { state.service with maintenanceUntil } } where
  present := h.present
  rows := h.rows
  unique := h.unique
  calls := h.calls
  jobs job hjob := by
    obtain ⟨hworkspaceId, hworkspacePk, hserviceId, hservicePk⟩ := h.jobs job hjob
    exact ⟨hworkspaceId, hworkspacePk, hserviceId, hservicePk⟩
  applications application hmem := by
    obtain ⟨⟨hworkspaceId, hworkspacePk, hserviceId, hservicePk⟩, hcomputed⟩ :=
      h.applications application hmem
    exact ⟨⟨hworkspaceId, hworkspacePk, hserviceId, hservicePk⟩, hcomputed⟩

theorem Steady.withChecks (h : Steady codec state) (checks : List CheckConfig) :
    Steady codec { state with checks } :=
  ⟨h.present, h.rows, h.unique, h.calls, h.jobs, h.applications⟩

theorem Sound.keeps_self (h : Sound codec state) : Keeps codec state state :=
  h.keeps_same h.steady rfl rfl rfl rfl (fun _ ↦ rfl) id

/-! ## Calls -/

theorem advanceCall_cases (h : Steady codec state) (index : ℕ) :
    (perform codec state (.advanceCall index)).system.store = state.system.store ∨
      ∃ call ∈ state.system.calls[index]?, call.rest.commits = true ∧
        state.serves call.request = true ∧ ∃ previous,
          (perform codec state (.advanceCall index)).system.store =
            Call.write codec previous call.request state.system.store := by
  simp only [perform, Library.Transactions.step]
  cases hcall : state.system.calls[index]? with
  | none => exact .inl rfl
  | some call =>
    have hmakes := h.calls call (List.mem_of_getElem? hcall)
    obtain ⟨request, rest, answers⟩ := call
    cases hmakes with
    | read query next hnext => exact .inl rfl
    | commit change hchange =>
      obtain ⟨hserves, previous, hwrite⟩ := hchange
      refine .inr ⟨_, rfl, rfl, hserves, previous, ?_⟩
      rw [← hwrite]
      rfl
    | done => exact .inl rfl

variable {request : PersistCall}

theorem resultRow_ofService (codec : CheckCodec) (hserves : state.serves request = true) :
    (Call.resultRow codec request).workspacePk = state.service.workspacePk ∧
      (Call.resultRow codec request).servicePk = state.service.telemetryPk := by
  simp only [State.serves, Bool.and_eq_true, beq_iff_eq] at hserves
  cases request with
  | agent batch => exact hserves
  | central call => exact hserves

theorem knownState_eq_shown (state : State) {result : ResultRow}
    (hworkspace : result.workspacePk = state.service.workspacePk)
    (hservice : result.servicePk = state.service.telemetryPk) :
    knownState state.system.store result = state.shown := by
  unfold knownState shownState State.shown
  rw [hworkspace, hservice]

theorem Steady.owned (h : Steady codec state) {result : ResultRow}
    (hworkspace : result.workspacePk = state.service.workspacePk) :
    owned state.system.store result = true := by
  refine List.all_eq_true.mpr fun row hrow ↦ ?_
  rw [hworkspace, (h.rows row hrow).2, beq_self_eq_true, Bool.or_true]

theorem Steady.rows_write (h : Steady codec state) (hserves : state.serves request = true)
    (previous : Option CheckRow) :
    let after := Call.write codec previous request state.system.store
    UniqueKey ServiceLatest.servicePk after.serviceLatest ∧ ∀ row ∈ after.serviceLatest,
      row.servicePk = state.service.telemetryPk ∧ row.workspacePk = state.service.workspacePk := by
  obtain ⟨hworkspace, hservice⟩ := resultRow_ofService codec hserves
  obtain ⟨blocks, hwrite | ⟨-, hwrite⟩⟩ := write_eq codec previous request state.system.store
  · rw [hwrite]
    exact ⟨h.unique, h.rows⟩
  · rw [hwrite]
    obtain ⟨hunique, hrows⟩ := serviceStatements_rows { state.system.store with
      blocks, latest := latestAfter codec previous state.system.store.latest request }
      (Call.resultRow codec request) h.unique
    refine ⟨hunique, fun row hrow ↦ ?_⟩
    rcases hrows row hrow with hold | ⟨hpk, hof⟩
    · exact h.rows row hold
    · exact ⟨hpk.trans hservice, hof.trans hworkspace⟩

theorem Steady.settled_write (h : Steady codec state) (hserves : state.serves request = true)
    {previous : Option CheckRow} (next : State) (hservice : next.service = state.service)
    (hclock : next.clock = state.clock)
    (hstore : next.system.store = Call.write codec previous request state.system.store)
    (hhistorical : Call.historical previous request = false)
    (hcurrent : isCurrent next.system.store.latest (Call.resultRow codec request) = true)
    (htimely : inMaintenance (Call.resultRow codec request).maintenanceUntil
        (Call.resultRow codec request).observedAt = state.maintained ∧
      unrecorded state.system.store (Call.resultRow codec request) = true) :
    Outcome state next ∧ next.shown = next.aggregate := by
  obtain ⟨hworkspace, hpk⟩ := resultRow_ofService codec hserves
  have hevaluates := evaluates_write codec request previous state.system.store
  rw [← hstore] at hevaluates
  have hdecides : decides next.system.store.latest state.system.store
      (Call.resultRow codec request) = true := by
    rw [decides, hcurrent, h.owned hworkspace, htimely.2]
    rfl
  have hagrees := hevaluates.agrees hhistorical hdecides
  have hbefore := knownState_eq_shown state hworkspace hpk
  have hafter : knownState next.system.store (Call.resultRow codec request) =
      next.shown :=
    knownState_eq_shown next (hservice ▸ hworkspace) (hservice ▸ hpk)
  have hnext : next.shown = Call.aggregate codec request next.system.store.latest := by
    rw [← hafter, knownState, hagrees.shown]
    rfl
  have haggregate :
      Call.aggregate codec request next.system.store.latest = next.aggregate := by
    have hmaintained : state.maintained = next.maintained := by
      rw [State.maintained, State.maintained, hservice, hclock]
    rw [Call.aggregate, State.aggregate, State.states, hservice, ← hmaintained,
      ← htimely.1, hworkspace, hpk]
  refine ⟨?_, hnext.trans haggregate⟩
  have hevents := hagrees.events
  rw [hbefore, ← hnext] at hevents
  split at hevents
  · next hsame =>
    rw [List.append_nil] at hevents
    exact .same hsame.symm hevents
  · exact .event _ hevents rfl rfl

theorem Sound.keeps_advanceCall (h : Sound codec state) (index : ℕ)
    (hcareful : Careful codec state (.advanceCall index)) :
    Keeps codec state (perform codec state (.advanceCall index)) := by
  have hcalls : Making _ (Library.Transactions.step (persist codec) state.system
      (.advance index)) := making_advance state.system index h.steady.calls
  rcases advanceCall_cases h.steady index with hsame |
    ⟨call, hcall, hcommits, hserves, previous, hwrite⟩
  · have hsteady : Steady codec (perform codec state (.advanceCall index)) :=
      ⟨h.steady.present, hsame ▸ h.steady.rows, hsame ▸ h.steady.unique, hcalls, h.steady.jobs,
        h.steady.applications⟩
    exact h.keeps_same hsteady rfl (by rw [hsame]) (by rw [hsame]) (by rw [hsame]) (fun _ ↦ rfl) id
  · obtain ⟨hunique, hrows⟩ := h.steady.rows_write hserves previous
    have hsteady : Steady codec (perform codec state (.advanceCall index)) :=
      ⟨h.steady.present, hwrite ▸ hrows, hwrite ▸ hunique, hcalls, h.steady.jobs,
        h.steady.applications⟩
    have hcases := write_cases codec previous call.request state.system.store
    rw [← hwrite] at hcases
    rcases hcases with ⟨hlatest, hservice, hevents⟩ | ⟨hhistorical, hnew, hcurrent⟩
    · exact h.keeps_same hsteady rfl hlatest hservice hevents (fun _ ↦ rfl) id
    · have htimely := (hcareful call hcall hcommits).resolve_left (ne_true_of_eq_false hnew)
      obtain ⟨houtcome, haggregate⟩ := h.steady.settled_write hserves
        (perform codec state (.advanceCall index)) rfl rfl hwrite hhistorical hcurrent htimely
      exact ⟨hsteady, houtcome, fun _ _ ↦ .inr haggregate⟩

theorem Sound.keeps_call (h : Sound codec state) (request : PersistCall) :
    Keeps codec state (perform codec state (.call request)) := by
  simp only [perform]
  split
  · next hserves =>
    have hmakes : (persist codec request).Makes fun change ↦ state.serves request = true ∧
        ∃ previous, change = Call.write codec previous request :=
      makes_persist fun previous ↦ ⟨hserves, previous, rfl⟩
    exact h.keeps_same ⟨h.steady.present, h.steady.rows, h.steady.unique,
      making_call hmakes h.steady.calls, h.steady.jobs, h.steady.applications⟩ rfl rfl rfl rfl
      (fun _ ↦ rfl) id
  · exact h.keeps_self

/-! ## Applications -/

theorem desiredServiceState_only {service : Service} {job : Job} (hjob : OfService service job)
    (hpresent : service.deleted = false) (checks : List CheckConfig) :
    ∃ check, desiredServiceState (only service) checks job = some (service, check) := by
  refine ⟨_, Option.map_eq_some_iff.mpr ⟨service, ?_, rfl⟩⟩
  rw [only, List.find?_singleton, if_pos]
  simp [hjob.serviceId, hjob.workspaceId, hpresent]

theorem previous_eq (application : Application) (hjob : OfService state.service application.job) :
    (application.previous state.system.store).getD .unknown = state.shown := by
  unfold Application.previous State.shown
  rw [hjob.workspacePk, hjob.servicePk]

variable {application : Application}

theorem current_iff {maintenanceUntil : Option ℤ} {next : ServiceState}
    (hcomputed : next = serviceState application.seen maintenanceUntil application.now)
    (hcurrent : application.current state maintenanceUntil) : next = state.aggregate := by
  rw [hcomputed, hcurrent, serviceState_eq_aggregate]
  rfl

def rowOf (application : Application) : ResultRow where
  workspacePk := application.job.workspacePk
  checkPk := 0
  servicePk := application.job.servicePk
  maintenanceUntil := none
  observedAt := application.now
  resultId := []
  configRevision := none

theorem Steady.write (h : Steady codec state) (hjob : OfService state.service application.job)
    (previous next : ServiceState) :
    stateChanges state.system.store.serviceLatest
        (nextServiceLatest application.job next application.now) = 1 ∧
      (application.write codec previous next state.system.store).latest =
        state.system.store.latest ∧
      knownState (application.write codec previous next state.system.store) (rowOf application) =
        next := by
  have hchanges : stateChanges state.system.store.serviceLatest
      (nextServiceLatest application.job next application.now) = 1 := by
    refine h.unique.upsertChanges_eq_one fun old hold _ ↦ ?_
    exact beq_iff_eq.mpr ((h.rows old hold).2.trans hjob.workspacePk.symm)
  refine ⟨hchanges, rfl, ?_⟩
  have howned : Agreement.owned state.system.store (rowOf application) = true := h.owned hjob.workspacePk
  exact congrArg (Option.getD · .unknown) (shownState_upsert howned next
    (transitionReason application.job next)
    (application.write codec previous next state.system.store).events)

theorem Sound.keeps_under_way (h : Sound codec state) {index : ℕ} {application next : Application}
    (hfound : state.applications[index]? = some application) {store : Store}
    (hstore : store.serviceLatest = state.system.store.serviceLatest)
    (hevents : store.events = state.system.store.events) (hjob : OfService state.service next.job)
    (hcomputed : next.Computed) (hended : next.ended = false) :
    Keeps codec state { state with
      system := { state.system with store }
      applications := state.applications.set index next } := by
  have hlt := (List.getElem?_eq_some_iff.mp hfound).1
  refine keeps_begin ⟨h.steady.present, ?_, ?_, h.steady.calls, h.steady.jobs, ?_⟩ ?_
    hevents next (List.mem_set hlt _) hended
  · exact fun row hrow ↦ h.steady.rows row (hstore ▸ hrow)
  · exact hstore.symm ▸ h.steady.unique
  · intro other hother
    rcases List.mem_or_eq_of_mem_set hother with hold | rfl
    · exact h.steady.applications other hold
    · exact ⟨hjob, hcomputed⟩
  · unfold State.shown
    dsimp only
    rw [hstore]

theorem Sound.keeps_ended (h : Sound codec state) {index : ℕ} {next : Application} {store : Store}
    (hrows : ∀ row ∈ store.serviceLatest, row.servicePk = state.service.telemetryPk ∧
      row.workspacePk = state.service.workspacePk)
    (hunique : UniqueKey ServiceLatest.servicePk store.serviceLatest)
    (hlatest : store.latest = state.system.store.latest)
    (hjob : OfService state.service next.job) (hcomputed : next.Computed)
    (houtcome : Outcome state { state with
      system := { state.system with store }
      applications := state.applications.set index next })
    (hshown : State.shown { state with
      system := { state.system with store }
      applications := state.applications.set index next } = state.aggregate) :
    Keeps codec state { state with
      system := { state.system with store }
      applications := state.applications.set index next } := by
  refine ⟨⟨h.steady.present, hrows, hunique, h.steady.calls, h.steady.jobs, ?_⟩, houtcome,
    fun _ _ ↦ .inr ?_⟩
  · intro other hother
    rcases List.mem_or_eq_of_mem_set hother with hold | rfl
    · exact h.steady.applications other hold
    · exact ⟨hjob, hcomputed⟩
  · rw [hshown, State.aggregate, State.aggregate, State.states, State.states]
    dsimp only
    rw [hlatest]
    rfl

theorem Steady.outcome_write (h : Steady codec state)
    (hjob : OfService state.service application.job) {previous next : ServiceState}
    (htimely : if state.events.any fun event ↦
        event.key == (application.event codec previous next).key then state.shown = next
      else state.shown = previous) (applications : List Application) :
    let after := { state with
      system := { state.system with
        store := application.write codec previous next state.system.store }
      applications }
    State.shown after = next ∧ Outcome state after := by
  intro after
  obtain ⟨hchanges, -, hknown⟩ := h.write hjob previous next
  have hshown : after.shown = next :=
    (knownState_eq_shown after hjob.workspacePk hjob.servicePk).symm.trans hknown
  have hevents : after.events =
      insertEvent state.events (application.event codec previous next) := if_pos hchanges
  refine ⟨hshown, ?_⟩
  unfold insertEvent at hevents
  split at htimely
  · next hrecorded =>
    rw [if_pos hrecorded] at hevents
    exact .same (hshown.trans htimely.symm) hevents
  · next hnew =>
    rw [if_neg hnew] at hevents
    exact .event _ hevents htimely.symm hshown.symm

theorem Sound.keeps_advance (h : Sound codec state) (index : ℕ)
    (hcareful : Careful codec state (.advance index)) :
    Keeps codec state (perform codec state (.advance index)) := by
  cases hfound : state.applications[index]? with
  | none =>
    simp only [perform, hfound]
    exact h.keeps_self
  | some application =>
    obtain ⟨hjob, hcomputed⟩ := h.steady.applications application (List.mem_of_getElem? hfound)
    have htimely := hcareful application hfound
    simp only [perform, hfound]
    obtain ⟨job, now, stage, seen⟩ := application
    cases stage with
    | desired =>
      obtain ⟨check, hdesired⟩ := desiredServiceState_only hjob h.steady.present state.checks
      have hsame : ¬ (state.service.workspacePk ≠ job.workspacePk ∨
          state.service.telemetryPk ≠ job.servicePk) := by
        rw [hjob.workspacePk, hjob.servicePk]
        simp
      dsimp only at hdesired
      simp only [Application.advance, hdesired, if_neg hsame]
      split <;> exact h.keeps_under_way hfound rfl rfl hjob trivial rfl
    | dropping => exact hcomputed.elim
    | failed => exact hcomputed.elim
    | correcting maintenanceUntil desired =>
      exact h.keeps_under_way hfound rfl rfl hjob trivial rfl
    | reading maintenanceUntil => exact h.keeps_under_way hfound rfl rfl hjob rfl rfl
    | comparing maintenanceUntil next =>
      simp only [Application.advance]
      split
      · next hsame =>
        have hshown : state.shown = next := by
          rw [← previous_eq _ hjob, hsame]
          rfl
        have haggregate := hshown.trans (current_iff hcomputed (htimely hsame))
        exact h.keeps_ended h.steady.rows h.steady.unique rfl hjob trivial (.same rfl rfl)
          haggregate
      · exact h.keeps_under_way hfound rfl rfl hjob hcomputed rfl
    | writing maintenanceUntil previous next =>
      obtain ⟨hcurrent, hprevious⟩ := htimely
      obtain ⟨hchanges, hlatest, hknown⟩ := h.steady.write hjob previous next
      simp only [Application.advance]
      rw [if_pos hchanges]
      have haggregate := current_iff hcomputed hcurrent
      refine h.keeps_ended ?_ (uniqueKey_upsertState h.steady.unique _) hlatest hjob trivial ?_ ?_
      · intro row hrow
        rcases mem_upsertState hrow with hold | rfl
        · exact h.steady.rows row hold
        · exact ⟨hjob.servicePk, hjob.workspacePk⟩
      · exact (h.steady.outcome_write hjob hprevious _).2
      · exact ((h.steady.outcome_write hjob hprevious _).1).trans haggregate
    | settled maintenanceUntil =>
      have hsame : state.applications.set index ⟨job, now, .settled maintenanceUntil, seen⟩ =
          state.applications := by
        obtain ⟨hlt, heq⟩ := List.getElem?_eq_some_iff.mp hfound
        rw [← heq]
        exact List.set_getElem_self hlt
      simp only [Application.advance, hsame]
      exact h.keeps_self

/-! ## Runs -/

theorem Sound.keeps (h : Sound codec state) (operation : Operation)
    (hcareful : Careful codec state operation) :
    Keeps codec state (perform codec state operation) := by
  cases operation with
  | tick milliseconds =>
    exact h.keeps_same ⟨h.steady.present, h.steady.rows, h.steady.unique, h.steady.calls,
      h.steady.jobs, h.steady.applications⟩ rfl rfl rfl rfl id id
  | setMaintenance maintenanceUntil token =>
    exact (h.steady.withMaintenance maintenanceUntil).keeps_enqueue ⟨rfl, rfl, rfl, rfl⟩ rfl rfl
  | configure check token =>
    simp only [perform]
    split
    · exact (h.steady.withChecks _).keeps_enqueue ⟨rfl, rfl, rfl, rfl⟩ rfl rfl
    · exact h.keeps_self
  | deleteCheck checkId token =>
    simp only [perform]
    split
    · exact h.keeps_self
    · exact (h.steady.withChecks _).keeps_enqueue ⟨rfl, rfl, rfl, rfl⟩ rfl rfl
  | pass job age =>
    simp only [perform]
    split
    · exact h.keeps_self
    · next job hjob =>
      have hof := h.steady.jobs job (List.mem_of_getElem? hjob)
      refine keeps_begin ⟨h.steady.present, h.steady.rows, h.steady.unique, h.steady.calls,
        h.steady.jobs, fun application hmem ↦ ?_⟩ rfl rfl _
        (List.mem_append_right _ (List.mem_singleton_self _)) rfl
      rcases List.mem_append.mp hmem with hold | hnew
      · exact h.steady.applications application hold
      · rw [List.mem_singleton.mp hnew]
        exact ⟨hof, trivial⟩
  | call request => exact h.keeps_call request
  | advanceCall index => exact h.keeps_advanceCall index hcareful
  | advance index => exact h.keeps_advance index hcareful

end Steps

theorem sound_start (codec : CheckCodec) (clock : ℤ) (service : Service) :
    Sound codec (start clock service) where
  steady := ⟨rfl, fun _ h ↦ (by cases h), uniqueKey_nil, fun _ h ↦ (by cases h),
    fun _ h ↦ (by cases h), fun _ h ↦ (by cases h)⟩
  leads := ⟨List.isChain_nil, fun _ h ↦ (by cases h)⟩
  settles _ := .inr rfl

theorem recorded_of_keeps {state : State} {operation : Operation}
    (h : Keeps codec state (perform codec state operation)) : Recorded codec state operation := by
  intro hchanged
  cases h.outcome with
  | same hshown hevents => exact absurd hshown hchanged
  | event event hevents hprevious hcurrent => exact ⟨event, hevents, hprevious, hcurrent⟩

/-- An application reads no checks; before it writes, a failure is persisted. -/
def overtakenApplication : List Operation :=
  [.tick 60000, .setMaintenance none "token", .advance 0, .advance 0, .advance 0,
    .call firstMinute, .advanceCall 0, .advanceCall 0, .advanceCall 0, .advance 0]

def checkedService : Service where
  id := "service"
  workspaceId := "workspace"
  workspacePk := 1
  telemetryPk := 1
  maintenanceUntil := none
  deleted := false

/-- The service is unknown in the end, with a check that is down; the event of the application does
not begin with the state with which the one of the failure ends, and both other parts fail too. -/
theorem overtakenApplication_not_tracked :
    ¬ Tracked sampleCodec (start 0 checkedService) overtakenApplication ∧
      ¬ Chained (run (step sampleCodec) (start 0 checkedService) overtakenApplication) ∧
      ¬ Consistent (run (step sampleCodec) (start 0 checkedService) overtakenApplication) := by
  have hchained :
      ¬ Chained (run (step sampleCodec) (start 0 checkedService) overtakenApplication) := by
    decide +kernel
  have hconsistent :
      ¬ Consistent (run (step sampleCodec) (start 0 checkedService) overtakenApplication) := by
    decide +kernel
  exact ⟨fun h ↦ hchained (visits_run h.chained), hchained, hconsistent⟩

/-- In a run in which every writer finishes with reads that are current, each change of the state
of the service has one event, the events chain, and with no writer under way the state is the
aggregate of the rows and the maintenance. -/
theorem tracked_of_careful (codec : CheckCodec) (clock : ℤ) (service : Service)
    (operations : List Operation)
    (h : Along (step codec) (Careful codec) (start clock service) operations) :
    Tracked codec (start clock service) operations := by
  have hstep : ∀ state operation, Sound codec state → Careful codec state operation →
      Sound codec (step codec state operation) :=
    fun _ operation hsound hcareful ↦ hsound.step_of_keeps (hsound.keeps operation hcareful)
  have hsound := visits_of_along hstep (sound_start codec clock service) h
  refine ⟨?_, visits_mono (fun _ hstate ↦ hstate.leads.chained) hsound,
    visits_mono (fun _ hstate ↦ hstate.consistent) hsound⟩
  exact along_of_along hstep (fun _ operation hstate hcareful ↦
    recorded_of_keeps (hstate.keeps operation hcareful)) (sound_start codec clock service) h

/-- A check is created and fails, the service is put in maintenance, and a pass ends it. -/
def writersInTurn : List Operation :=
  [.tick 60000, .configure ⟨"check", "workspace", "service", 1, true, true, false, 1⟩ "first",
    .advance 0, .advance 0, .advance 0, .advance 0, .advance 0, .call firstMinute, .advanceCall 0,
    .advanceCall 0, .advanceCall 0, .setMaintenance (some 100000) "second", .advance 1, .advance 1,
    .advance 1, .advance 1, .tick 100000, .pass 1 0, .advance 2, .advance 2, .advance 2, .advance 2]

theorem tracked_of_careful_writersInTurn :
    Tracked sampleCodec (start 0 checkedService) writersInTurn ∧
      (run (step sampleCodec) (start 0 checkedService) writersInTurn).quiet = true ∧
      (run (step sampleCodec) (start 0 checkedService) writersInTurn).events.length = 4 :=
  ⟨tracked_of_careful sampleCodec 0 checkedService writersInTurn (by decide +kernel),
    by decide +kernel, by decide +kernel⟩

end AlphaPing.Checks.Writers
