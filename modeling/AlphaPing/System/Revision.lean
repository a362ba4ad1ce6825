import AlphaPing.System.Joint

/-!
# The window of configuration revisions

`handle_report` refuses a report that was built below the revision which the agent is known to
have applied, or above the one that is wanted. The upper bound is an invariant of the two
parties. The lower bound is not: an enrolled agent is known to have applied the revision wanted at
that moment, but its spool starts at zero and leaves zero only with an acknowledgement; and a
report of a later minute that overtakes one of the backlog moves the bound past it.
-/

namespace AlphaPing.System.Joint

open Library.Runs Agent Ingest.CheckResults Ingest.Requests Ingest.Report

variable {codec : ResultCodec}

/-! ## The upper bound -/

/-- No party knows of a revision beyond the desired one. -/
structure Bounded (parties : Parties) : Prop where
  coherent : Coherent parties
  agent_le : parties.spool.core.revision ≤ parties.database.desiredConfigRevision
  applied_le : parties.database.appliedConfigRevision ≤ parties.database.desiredConfigRevision
  answers_le : ∀ answer ∈ parties.answers, ∀ ack, answer.2 = .ok ack →
    ack.configRevision ≤ parties.database.desiredConfigRevision

theorem bounded_enrolled (database : Database) : Bounded (enrolled database) where
  coherent := coherent_enrolled database
  agent_le := Nat.zero_le _
  applied_le := le_rfl
  answers_le _ h := absurd h List.not_mem_nil

theorem handleReport_revisions (codec : ResultCodec) (db : Database) (request : Request)
    (now : ℤ) (attachments : Attachments) (failing : Option Stage) :
    let handled := handleReport codec db request now attachments failing
    handled.2.desiredConfigRevision = db.desiredConfigRevision ∧
      (handled.1.isOk = false ∧ handled.2.appliedConfigRevision = db.appliedConfigRevision ∨
        handled.1.isOk = true ∧ Admitted db request now ∧
          handled.2.appliedConfigRevision =
            max db.appliedConfigRevision request.report.appliedConfigRevision ∧
          ∀ ack, handled.1 = .ok ack → ack.configRevision ≤ db.desiredConfigRevision) := by
  have hcase := handleReport_cases codec db request now attachments failing
  generalize handleReport codec db request now attachments failing = handled at hcase
  cases hcase with
  | refused | claimed | synchronised | probed | stored => exact ⟨rfl, .inl ⟨rfl, rfl⟩⟩
  | acknowledged replay catalog checkTables tables duplicate hadmitted =>
    refine ⟨rfl, .inr ⟨rfl, hadmitted, raisedRevision_eq_max db request.report, ?_⟩⟩
    rintro ack ⟨⟩
    exact offeredConfig_le now hadmitted.revision.2

theorem ControlChange.revisions (change : ControlChange) (db : Database) :
    (change.apply db).desiredConfigRevision = db.desiredConfigRevision + 1 ∧
      (change.apply db).appliedConfigRevision = db.appliedConfigRevision := by
  cases change <;> exact ⟨rfl, rfl⟩

variable (codec) in
theorem bounded_step {parties : Parties} (h : Bounded parties) (action : Action) :
    Bounded (step codec parties action) := by
  have hcoherent := coherent_step codec h.coherent action
  have hcase := step_cases codec h.coherent.wellformed action
  generalize step codec parties action = next at hcoherent hcase ⊢
  cases hcase with
  | quiet action spool upload hcore =>
    exact ⟨hcoherent, hcore ▸ h.agent_le, h.applied_le, h.answers_le⟩
  | snapshot inventory nowMs =>
    refine ⟨hcoherent, ?_, h.applied_le, h.answers_le⟩
    rw [Spool.core_appendContainerInventory]
    exact h.agent_le
  | result result nowMs =>
    refine ⟨hcoherent, ?_, h.applied_le, h.answers_le⟩
    rw [Spool.core_appendProbeResult]
    exact h.agent_le
  | created reportId nowMs minute parked hcore =>
    refine ⟨hcoherent, ?_, h.applied_le, h.answers_le⟩
    rw [Spool.core_insertDelivery, hcore]
    exact h.agent_le
  | sent keyEpoch sequence nowMs nextAttemptAt spool frozen hcore =>
    exact ⟨hcoherent, hcore ▸ h.agent_le, h.applied_le, h.answers_le⟩
  | handled index request now attachments failing =>
    obtain ⟨hdesired, hresult⟩ :=
      handleReport_revisions codec parties.database request now attachments failing
    refine ⟨hcoherent, ?_, ?_, fun answer hanswer ack hack ↦ ?_⟩
    · exact h.agent_le.trans_eq hdesired.symm
    · rcases hresult with ⟨-, happlied⟩ | ⟨-, hadmitted, happlied, -⟩
      · exact (happlied.trans_le h.applied_le).trans_eq hdesired.symm
      · refine (happlied.trans_le ?_).trans_eq hdesired.symm
        exact max_le h.applied_le hadmitted.revision.2
    · refine le_of_le_of_eq ?_ hdesired.symm
      rcases List.mem_append.mp hanswer with hold | hnew
      · exact h.answers_le answer hold ack hack
      · obtain rfl := List.mem_singleton.mp hnew
        have hack : (handleReport codec parties.database request now attachments failing).1 =
            .ok ack := hack
        rcases hresult with ⟨hfailed, -⟩ | ⟨-, -, -, hbound⟩
        · rw [hack] at hfailed
          cases hfailed
        · exact hbound ack hack
  | received index nowMs retryAt progress request result spool hupload hanswer hfinish =>
    refine ⟨hcoherent, ?_, h.applied_le, h.answers_le⟩
    cases hfinish with
    | kept hcore => exact hcore ▸ h.agent_le
    | configured ack hresult hcore =>
      rw [hcore]
      exact max_le h.agent_le (h.answers_le _ hanswer ack hresult)
    | acknowledged ack hresult hcore =>
      rw [hcore]
      exact max_le h.agent_le (h.answers_le _ hanswer ack hresult)
  | control change =>
    obtain ⟨hdesired, happlied⟩ := change.revisions parties.database
    have hle : parties.database.desiredConfigRevision ≤
        (change.apply parties.database).desiredConfigRevision :=
      (Nat.le_succ _).trans_eq hdesired.symm
    refine ⟨hcoherent, h.agent_le.trans hle, ?_, fun answer hanswer ack hack ↦ ?_⟩
    · exact (happlied.trans_le h.applied_le).trans hle
    · exact (h.answers_le answer hanswer ack hack).trans hle

/-! ## The window -/

/-- The revision of every report in the spool passes the check of `handle_report`. -/
def Windowed (parties : Parties) : Prop :=
  ∀ row ∈ parties.spool.deliveries, revisionAdmitted parties.database.agentKey row.payload = true

instance (parties : Parties) : Decidable (Windowed parties) :=
  inferInstanceAs (Decidable (∀ row ∈ parties.spool.deliveries, _ = true))

theorem windowed_iff (parties : Parties) :
    Windowed parties ↔ ∀ frozen ∈ parties.spool.core.reports,
      parties.database.appliedConfigRevision ≤ frozen.report.appliedConfigRevision ∧
        frozen.report.appliedConfigRevision ≤ parties.database.desiredConfigRevision := by
  simp [Windowed, revisionAdmitted_iff, Spool.core, DeliveryRow.frozen, Database.agentKey]

/-- A report is created by an agent that is not behind what the worker knows of it, and a report
is accepted before every undeleted one of a lower revision. -/
def RevisionOrdered (codec : ResultCodec) (parties : Parties) : Action → Prop
  | .create reportId nowMs => Creates codec parties reportId nowMs →
    parties.database.appliedConfigRevision ≤ parties.spool.appliedConfigRevision
  | .handle index now attachments failing => ∀ request, parties.sent[index]? = some request →
    (handleReport codec parties.database request now attachments failing).1.isOk →
      ∀ row ∈ parties.spool.deliveries,
        request.report.appliedConfigRevision ≤ row.payload.appliedConfigRevision
  | _ => True

theorem Inert.revisionOrdered {parties : Parties} {action : Action}
    (h : Inert codec parties action) : RevisionOrdered codec parties action := by
  cases action with
  | create reportId nowMs => exact fun hcreates ↦ absurd hcreates h
  | handle index now attachments failing =>
    intro request hrequest
    rw [h] at hrequest
    cases hrequest
  | call | send | receive | lose | restart | control => trivial

theorem windowed_step_iff {parties : Parties} (h : Bounded parties) (hwindow : Windowed parties)
    (action : Action) :
    Windowed (step codec parties action) ↔ RevisionOrdered codec parties action := by
  have hcase := step_cases codec h.coherent.wellformed action
  generalize step codec parties action = next at hcase ⊢
  rw [windowed_iff] at hwindow ⊢
  cases hcase with
  | quiet action spool upload hcore hupload hinert =>
    exact iff_of_true (fun frozen hfrozen ↦ hwindow frozen (hcore ▸ hfrozen))
      hinert.revisionOrdered
  | snapshot inventory nowMs =>
    rw [Spool.core_appendContainerInventory]
    exact iff_of_true hwindow trivial
  | result result nowMs =>
    rw [Spool.core_appendProbeResult]
    exact iff_of_true hwindow trivial
  | created reportId nowMs minute parked hcore hcreates =>
    have hrevision : parked.appliedConfigRevision = parties.spool.appliedConfigRevision :=
      congrArg Core.revision hcore
    rw [Spool.core_insertDelivery, hcore]
    constructor
    · intro hnext _
      have hnew := hnext _ (List.mem_append_right _ (List.mem_singleton_self _))
      exact hnew.1.trans_eq hrevision
    · intro hordered frozen hfrozen
      rcases List.mem_append.mp hfrozen with hold | hnew
      · exact hwindow frozen hold
      · rw [List.mem_singleton.mp hnew]
        refine ⟨(hordered hcreates).trans_eq hrevision.symm, ?_⟩
        exact hrevision.trans_le h.agent_le
  | sent keyEpoch sequence nowMs nextAttemptAt spool frozen hcore =>
    exact iff_of_true (fun other hother ↦ hwindow other (hcore ▸ hother)) trivial
  | handled index request now attachments failing hrequest =>
    obtain ⟨hdesired, hresult⟩ :=
      handleReport_revisions codec parties.database request now attachments failing
    simp only [handleRequest, hdesired]
    rcases hresult with ⟨hfailed, happlied⟩ | ⟨hok, -, happlied, -⟩
    · rw [happlied]
      refine iff_of_true hwindow fun other hother hok ↦ ?_
      obtain rfl := Option.some.inj (hrequest.symm.trans hother)
      rw [hfailed] at hok
      cases hok
    · rw [happlied]
      constructor
      · intro hnext other hother _ row hrow
        obtain rfl := Option.some.inj (hrequest.symm.trans hother)
        exact (le_max_right _ _).trans (hnext row.frozen (List.mem_map_of_mem hrow)).1
      · intro hordered frozen hfrozen
        obtain ⟨row, hrow, rfl⟩ := List.mem_map.mp hfrozen
        obtain ⟨hlower, hupper⟩ := hwindow row.frozen hfrozen
        exact ⟨max_le hlower (hordered request hrequest hok row hrow), hupper⟩
  | received index nowMs retryAt progress request result spool hupload hanswer hfinish =>
    exact iff_of_true (fun frozen hfrozen ↦ hwindow frozen (hfinish.reports_subset hfrozen))
      trivial
  | control change =>
    obtain ⟨hdesired, happlied⟩ := change.revisions parties.database
    refine iff_of_true (fun frozen hfrozen ↦ ?_) trivial
    obtain ⟨hlower, hupper⟩ := hwindow frozen hfrozen
    exact ⟨happlied.trans_le hlower, (hupper.trans (Nat.le_succ _)).trans_eq hdesired.symm⟩

theorem visits_windowed_iff_of_bounded {start : Parties} (hstart : Bounded start)
    (hwindow : Windowed start) (actions : List Action) :
    Visits (step codec) Windowed start actions ↔
      Along (step codec) (RevisionOrdered codec) start actions := by
  have hinv := fun parties action (h : Bounded parties) (_ : Windowed parties)
    (_ : RevisionOrdered codec parties action) ↦ bounded_step codec h action
  exact visits_iff_along hinv (fun _ action h hwindow ↦ windowed_step_iff h hwindow action)
    hstart hwindow actions

theorem windowed_enrolled (database : Database) : Windowed (enrolled database) :=
  fun _ h ↦ absurd h List.not_mem_nil

variable (codec) in
/-- One sample, packed into a report after its minute, sent, handled and answered. -/
def firstReport : List Action :=
  [.call (.appendSample { observedAtMs := 0 } 10000), .create (List.replicate 16 1) 60000,
    .send 1 60000 120000, .handle 0 60000 {} none, .receive 0 60000 120000 .everything]

end AlphaPing.System.Joint
