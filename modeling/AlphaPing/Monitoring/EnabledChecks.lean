import AlphaPing.Monitoring.Handlers

/-!
# Services keep an enabled check

The policy of a check disables it only when another enabled check of the service remains, and says
so. The deletion of a check asks for another check, enabled or not, and the finalization of a
machine disables the checks of its agents without asking; both can leave a service without an
enabled check. A service that was deleted in the meantime shows it when it is restored.
-/

namespace AlphaPing.Monitoring.EnabledChecks

open Library.Runs Library.Tables Library.Workflows Control ServiceConfig Handlers

/-- The check is enabled and belongs to the service. -/
def monitors (service : ServiceRow) (check : CheckRow) : Bool :=
  check.serviceId = service.id && check.enabled

def HasEnabledCheck (db : ControlDb) (service : ServiceRow) : Prop :=
  ∃ check ∈ db.checks, monitors service check = true

/-- Every service that is not deleted has an enabled check. -/
def Monitored (db : ControlDb) : Prop :=
  ∀ service ∈ db.services, service.deletedAt = none → HasEnabledCheck db service

instance (db : ControlDb) : Decidable (Monitored db) :=
  inferInstanceAs (Decidable (∀ service ∈ db.services, service.deletedAt = none →
    ∃ check ∈ db.checks, monitors service check = true))

/-- The guard of a policy, for a deletion: an enabled check is deleted only when its service,
unless it is deleted itself, has another one. -/
def LeavesEnabled (db : ControlDb) (workspaceId : String) (update : DeleteCheck) : Prop :=
  ∀ check ∈ db.checks, deletable db workspaceId update check = true →
    ∀ service ∈ db.services, service.deletedAt = none → monitors service check = true →
      ∃ remaining ∈ db.checks, monitors service remaining = true ∧ remaining.id ≠ check.id

/-- What the batches have to meet besides their own guards. -/
def KeepsEnabled (db : ControlDb) : Batch → Prop
  | .deleteCheck workspaceId update => LeavesEnabled db workspaceId update
  | .finalizeMachineControl _ machineId _ => ∀ service ∈ db.services, service.deletedAt = none →
    ∃ check ∈ db.checks, monitors service check = true ∧ onMachine db machineId check = false
  | .restore _ .service serviceId _ _ => ∀ service ∈ db.services, service.id = serviceId →
    HasEnabledCheck db service
  | _ => True

instance (db : ControlDb) : (batch : Batch) → Decidable (KeepsEnabled db batch)
  | .deleteCheck workspaceId update => inferInstanceAs (Decidable (∀ check ∈ db.checks,
      deletable db workspaceId update check = true → ∀ service ∈ db.services,
        service.deletedAt = none → monitors service check = true → ∃ remaining ∈ db.checks,
          monitors service remaining = true ∧ remaining.id ≠ check.id))
  | .finalizeMachineControl _ machineId _ => inferInstanceAs (Decidable (∀ service ∈ db.services,
      service.deletedAt = none → ∃ check ∈ db.checks, monitors service check = true ∧
        onMachine db machineId check = false))
  | .restore _ .service serviceId _ _ => inferInstanceAs (Decidable (∀ service ∈ db.services,
      service.id = serviceId → ∃ check ∈ db.checks, monitors service check = true))
  | .restore _ .machine _ _ _ => isTrue trivial
  | .createService .. => isTrue trivial
  | .addCheck .. => isTrue trivial
  | .replaceCheck .. => isTrue trivial
  | .updatePolicy .. => isTrue trivial
  | .softDelete .. => isTrue trivial
  | .claimWorkspace .. => isTrue trivial
  | .claimResource .. => isTrue trivial
  | .finalizeServiceControl .. => isTrue trivial
  | .administer .. => isTrue trivial

/-! ## The invariant -/

structure Inv (db : ControlDb) : Prop where
  monitored : Monitored db
  unique : UniqueKey ServiceRow.id db.services

section Batches

variable {db after : ControlDb} {workspaceId : String} {changes : ℕ}

theorem permits_advanceAgentConfiguration (condition : Bool) (machineId : Option String)
    (conditions : List FinalCondition) :
    (advanceAgentConfiguration db workspaceId condition machineId).permits workspaceId conditions =
      db.permits workspaceId conditions := by
  cases machineId <;> rfl

theorem Inv.of_checks (hinv : Inv db) (hservices : after.services = db.services)
    (h : ∀ service ∈ db.services, service.deletedAt = none → HasEnabledCheck db service →
      HasEnabledCheck after service) : Inv after := by
  refine ⟨fun service hservice halive ↦ ?_, hservices ▸ hinv.unique⟩
  rw [hservices] at hservice
  exact h service hservice halive (hinv.monitored service hservice halive)

theorem HasEnabledCheck.mono {service : ServiceRow} (h : HasEnabledCheck db service)
    (hchecks : ∀ check ∈ db.checks, check ∈ after.checks) : HasEnabledCheck after service := by
  obtain ⟨check, hcheck, hmonitors⟩ := h
  exact ⟨check, hchecks check hcheck, hmonitors⟩

theorem HasEnabledCheck.update {service : ServiceRow} {condition : CheckRow → Bool}
    {change : CheckRow → CheckRow} (hchecks : after.checks = updateWhere condition change db.checks)
    (h : HasEnabledCheck db service)
    (hchange : ∀ check ∈ db.checks, condition check = true → monitors service check = true →
      monitors service (change check) = true ∨
        ∃ other ∈ db.checks, condition other = false ∧ monitors service other = true) :
    HasEnabledCheck after service := by
  obtain ⟨check, hcheck, hmonitors⟩ := h
  rw [HasEnabledCheck, hchecks]
  cases hcondition : condition check with
  | false => exact ⟨check, mem_updateWhere_of_not hcheck hcondition, hmonitors⟩
  | true =>
    rcases hchange check hcheck hcondition hmonitors with hstays | ⟨other, hother, hkept, hmonitor⟩
    · exact ⟨change check, mem_updateWhere.mpr ⟨check, hcheck, .inl ⟨hcondition, rfl⟩⟩, hstays⟩
    · exact ⟨other, mem_updateWhere_of_not hother hkept, hmonitor⟩

theorem insertCheck_monitored {new : NewCheck} {condition : Bool} (hinv : Inv db)
    (h : insertCheck db workspaceId new condition = some (after, changes)) : Inv after := by
  rcases insertCheck_cases h with ⟨rfl, -, -⟩ | ⟨revision, -, -, -, hchecks, -, hservices⟩
  · exact hinv
  · refine hinv.of_checks hservices fun service _ _ henabled ↦ henabled.mono fun check hcheck ↦ ?_
    rw [hchecks]
    exact List.mem_append_left _ hcheck

theorem createServiceBatch_monitored {service : NewService} {check : NewCheck}
    {conditions : List FinalCondition} (hinv : Inv db)
    (h : createServiceBatch db workspaceId service check conditions = some (after, changes)) :
    Inv after := by
  obtain ⟨⟨inserted, count⟩, hservice, hcheck⟩ := Option.bind_eq_some_iff.mp h
  obtain ⟨⟨created, count'⟩, hcreated, heq⟩ := Option.map_eq_some_iff.mp hcheck
  obtain ⟨rfl, -⟩ := Prod.mk.inj heq
  dsimp only at hcreated ⊢
  obtain ⟨hchecks, -, hservices⟩ := insertService_cases hservice
  rw [checks_advanceAgentConfiguration] at hchecks
  rw [services_advanceAgentConfiguration] at hservices
  rcases hservices with hsame | ⟨hfresh, hnew⟩
  · refine insertCheck_monitored (hinv.of_checks hsame fun other _ _ henabled ↦ ?_) hcreated
    exact henabled.mono fun row hrow ↦ hchecks ▸ hrow
  · have hthere : hasService inserted workspaceId service.id = true :=
      List.any_eq_true.mpr ⟨_, hnew ▸ List.mem_append_right _ (List.mem_singleton_self _), by simp⟩
    rcases insertCheck_cases hcreated with ⟨-, -, hskipped⟩ |
      ⟨revision, -, -, -, hrows, -, hkept⟩
    · rw [Bool.true_and, hthere] at hskipped
      cases hskipped
    · rw [hchecks] at hrows
      rw [hnew] at hkept
      refine ⟨fun other hother halive ↦ ?_, ?_⟩
      · rw [hkept] at hother
        rcases List.mem_append.mp hother with hold | hlast
        · exact (hinv.monitored other hold halive).mono fun row hrow ↦
            hrows ▸ List.mem_append_left _ hrow
        · rw [List.mem_singleton.mp hlast]
          refine ⟨_, hrows ▸ List.mem_append_right _ (List.mem_singleton_self _), ?_⟩
          simp [monitors, NewCheck.row]
      · rw [hkept]
        exact uniqueKey_append_singleton hinv.unique hfresh

theorem replaceCheckBatch_monitored {update : ReplaceCheck} (hinv : Inv db)
    (h : replaceCheckBatch db workspaceId update = some (after, changes)) : Inv after := by
  obtain ⟨⟨updated, count⟩, hupdate, heq⟩ := Option.map_eq_some_iff.mp h
  obtain ⟨hupdated, -⟩ := updateChecks_cases hupdate
  have hsame : after.checks = updated.checks ∧ after.services = updated.services := by
    obtain ⟨rfl, -⟩ := Prod.mk.inj heq
    split <;> exact ⟨rfl, rfl⟩
  rw [hupdated] at hsame
  refine hinv.of_checks (hsame.2.trans (services_advanceAgentConfiguration _ _))
    fun service _ _ henabled ↦ ?_
  refine henabled.update (hsame.1.trans (by rw [checks_advanceAgentConfiguration])) ?_
  exact fun check _ _ hmonitors ↦ .inl hmonitors

theorem updatePolicyBatch_monitored {update : UpdatePolicy} (hinv : Inv db)
    (h : updatePolicyBatch db workspaceId update = some (after, changes)) : Inv after := by
  obtain ⟨hafter, -⟩ := updateChecks_cases h
  refine hinv.of_checks (by rw [hafter, services_advanceAgentConfiguration])
    fun service _ _ henabled ↦ ?_
  refine henabled.update (by rw [hafter, checks_advanceAgentConfiguration]) ?_
  intro check _ hcondition hmonitors
  simp only [monitors, Bool.and_eq_true, decide_eq_true_eq] at hmonitors ⊢
  simp only [Bool.and_eq_true, decide_eq_true_eq, Bool.or_eq_true, List.any_eq_true]
    at hcondition
  rcases hcondition.2 with hkeeps | ⟨remaining, hremaining, hmatch⟩
  · exact .inl ⟨hmonitors.1, hkeeps⟩
  · refine .inr ⟨remaining, hremaining, ?_, hmatch.1.1.1.trans hmonitors.1, hmatch.2⟩
    have hother : remaining.id ≠ update.checkId := fun heq ↦
      hmatch.1.2 (heq.trans hcondition.1.1.1.1.1.symm)
    simp [hother]

theorem deleteCheckBatch_monitored {update : DeleteCheck} (hinv : Inv db)
    (hleaves : LeavesEnabled db workspaceId update) :
    Inv (deleteCheckBatch db workspaceId update).1 := by
  have hdeletable : deletable (advanceAgentConfiguration db workspaceId
      (db.permits workspaceId update.machineConditions) update.machineId) workspaceId update =
        deletable db workspaceId update := by
    funext check
    rw [deletable, deletable, permits_advanceAgentConfiguration, checks_advanceAgentConfiguration]
  have hbatch : (deleteCheckBatch db workspaceId update).1.services = db.services ∧
      (deleteCheckBatch db workspaceId update).1.checks =
        db.checks.filter fun check ↦ !deletable db workspaceId update check := by
    rw [deleteCheckBatch]
    dsimp only
    rw [hdeletable]
    split <;> simp [deleteChecks]
  refine hinv.of_checks hbatch.1 fun service hservice halive henabled ↦ ?_
  obtain ⟨check, hcheck, hmonitors⟩ := henabled
  rw [HasEnabledCheck, hbatch.2]
  cases hdeleted : deletable db workspaceId update check with
  | false => exact ⟨check, List.mem_filter.mpr ⟨hcheck, by simp [hdeleted]⟩, hmonitors⟩
  | true =>
    obtain ⟨remaining, hremaining, hmonitor, hother⟩ :=
      hleaves check hcheck hdeleted service hservice halive hmonitors
    refine ⟨remaining, List.mem_filter.mpr ⟨hremaining, ?_⟩, hmonitor⟩
    simp only [deletable, Bool.and_eq_true, decide_eq_true_eq] at hdeleted
    have hkept : remaining.id ≠ update.checkId := fun heq ↦
      hother (heq.trans hdeleted.1.1.1.1.symm)
    simp [deletable, hkept]

theorem finalizeMachineControlBatch_monitored {policy : SoftDeletePolicy} {machineId : String}
    {cutoff : ℤ} (hinv : Inv db) (hkeeps : ∀ service ∈ db.services, service.deletedAt = none →
      ∃ check ∈ db.checks, monitors service check = true ∧
        onMachine db machineId check = false) :
    Inv (finalizeMachineControlBatch db policy machineId cutoff) := by
  refine hinv.of_checks rfl fun service hservice halive _ ↦ ?_
  obtain ⟨check, hcheck, hmonitors, hstays⟩ := hkeeps service hservice halive
  exact ⟨check, mem_updateWhere_of_not hcheck hstays, hmonitors⟩

theorem finalizeServiceControlBatch_monitored {policy : SoftDeletePolicy} {serviceId : String}
    {cutoff : ℤ} (hinv : Inv db) :
    Inv (finalizeServiceControlBatch db policy serviceId cutoff) := by
  rw [finalizeServiceControlBatch]
  dsimp only
  split
  · rename_i hpurged
    refine ⟨fun service hservice halive ↦ ?_, hinv.unique.filter _⟩
    obtain ⟨hold, hkept⟩ := List.mem_filter.mp hservice
    obtain ⟨check, hcheck, hmonitors⟩ := hinv.monitored service hold halive
    refine ⟨check, List.mem_filter.mpr ⟨hcheck, ?_⟩, hmonitors⟩
    -- The purged service is the only one with its identifier.
    obtain ⟨purged, hmem, hmatch⟩ := List.any_eq_true.mp hpurged
    have hother : check.serviceId ≠ serviceId := by
      intro heq
      simp only [monitors, Bool.and_eq_true, decide_eq_true_eq] at hmonitors
      have hsame : service = purged := by
        refine hinv.unique.eq_of_mem hold hmem (hmonitors.1.symm.trans (heq.trans ?_))
        simp only [Bool.and_eq_true, decide_eq_true_eq] at hmatch
        exact hmatch.1.1.1.symm
      rw [hsame, hmatch] at hkept
      cases hkept
    simpa using hother
  · exact hinv

/-- Marks of deletion that leave no service alive that was not, but for the one named. -/
theorem updateDeletion_monitored {resourceType : ManagedResourceType} {resourceId : String}
    {condition : Option ℤ → Option ℤ → Bool}
    {change : Option ℤ → Option ℤ → Option ℤ × Option ℤ} (hinv : Inv db)
    (h : resourceType = .service → ∀ service ∈ db.services, service.id = resourceId →
      service.deletedAt ≠ none → (change service.deletedAt service.purgeStartedAt).1 = none →
        HasEnabledCheck db service) :
    Inv (updateDeletion db resourceType workspaceId resourceId condition change).1 := by
  cases resourceType with
  | machine => exact hinv.of_checks rfl fun service _ _ henabled ↦ henabled
  | service =>
    refine ⟨fun service hservice halive ↦ ?_, hinv.unique.updateWhere fun _ ↦ rfl⟩
    obtain ⟨old, hold, ⟨hmatch, rfl⟩ | ⟨-, rfl⟩⟩ := mem_updateWhere.mp hservice
    · simp only [Bool.and_eq_true, decide_eq_true_eq] at hmatch
      by_cases hwas : old.deletedAt = none
      · exact hinv.monitored old hold hwas
      · exact h rfl old hold hmatch.1.1 hwas halive
    · exact hinv.monitored service hold halive

theorem execute_monitored {batch : Batch} (hinv : Inv db) (hkeeps : KeepsEnabled db batch)
    (h : execute db batch = some (after, changes)) : Inv after := by
  cases batch with
  | createService workspaceId service check conditions => exact createServiceBatch_monitored hinv h
  | addCheck workspaceId check machineConditions checkConditions =>
    refine insertCheck_monitored (hinv.of_checks (services_advanceAgentConfiguration _ _)
      fun service _ _ henabled ↦ ?_) h
    exact henabled.mono fun row hrow ↦ by rwa [checks_advanceAgentConfiguration]
  | replaceCheck workspaceId update => exact replaceCheckBatch_monitored hinv h
  | updatePolicy workspaceId update => exact updatePolicyBatch_monitored hinv h
  | deleteCheck workspaceId update =>
    obtain rfl := congrArg Prod.fst (Option.some.inj h)
    exact deleteCheckBatch_monitored hinv hkeeps
  | softDelete workspaceId resourceType resourceId now conditions =>
    obtain rfl := congrArg Prod.fst (Option.some.inj h)
    exact updateDeletion_monitored hinv fun _ _ _ _ _ hnone ↦ nomatch hnone
  | restore workspaceId resourceType resourceId deletedAt conditions =>
    rw [execute, restoreBatch] at h
    split at h
    · obtain rfl := congrArg Prod.fst (Option.some.inj h)
      refine updateDeletion_monitored hinv ?_
      rintro rfl service hservice hid - -
      exact hkeeps service hservice hid
    · cases h
  | claimWorkspace policy now cutoff =>
    obtain rfl := congrArg Prod.fst (Option.some.inj h)
    exact hinv.of_checks rfl fun service _ _ henabled ↦ henabled
  | claimResource policy resourceType resource now cutoff =>
    obtain rfl := congrArg Prod.fst (Option.some.inj h)
    exact updateDeletion_monitored hinv fun _ _ _ _ hdeleted hnone ↦ absurd hnone hdeleted
  | finalizeMachineControl policy machineId cutoff =>
    obtain rfl := congrArg Prod.fst (Option.some.inj h)
    exact finalizeMachineControlBatch_monitored hinv hkeeps
  | finalizeServiceControl policy serviceId cutoff =>
    obtain rfl := congrArg Prod.fst (Option.some.inj h)
    exact finalizeServiceControlBatch_monitored hinv
  | administer workspaces memberships grants machines agents =>
    obtain rfl := congrArg Prod.fst (Option.some.inj h)
    exact hinv.of_checks rfl fun service _ _ henabled ↦ henabled

theorem perform_monitored (db : ControlDb) (batch : Batch) (hinv : Inv db)
    (hkeeps : KeepsEnabled db batch) : Inv (perform batch db).1 := by
  rcases perform_cases batch db with hsame | ⟨changes, hexecute⟩
  · rwa [hsame]
  · exact execute_monitored hinv hkeeps hexecute

end Batches

/-! ## Runs -/

/-- Any interleaving of requests with its failures leaves every service monitored, when each
deletion and each finalization leaves an enabled check to the services that are not deleted, and
no service is restored that has none. -/
theorem monitored_of_keepsEnabled {db : ControlDb} (hdb : Inv db) {actions : List (Action Request)}
    (hkeeps : Along (step handle perform) (Performs KeepsEnabled) (start db) actions) :
    Visits (step handle perform) (fun system ↦ Monitored system.store) (start db) actions :=
  visits_mono (fun _ hinv ↦ hinv.monitored)
    (visits_of_performs (P := Inv) perform_monitored hdb hkeeps)

theorem inv_emptyControl : Inv emptyControl where
  monitored := fun _ hservice ↦ absurd hservice List.not_mem_nil
  unique := uniqueKey_nil

theorem monitored_of_keepsEnabled_twoChecks :
    Visits (step handle perform) (fun system ↦ Monitored system.store)
      (start emptyControl) twoChecks :=
  monitored_of_keepsEnabled inv_emptyControl (by decide +kernel)

/-- The disabled check lets the deletion of the enabled one through. -/
def lastEnabledDeleted : List (Action Request) :=
  twoChecks ++ served 4 4 (.deleteServiceCheck ⟨operator, "service", "first"⟩)

theorem lastEnabledDeleted_unmonitored :
    ¬ Visits (step handle perform) (fun system ↦ Monitored system.store)
      (start emptyControl) lastEnabledDeleted := by
  intro hvisits
  have hmonitored := visits_run hvisits
  revert hmonitored
  decide +kernel

end AlphaPing.Monitoring.EnabledChecks
