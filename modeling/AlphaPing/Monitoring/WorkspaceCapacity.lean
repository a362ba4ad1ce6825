import AlphaPing.Monitoring.HandlerBatches

/-!
# The capacity of a workspace

A workspace has at most so many services and checks that are not deleted. A new service and a new
check are inserted under `finalWorkspaceMonitorCapacityCondition`; a deletion makes room, which
others may take. A restoration takes back what its service had without asking whether the room is
still there.
-/

namespace AlphaPing.Monitoring.WorkspaceCapacity

open Library.Runs Library.Tables Library.Workflows Control ServiceConfig Handlers HandlerBatches

/-! ## The counts -/

/-- The service is there and not deleted. -/
def undeleted (db : ControlDb) (serviceId : String) : Bool :=
  db.services.any fun service ↦ service.id = serviceId && service.deletedAt.isNone

def serviceCount (db : ControlDb) (workspaceId : String) : ℕ :=
  db.services.countP fun service ↦ service.workspaceId = workspaceId && service.deletedAt.isNone

/-- The checks of services that are not deleted. -/
def checkCount (db : ControlDb) (workspaceId : String) : ℕ :=
  db.checks.countP fun check ↦ check.workspaceId = workspaceId && undeleted db check.serviceId

structure WithinWorkspaces (db : ControlDb) : Prop where
  services : ∀ workspaceId, serviceCount db workspaceId ≤ maxWorkspaceServices
  checks : ∀ workspaceId, checkCount db workspaceId ≤ maxWorkspaceChecks

theorem monitorCapacity_iff {db : ControlDb} {workspaceId : String}
    {includeServiceCapacity : Bool} :
    db.monitorCapacity workspaceId includeServiceCapacity = true ↔
      (includeServiceCapacity = true → serviceCount db workspaceId < maxWorkspaceServices) ∧
        checkCount db workspaceId < maxWorkspaceChecks := by
  cases includeServiceCapacity <;> simp [ControlDb.monitorCapacity, serviceCount, checkCount,
    undeleted]

/-! ## The conditions that the handlers send -/

def DemandsCapacity : Batch → Prop
  | .createService _ _ _ conditions => .monitorCapacity true ∈ conditions
  | .addCheck _ _ _ conditions => .monitorCapacity false ∈ conditions
  | _ => True

/-- Every batch of the flow that inserts demands the capacity. -/
abbrev Careful (flow : Flow) : Prop := flow.Sends fun batch _ ↦ DemandsCapacity batch

theorem careful_handle (request : Request) : Careful (handle request) := by
  refine (sends_handle request).mono fun batch next h ↦ ?_
  cases h with
  | createServiceMonitor request workspaceId service check compiled =>
    exact List.mem_cons_of_mem _ (List.mem_singleton_self _)
  | addServiceCheck request workspaceId check conditions compiled =>
    exact List.mem_append_right _ (List.mem_singleton_self _)
  | finalizeControl request resourceType resourceId cutoff next =>
    cases resourceType <;> trivial
  | _ => trivial

/-! ## The invariant -/

structure Inv (db : ControlDb) : Prop where
  within : WithinWorkspaces db
  unique : UniqueKey ServiceRow.id db.services
  /-- The foreign key of a check. -/
  homed : ∀ check ∈ db.checks, ∃ service ∈ db.services, service.id = check.serviceId ∧
    service.workspaceId = check.workspaceId

section Steps

variable {db after : ControlDb} {workspaceId : String} {changes : ℕ}

theorem undeleted_congr (h : after.services = db.services) (serviceId : String) :
    undeleted after serviceId = undeleted db serviceId := by
  rw [undeleted, undeleted, h]

theorem serviceCount_congr (h : after.services = db.services) (workspaceId : String) :
    serviceCount after workspaceId = serviceCount db workspaceId := by
  rw [serviceCount, serviceCount, h]

theorem checkCount_congr (hservices : after.services = db.services)
    (hchecks : after.checks = db.checks) (workspaceId : String) :
    checkCount after workspaceId = checkCount db workspaceId := by
  simp only [checkCount, hchecks, undeleted_congr hservices]

theorem Inv.congr (hinv : Inv db) (hservices : after.services = db.services)
    (hchecks : after.checks = db.checks) : Inv after where
  within :=
    { services := fun id ↦ (serviceCount_congr hservices id).trans_le (hinv.within.services id)
      checks := fun id ↦ (checkCount_congr hservices hchecks id).trans_le (hinv.within.checks id) }
  unique := hservices ▸ hinv.unique
  homed := by
    rw [hservices, hchecks]
    exact hinv.homed

theorem Inv.updateChecks (hinv : Inv db) (hservices : after.services = db.services)
    {condition : CheckRow → Bool} {change : CheckRow → CheckRow}
    (hchecks : after.checks = updateWhere condition change db.checks)
    (hchange : ∀ check, (change check).workspaceId = check.workspaceId ∧
      (change check).serviceId = check.serviceId) : Inv after := by
  have hkeeps (check : CheckRow) :
      (if condition check then change check else check).workspaceId = check.workspaceId ∧
        (if condition check then change check else check).serviceId = check.serviceId := by
    split
    · exact hchange check
    · exact ⟨rfl, rfl⟩
  have hcount (id : String) : checkCount after id = checkCount db id := by
    rw [checkCount, checkCount, hchecks, updateWhere, List.countP_map]
    apply List.countP_congr
    intro check _
    simp only [Function.comp_apply, (hkeeps check).1, (hkeeps check).2, undeleted_congr hservices]
  refine ⟨⟨fun id ↦ ?_, fun id ↦ ?_⟩, hservices ▸ hinv.unique, ?_⟩
  · exact (serviceCount_congr hservices id).trans_le (hinv.within.services id)
  · exact (hcount id).trans_le (hinv.within.checks id)
  · rw [hservices, hchecks]
    intro check hcheck
    obtain ⟨old, hold, rfl⟩ := List.mem_map.mp hcheck
    rw [(hkeeps old).1, (hkeeps old).2]
    exact hinv.homed old hold

theorem Inv.filterChecks (hinv : Inv db) (hservices : after.services = db.services)
    {condition : CheckRow → Bool} (hchecks : after.checks = db.checks.filter condition) :
    Inv after := by
  refine ⟨⟨fun id ↦ ?_, fun id ↦ ?_⟩, hservices ▸ hinv.unique, ?_⟩
  · exact (serviceCount_congr hservices id).trans_le (hinv.within.services id)
  · calc
      checkCount after id = (db.checks.filter condition).countP fun check ↦
          check.workspaceId = id && undeleted db check.serviceId := by
        simp only [checkCount, hchecks, undeleted_congr hservices]
      _ ≤ checkCount db id := List.filter_sublist.countP_le
      _ ≤ maxWorkspaceChecks := hinv.within.checks id
  · rw [hservices, hchecks]
    exact fun check hcheck ↦ hinv.homed check (List.mem_of_mem_filter hcheck)

theorem insertCheck_inv {new : NewCheck} {condition : Bool} (hinv : Inv db)
    (hroom : condition = true → checkCount db workspaceId < maxWorkspaceChecks)
    (h : insertCheck db workspaceId new condition = some (after, changes)) : Inv after := by
  have hcondition : after = db ∨
      (condition = true ∧ hasService db workspaceId new.serviceId = true) := by
    rw [insertCheck] at h
    split at h
    · exact .inl (congrArg Prod.fst (Option.some.inj h)).symm
    · next hboth => exact .inr (by simpa using hboth)
  rcases hcondition with rfl | ⟨htrue, hservice⟩
  · exact hinv
  · rcases insertCheck_cases h with ⟨rfl, -, -⟩ | ⟨revision, -, -, -, hchecks, -, hservices⟩
    · exact hinv
    · refine ⟨⟨fun id ↦ ?_, fun id ↦ ?_⟩, hservices ▸ hinv.unique, ?_⟩
      · exact (serviceCount_congr hservices id).trans_le (hinv.within.services id)
      · have hcount : checkCount after id = checkCount db id +
            if workspaceId = id ∧ undeleted db new.serviceId = true then 1 else 0 := by
          simp only [checkCount, hchecks, undeleted_congr hservices, List.countP_append,
            List.countP_singleton, NewCheck.row, Bool.and_eq_true, decide_eq_true_eq]
        rw [hcount]
        split
        · next hid =>
          rw [← hid.1]
          exact hroom htrue
        · exact hinv.within.checks id
      · rw [hservices, hchecks]
        intro check hcheck
        rcases List.mem_append.mp hcheck with hold | hnew
        · exact hinv.homed check hold
        · rw [List.mem_singleton.mp hnew]
          obtain ⟨service, hmem, hmatch⟩ := List.any_eq_true.mp hservice
          simp only [Bool.and_eq_true, decide_eq_true_eq] at hmatch
          exact ⟨service, hmem, hmatch.1.1, hmatch.1.2⟩

theorem permits_monitorCapacity {conditions : List FinalCondition} {services : Bool}
    (hmem : .monitorCapacity services ∈ conditions) (h : db.permits workspaceId conditions = true) :
    db.monitorCapacity workspaceId services = true :=
  List.all_eq_true.mp h _ hmem

/-- Nothing, or a service in a workspace with room for it. Its checks are not there yet. -/
theorem insertService_inv {new : NewService} {condition : Bool} (hinv : Inv db)
    (hroom : condition = true → serviceCount db workspaceId < maxWorkspaceServices)
    (h : insertService db workspaceId new condition = some (after, changes)) :
    Inv after ∧ checkCount after workspaceId = checkCount db workspaceId := by
  cases condition with
  | false =>
    obtain rfl : db = after := congrArg Prod.fst (Option.some.inj h)
    exact ⟨hinv, rfl⟩
  | true =>
    obtain ⟨hchecks, -, hsame | ⟨hfresh, hnew⟩⟩ := insertService_cases h
    · exact ⟨hinv.congr hsame hchecks, checkCount_congr hsame hchecks _⟩
    · have hundeleted : ∀ check ∈ db.checks,
          undeleted after check.serviceId = undeleted db check.serviceId := by
        intro check hcheck
        obtain ⟨service, hservice, hid, -⟩ := hinv.homed check hcheck
        have hother : new.id ≠ check.serviceId := fun heq ↦
          hfresh service hservice (hid.trans heq.symm)
        rw [undeleted, hnew, List.any_append, ← undeleted]
        simp [hother]
      have hcount (id : String) : checkCount after id = checkCount db id := by
        rw [checkCount, checkCount, hchecks]
        apply List.countP_congr
        intro check hcheck
        rw [hundeleted check hcheck]
      have hservices (id : String) : serviceCount after id = serviceCount db id +
          if workspaceId = id then 1 else 0 := by
        simp only [serviceCount, hnew, List.countP_append, List.countP_singleton,
          Option.isNone_none, Bool.and_true, decide_eq_true_eq]
      refine ⟨⟨⟨fun id ↦ ?_, fun id ↦ ?_⟩, ?_, ?_⟩, hcount workspaceId⟩
      · rw [hservices id]
        split
        · next hid =>
          rw [← hid]
          exact hroom rfl
        · exact hinv.within.services id
      · exact (hcount id).trans_le (hinv.within.checks id)
      · rw [hnew]
        exact uniqueKey_append_singleton hinv.unique hfresh
      · rw [hnew, hchecks]
        intro check hcheck
        obtain ⟨service, hservice, hhome⟩ := hinv.homed check hcheck
        exact ⟨service, List.mem_append_left _ hservice, hhome⟩

/-- A service that is not inserted leaves its check without a service, if its identifier is new. -/
theorem hasService_of_not_inserted {new : NewService} {condition : Bool}
    (hfresh : ∀ service ∈ db.services, service.id ≠ new.id)
    (h : insertService db workspaceId new condition = some (after, changes))
    (hservice : hasService after workspaceId new.id = true) : condition = true := by
  cases condition with
  | true => rfl
  | false =>
    obtain rfl : db = after := congrArg Prod.fst (Option.some.inj h)
    obtain ⟨service, hmem, hmatch⟩ := List.any_eq_true.mp hservice
    simp only [Bool.and_eq_true, decide_eq_true_eq] at hmatch
    exact absurd hmatch.1.1 (hfresh service hmem)

/-- One service more, in a workspace with room for it and for its first check. -/
theorem createServiceBatch_inv {service : NewService} {check : NewCheck}
    {conditions : List FinalCondition} (hinv : Inv db) (hmem : .monitorCapacity true ∈ conditions)
    (hfresh : ∀ other ∈ db.services, other.id ≠ service.id)
    (h : createServiceBatch db workspaceId service check conditions = some (after, changes)) :
    Inv after := by
  rw [createServiceBatch] at h
  generalize hadvance : advanceAgentConfiguration db workspaceId
    (db.agentCapacity check.capacity && db.permits workspaceId conditions) check.machineId =
      advanced at h
  have hservices : advanced.services = db.services :=
    hadvance ▸ services_advanceAgentConfiguration _ _
  have hchecks : advanced.checks = db.checks := hadvance ▸ checks_advanceAgentConfiguration _ _
  have hadvanced : Inv advanced := hinv.congr hservices hchecks
  obtain ⟨⟨inserted, count⟩, hservice, hcheck⟩ := Option.bind_eq_some_iff.mp h
  obtain ⟨⟨created, count'⟩, hcreated, heq⟩ := Option.map_eq_some_iff.mp hcheck
  obtain ⟨rfl, -⟩ := Prod.mk.inj heq
  dsimp only at hcreated ⊢
  have hroom (hpermits : advanced.permits workspaceId conditions = true) :
      serviceCount advanced workspaceId < maxWorkspaceServices ∧
        checkCount advanced workspaceId < maxWorkspaceChecks := by
    have hcapacity := monitorCapacity_iff.mp (permits_monitorCapacity hmem hpermits)
    exact ⟨hcapacity.1 rfl, hcapacity.2⟩
  obtain ⟨hinserted, hcount⟩ :=
    insertService_inv hadvanced (fun hpermits ↦ (hroom hpermits).1) hservice
  rw [← hservices] at hfresh
  -- The check is inserted only with its service.
  cases hthere : hasService inserted workspaceId service.id with
  | true =>
    have hpermits := hasService_of_not_inserted hfresh hservice hthere
    refine insertCheck_inv hinserted (fun _ ↦ ?_) hcreated
    rw [hcount]
    exact (hroom hpermits).2
  | false =>
    rcases insertCheck_cases hcreated with ⟨rfl, -, -⟩ | ⟨revision, -, -, -, -, -, -⟩
    · exact hinserted
    · rw [insertCheck] at hcreated
      simp only [Bool.true_and, hthere, Bool.not_false, if_true] at hcreated
      obtain rfl : inserted = created := congrArg Prod.fst (Option.some.inj hcreated)
      exact hinserted

theorem addCheckBatch_inv {check : NewCheck} {machineConditions checkConditions :
    List FinalCondition} (hinv : Inv db) (hmem : .monitorCapacity false ∈ checkConditions)
    (h : addCheckBatch db workspaceId check machineConditions checkConditions =
      some (after, changes)) : Inv after := by
  refine insertCheck_inv (hinv.congr (services_advanceAgentConfiguration _ _)
    (checks_advanceAgentConfiguration _ _)) (fun hpermits ↦ ?_) h
  exact (monitorCapacity_iff.mp (permits_monitorCapacity hmem hpermits)).2

theorem replaceCheckBatch_inv {update : ReplaceCheck} (hinv : Inv db)
    (h : replaceCheckBatch db workspaceId update = some (after, changes)) : Inv after := by
  obtain ⟨⟨updated, count⟩, hupdate, heq⟩ := Option.map_eq_some_iff.mp h
  obtain ⟨hupdated, -⟩ := updateChecks_cases hupdate
  have hsame : after.checks = updated.checks ∧ after.services = updated.services := by
    obtain ⟨rfl, -⟩ := Prod.mk.inj heq
    split <;> exact ⟨rfl, rfl⟩
  rw [hupdated] at hsame
  refine hinv.updateChecks (hsame.2.trans (services_advanceAgentConfiguration _ _))
    (hsame.1.trans (by rw [checks_advanceAgentConfiguration])) ?_
  exact fun _ ↦ ⟨rfl, rfl⟩

theorem updatePolicyBatch_inv {update : UpdatePolicy} (hinv : Inv db)
    (h : updatePolicyBatch db workspaceId update = some (after, changes)) : Inv after := by
  obtain ⟨hafter, -⟩ := updateChecks_cases h
  refine hinv.updateChecks (by rw [hafter, services_advanceAgentConfiguration])
    (by rw [hafter, checks_advanceAgentConfiguration]) ?_
  exact fun _ ↦ ⟨rfl, rfl⟩

theorem deleteCheckBatch_inv {update : DeleteCheck} (hinv : Inv db) :
    Inv (deleteCheckBatch db workspaceId update).1 := by
  obtain ⟨condition, hchecks, -⟩ := deleteCheckBatch_checks db workspaceId update
  refine hinv.filterChecks ?_ hchecks
  rw [deleteCheckBatch]
  split <;> exact services_advanceAgentConfiguration _ _

/-! ### Deletions and restorations -/

/-- The row of `updateDeletion` comes back to life. -/
def revived (workspaceId resourceId : String) (condition : Option ℤ → Option ℤ → Bool)
    (change : Option ℤ → Option ℤ → Option ℤ × Option ℤ) (service : ServiceRow) : Bool :=
  service.id = resourceId && service.workspaceId = workspaceId &&
    condition service.deletedAt service.purgeStartedAt && service.deletedAt.isSome &&
    (change service.deletedAt service.purgeStartedAt).1.isNone

section Deletion

variable {resourceType : ManagedResourceType} {resourceId : String}
  {condition : Option ℤ → Option ℤ → Bool} {change : Option ℤ → Option ℤ → Option ℤ × Option ℤ}

theorem mem_services_updateDeletion {service : ServiceRow}
    (h : service ∈ (updateDeletion db .service workspaceId resourceId condition change).1.services)
    (halive : service.deletedAt = none) :
    ∃ old ∈ db.services, old.id = service.id ∧
      (old.deletedAt = none ∨ revived workspaceId resourceId condition change old = true) := by
  obtain ⟨old, hold, ⟨hmatch, rfl⟩ | ⟨-, rfl⟩⟩ := mem_updateWhere.mp h
  · refine ⟨old, hold, rfl, ?_⟩
    cases hdeleted : old.deletedAt with
    | none => exact .inl rfl
    | some deletedAt =>
      dsimp only at halive
      right
      rw [revived, hmatch, halive, hdeleted]
      rfl
  · exact ⟨_, hold, rfl, .inl halive⟩

theorem serviceCount_updateDeletion_le (id : String) :
    serviceCount (updateDeletion db .service workspaceId resourceId condition change).1 id ≤
      serviceCount db id + db.services.countP fun service ↦
        revived workspaceId resourceId condition change service && service.workspaceId = id := by
  rw [serviceCount, updateDeletion]
  dsimp only
  rw [updateWhere, List.countP_map]
  apply countP_le_add
  intro service hafter
  simp only [Function.comp_apply] at hafter
  split at hafter
  · next hmatch =>
    simp only [Bool.and_eq_true, decide_eq_true_eq] at hafter
    cases hdeleted : service.deletedAt with
    | none => simp [hafter.1]
    | some deletedAt =>
      right
      rw [revived, hmatch, hafter.2, hdeleted, decide_eq_true hafter.1]
      rfl
  · exact .inl hafter

theorem undeleted_updateDeletion {serviceId : String}
    (h : undeleted (updateDeletion db .service workspaceId resourceId condition change).1
      serviceId = true) :
    undeleted db serviceId = true ∨
      (serviceId = resourceId ∧
        (db.services.any (revived workspaceId resourceId condition change)) = true) := by
  obtain ⟨service, hmem, hmatch⟩ := List.any_eq_true.mp h
  simp only [Bool.and_eq_true, decide_eq_true_eq, Option.isNone_iff_eq_none] at hmatch
  obtain ⟨old, hold, hid, halive | hrevived⟩ := mem_services_updateDeletion hmem hmatch.2
  · left
    exact List.any_eq_true.mpr ⟨old, hold, by simp [hid.trans hmatch.1, halive]⟩
  · right
    refine ⟨?_, List.any_eq_true.mpr ⟨old, hold, hrevived⟩⟩
    simp only [revived, Bool.and_eq_true, decide_eq_true_eq] at hrevived
    exact (hid.trans hmatch.1).symm.trans hrevived.1.1.1.1

theorem checkCount_updateDeletion_le (id : String) :
    checkCount (updateDeletion db .service workspaceId resourceId condition change).1 id ≤
      checkCount db id + db.checks.countP fun check ↦
        check.workspaceId = id && check.serviceId = resourceId &&
          db.services.any (revived workspaceId resourceId condition change) := by
  rw [checkCount, checks_updateDeletion]
  apply countP_le_add
  intro check hafter
  simp only [Bool.and_eq_true, decide_eq_true_eq] at hafter ⊢
  rcases undeleted_updateDeletion hafter.2 with hbefore | ⟨hservice, hrevived⟩
  · exact .inl ⟨hafter.1, hbefore⟩
  · exact .inr ⟨⟨hafter.1, hservice⟩, hrevived⟩

/-- Room for what comes back. -/
def RoomFor (db : ControlDb) (workspaceId serviceId : String) : Prop :=
  serviceCount db workspaceId < maxWorkspaceServices ∧
    checkCount db workspaceId + db.checks.countP (fun check ↦ check.serviceId = serviceId) ≤
      maxWorkspaceChecks

theorem services_of_revived (hinv : Inv db)
    (hroom : db.services.any (revived workspaceId resourceId condition change) = true →
      RoomFor db workspaceId resourceId) (id : String) :
    serviceCount db id + db.services.countP (fun service ↦
      revived workspaceId resourceId condition change service && service.workspaceId = id) ≤
        maxWorkspaceServices := by
  by_cases hany : ∃ service ∈ db.services,
      (revived workspaceId resourceId condition change service && service.workspaceId = id) = true
  · obtain ⟨service, hservice, hrevived⟩ := hany
    rw [Bool.and_eq_true, decide_eq_true_eq] at hrevived
    have hid : workspaceId = id := by
      have hmatch := hrevived.1
      simp only [revived, Bool.and_eq_true, decide_eq_true_eq] at hmatch
      exact hmatch.1.1.1.2.symm.trans hrevived.2
    have hone : db.services.countP (fun service ↦
        revived workspaceId resourceId condition change service && service.workspaceId = id) ≤
          db.services.countP (fun service ↦ decide (service.id = resourceId)) := by
      apply List.countP_mono_left
      intro other _ hmatch
      simp only [revived, Bool.and_eq_true, decide_eq_true_eq] at hmatch ⊢
      exact hmatch.1.1.1.1.1
    have hunique := hinv.unique.countP_key_le_one resourceId
    have hless := (hroom (List.any_eq_true.mpr ⟨service, hservice, hrevived.1⟩)).1
    rw [hid] at hless
    omega
  · have hzero := List.countP_eq_zero.mpr fun service hservice hmatch ↦
      hany ⟨service, hservice, hmatch⟩
    rw [hzero, Nat.add_zero]
    exact hinv.within.services id

theorem checks_of_revived (hinv : Inv db)
    (hroom : db.services.any (revived workspaceId resourceId condition change) = true →
      RoomFor db workspaceId resourceId) (id : String) :
    checkCount db id + db.checks.countP (fun check ↦
      check.workspaceId = id && check.serviceId = resourceId &&
        db.services.any (revived workspaceId resourceId condition change)) ≤
          maxWorkspaceChecks := by
  by_cases hany : ∃ check ∈ db.checks, (check.workspaceId = id && check.serviceId = resourceId &&
      db.services.any (revived workspaceId resourceId condition change)) = true
  · obtain ⟨check, hcheck, hmatch⟩ := hany
    simp only [Bool.and_eq_true, decide_eq_true_eq] at hmatch
    -- The check is at home where its service comes back.
    have hid : workspaceId = id := by
      obtain ⟨service, hservice, hrevived⟩ := List.any_eq_true.mp hmatch.2
      simp only [revived, Bool.and_eq_true, decide_eq_true_eq] at hrevived
      obtain ⟨home, hhome, hserviceId, hworkspace⟩ := hinv.homed check hcheck
      have hsame : home = service := hinv.unique.eq_of_mem hhome hservice
        ((hserviceId.trans hmatch.1.2).trans hrevived.1.1.1.1.symm)
      exact hrevived.1.1.1.2.symm.trans (hsame ▸ hworkspace.trans hmatch.1.1)
    have hsome : db.checks.countP (fun check ↦
        check.workspaceId = id && check.serviceId = resourceId &&
          db.services.any (revived workspaceId resourceId condition change)) ≤
            db.checks.countP (fun check ↦ decide (check.serviceId = resourceId)) := by
      apply List.countP_mono_left
      intro other _ hother
      simp only [Bool.and_eq_true, decide_eq_true_eq] at hother ⊢
      exact hother.1.2
    have hfits := (hroom hmatch.2).2
    rw [hid] at hfits
    omega
  · have hzero := List.countP_eq_zero.mpr fun check hcheck hmatch ↦
      hany ⟨check, hcheck, hmatch⟩
    rw [hzero, Nat.add_zero]
    exact hinv.within.checks id

theorem updateDeletion_inv (hinv : Inv db)
    (hroom : resourceType = .service →
      db.services.any (revived workspaceId resourceId condition change) = true →
        RoomFor db workspaceId resourceId) :
    Inv (updateDeletion db resourceType workspaceId resourceId condition change).1 := by
  cases resourceType with
  | machine => exact hinv.congr rfl rfl
  | service =>
    have hservices := services_of_revived hinv (hroom rfl)
    refine ⟨⟨fun id ↦ ?_, fun id ↦ ?_⟩, hinv.unique.updateWhere fun _ ↦ rfl, ?_⟩
    · exact (serviceCount_updateDeletion_le id).trans (hservices id)
    · exact (checkCount_updateDeletion_le id).trans (checks_of_revived hinv (hroom rfl) id)
    · intro check hcheck
      obtain ⟨service, hservice, hid, hworkspace⟩ := hinv.homed check hcheck
      refine ⟨_, List.mem_map_of_mem hservice, ?_⟩
      split
      · exact ⟨hid, hworkspace⟩
      · exact ⟨hid, hworkspace⟩

end Deletion

theorem finalizeServiceControlBatch_inv {policy : SoftDeletePolicy} {serviceId : String}
    {cutoff : ℤ} (hinv : Inv db) :
    Inv (finalizeServiceControlBatch db policy serviceId cutoff) := by
  rw [finalizeServiceControlBatch]
  dsimp only
  split
  · rename_i hpurged
    obtain ⟨purged, hpurgedMem, hpurgedMatch⟩ := List.any_eq_true.mp hpurged
    have hpurgedId : purged.id = serviceId := by
      simp only [Bool.and_eq_true, decide_eq_true_eq] at hpurgedMatch
      exact hpurgedMatch.1.1.1
    refine ⟨⟨fun id ↦ ?_, fun id ↦ ?_⟩, hinv.unique.filter _, ?_⟩
    · exact (List.filter_sublist.countP_le).trans (hinv.within.services id)
    · refine le_trans ?_ (hinv.within.checks id)
      refine le_trans (List.countP_mono_left fun check _ hcheck ↦ ?_)
        (List.filter_sublist.countP_le)
      simp only [Bool.and_eq_true, decide_eq_true_eq, undeleted, List.any_eq_true] at hcheck ⊢
      obtain ⟨hworkspace, service, hservice, hmatch⟩ := hcheck
      exact ⟨hworkspace, service, List.mem_of_mem_filter hservice, hmatch⟩
    · intro check hcheck
      obtain ⟨hold, hkept⟩ := List.mem_filter.mp hcheck
      obtain ⟨service, hservice, hid, hworkspace⟩ := hinv.homed check hold
      refine ⟨service, List.mem_filter.mpr ⟨hservice, ?_⟩, hid, hworkspace⟩
      -- The services that go have the identifier of the purged one.
      have hother : service.id ≠ serviceId := by
        rw [hid]
        simpa using hkept
      simp [hother]
  · exact hinv

/-- What the batches have to meet besides their own guards: what is restored has room, and
`crypto.randomUUID` does not give an identifier again. -/
def Fits (db : ControlDb) : Batch → Prop
  | .createService _ service _ _ => ∀ other ∈ db.services, other.id ≠ service.id
  | .restore workspaceId .service serviceId deletedAt conditions =>
    db.services.any (revived workspaceId serviceId
        (fun current purgeStartedAt ↦ current = some deletedAt && purgeStartedAt.isNone &&
          db.permits workspaceId conditions)
        fun _ purgeStartedAt ↦ (none, purgeStartedAt)) = true →
      RoomFor db workspaceId serviceId
  | _ => True

instance (db : ControlDb) : (batch : Batch) → Decidable (Fits db batch)
  | .createService _ service _ _ =>
    inferInstanceAs (Decidable (∀ other ∈ db.services, other.id ≠ service.id))
  | .restore workspaceId .service serviceId deletedAt conditions =>
    inferInstanceAs (Decidable (db.services.any (revived workspaceId serviceId
        (fun current purgeStartedAt ↦ current = some deletedAt && purgeStartedAt.isNone &&
          db.permits workspaceId conditions)
        fun _ purgeStartedAt ↦ (none, purgeStartedAt)) = true →
      serviceCount db workspaceId < maxWorkspaceServices ∧
        checkCount db workspaceId + db.checks.countP (fun check ↦ check.serviceId = serviceId) ≤
          maxWorkspaceChecks))
  | .restore _ .machine _ _ _ => isTrue trivial
  | .addCheck .. => isTrue trivial
  | .replaceCheck .. => isTrue trivial
  | .updatePolicy .. => isTrue trivial
  | .deleteCheck .. => isTrue trivial
  | .softDelete .. => isTrue trivial
  | .claimWorkspace .. => isTrue trivial
  | .claimResource .. => isTrue trivial
  | .finalizeMachineControl .. => isTrue trivial
  | .finalizeServiceControl .. => isTrue trivial
  | .administer .. => isTrue trivial

theorem execute_inv {batch : Batch} (hinv : Inv db) (hdemands : DemandsCapacity batch)
    (hfits : Fits db batch) (h : execute db batch = some (after, changes)) : Inv after := by
  cases batch with
  | createService workspaceId service check conditions =>
    exact createServiceBatch_inv hinv hdemands hfits h
  | addCheck workspaceId check machineConditions checkConditions =>
    exact addCheckBatch_inv hinv hdemands h
  | replaceCheck workspaceId update => exact replaceCheckBatch_inv hinv h
  | updatePolicy workspaceId update => exact updatePolicyBatch_inv hinv h
  | deleteCheck workspaceId update =>
    obtain rfl := congrArg Prod.fst (Option.some.inj h)
    exact deleteCheckBatch_inv hinv
  | softDelete workspaceId resourceType resourceId now conditions =>
    obtain rfl := congrArg Prod.fst (Option.some.inj h)
    apply updateDeletion_inv hinv
    intro _ hrevived
    obtain ⟨service, -, hmatch⟩ := List.any_eq_true.mp hrevived
    simp [revived] at hmatch
  | restore workspaceId resourceType resourceId deletedAt conditions =>
    rw [execute, restoreBatch] at h
    split at h
    · obtain rfl := congrArg Prod.fst (Option.some.inj h)
      apply updateDeletion_inv hinv
      rintro rfl
      exact hfits
    · cases h
  | claimWorkspace policy now cutoff =>
    obtain rfl := congrArg Prod.fst (Option.some.inj h)
    exact hinv.congr rfl rfl
  | claimResource policy resourceType resource now cutoff =>
    obtain rfl := congrArg Prod.fst (Option.some.inj h)
    apply updateDeletion_inv hinv
    intro _ hrevived
    obtain ⟨service, -, hmatch⟩ := List.any_eq_true.mp hrevived
    simp only [revived, Bool.and_eq_true, Option.isSome_iff_ne_none, Option.isNone_iff_eq_none]
      at hmatch
    exact absurd hmatch.2 hmatch.1.2
  | finalizeMachineControl policy machineId cutoff =>
    obtain rfl := congrArg Prod.fst (Option.some.inj h)
    exact hinv.updateChecks rfl rfl fun _ ↦ ⟨rfl, rfl⟩
  | finalizeServiceControl policy serviceId cutoff =>
    obtain rfl := congrArg Prod.fst (Option.some.inj h)
    exact finalizeServiceControlBatch_inv hinv
  | administer workspaces memberships grants machines agents =>
    obtain rfl := congrArg Prod.fst (Option.some.inj h)
    exact hinv.congr rfl rfl

theorem perform_inv (db : ControlDb) (batch : Batch) (hinv : Inv db)
    (hdemands : DemandsCapacity batch) (hfits : Fits db batch) : Inv (perform batch db).1 := by
  rcases perform_cases batch db with hsame | ⟨changes, hexecute⟩
  · rwa [hsame]
  · exact execute_inv hinv hdemands hfits hexecute

end Steps

/-! ## Runs -/

theorem inv_emptyControl : Inv emptyControl where
  within := ⟨fun _ ↦ Nat.zero_le _, fun _ ↦ Nat.zero_le _⟩
  unique := uniqueKey_nil
  homed := fun _ hcheck ↦ absurd hcheck List.not_mem_nil

/-- The service is deleted and restored, and nothing is created in the meantime. -/
def restored : List (Action Request) :=
  twoChecks ++ served 4 3 (.softDeleteResource ⟨operator, .service, "service", 0⟩) ++
    served 5 3 (.restoreResource ⟨operator, .service, "service", 0⟩)

def label (number : ℕ) : String := "service-" ++ toString number

theorem label_injective : Function.Injective label := by
  intro first second h
  have hdigits : Nat.toDigits 10 first = Nat.toDigits 10 second :=
    String.ofList_injective ((String.append_right_inj _).mp h)
  rw [← Nat.ofDigitChars_toDigits (b := 10) (n := first) (by decide) (by decide), hdigits,
    Nat.ofDigitChars_toDigits (by decide) (by decide)]

def edgeInput : CheckInput where
  checkName := "probe"
  kind := .http
  executorKind := .cloudflare
  executorAgentId := ""
  policy := minutePolicy
  compiled := .ok ⟨"\x7b\x7d", [], none, none, ⟨[], none, none⟩, []⟩

def creation (number : ℕ) : Request :=
  .createServiceMonitor ⟨operator, label number, label number, label number, label number, edgeInput⟩

def firstService : ResourceRequest := ⟨operator, .service, label 0, 0⟩

/-- So many services, the first of them deleted or not. -/
def filled (deletedAt : Option ℤ) (count : ℕ) : ControlDb :=
  { emptyControl with
    workspaces := [⟨"workspace", "main", none, none, none⟩]
    memberships := [⟨"workspace", "operator", .admin, true⟩]
    machines := [⟨"machine", "workspace", 1, none, none⟩]
    agents := [⟨"agent", "workspace", "machine", true⟩]
    services := (List.range count).map fun number ↦
      ⟨label number, "workspace", label number, label number,
        if number = 0 then deletedAt else none, none⟩
    checks := (List.range count).map fun number ↦
      { id := label number
        workspaceId := "workspace"
        serviceId := label number
        name := label number ++ " availability"
        kind := .http
        executorKind := .cloudflare
        executorAgentId := none
        enabled := true
        policy := minutePolicy
        requestJson := "\x7b\x7d"
        secretRefs := ⟨[], none, none⟩
        configBytes := 514
        configRevision := 1
        assignmentRevision := 0 } }

variable {deletedAt : Option ℤ} {count : ℕ}

theorem serviceCount_filled : serviceCount (filled deletedAt count) "workspace" =
    if deletedAt.isSome then count - 1 else count := by
  induction count with
  | zero => cases deletedAt <;> rfl
  | succ count ih =>
    rw [serviceCount, filled] at ih ⊢
    rw [List.range_succ, List.map_append, List.countP_append, ih]
    cases deletedAt with
    | none => simp
    | some deletedAt =>
      cases count with
      | zero => simp
      | succ count => simp

theorem checkCount_filled_le : checkCount (filled deletedAt count) "workspace" ≤ count := by
  apply List.countP_le_length.trans
  simp [filled]

theorem label_fresh : ∀ service ∈ (filled deletedAt count).services,
    service.id ≠ label count ∧ service.slug ≠ label count := by
  simp only [filled, List.forall_mem_map, List.mem_range]
  intro number hnumber
  have hne : label number ≠ label count := fun heq ↦ hnumber.ne (label_injective heq)
  exact ⟨hne, hne⟩

section Alone

variable {db : ControlDb} {workspaceId : String} {next : Flow} {steps : ℕ}

theorem alone_loadMonitoringAccess {actor : Actor} {next : MonitoringAccess → Flow}
    (h : db.workspaceOf actor = some (workspaceId, .admin)) :
    (loadMonitoringAccess actor next).alone perform db (steps + 1) =
      (next ⟨workspaceId, .admin, []⟩).alone perform db steps := by
  rw [loadMonitoringAccess, Workflow.alone, Workflow.proceed, h]

theorem alone_assertWorkspaceMonitorCapacity {services : Bool}
    (h : db.monitorCapacity workspaceId services = true) :
    (assertWorkspaceMonitorCapacity workspaceId services next).alone perform db (steps + 1) =
      next.alone perform db steps := by
  rw [assertWorkspaceMonitorCapacity, Workflow.alone, Workflow.proceed, h, if_pos rfl]

theorem alone_availableSlug {base : String} {left : ℕ} {next : String → Flow}
    (h : ∀ service ∈ db.services, service.slug ≠ base) :
    (availableSlug workspaceId base (left + 1) 1 next).alone perform db (steps + 1) =
      (next base).alone perform db steps := by
  have hfree : (db.services.any fun service ↦ service.workspaceId = workspaceId &&
      service.slug = base && service.deletedAt.isNone) = false :=
    List.any_eq_false.mpr fun service hservice ↦ by simp [h service hservice]
  rw [availableSlug, Workflow.alone, Workflow.proceed]
  simp only [if_true, hfree, Bool.false_eq_true, if_false]

end Alone

/-- The first check of a service, as it is inserted. -/
def firstCheck (number : ℕ) : NewCheck where
  id := label number
  serviceId := label number
  name := label number ++ " availability"
  kind := .http
  executorKind := .cloudflare
  executorAgentId := none
  machineId := none
  policy := minutePolicy
  compiled := ⟨"{}", [], none, none, ⟨[], none, none⟩, []⟩
  configBytes := 514
  capacity := ⟨"", none, 514, false⟩

theorem filled_succ (hdeleted : deletedAt.isSome → 0 < count) :
    filled deletedAt (count + 1) = { filled deletedAt count with
      services := (filled deletedAt count).services ++
        [⟨label count, "workspace", label count, label count, none, none⟩]
      checks := (filled deletedAt count).checks ++ [(firstCheck count).row "workspace" 0] } := by
  have hnone : (if count = 0 then deletedAt else none) = none := by
    cases deletedAt with
    | none => exact ite_self none
    | some deletedAt => exact if_neg (hdeleted rfl).ne'
  simp only [filled, List.range_succ, List.map_append, List.map_singleton, hnone]
  rfl

theorem createServiceBatch_filled
    (hcapacity : (filled deletedAt count).monitorCapacity "workspace" true = true)
    (hdeleted : deletedAt.isSome → 0 < count) :
    createServiceBatch (filled deletedAt count) "workspace"
        ⟨label count, label count, label count⟩ (firstCheck count)
        [.admin "operator", .monitorCapacity true] =
      some (filled deletedAt (count + 1), 1) := by
  have hpermits : (filled deletedAt count).permits "workspace"
      [.admin "operator", .monitorCapacity true] = true := by
    simp only [ControlDb.permits, List.all_cons, FinalCondition.holds, hcapacity, List.all_nil,
      Bool.and_true]
    rfl
  have hfree : ((filled deletedAt count).services.any fun service ↦ service.id = label count ||
      (service.workspaceId = "workspace" && service.slug = label count &&
        service.deletedAt.isNone)) = false :=
    List.any_eq_false.mpr fun service hservice ↦ by
      simp [(label_fresh service hservice).1, (label_fresh service hservice).2]
  rw [createServiceBatch, filled_succ hdeleted]
  simp only [firstCheck, advanceAgentConfiguration, insertService, hpermits, Bool.not_true, Bool.false_eq_true, if_false,
    hfree, Option.bind_some, insertCheck, hasService, List.any_append, List.any_cons]
  simp [filled, emptyControl, assignmentRevision, insertSecrets, NewCheck.row]
  exact fun number hnumber ↦ decide_eq_false fun heq ↦ hnumber.ne (label_injective heq)

theorem alone_creation (hservices : serviceCount (filled deletedAt count) "workspace" < 200)
    (hchecks : count < 1000) (hdeleted : deletedAt.isSome → 0 < count) :
    ((handle (creation count)).alone perform (filled deletedAt count) 4).1 =
      filled deletedAt (count + 1) := by
  have hcapacity : (filled deletedAt count).monitorCapacity "workspace" true = true :=
    monitorCapacity_iff.mpr ⟨fun _ ↦ hservices, checkCount_filled_le.trans_lt hchecks⟩
  have hworkspace : (filled deletedAt count).workspaceOf operator =
    some ("workspace", .admin) := rfl
  rw [creation, handle, createServiceMonitor, alone_loadMonitoringAccess hworkspace, requireAdmin,
    if_pos rfl, alone_assertWorkspaceMonitorCapacity hcapacity]
  simp only [loadExecutor, edgeInput, withCapacity, Option.any_none, Bool.false_eq_true, if_false]
  rw [alone_availableSlug fun service hservice ↦ (label_fresh service hservice).2]
  change (perform (.createService "workspace" ⟨label count, label count, label count⟩
    (firstCheck count) [.admin "operator", .monitorCapacity true]) (filled deletedAt count)).1 = _
  rw [perform, execute, createServiceBatch_filled hcapacity hdeleted]

theorem deletionOf_filled (hcount : 0 < count) :
    deletionOf (filled deletedAt count) .service "workspace" (label 0) =
      some (deletedAt, none) := by
  obtain ⟨count, rfl⟩ := Nat.exists_eq_succ_of_ne_zero hcount.ne'
  simp [deletionOf, filled, List.range_succ_eq_map]

theorem updateDeletion_filled {condition : Option ℤ → Option ℤ → Bool}
    {change : Option ℤ → Option ℤ → Option ℤ × Option ℤ} {after : Option ℤ}
    (hcondition : condition deletedAt none = true)
    (hchange : change deletedAt none = (after, none)) :
    (updateDeletion (filled deletedAt count) .service "workspace" (label 0) condition change).1 =
      filled after count := by
  have hservices : (updateDeletion (filled deletedAt count) .service "workspace" (label 0)
      condition change).1.services = (filled after count).services := by
    simp only [updateDeletion, filled, updateWhere, List.map_map]
    apply List.map_congr_left
    intro number _
    by_cases hzero : number = 0
    · simp [hzero, hcondition, hchange]
    · have hother : label number ≠ label 0 := fun heq ↦ hzero (label_injective heq)
      simp [hzero, hother]
  rw [updateDeletion] at hservices ⊢
  dsimp only at hservices ⊢
  rw [hservices]
  rfl

theorem alone_deletion (hcount : 0 < count) :
    ((handle (.softDeleteResource firstService)).alone perform (filled none count) 3).1 =
      filled (some 0) count := by
  have hworkspace : (filled none count).workspaceOf operator = some ("workspace", .admin) := rfl
  have hallowed : canAccessResource .admin [] .service (label 0) .manage = true := rfl
  rw [handle, softDeleteResource, firstService, alone_loadMonitoringAccess hworkspace]
  dsimp only [grantType]
  rw [requireResourceCapability, if_pos hallowed, Workflow.alone, Workflow.proceed,
    deletionOf_filled hcount]
  change (softDeleteBatch (filled none count) "workspace" .service (label 0) 0
    [.resource .admin "operator" .service (label 0) .manage]).1 = _
  apply updateDeletion_filled
  · rfl
  · rfl

theorem alone_restoration (hcount : 0 < count) :
    ((handle (.restoreResource firstService)).alone perform (filled (some 0) count) 3).1 =
      filled none count := by
  have hworkspace : (filled (some 0) count).workspaceOf operator = some ("workspace", .admin) :=
    rfl
  have hrestored : (updateDeletion (filled (some 0) count) .service "workspace" (label 0)
      (fun current purgeStartedAt ↦ current = some 0 && purgeStartedAt.isNone &&
        (filled (some 0) count).permits "workspace" [.admin "operator"])
      fun _ purgeStartedAt ↦ (none, purgeStartedAt)).1 = filled none count := by
    apply updateDeletion_filled
    · rfl
    · rfl
  have hslugs : (((filled none count).services.filter fun service ↦
      service.deletedAt.isNone).map fun service ↦ (service.workspaceId, service.slug)).Nodup := by
    apply List.Nodup.sublist (List.filter_sublist.map _)
    rw [filled, List.map_map]
    refine List.Nodup.map (fun first second heq ↦ ?_) List.nodup_range
    exact label_injective (Prod.mk.inj heq).2
  rw [handle, restoreResource, firstService, alone_loadMonitoringAccess hworkspace, requireAdmin,
    if_pos rfl, Workflow.alone, Workflow.proceed, deletionOf_filled hcount]
  change (perform (.restore "workspace" .service (label 0) 0 [.admin "operator"])
    (filled (some 0) count)).1 = _
  rw [perform, execute, restoreBatch, hrestored, if_pos hslugs]
  exact hrestored

/-- A full workspace, whose first service is deleted, replaced and restored. -/
def overfilled : List (Action Request) :=
  inTurn 0 ((workspaceSetup, 1) :: (List.range 200).map (fun number ↦ (creation number, 4)) ++
    [(.softDeleteResource firstService, 3), (creation 200, 4), (.restoreResource firstService, 3)])

theorem foldl_creations (hcount : count ≤ 200) :
    ((List.range count).map fun number ↦ (creation number, 4)).foldl (fun store request ↦
      ((handle request.1).alone perform store request.2).1) (filled none 0) =
        filled none count := by
  induction count with
  | zero => rfl
  | succ count ih =>
    rw [List.range_succ, List.map_append, List.foldl_append, ih (by omega)]
    apply alone_creation
    · rw [serviceCount_filled]
      exact hcount
    · omega
    · exact fun h ↦ nomatch h

theorem store_overfilled :
    (run (step handle perform) (start emptyControl) overfilled).store = filled none 201 := by
  rw [overfilled, start]
  refine (store_inTurn emptyControl [] _).trans ?_
  have hsetup : ((handle workspaceSetup).alone perform emptyControl 1).1 = filled none 0 := rfl
  rw [List.cons_append, List.foldl_cons, hsetup, List.foldl_append, foldl_creations le_rfl,
    List.foldl_cons, alone_deletion (by decide), List.foldl_cons, alone_creation,
    List.foldl_cons, alone_restoration (by decide), List.foldl_nil]
  · rw [serviceCount_filled]
    decide
  · decide
  · decide

end AlphaPing.Monitoring.WorkspaceCapacity
