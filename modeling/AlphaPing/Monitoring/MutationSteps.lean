import AlphaPing.Monitoring.MutationBatches

/-!
# What the batch of a mutation does

`requested` says what each mutation asks for, all tables at once. Performed on any store, a batch
other than a deletion is taken back, or does what is requested and counts one change, or changes
none of the rows of services, checks, assertions, secrets, audit logs and sync jobs and counts
none. A deletion counts the assertions of the check as well, and deletes the secrets that it has
read from a check that is gone already.
-/

namespace AlphaPing.Monitoring.MutationSteps

open Library.Tables Library.CascadingBatches Control ServiceConfig MutationBatches

/-! ## What is requested -/

/-- The revision with which the machine of a check takes it up. -/
def assigned (control : ControlDb) (workspaceId : String) (unassigned : ℕ) : Option String → ℕ
  | none => unassigned
  | some machineId => ((control.machines.find? fun machine ↦ machine.id = machineId &&
      machine.workspaceId = workspaceId && machine.deletedAt.isNone).map
        MachineRow.desiredConfigRevision).getD unassigned

/-- The machine has a new revision, and the change is assigned with it. -/
def reassigned (control : ControlDb) (workspaceId : String) (machineId : Option String)
    (check : CheckRow) : CheckRow :=
  { check with
    configRevision := check.configRevision + 1
    assignmentRevision := assigned control workspaceId check.assignmentRevision machineId }

/-- What a mutation requests of the store. -/
def requested (details : Details) (batch : Batch) (db : MonitorDb) : MonitorDb :=
  match batch with
  | .createService workspaceId service check _ =>
    let control := advanceAgentConfiguration db.control workspaceId true check.machineId
    { db with
      control := { control with
        services := control.services ++
          [⟨service.id, workspaceId, service.name, service.slug, none, none⟩]
        checks := control.checks ++ [NewCheck.row { check with serviceId := service.id } workspaceId
          (assigned control workspaceId 0 check.machineId)]
        secrets := control.secrets ++ secretRows workspaceId check.compiled.secrets }
      assertions := db.assertions ++ details.assertionRows check.id
      auditLogs := db.auditLogs ++ [details.auditRow workspaceId "service.create" service.id]
      dashboardResources := db.dashboardResources ++ [⟨details.dashboardId, service.id⟩]
      publicPolicies := db.publicPolicies ++ [⟨workspaceId, service.id, details.now⟩] }
  | .addCheck workspaceId check _ _ =>
    let control := advanceAgentConfiguration db.control workspaceId true check.machineId
    { db with
      control := { control with
        checks := control.checks ++
          [check.row workspaceId (assigned control workspaceId 0 check.machineId)]
        secrets := control.secrets ++ secretRows workspaceId check.compiled.secrets }
      assertions := db.assertions ++ details.assertionRows check.id
      auditLogs := db.auditLogs ++
        [details.auditRow workspaceId "service.check.create" check.serviceId] }
  | .replaceCheck workspaceId update =>
    let control := advanceAgentConfiguration db.control workspaceId true update.machineId
    let job := details.syncJob workspaceId update.serviceId update.checkId
    { db with
      control := { control with
        checks := updateWhere (fun check ↦ check.id = update.checkId) (fun check ↦
          reassigned control workspaceId update.machineId { check with
            name := update.name
            requestJson := update.compiled.requestJson
            secretRefs := update.compiled.secretRefs
            configBytes := update.configBytes }) control.checks
        secrets := (control.secrets.filter fun secret ↦
            !named workspaceId update.oldSecretIds secret) ++
          secretRows workspaceId update.compiled.secrets }
      assertions := (db.assertions.filter fun row ↦ row.checkId ≠ update.checkId) ++
        details.assertionRows update.checkId
      auditLogs := db.auditLogs ++ [details.auditRow workspaceId
        "service.check.configuration.replace" update.serviceId]
      syncJobs := upsert SyncJobRow.jobKey (fun _ ↦ true) (fun _ ↦ job) job db.syncJobs }
  | .updatePolicy workspaceId update =>
    let control := advanceAgentConfiguration db.control workspaceId true update.machineId
    let job := details.syncJob workspaceId update.serviceId update.checkId
    { db with
      control := { control with
        checks := updateWhere (fun check ↦ check.id = update.checkId) (fun check ↦
          reassigned control workspaceId update.machineId { check with
            enabled := update.enabled
            policy := update.policy }) control.checks }
      auditLogs := db.auditLogs ++
        [details.auditRow workspaceId "service.check.policy.update" update.serviceId]
      syncJobs := upsert SyncJobRow.jobKey (fun _ ↦ true) (fun _ ↦ job) job db.syncJobs }
  | .deleteCheck workspaceId update =>
    let control := advanceAgentConfiguration db.control workspaceId true update.machineId
    let job := details.syncJob workspaceId update.serviceId update.checkId
    { db with
      control := { deleteChecks control (fun check ↦ check.id = update.checkId) with
        secrets := control.secrets.filter fun secret ↦
          !named workspaceId update.secretIds secret }
      assertions := db.assertions.filter fun row ↦ row.checkId ≠ update.checkId
      auditLogs := db.auditLogs ++
        [details.auditRow workspaceId "service.check.delete" update.serviceId]
      syncJobs := upsert SyncJobRow.jobKey (fun _ ↦ true) (fun _ ↦ job) job db.syncJobs }
  | _ => db

/-- None of the rows that a mutation is about has changed. -/
structure Untouched (before after : MonitorDb) : Prop where
  services : after.control.services = before.control.services
  checks : after.control.checks = before.control.checks
  assertions : after.assertions = before.assertions
  secrets : after.control.secrets = before.control.secrets
  auditLogs : after.auditLogs = before.auditLogs
  syncJobs : after.syncJobs = before.syncJobs

theorem Untouched.refl (db : MonitorDb) : Untouched db db := ⟨rfl, rfl, rfl, rfl, rfl, rfl⟩

def mutates : Batch → Bool
  | .createService .. | .addCheck .. | .replaceCheck .. | .updatePolicy .. | .deleteCheck .. => true
  | _ => false

theorem requested_touches {details : Details} {batch : Batch} (hmutates : mutates batch = true)
    (db : MonitorDb) : ¬ Untouched db (requested details batch db) := by
  intro h
  have hlogs := congrArg List.length h.auditLogs
  cases batch with
  | createService | addCheck | replaceCheck | updatePolicy | deleteCheck =>
    simp [requested] at hlogs
  | _ => cases hmutates

/-! ## The machine -/

section Machine

variable {control : ControlDb} {workspaceId : String} {machineId : Option String}

variable (condition : Bool)

@[simp] theorem secrets_advanced :
    (advanceAgentConfiguration control workspaceId condition machineId).secrets =
      control.secrets := by
  cases machineId <;> rfl

@[simp] theorem permits_advanced (conditions : List FinalCondition) :
    (advanceAgentConfiguration control workspaceId condition machineId).permits workspaceId
      conditions = control.permits workspaceId conditions := by
  cases machineId <;> rfl

@[simp] theorem agentCapacity_advanced (capacity : AgentCapacityInput) :
    (advanceAgentConfiguration control workspaceId condition machineId).agentCapacity capacity =
      control.agentCapacity capacity := by
  cases machineId <;> rfl

theorem untouched_advanced (condition : Bool) (db : MonitorDb) :
    Untouched db { db with
      control := advanceAgentConfiguration db.control workspaceId condition machineId } :=
  ⟨services_advanceAgentConfiguration _ _, checks_advanceAgentConfiguration _ _, rfl,
    secrets_advanced _, rfl, rfl⟩

theorem advanced_eq {condition : Bool} (h : machineId.isSome = true → condition = true) :
    advanceAgentConfiguration control workspaceId condition machineId =
      advanceAgentConfiguration control workspaceId true machineId := by
  cases machineId with
  | none => rfl
  | some id => rw [h rfl]

theorem assigned_of_assignmentRevision {capacity : AgentCapacityInput} {unassigned revision : ℕ}
    (h : assignmentRevision control workspaceId capacity unassigned machineId = some revision) :
    revision = assigned control workspaceId unassigned machineId ∧
      (machineId.isSome = true → control.agentCapacity capacity = true) := by
  cases machineId with
  | none => exact ⟨(Option.some.inj h).symm, fun hnone ↦ nomatch hnone⟩
  | some id =>
    obtain ⟨machine, hfound, rfl⟩ := Option.map_eq_some_iff.mp h
    have hroom : control.agentCapacity capacity = true := by
      have hmachine := List.find?_some hfound
      simp only [Bool.and_eq_true] at hmachine
      exact hmachine.2
    simp only [hroom, Bool.and_true] at hfound
    refine ⟨?_, fun _ ↦ hroom⟩
    rw [assigned, hfound]
    rfl

end Machine

/-! ## Statements -/

section Statements

variable {post : MonitorDb → List Counts → Prop} {P : MonitorDb → Option Counts → Prop}
  {outcome : MonitorDb → Prop} {rest : List (Statement MonitorDb)} {changes : ℕ} {db : MonitorDb}

variable {statement : ControlDb → Option (ControlDb × ℕ)}

theorem yields_onControl (h : ∀ next changed, statement db.control = some (next, changed) →
      Yields (fun after results ↦ post after (⟨changed, changed⟩ :: results)) rest changed
        { db with control := next }) :
    Yields post (onControl statement :: rest) changes db := by
  apply yields_cons
  intro next counts hnext
  obtain ⟨⟨control, changed⟩, hstatement, heq⟩ := Option.map_eq_some_iff.mp hnext
  obtain ⟨rfl, rfl⟩ := Prod.mk.inj heq
  exact h control changed hstatement

theorem yields_mutation (h : ∀ next changed, statement db.control = some (next, changed) →
      Yields (fun after _ ↦ P after (some ⟨changed, changed⟩)) rest changed
        { db with control := next }) :
    Yields (fun after results ↦ P after results[0]?) (onControl statement :: rest) changes db :=
  yields_onControl h

variable {workspaceId : String}

theorem yields_advance {condition : ControlDb → Bool} {machineId : Option String}
    (h : ∀ changes, Yields (fun after results ↦ P after results[0]?) rest changes
      { db with
        control := advanceAgentConfiguration db.control workspaceId (condition db.control)
          machineId }) :
    Yields (fun after results ↦ P after results[if machineId.isSome then 1 else 0]?)
      (advanceStatements workspaceId condition machineId ++ rest) changes db := by
  cases machineId with
  | none => exact h changes
  | some id => exact yields_step rfl (h _)

theorem yields_audit {row : AuditRow}
    (h : Yields (fun after results ↦ post after (⟨1, 1⟩ :: results)) rest 1
      { db with auditLogs := db.auditLogs ++ [row] }) :
    Yields post (auditStatement row :: rest) 1 db :=
  yields_afterChange (yields_insert rfl h)

theorem yields_noAudit {row : AuditRow} (hchanges : changes ≠ 1)
    (h : Yields (fun after results ↦ post after (⟨0, 0⟩ :: results)) rest 0 db) :
    Yields post (auditStatement row :: rest) changes db :=
  yields_noChange hchanges h

theorem yields_noSync {job : SyncJobRow} (hchanges : changes ≠ 1)
    (h : Yields (fun after results ↦ post after (⟨0, 0⟩ :: results)) rest 0 db) :
    Yields post (syncStatement job :: rest) changes db :=
  yields_noChange hchanges h

theorem yields_sync {job : SyncJobRow} (hkeyed : UniqueKey SyncJobRow.jobKey db.syncJobs)
    (h : Yields (fun after results ↦ post after (⟨1, 1⟩ :: results)) rest 1 { db with
      syncJobs := upsert SyncJobRow.jobKey (fun _ ↦ true) (fun _ ↦ job) job db.syncJobs }) :
    Yields post (syncStatement job :: rest) 1 db := by
  have hone : upsertChanges SyncJobRow.jobKey (fun _ ↦ true) job db.syncJobs = 1 :=
    hkeyed.upsertChanges_eq_one fun _ _ _ ↦ rfl
  exact yields_step (by simp [syncStatement, Statement.afterChange, hone]) h

theorem foldl_putAssertion (rows : List AssertionRow) :
    rows.foldl (fun db row ↦ putAssertion row db) db =
      { db with assertions := db.assertions ++ rows } := by
  induction rows generalizing db with
  | nil => simp
  | cons row rows ih =>
    rw [List.foldl_cons, ih, putAssertion]
    simp

theorem foldl_putSecret (rows : List SecretRow) :
    rows.foldl (fun db row ↦ putSecret row db) db =
      { db with control := { db.control with secrets := db.control.secrets ++ rows } } := by
  induction rows generalizing db with
  | nil => simp
  | cons row rows ih =>
    rw [List.foldl_cons, ih, putSecret]
    simp

variable {condition : MonitorDb → Bool}

theorem yields_putAssertions {rows : List AssertionRow}
    (hkeeps : ∀ row db, condition (putAssertion row db) = condition db)
    (hcondition : condition db = true)
    (h : ∀ changes, Yields (fun after _ ↦ outcome after) rest changes
      { db with assertions := db.assertions ++ rows }) :
    Yields (fun after _ ↦ outcome after) (assertionStatements condition rows ++ rest) changes db :=
  yields_inserts hkeeps hcondition fun changes ↦ @foldl_putAssertion db rows ▸ h changes

theorem yields_putSecrets {rows : List SecretRow}
    (hkeeps : ∀ row db, condition (putSecret row db) = condition db)
    (hcondition : condition db = true)
    (h : outcome { db with control := { db.control with secrets := db.control.secrets ++ rows } }) :
    Yields (fun after _ ↦ outcome after) (secretStatements condition rows) changes db := by
  rw [← List.append_nil (secretStatements condition rows)]
  apply yields_inserts hkeeps hcondition
  intro changes
  rw [foldl_putSecret]
  exact yields_nil h

theorem yields_noAssertions {rows : List AssertionRow} (hcondition : condition db = false)
    (h : ∀ changes, Yields (fun after _ ↦ outcome after) rest changes db) :
    Yields (fun after _ ↦ outcome after) (assertionStatements condition rows ++ rest) changes db :=
  yields_skips hcondition h

theorem yields_noSecrets {rows : List SecretRow} (hcondition : condition db = false)
    (h : outcome db) :
    Yields (fun after _ ↦ outcome after) (secretStatements condition rows) changes db := by
  rw [← List.append_nil (secretStatements condition rows)]
  exact yields_skips hcondition fun _ ↦ yields_nil h

theorem yields_deleteAssertions {checkId : String} (hcondition : condition db = true)
    (h : ∀ changes, Yields (fun after _ ↦ outcome after) rest changes
      { db with assertions := db.assertions.filter fun row ↦ row.checkId ≠ checkId }) :
    Yields (fun after _ ↦ outcome after) (deleteAssertions condition checkId :: rest) changes
      db :=
  yields_step (if_pos hcondition) (h _)

theorem yields_keepAssertions {checkId : String} (hcondition : condition db = false)
    (h : ∀ changes, Yields (fun after _ ↦ outcome after) rest changes db) :
    Yields (fun after _ ↦ outcome after) (deleteAssertions condition checkId :: rest) changes
      db :=
  yields_step (if_neg (Bool.eq_false_iff.mp hcondition)) (h _)

/-- The store without the named secrets. -/
def withoutSecrets (workspaceId : String) (ids : List String) (db : MonitorDb) : MonitorDb :=
  { db with control := { db.control with
      secrets := db.control.secrets.filter fun secret ↦ !named workspaceId ids secret } }

theorem withoutSecrets_nil (workspaceId : String) : withoutSecrets workspaceId [] db = db := by
  simp [withoutSecrets, named]

theorem yields_deleteSecrets {ids : List String} (hcondition : condition db = true)
    (h : ∀ changes, Yields (fun after _ ↦ outcome after) rest changes
      (withoutSecrets workspaceId ids db)) :
    Yields (fun after _ ↦ outcome after) (deleteSecrets condition workspaceId ids ++ rest) changes
      db := by
  rw [deleteSecrets]
  split
  · next hempty =>
    rw [List.isEmpty_iff.mp hempty, withoutSecrets_nil] at h
    exact h changes
  · exact yields_step (if_pos hcondition) (h _)

theorem yields_keepSecrets {ids : List String} (hcondition : condition db = false)
    (h : ∀ changes, Yields (fun after _ ↦ outcome after) rest changes db) :
    Yields (fun after _ ↦ outcome after) (deleteSecrets condition workspaceId ids ++ rest) changes
      db := by
  rw [deleteSecrets]
  split
  · exact h changes
  · exact yields_step (if_neg (Bool.eq_false_iff.mp hcondition)) (h _)

end Statements

/-! ## New services and checks -/

/-- What a batch leaves with the count that its sender looks at. -/
def Ends (details : Details) (batch : Batch) (before after : MonitorDb) (counts : Option Counts) :
    Prop :=
  (after = requested details batch before ∧ counts.map Counts.total = some 1) ∨
    (Untouched before after ∧ counts.map Counts.total = some 0)

theorem any_eq_false {Row : Type} {rows : List Row} {condition : Row → Bool}
    (h : ∀ row ∈ rows, condition row = false) : rows.any condition = false :=
  List.any_eq_false.mpr fun row hrow ↦ Bool.eq_false_iff.mp (h row hrow)

section New

variable {details : Details} {workspaceId : String} {check : NewCheck} {control next : ControlDb}
  {changed : ℕ}

theorem insertCheck_alone {condition : Bool}
    (h : insertCheck control workspaceId (NewCheck.alone check) condition = some (next, changed)) :
    (next = control ∧ changed = 0 ∧
        (condition && hasService control workspaceId check.serviceId) = false) ∨
      (changed = 1 ∧ (condition && hasService control workspaceId check.serviceId) = true ∧
        next = { control with
          checks := control.checks ++
            [check.row workspaceId (assigned control workspaceId 0 check.machineId)] } ∧
        (check.machineId.isSome = true → control.agentCapacity check.capacity = true)) := by
  rw [insertCheck] at h
  cases hcondition : condition && hasService control workspaceId check.serviceId with
  | false =>
    have hskipped : (condition && hasService control workspaceId
        (NewCheck.alone check).serviceId) = false := hcondition
    rw [hskipped] at h
    obtain ⟨rfl, rfl⟩ := Prod.mk.inj (Option.some.inj h)
    exact .inl ⟨rfl, rfl, rfl⟩
  | true =>
    have hinserted : (condition && hasService control workspaceId
        (NewCheck.alone check).serviceId) = true := hcondition
    simp only [hinserted, Bool.not_true, Bool.false_eq_true, if_false] at h
    split at h
    · cases h
    · split at h
      · cases h
      · obtain ⟨revision, hrevision, heq⟩ := Option.map_eq_some_iff.mp h
        obtain ⟨rfl, hroom⟩ := assigned_of_assignmentRevision hrevision
        obtain ⟨rfl, rfl⟩ := Prod.mk.inj heq
        refine .inr ⟨rfl, rfl, ?_, hroom⟩
        simp [insertSecrets, NewCheck.alone, NewCheck.row]

theorem hasCheck_new {revision : ℕ} (checks : List CheckRow) :
    (checks ++ [check.row workspaceId revision]).any (fun row ↦
      decide (row.id = check.id) && decide (row.workspaceId = workspaceId)) = true := by
  simp [NewCheck.row]

variable {db : MonitorDb}

theorem hasCheck_absent {checkId : String} (h : ∀ row ∈ db.control.checks, row.id ≠ checkId) :
    hasCheck workspaceId checkId db = false :=
  any_eq_false fun row hrow ↦ by rw [decide_eq_false (h row hrow), Bool.false_and]

theorem hasCreated_absent {serviceId : String} (h : ∀ row ∈ db.control.services, row.id ≠ serviceId)
    : hasCreated workspaceId serviceId db = false :=
  any_eq_false fun row hrow ↦ by rw [decide_eq_false (h row hrow), Bool.false_and]

theorem hasService_absent {serviceId : String} (h : ∀ row ∈ control.services, row.id ≠ serviceId) :
    hasService control workspaceId serviceId = false :=
  any_eq_false fun row hrow ↦ by
    rw [decide_eq_false (h row hrow), Bool.false_and, Bool.false_and]

theorem add_ends {machineConditions checkConditions : List FinalCondition}
    (hsame : machineConditions = checkConditions)
    (hnew : ∀ row ∈ db.control.checks, row.id ≠ check.id) :
    Yields (fun after results ↦ Ends details (.addCheck workspaceId check machineConditions
        checkConditions) db after
          results[mutationIndex (.addCheck workspaceId check machineConditions checkConditions)]?)
      (addStatements details workspaceId check machineConditions checkConditions) 0 db := by
  subst hsame
  change Yields (fun after results ↦ Ends details _ db after
    results[if check.machineId.isSome then 1 else 0]?) _ _ _
  apply yields_advance
  intro changes
  apply yields_mutation
  intro next changed hinsert
  dsimp only at hinsert ⊢
  rcases insertCheck_alone hinsert with ⟨rfl, rfl, -⟩ | ⟨rfl, hcondition, rfl, hroom⟩
  · refine yields_noAudit (by decide) ?_
    have habsent (db' : MonitorDb) (hchecks : db'.control.checks = db.control.checks) :
        hasCheck workspaceId check.id db' = false :=
      hasCheck_absent fun row hrow ↦ hnew row (hchecks ▸ hrow)
    refine yields_noAssertions (habsent _ ?_) fun changes ↦ yields_noSecrets (habsent _ ?_) ?_
    · exact checks_advanceAgentConfiguration _ _
    · exact checks_advanceAgentConfiguration _ _
    · exact .inr ⟨untouched_advanced _ _, rfl⟩
  · rw [advanced_eq]
    · apply yields_audit
      refine yields_putAssertions (fun _ _ ↦ rfl) ?_ fun changes ↦
        yields_putSecrets (fun _ _ ↦ rfl) ?_ ?_
      · exact hasCheck_new _
      · exact hasCheck_new _
      · exact .inl ⟨rfl, rfl⟩
    · intro hmachine
      rw [permits_advanced, Bool.and_eq_true] at hcondition
      rw [hcondition.1, ← agentCapacity_advanced, hroom hmachine]
      rfl

theorem create_ends {service : NewService} {conditions : List FinalCondition}
    (hservice : ∀ row ∈ db.control.services, row.id ≠ service.id)
    (hnew : ∀ row ∈ db.control.checks, row.id ≠ check.id) :
    Yields (fun after results ↦ Ends details (.createService workspaceId service check conditions)
        db after results[mutationIndex (.createService workspaceId service check conditions)]?)
      (createStatements details workspaceId service check conditions) 0 db := by
  change Yields (fun after results ↦ Ends details _ db after
    results[if check.machineId.isSome then 1 else 0]?) _ _ _
  apply yields_advance
  intro changes
  apply yields_mutation
  intro next changed hinsert
  dsimp only at hinsert ⊢
  rw [insertService, permits_advanced] at hinsert
  cases hpermitted : db.control.permits workspaceId conditions with
  | false =>
    rw [hpermitted] at hinsert
    obtain ⟨rfl, rfl⟩ := Prod.mk.inj (Option.some.inj hinsert)
    refine yields_noAudit (by decide) ?_
    apply yields_onControl
    intro next changed hcheck
    have hcheck : insertCheck _ workspaceId (NewCheck.alone { check with serviceId := service.id })
      true = some (next, changed) := hcheck
    rcases insertCheck_alone hcheck with
      ⟨rfl, rfl, -⟩ | ⟨-, hfound, -⟩
    · refine yields_skip (hasCreated_absent ?_) (yields_skip (hasCreated_absent ?_)
        (yields_noAssertions (hasCheck_absent ?_) fun changes ↦
          yields_noSecrets (hasCheck_absent ?_) (.inr ⟨?_, rfl⟩)))
      all_goals simp only [services_advanceAgentConfiguration, checks_advanceAgentConfiguration]
      · exact hservice
      · exact hservice
      · exact hnew
      · exact hnew
      · exact untouched_advanced _ _
    · rw [Bool.true_and, hasService_absent] at hfound
      · cases hfound
      · rwa [services_advanceAgentConfiguration]
  | true =>
    simp only [hpermitted, Bool.not_true, Bool.false_eq_true, if_false] at hinsert
    split at hinsert
    · cases hinsert
    · obtain ⟨rfl, rfl⟩ := Prod.mk.inj (Option.some.inj hinsert)
      apply yields_audit
      apply yields_onControl
      intro next changed hcheck
      have hcheck : insertCheck _ workspaceId
        (NewCheck.alone { check with serviceId := service.id }) true = some (next, changed) := hcheck
      rcases insertCheck_alone hcheck with
        ⟨-, -, hmissing⟩ | ⟨rfl, -, rfl, hroom⟩
      · simp [hasService] at hmissing
      · have hcontrol : advanceAgentConfiguration db.control workspaceId
              (db.control.agentCapacity check.capacity && true) check.machineId =
            advanceAgentConfiguration db.control workspaceId true check.machineId := by
          apply advanced_eq
          intro hmachine
          have hthere := hroom hmachine
          change (advanceAgentConfiguration _ _ _ _).agentCapacity check.capacity = true at hthere
          rw [agentCapacity_advanced] at hthere
          rw [hthere]
          rfl
        refine yields_insert ?_ (yields_insert ?_ (yields_putAssertions (fun _ _ ↦ rfl) ?_
          fun changes ↦ yields_putSecrets (fun _ _ ↦ rfl) ?_ (.inl ⟨?_, rfl⟩)))
        · simp [hasCreated]
        · simp [hasCreated]
        · exact hasCheck_new _
        · exact hasCheck_new _
        · simp only [requested, ← hcontrol]
          rfl

end New

/-! ## Updates -/

section Updates

variable {details : Details} {workspaceId : String} {control next : ControlDb} {changed : ℕ}

/-- An update that names a check by its identifier changes that check or none. -/
theorem updateChecks_one {machineId : Option String} {capacity : AgentCapacityInput}
    {condition : CheckRow → Bool} {change : CheckRow → CheckRow} (checkId : String)
    (h : updateChecks control workspaceId machineId capacity condition change =
      some (next, changed))
    (hunique : UniqueKey CheckRow.id control.checks)
    (hid : ∀ check, condition check = true → check.id = checkId)
    (hchange : ∀ check, (change check).configRevision = check.configRevision ∧
      (change check).assignmentRevision = check.assignmentRevision) :
    (next = control ∧ changed = 0) ∨
      (changed = 1 ∧
        next = { control with
          checks := updateWhere (fun check ↦ check.id = checkId)
            (fun check ↦ reassigned control workspaceId machineId (change check))
            control.checks } ∧
        ∃ check ∈ control.checks, condition check = true ∧
          (machineId.isSome = true → control.agentCapacity capacity = true)) := by
  obtain ⟨hnext, hassigned⟩ := updateChecks_cases h
  have hchanged := updateChecks_changes h
  by_cases hmatch : ∃ check ∈ control.checks, condition check = true
  · obtain ⟨check, hcheck, hcondition⟩ := hmatch
    have hrevision (row : CheckRow) (hrow : row ∈ control.checks) (htrue : condition row = true) :
        (assignmentRevision control workspaceId capacity row.assignmentRevision
            machineId).getD row.assignmentRevision =
          assigned control workspaceId row.assignmentRevision machineId ∧
        (machineId.isSome = true → control.agentCapacity capacity = true) := by
      obtain ⟨revision, hsome⟩ := Option.isSome_iff_exists.mp (hassigned row hrow htrue)
      rw [hsome]
      exact assigned_of_assignmentRevision hsome
    refine .inr ⟨?_, ?_, check, hcheck, hcondition, (hrevision check hcheck hcondition).2⟩
    · rw [hchanged]
      exact hunique.countP_eq_one hcheck hcondition fun other hother ↦
        (hid other hother).trans (hid check hcondition).symm
    · rw [hnext]
      congr 1
      apply List.map_congr_left
      intro row hrow
      by_cases hsame : row.id = checkId
      · obtain rfl := hunique.eq_of_mem hrow hcheck (hsame.trans (hid check hcondition).symm)
        rw [if_pos hcondition, if_pos (decide_eq_true hsame)]
        simp only [reassigned, (hchange row).1, (hchange row).2, (hrevision row hrow hcondition).1]
      · rw [if_neg fun htrue ↦ hsame (hid row htrue), if_neg (by simpa using hsame)]
  · have hnone : ∀ check ∈ control.checks, condition check = false := fun check hcheck ↦
      Bool.eq_false_iff.mpr fun htrue ↦ hmatch ⟨check, hcheck, htrue⟩
    refine .inl ⟨?_, ?_⟩
    · rw [hnext, updateWhere_eq_self hnone]
    · rw [hchanged, List.countP_eq_zero]
      exact fun check hcheck ↦ Bool.eq_false_iff.mp (hnone check hcheck)

theorem capacityHolds_of_capacityOr {capacity : Option AgentCapacityInput} {checkId : String}
    {configBytes : ℕ} (h : control.agentCapacity (capacityOr capacity checkId configBytes) = true) :
    capacityHolds control capacity = true := by
  cases capacity with
  | none => rfl
  | some input => exact h

variable {db : MonitorDb}

theorem hasSyncJob_upsert {job : SyncJobRow} :
    hasSyncJob job { db with
      syncJobs := upsert SyncJobRow.jobKey (fun _ ↦ true) (fun _ ↦ job) job db.syncJobs } = true := by
  refine List.any_eq_true.mpr ⟨job, ?_, by simp⟩
  dsimp only
  rw [upsert]
  split
  · next hany =>
    obtain ⟨old, hold, hkey⟩ := List.any_eq_true.mp hany
    refine mem_updateWhere.mpr ⟨old, hold, .inl ⟨?_, rfl⟩⟩
    rw [hkey]
    rfl
  · exact List.mem_append_right _ (List.mem_singleton_self job)

theorem hasSyncJob_absent {job : SyncJobRow}
    (h : ∀ old ∈ db.syncJobs, old.syncToken ≠ job.syncToken) : hasSyncJob job db = false :=
  any_eq_false fun old hold ↦ by rw [decide_eq_false (h old hold), Bool.and_false]

theorem replace_ends {update : ReplaceCheck} (hkeyed : Keyed db)
    (hsame : update.machineConditions = update.checkConditions)
    (hnew : ∀ job ∈ db.syncJobs, job.syncToken ≠ details.syncToken) :
    Yields (fun after results ↦ Ends details (.replaceCheck workspaceId update) db after
        results[mutationIndex (.replaceCheck workspaceId update)]?)
      (replaceStatements details workspaceId update) 0 db := by
  change Yields (fun after results ↦ Ends details _ db after
    results[if update.machineId.isSome then 1 else 0]?) _ _ _
  apply yields_advance
  intro changes
  apply yields_mutation
  intro next changed hupdate
  dsimp only at hupdate ⊢
  have hchecks := hkeyed.checks
  rw [← checks_advanceAgentConfiguration] at hchecks
  have hone := updateChecks_one update.checkId hupdate hchecks (fun check hcheck ↦ by
    simp only [Bool.and_eq_true, decide_eq_true_eq] at hcheck
    exact hcheck.1.1.1.1) fun _ ↦ ⟨rfl, rfl⟩
  rcases hone with ⟨rfl, rfl⟩ | ⟨rfl, rfl, check, hcheck, hcondition, hroom⟩
  · have habsent (db' : MonitorDb) (hjobs : db'.syncJobs = db.syncJobs) :
        hasSyncJob (details.syncJob workspaceId update.serviceId update.checkId) db' = false :=
      hasSyncJob_absent fun job hjob ↦ hnew job (hjobs ▸ hjob)
    refine yields_noSync (by decide) (yields_noAudit (by decide)
      (yields_keepAssertions (habsent _ rfl) fun _ ↦
        yields_noAssertions (habsent _ rfl) fun _ ↦
        yields_keepSecrets (habsent _ rfl) fun _ ↦
        yields_noSecrets (habsent _ rfl) (.inr ⟨?_, rfl⟩)))
    exact untouched_advanced _ _
  · rw [advanced_eq]
    · refine yields_sync hkeyed.syncJobs (yields_audit
        (yields_deleteAssertions hasSyncJob_upsert fun _ ↦
          yields_putAssertions (fun _ _ ↦ rfl) hasSyncJob_upsert fun _ ↦
          yields_deleteSecrets hasSyncJob_upsert fun _ ↦
          yields_putSecrets (fun _ _ ↦ rfl) hasSyncJob_upsert (.inl ⟨?_, rfl⟩)))
      rfl
    · intro hmachine
      have hthere := hroom hmachine
      rw [agentCapacity_advanced] at hthere
      rw [checks_advanceAgentConfiguration] at hcheck
      simp only [permits_advanced, Bool.and_eq_true, decide_eq_true_eq] at hcondition
      simp only [Bool.and_eq_true, List.any_eq_true, decide_eq_true_eq]
      exact ⟨⟨⟨check, hcheck, ⟨hcondition.1.1.1.1, hcondition.1.1.2⟩, hcondition.1.2⟩,
        capacityHolds_of_capacityOr hthere⟩, hsame ▸ hcondition.2⟩

theorem policy_ends {update : UpdatePolicy} (hkeyed : Keyed db)
    (hsame : update.machineConditions = update.checkConditions) :
    Yields (fun after results ↦ Ends details (.updatePolicy workspaceId update) db after
        results[mutationIndex (.updatePolicy workspaceId update)]?)
      (policyStatements details workspaceId update) 0 db := by
  change Yields (fun after results ↦ Ends details _ db after
    results[if update.machineId.isSome then 1 else 0]?) _ _ _
  apply yields_advance
  intro changes
  apply yields_mutation
  intro next changed hupdate
  dsimp only at hupdate ⊢
  have hchecks := hkeyed.checks
  rw [← checks_advanceAgentConfiguration] at hchecks
  have hone := updateChecks_one update.checkId hupdate hchecks (fun check hcheck ↦ by
    simp only [Bool.and_eq_true, decide_eq_true_eq] at hcheck
    exact hcheck.1.1.1.1.1) fun _ ↦ ⟨rfl, rfl⟩
  rcases hone with ⟨rfl, rfl⟩ | ⟨rfl, rfl, check, hcheck, hcondition, hroom⟩
  · refine yields_noAudit (by decide) (yields_noSync (by decide) (yields_nil (.inr ⟨?_, rfl⟩)))
    exact untouched_advanced _ _
  · rw [advanced_eq]
    · refine yields_audit (yields_sync hkeyed.syncJobs (yields_nil (.inl ⟨?_, rfl⟩)))
      rfl
    · intro hmachine
      have hthere := hroom hmachine
      rw [agentCapacity_advanced] at hthere
      simp only [permits_advanced, Bool.and_eq_true, decide_eq_true_eq] at hcondition
      rw [Bool.and_eq_true]
      exact ⟨capacityHolds_of_capacityOr hthere, hsame ▸ hcondition.1.2⟩

end Updates

/-! ## Deletions -/

section Deletions

variable {details : Details} {workspaceId : String} {update : DeleteCheck} {control : ControlDb}
  {db : MonitorDb} {changes : ℕ} {post : MonitorDb → List Counts → Prop}
  {P : MonitorDb → Option Counts → Prop} {rest : List (Statement MonitorDb)}

def Removable (control : ControlDb) (workspaceId : String) (update : DeleteCheck) : Prop :=
  ∃ check ∈ control.checks, deletable control workspaceId update check = true

instance (control : ControlDb) (workspaceId : String) (update : DeleteCheck) :
    Decidable (Removable control workspaceId update) :=
  inferInstanceAs
    (Decidable (∃ check ∈ control.checks, deletable control workspaceId update check = true))

@[simp] theorem deletable_advanced (condition : Bool) (machineId : Option String) :
    deletable (advanceAgentConfiguration control workspaceId condition machineId) workspaceId
      update = deletable control workspaceId update := by
  funext check
  simp only [deletable, permits_advanced, checks_advanceAgentConfiguration]

theorem id_of_deletable {check : CheckRow} (h : deletable control workspaceId update check = true) :
    check.id = update.checkId ∧ control.permits workspaceId update.checkConditions = true := by
  simp only [deletable, Bool.and_eq_true, decide_eq_true_eq] at h
  exact ⟨h.1.1.1.1, h.1.2⟩

theorem deleteCheck_removable (hunique : UniqueKey CheckRow.id db.control.checks)
    (h : Removable db.control workspaceId update) :
    deleteCheckStatement workspaceId update changes db =
      some ({ db with
        control := deleteChecks db.control (fun check ↦ check.id = update.checkId)
        assertions := db.assertions.filter fun row ↦ row.checkId ≠ update.checkId },
        ⟨1, 1 + db.assertions.countP fun row ↦ row.checkId = update.checkId⟩) := by
  obtain ⟨check, hcheck, hdeletable⟩ := h
  have hid := (id_of_deletable hdeletable).1
  have hmatched : ∀ row ∈ db.control.checks,
      deletable db.control workspaceId update row = decide (row.id = update.checkId) := by
    intro row hrow
    by_cases hsame : row.id = update.checkId
    · obtain rfl := hunique.eq_of_mem hrow hcheck (hsame.trans hid.symm)
      rw [hdeletable, decide_eq_true hsame]
    · rw [decide_eq_false hsame, Bool.eq_false_iff]
      exact fun htrue ↦ hsame (id_of_deletable htrue).1
  have hgone (row : AssertionRow) : (db.control.checks.any fun check ↦
      deletable db.control workspaceId update check && decide (check.id = row.checkId)) =
        decide (row.checkId = update.checkId) := by
    rw [Bool.eq_iff_iff, List.any_eq_true, decide_eq_true_eq]
    constructor
    · rintro ⟨other, -, hother⟩
      rw [Bool.and_eq_true, decide_eq_true_eq] at hother
      exact hother.2.symm.trans (id_of_deletable hother.1).1
    · intro hrow
      exact ⟨check, hcheck, by rw [hdeletable, hrow, hid, decide_eq_true rfl]; rfl⟩
  have hcount : db.control.checks.countP (deletable db.control workspaceId update) = 1 :=
    hunique.countP_eq_one hcheck hdeletable fun other hother ↦
      (id_of_deletable hother).1.trans hid.symm
  have hdeleted : deleteChecks db.control (deletable db.control workspaceId update) =
      deleteChecks db.control (fun check ↦ check.id = update.checkId) := by
    rw [deleteChecks, deleteChecks, List.filter_congr fun row hrow ↦ hmatched row hrow,
      List.filter_congr fun row hrow ↦ congrArg not (hmatched row hrow)]
  simp only [deleteCheckStatement, hgone, hcount, hdeleted, decide_not]

theorem deleteCheck_kept (h : ¬ Removable db.control workspaceId update) :
    deleteCheckStatement workspaceId update changes db = some (db, ⟨0, 0⟩) := by
  have hnone : ∀ check ∈ db.control.checks,
      deletable db.control workspaceId update check = false := fun check hcheck ↦
    Bool.eq_false_iff.mpr fun htrue ↦ h ⟨check, hcheck, htrue⟩
  have hgone (row : AssertionRow) : (db.control.checks.any fun check ↦
      deletable db.control workspaceId update check && decide (check.id = row.checkId)) = false :=
    any_eq_false fun check hcheck ↦ by rw [hnone check hcheck, Bool.false_and]
  have hcount : db.control.checks.countP (deletable db.control workspaceId update) = 0 :=
    List.countP_eq_zero.mpr fun check hcheck ↦ Bool.eq_false_iff.mp (hnone check hcheck)
  have hkept : deleteChecks db.control (deletable db.control workspaceId update) = db.control := by
    rw [deleteChecks, List.filter_eq_nil_iff.mpr fun check hcheck ↦
        Bool.eq_false_iff.mp (hnone check hcheck),
      List.filter_eq_self.mpr fun check hcheck ↦ by rw [hnone check hcheck]; rfl]
    rfl
  simp [deleteCheckStatement, hgone, hcount, hkept]

theorem performed_advance {condition : ControlDb → Bool} {machineId : Option String}
    (h : ∀ changes, Performed (fun after results ↦ P after results[0]?) rest changes
      { db with
        control := advanceAgentConfiguration db.control workspaceId (condition db.control)
          machineId }) :
    Performed (fun after results ↦ P after results[if machineId.isSome then 1 else 0]?)
      (advanceStatements workspaceId condition machineId ++ rest) changes db := by
  cases machineId with
  | none => exact h changes
  | some id => exact performed_cons rfl (h _)

theorem performed_audit {row : AuditRow} (hnew : ∀ old ∈ db.auditLogs, old.id ≠ row.id)
    (h : Performed (fun after results ↦ post after (⟨1, 1⟩ :: results)) rest 1
      { db with auditLogs := db.auditLogs ++ [row] }) :
    Performed post (auditStatement row :: rest) 1 db := by
  refine performed_cons ?_ h
  have hfresh : (db.auditLogs.any fun old ↦ decide (old.id = row.id)) = false :=
    any_eq_false fun old hold ↦ decide_eq_false (hnew old hold)
  simp [auditStatement, Statement.afterChange, Statement.insert, hfresh]

theorem performed_sync {job : SyncJobRow} (hkeyed : UniqueKey SyncJobRow.jobKey db.syncJobs)
    (h : Performed (fun after results ↦ post after (⟨1, 1⟩ :: results)) rest 1 { db with
      syncJobs := upsert SyncJobRow.jobKey (fun _ ↦ true) (fun _ ↦ job) job db.syncJobs }) :
    Performed post (syncStatement job :: rest) 1 db := by
  refine performed_cons ?_ h
  have hone : upsertChanges SyncJobRow.jobKey (fun _ ↦ true) job db.syncJobs = 1 :=
    hkeyed.upsertChanges_eq_one fun _ _ _ ↦ rfl
  simp [syncStatement, Statement.afterChange, hone]

theorem performed_deleteSecrets {condition : MonitorDb → Bool} {ids : List String}
    {outcome : MonitorDb → Prop}
    (h : outcome (if condition db then withoutSecrets workspaceId ids db else db)) :
    Performed (fun after _ ↦ outcome after) (deleteSecrets condition workspaceId ids) changes
      db := by
  rw [deleteSecrets]
  split
  · next hempty =>
    rw [List.isEmpty_iff.mp hempty, withoutSecrets_nil, ite_self] at h
    exact performed_nil h
  · cases hcondition : condition db with
    | true =>
      rw [if_pos hcondition] at h
      exact performed_cons (if_pos hcondition) (performed_nil h)
    | false =>
      have hfalse := Bool.eq_false_iff.mp hcondition
      rw [if_neg hfalse] at h
      exact performed_cons (if_neg hfalse) (performed_nil h)

theorem untouched_withoutSecrets {before : MonitorDb} {ids : List String}
    (h : Untouched before db) :
    Untouched before (withoutSecrets workspaceId ids db) ↔
      ∀ secret ∈ before.control.secrets, named workspaceId ids secret = false := by
  have hsecrets : (withoutSecrets workspaceId ids db).control.secrets = before.control.secrets ↔
      ∀ secret ∈ before.control.secrets, named workspaceId ids secret = false := by
    simp [withoutSecrets, h.secrets]
  rw [← hsecrets]
  exact ⟨fun huntouched ↦ huntouched.secrets, fun hsame ↦
    ⟨h.services, h.checks, h.assertions, hsame, h.auditLogs, h.syncJobs⟩⟩

/-- What a deletion leaves with the count that its sender looks at. -/
structure Deletes (details : Details) (workspaceId : String) (update : DeleteCheck)
    (before after : MonitorDb) (counts : Option Counts) : Prop where
  removed : Removable before.control workspaceId update →
    after = requested details (.deleteCheck workspaceId update) before ∧
      counts.map Counts.total =
        some (1 + before.assertions.countP fun row ↦ row.checkId = update.checkId)
  kept : ¬ Removable before.control workspaceId update → counts.map Counts.total = some 0 ∧
    (Untouched before after ↔ (isStored before.control workspaceId update.serviceId
        update.checkId = false →
      ∀ secret ∈ before.control.secrets, named workspaceId update.secretIds secret = false))

theorem delete_performed (hkeyed : Keyed db)
    (hsame : update.machineConditions = update.checkConditions)
    (hnew : ∀ old ∈ db.auditLogs, old.id ≠ details.auditId) :
    Performed (fun after results ↦ Deletes details workspaceId update db after
        results[mutationIndex (.deleteCheck workspaceId update)]?)
      (deleteStatements details workspaceId update) 0 db := by
  change Performed (fun after results ↦ Deletes details workspaceId update db after
    results[if update.machineId.isSome then 1 else 0]?) _ _ _
  apply performed_advance
  intro changes
  have hremovable (condition : Bool) : Removable (advanceAgentConfiguration db.control workspaceId
      condition update.machineId) workspaceId update ↔
        Removable db.control workspaceId update := by
    simp only [Removable, checks_advanceAgentConfiguration, deletable_advanced]
  by_cases h : Removable db.control workspaceId update
  · obtain ⟨check, hcheck, hdeletable⟩ := h
    have hpermitted := (id_of_deletable hdeletable).2
    rw [hsame, hpermitted]
    have hchecks := hkeyed.checks
    rw [← checks_advanceAgentConfiguration] at hchecks
    refine performed_cons (deleteCheck_removable hchecks
      ((hremovable true).mpr ⟨check, hcheck, hdeletable⟩)) ?_
    change Performed (fun after _ ↦ Deletes details workspaceId update db after (some _)) _ 1 _
    refine performed_audit hnew (performed_sync ?_ (performed_deleteSecrets ?_))
    · exact hkeyed.syncJobs
    · rw [if_pos]
      · exact ⟨fun _ ↦ ⟨rfl, rfl⟩, fun hnot ↦ absurd ⟨check, hcheck, hdeletable⟩ hnot⟩
      · -- no check with the identifier is left
        rw [Bool.not_eq_true']
        apply any_eq_false
        intro row hrow
        have hother := (List.mem_filter.mp hrow).2
        rw [Bool.not_eq_true', decide_eq_false_iff_not] at hother
        rw [decide_eq_false hother, Bool.false_and, Bool.false_and]
  · refine performed_cons (deleteCheck_kept fun hthere ↦ h ((hremovable _).mp hthere)) ?_
    change Performed (fun after _ ↦ Deletes details workspaceId update db after (some _)) _ 0 _
    refine performed_noChange (by decide) (performed_noChange (by decide)
      (performed_deleteSecrets ⟨fun hthere ↦ absurd hthere h, fun _ ↦ ⟨rfl, ?_⟩⟩))
    have hadvanced (condition : Bool) : Untouched db { db with
        control := advanceAgentConfiguration db.control workspaceId condition
          update.machineId } :=
      untouched_advanced _ _
    have hstored (condition : Bool) : isStored (advanceAgentConfiguration db.control workspaceId
        condition update.machineId) workspaceId update.serviceId update.checkId =
          isStored db.control workspaceId update.serviceId update.checkId := by
      rw [isStored, checks_advanceAgentConfiguration, isStored]
    dsimp only
    rw [hstored]
    cases isStored db.control workspaceId update.serviceId update.checkId with
    | true => exact ⟨fun _ hfalse ↦ (nomatch hfalse), fun _ ↦ hadvanced _⟩
    | false =>
      rw [Bool.not_false, if_pos rfl, untouched_withoutSecrets (hadvanced _)]
      exact ⟨fun hkept _ ↦ hkept, fun hkept ↦ hkept rfl⟩

end Deletions

end AlphaPing.Monitoring.MutationSteps
