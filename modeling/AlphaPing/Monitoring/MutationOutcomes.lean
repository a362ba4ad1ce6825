import AlphaPing.Library.Verdicts
import AlphaPing.Monitoring.HandlerBatches
import AlphaPing.Monitoring.MutationSteps

/-!
# The outcome of a mutation

A mutation returns if and only if its batch has done what was requested, and one that throws has
changed no service, check, assertion, secret, audit log or sync job: for every mutation but the
deletion of a check. A deletion looks for one change and counts the assertions of its check, so it
throws after the deletion of a check that has some. And it deletes the secrets that it has read
even if the check is gone by then, and throws: a replacement between another deletion's reading
and its batch leaves such secrets.
-/

namespace AlphaPing.Monitoring.MutationOutcomes

open Library.Runs Library.Tables Library.Workflows Library.Verdicts Control Handlers HandlerBatches
  MutationBatches MutationSteps
open Library.CascadingBatches hiding perform
open ServiceConfig hiding perform

/-! ## The keys -/

section Keys

variable {details : Details} {workspaceId : String}

theorem keeps_onControl {statement : ControlDb → Option (ControlDb × ℕ)}
    (h : ∀ control next changes, UniqueKey CheckRow.id control.checks →
      statement control = some (next, changes) → UniqueKey CheckRow.id next.checks) :
    (onControl statement).Keeps Keyed := by
  intro changes db next counts hkeyed hnext
  obtain ⟨⟨control, changed⟩, hstatement, heq⟩ := Option.map_eq_some_iff.mp hnext
  obtain ⟨rfl, -⟩ := Prod.mk.inj heq
  exact ⟨h db.control control changed hkeyed.checks hstatement, hkeyed.syncJobs⟩

theorem keeps_advance {condition : ControlDb → Bool} {machineId : Option String} :
    ∀ statement ∈ advanceStatements workspaceId condition machineId,
      Statement.Keeps Keyed statement := by
  intro statement hstatement
  cases machineId with
  | none => exact absurd hstatement List.not_mem_nil
  | some id =>
    rw [List.mem_singleton.mp hstatement]
    apply keeps_onControl
    intro control next changes hunique hnext
    obtain ⟨rfl, -⟩ := Prod.mk.inj (Option.some.inj hnext)
    exact hunique

theorem keeps_insertCheck {check : NewCheck} {condition : ControlDb → Bool} :
    (onControl fun control ↦ insertCheck control workspaceId check (condition control)).Keeps
      Keyed := by
  apply keeps_onControl
  intro control next changes hunique hnext
  rcases insertCheck_cases hnext with ⟨rfl, -, -⟩ | ⟨revision, -, hnew, -, hchecks, -, -⟩
  · exact hunique
  · rw [hchecks]
    apply uniqueKey_append_singleton hunique
    intro row hrow hsame
    apply hnew
    rw [show check.id = row.id from hsame.symm]
    exact List.mem_map_of_mem hrow

theorem keeps_updateChecks {machineId : Option String} {capacity : AgentCapacityInput}
    {condition : ControlDb → CheckRow → Bool} {change : CheckRow → CheckRow}
    (hid : ∀ check, (change check).id = check.id) :
    (onControl fun control ↦ updateChecks control workspaceId machineId capacity
      (condition control) change).Keeps Keyed := by
  apply keeps_onControl
  intro control next changes hunique hnext
  rw [(updateChecks_cases hnext).1]
  exact hunique.updateWhere fun check ↦ hid check

theorem keeps_audit (row : AuditRow) : (auditStatement row).Keeps Keyed :=
  (Statement.keeps_insert fun _ hkeyed ↦ ⟨hkeyed.checks, hkeyed.syncJobs⟩).afterChange

theorem keeps_sync (job : SyncJobRow) : (syncStatement job).Keeps Keyed := by
  apply Statement.Keeps.afterChange
  intro changes db next counts hkeyed hnext
  obtain ⟨rfl, -⟩ := Prod.mk.inj (Option.some.inj hnext)
  exact ⟨hkeyed.checks, hkeyed.syncJobs.upsert fun old hold ↦ hold.symm⟩

variable {condition : MonitorDb → Bool}

theorem keeps_assertions {rows : List AssertionRow} :
    ∀ statement ∈ assertionStatements condition rows, Statement.Keeps Keyed statement := by
  intro statement hstatement
  obtain ⟨row, -, rfl⟩ := List.mem_map.mp hstatement
  exact Statement.keeps_insert fun _ hkeyed ↦ ⟨hkeyed.checks, hkeyed.syncJobs⟩

theorem keeps_secrets {rows : List SecretRow} :
    ∀ statement ∈ secretStatements condition rows, Statement.Keeps Keyed statement := by
  intro statement hstatement
  obtain ⟨row, -, rfl⟩ := List.mem_map.mp hstatement
  exact Statement.keeps_insert fun _ hkeyed ↦ ⟨hkeyed.checks, hkeyed.syncJobs⟩

theorem keeps_deleteAssertions {checkId : String} :
    (deleteAssertions condition checkId).Keeps Keyed := by
  intro changes db next counts hkeyed hnext
  rw [deleteAssertions] at hnext
  split at hnext
  · obtain ⟨rfl, -⟩ := Prod.mk.inj (Option.some.inj hnext)
    exact ⟨hkeyed.checks, hkeyed.syncJobs⟩
  · obtain ⟨rfl, -⟩ := Prod.mk.inj (Option.some.inj hnext)
    exact hkeyed

theorem keeps_deleteSecrets {ids : List String} :
    ∀ statement ∈ deleteSecrets condition workspaceId ids, Statement.Keeps Keyed statement := by
  intro statement hstatement
  rw [deleteSecrets] at hstatement
  split at hstatement
  · exact absurd hstatement List.not_mem_nil
  · rw [List.mem_singleton.mp hstatement]
    intro changes db next counts hkeyed hnext
    beta_reduce at hnext
    split at hnext
    · obtain ⟨rfl, -⟩ := Prod.mk.inj (Option.some.inj hnext)
      exact ⟨hkeyed.checks, hkeyed.syncJobs⟩
    · obtain ⟨rfl, -⟩ := Prod.mk.inj (Option.some.inj hnext)
      exact hkeyed

theorem keeps_deleteCheck {update : DeleteCheck} :
    (deleteCheckStatement workspaceId update).Keeps Keyed := by
  intro changes db next counts hkeyed hnext
  obtain ⟨rfl, -⟩ := Prod.mk.inj (Option.some.inj hnext)
  exact ⟨hkeyed.checks.filter _, hkeyed.syncJobs⟩

theorem keeps_statements (details : Details) (batch : Batch) :
    ∀ statement ∈ statements details batch, Statement.Keeps Keyed statement := by
  cases batch with
  | createService workspaceId service check conditions =>
    refine List.forall_mem_append.mpr ⟨keeps_advance, List.forall_mem_cons.mpr ⟨?_,
      List.forall_mem_cons.mpr ⟨keeps_audit _, List.forall_mem_cons.mpr ⟨keeps_insertCheck,
      List.forall_mem_cons.mpr ⟨?_, List.forall_mem_cons.mpr ⟨?_,
      List.forall_mem_append.mpr ⟨keeps_assertions, keeps_secrets⟩⟩⟩⟩⟩⟩⟩
    · apply keeps_onControl
      intro control next changes hunique hnext
      rwa [(insertService_cases hnext).1]
    · exact Statement.keeps_insert fun _ hkeyed ↦ ⟨hkeyed.checks, hkeyed.syncJobs⟩
    · exact Statement.keeps_insert fun _ hkeyed ↦ ⟨hkeyed.checks, hkeyed.syncJobs⟩
  | addCheck workspaceId check machineConditions checkConditions =>
    exact List.forall_mem_append.mpr ⟨keeps_advance, List.forall_mem_cons.mpr ⟨keeps_insertCheck,
      List.forall_mem_cons.mpr ⟨keeps_audit _,
      List.forall_mem_append.mpr ⟨keeps_assertions, keeps_secrets⟩⟩⟩⟩
  | replaceCheck workspaceId update =>
    exact List.forall_mem_append.mpr ⟨keeps_advance,
      List.forall_mem_cons.mpr ⟨keeps_updateChecks fun _ ↦ rfl,
      List.forall_mem_cons.mpr ⟨keeps_sync _, List.forall_mem_cons.mpr ⟨keeps_audit _,
      List.forall_mem_cons.mpr ⟨keeps_deleteAssertions,
      List.forall_mem_append.mpr ⟨keeps_assertions,
      List.forall_mem_append.mpr ⟨keeps_deleteSecrets, keeps_secrets⟩⟩⟩⟩⟩⟩⟩
  | updatePolicy workspaceId update =>
    exact List.forall_mem_append.mpr ⟨keeps_advance,
      List.forall_mem_cons.mpr ⟨keeps_updateChecks fun _ ↦ rfl,
      List.forall_mem_cons.mpr ⟨keeps_audit _, List.forall_mem_cons.mpr ⟨keeps_sync _,
      List.forall_mem_nil _⟩⟩⟩⟩
  | deleteCheck workspaceId update =>
    exact List.forall_mem_append.mpr ⟨keeps_advance, List.forall_mem_cons.mpr ⟨keeps_deleteCheck,
      List.forall_mem_cons.mpr ⟨keeps_audit _, List.forall_mem_cons.mpr ⟨keeps_sync _,
      keeps_deleteSecrets⟩⟩⟩⟩
  | _ => exact List.forall_mem_nil _

theorem keyed_perform (db : MonitorDb) (batch : MonitorBatch) (hkeyed : Keyed db) :
    Keyed (perform batch db).1 := by
  cases batch with
  | mutate details batch => exact perform_keeps (keeps_statements details batch) hkeyed
  | other change keyed => exact keyed db hkeyed

end Keys

/-! ## What is assumed and what is told -/

/-- The rows that the batch inserts under identifiers of its own are new. -/
def DrawnRows (control : ControlDb) : Batch → Prop
  | .createService _ service check _ =>
    (∀ row ∈ control.services, row.id ≠ service.id) ∧ ∀ row ∈ control.checks, row.id ≠ check.id
  | .addCheck _ check _ _ => ∀ row ∈ control.checks, row.id ≠ check.id
  | _ => True

instance (control : ControlDb) (batch : Batch) : Decidable (DrawnRows control batch) := by
  cases batch <;> unfold DrawnRows <;> infer_instance

/-- What `crypto.randomUUID` has drawn for a mutation is not in the store yet. -/
def Drawn (db : MonitorDb) : MonitorBatch → Prop
  | .mutate details batch =>
    (∀ old ∈ db.auditLogs, old.id ≠ details.auditId) ∧
      (∀ job ∈ db.syncJobs, job.syncToken ≠ details.syncToken) ∧ DrawnRows db.control batch
  | .other .. => True

instance (db : MonitorDb) (batch : MonitorBatch) : Decidable (Drawn db batch) := by
  cases batch <;> unfold Drawn <;> infer_instance

/-- The deletion of a check that has no assertions, or of one that is gone with all the secrets
that were read. -/
def DeletionTells (db : MonitorDb) (workspaceId : String) (update : DeleteCheck) : Prop :=
  (Removable db.control workspaceId update →
      ∀ row ∈ db.assertions, row.checkId ≠ update.checkId) ∧
    (isStored db.control workspaceId update.serviceId update.checkId = false →
      ∀ secret ∈ db.control.secrets, named workspaceId update.secretIds secret = false)

instance (db : MonitorDb) (workspaceId : String) (update : DeleteCheck) :
    Decidable (DeletionTells db workspaceId update) := by
  unfold DeletionTells
  infer_instance

def CountTells (db : MonitorDb) : MonitorBatch → Prop
  | .mutate _ (.deleteCheck workspaceId update) => DeletionTells db workspaceId update
  | _ => True

instance (db : MonitorDb) (batch : MonitorBatch) : Decidable (CountTells db batch) := by
  unfold CountTells
  split <;> infer_instance

/-- The batch has done what was requested. -/
def Applied (one : Sent MonitorDb MonitorBatch) : Prop :=
  match one.batch with
  | .mutate details batch => (perform one.batch one.store).1 = requested details batch one.store
  | .other .. => False

/-- The call returns if and only if its batch has done what was requested, and leaves everything
as it was when it throws. -/
structure Told (sent : List (Sent MonitorDb MonitorBatch)) (outcome : Except HttpError Unit) :
    Prop where
  applied : outcome = .ok () ↔ ∃ one ∈ sent, Applied one
  untouched : outcome ≠ .ok () → ∀ one ∈ sent, Untouched one.store (perform one.batch one.store).1

/-- Every mutation tells what it has done. -/
def Truthful : MonitorRequest → List (Sent MonitorDb MonitorBatch) → Except HttpError Unit → Prop
  | .mutation .. => Told
  | .other .. => fun _ _ ↦ True

section Told

variable {details : Details} {batch : Batch} {db : MonitorDb} {failure : HttpError}

theorem told_unsent : Told [] (.error failure) where
  applied := by simp
  untouched _ one hone := absurd hone List.not_mem_nil

theorem told_ok (h : (perform (.mutate details batch) db).1 = requested details batch db) :
    Told [⟨.mutate details batch, db⟩] (.ok ()) where
  applied := ⟨fun _ ↦ ⟨_, List.mem_singleton_self _, h⟩, fun _ ↦ rfl⟩
  untouched hok := absurd rfl hok

theorem told_error_iff (hmutates : mutates batch = true) :
    Told [⟨.mutate details batch, db⟩] (.error failure) ↔
      Untouched db (perform (.mutate details batch) db).1 := by
  constructor
  · intro h
    exact h.untouched (fun herror ↦ nomatch herror) _ (List.mem_singleton_self _)
  · intro h
    refine ⟨⟨fun herror ↦ (nomatch herror), ?_⟩, ?_⟩
    · rintro ⟨one, hone, happlied⟩
      obtain rfl := List.mem_singleton.mp hone
      change (perform (.mutate details batch) db).1 = _ at happlied
      rw [happlied] at h
      exact absurd h (requested_touches hmutates db)
    · intro _ one hone
      rwa [List.mem_singleton.mp hone]

end Told

/-! ## What the batches tell -/

section Performed

variable {details : Details} {batch : Batch} {db : MonitorDb}

theorem perform_cases (h : Yields (fun after results ↦ Ends details batch db after
      results[mutationIndex batch]?) (statements details batch) 0 db) :
    (perform (.mutate details batch) db).2 = some 1 ∧
        (perform (.mutate details batch) db).1 = requested details batch db ∨
      (perform (.mutate details batch) db).2 ≠ some 1 ∧
        Untouched db (perform (.mutate details batch) db).1 := by
  rw [perform, Library.CascadingBatches.perform]
  cases hperform : performFrom (statements details batch) 0 db with
  | none => exact .inr ⟨(Option.some_ne_none 1).symm, Untouched.refl db⟩
  | some result =>
    simp only [Option.map_some, mutationChanges]
    rcases h result.1 result.2 hperform with ⟨happlied, hone⟩ | ⟨huntouched, hzero⟩
    · rw [hone]
      exact .inl ⟨rfl, happlied⟩
    · rw [hzero]
      exact .inr ⟨by decide, huntouched⟩

theorem perform_deleteCheck (workspaceId : String) {update : DeleteCheck} (hkeyed : Keyed db)
    (hsame : update.machineConditions = update.checkConditions)
    (hnew : ∀ old ∈ db.auditLogs, old.id ≠ details.auditId) :
    ∃ after counts, perform (.mutate details (.deleteCheck workspaceId update)) db =
        (after, some ((Option.map Counts.total counts).getD 0)) ∧
      Deletes details workspaceId update db after counts := by
  obtain ⟨after, results, hperform, hdeletes⟩ := delete_performed hkeyed hsame hnew
  refine ⟨after, results[mutationIndex (.deleteCheck workspaceId update)]?, ?_, hdeletes⟩
  rw [perform, Library.CascadingBatches.perform, statements, hperform]
  rfl

theorem isStored_of_removable {workspaceId : String} {update : DeleteCheck}
    (h : Removable db.control workspaceId update) :
    isStored db.control workspaceId update.serviceId update.checkId = true := by
  obtain ⟨check, hcheck, hdeletable⟩ := h
  refine List.any_eq_true.mpr ⟨check, hcheck, ?_⟩
  simp only [deletable, Bool.and_eq_true] at hdeletable ⊢
  exact hdeletable.1.1

end Performed

/-! ## The handlers account for their ends -/

section Accounts

variable {details : Details} {sent : List (Sent MonitorDb MonitorBatch)}
  {verdict : List (Sent MonitorDb MonitorBatch) → Except HttpError Unit → Prop}

/-- A handler over all tables accounts for its end. -/
abbrev Accounted (details : Details)
    (verdict : List (Sent MonitorDb MonitorBatch) → Except HttpError Unit → Prop)
    (sent : List (Sent MonitorDb MonitorBatch)) (flow : Flow) : Prop :=
  Workflow.Accounts perform Keyed Drawn CountTells verdict sent (overMonitor details flow)

theorem passes_accounted (h : ∀ failure, verdict sent (.error failure)) :
    Passes (Accounted details verdict sent) where
  ask _ _ hnext := fun db ↦ hnext db.control
  refused failure := h failure

theorem accounted_finish {capacity : Option AgentCapacityInput} {conflict : String}
    {reply : Option ℕ} (hone : reply = some 1 → verdict sent (.ok ()))
    (hother : reply ≠ some 1 → ∀ failure, verdict sent (.error failure)) :
    Accounted details verdict sent (finish capacity conflict reply) := by
  cases reply with
  | none =>
    have hrefused := hother nofun
    exact (passes_accounted hrefused).assertAgentCapacity (hrefused _)
  | some changes =>
    by_cases hchanges : changes = 1
    · subst hchanges
      exact hone rfl
    · rw [finish, if_neg hchanges]
      exact hother (fun hsome ↦ hchanges (Option.some.inj hsome)) _

/-- A batch that ends as requested or leaves everything as it was, with the usual answer. -/
theorem accounted_send {batch : Batch} {capacity : Option AgentCapacityInput} {conflict : String}
    (hmutates : mutates batch = true) (htells : ∀ db, CountTells db (.mutate details batch))
    (h : ∀ db, Keyed db → Drawn db (.mutate details batch) →
      Yields (fun after results ↦ Ends details batch db after results[mutationIndex batch]?)
        (statements details batch) 0 db) :
    Accounted details Told [] (.send batch (finish capacity conflict)) := by
  intro db hkeyed hdrawn
  refine ⟨fun _ ↦ ?_, fun hfalse ↦ absurd (htells db) hfalse⟩
  rcases perform_cases (h db hkeyed hdrawn) with ⟨hone, happlied⟩ | ⟨hother, huntouched⟩
  · apply accounted_finish
    · exact fun _ ↦ told_ok happlied
    · exact fun hnot ↦ absurd hone hnot
  · apply accounted_finish
    · exact fun hone ↦ absurd hone hother
    · exact fun _ failure ↦ (told_error_iff hmutates).mpr huntouched

section Deletions

variable {db : MonitorDb} {workspaceId : String} {update : DeleteCheck}

theorem deletionTells_of_removable (h : Removable db.control workspaceId update) :
    DeletionTells db workspaceId update ↔
      (db.assertions.countP fun row ↦ row.checkId = update.checkId) = 0 := by
  rw [List.countP_eq_zero]
  simp only [DeletionTells, isStored_of_removable h, decide_eq_true_eq]
  exact ⟨fun htells ↦ htells.1 h, fun hnone ↦ ⟨fun _ ↦ hnone, fun hgone ↦ nomatch hgone⟩⟩

theorem deletionTells_of_kept (h : ¬ Removable db.control workspaceId update) :
    DeletionTells db workspaceId update ↔
      (isStored db.control workspaceId update.serviceId update.checkId = false →
        ∀ secret ∈ db.control.secrets, named workspaceId update.secretIds secret = false) :=
  ⟨fun htells ↦ htells.2, fun hkept ↦ ⟨fun hremovable ↦ absurd hremovable h, hkept⟩⟩

theorem deletionChanged_error {changes : ℕ} (h : changes ≠ 1) :
    deletionChanged (some changes) = refuse 409 "A service must keep at least one check" :=
  if_neg h

/-- The deletion of a check ends as it should where its count tells what it has done, and only
there. -/
theorem accounted_deletion (hsame : update.machineConditions = update.checkConditions) :
    Accounted details Told [] (.send (.deleteCheck workspaceId update) deletionChanged) := by
  intro db hkeyed hdrawn
  obtain ⟨after, counts, hperform, hremoved, hkept⟩ :=
    perform_deleteCheck workspaceId hkeyed hsame hdrawn.1
  have hafter : (perform (.mutate details (.deleteCheck workspaceId update)) db).1 = after :=
    congrArg Prod.fst hperform
  rw [hperform]
  by_cases hremovable : Removable db.control workspaceId update
  · obtain ⟨happlied, htotal⟩ := hremoved hremovable
    have htells := deletionTells_of_removable hremovable
    rw [htotal]
    by_cases hnone : (db.assertions.countP fun row ↦ row.checkId = update.checkId) = 0
    · rw [hnone]
      refine ⟨fun _ ↦ told_ok (hafter.trans happlied), fun hfalse ↦ absurd ?_ hfalse⟩
      exact htells.mpr hnone
    · refine ⟨fun htrue ↦ absurd (htells.mp htrue) hnone, fun _ ↦ ?_⟩
      dsimp only [Option.getD_some]
      rw [deletionChanged_error (by omega)]
      refine ⟨_, rfl, fun htold ↦ ?_⟩
      have huntouched : Untouched db after := hafter ▸ (told_error_iff rfl).mp htold
      rw [happlied] at huntouched
      exact requested_touches rfl db huntouched
  · obtain ⟨htotal, huntouched⟩ := hkept hremovable
    rw [htotal]
    have htells : CountTells db (.mutate details (.deleteCheck workspaceId update)) ↔
        Untouched db (perform (.mutate details (.deleteCheck workspaceId update)) db).1 := by
      rw [hafter]
      exact (deletionTells_of_kept hremovable).trans huntouched.symm
    refine ⟨fun htrue ↦ (told_error_iff rfl).mpr (htells.mp htrue), fun hfalse ↦ ⟨_, rfl, ?_⟩⟩
    exact fun htold ↦ hfalse (htells.mpr ((told_error_iff rfl).mp htold))

end Deletions

theorem accounted_serve (request : MonitorRequest) :
    Workflow.Accounts perform Keyed Drawn CountTells (Truthful request) [] (serve request) := by
  cases request with
  | other change keyed =>
    intro db hkeyed hdrawn
    exact ⟨fun _ ↦ trivial, fun hfalse ↦ absurd trivial hfalse⟩
  | mutation details mutation =>
    have hpasses : Passes (Accounted details Told []) := passes_accounted fun _ ↦ told_unsent
    cases mutation with
    | createServiceMonitor request =>
      apply hpasses.createServiceMonitor
      intro workspaceId service check _ _
      apply accounted_send rfl
      · exact fun _ ↦ trivial
      · exact fun db _ hdrawn ↦ create_ends hdrawn.2.2.1 hdrawn.2.2.2
    | addServiceCheck request =>
      apply hpasses.addServiceCheck
      intro workspaceId check conditions _ _
      apply accounted_send rfl
      · exact fun _ ↦ trivial
      · exact fun db _ hdrawn ↦ add_ends rfl hdrawn.2.2
    | replaceServiceCheckConfiguration request =>
      apply hpasses.replaceServiceCheckConfiguration
      intro workspaceId row update _ hsame
      apply accounted_send rfl
      · exact fun _ ↦ trivial
      · exact fun db hkeyed hdrawn ↦ replace_ends hkeyed hsame hdrawn.2.1
    | updateServiceCheckPolicy request =>
      apply hpasses.updateServiceCheckPolicy
      intro workspaceId update hsame
      apply accounted_send rfl
      · exact fun _ ↦ trivial
      · exact fun db hkeyed _ ↦ policy_ends hkeyed hsame
    | deleteServiceCheck request =>
      apply hpasses.deleteServiceCheck
      intro workspaceId update _ _ hsame
      exact accounted_deletion hsame

end Accounts

/-! ## Truthful outcomes -/

/-- In every run of mutations and other changes the calls tell what they have done, if and only if
each deletion of a check meets one without assertions, or one that is gone with its secrets. -/
theorem outcomes_truthful_iff (db : MonitorDb) (hkeyed : Keyed db)
    (actions : List (Action MonitorRequest))
    (hdrawn : Along (observe serve perform) (Answers Drawn) (watch db) actions) :
    Visits (observe serve perform) (Fair Truthful) (watch db) actions ↔
      Along (observe serve perform) (Answers CountTells) (watch db) actions :=
  visits_fair_iff keyed_perform accounted_serve hkeyed hdrawn

/-! ## A check with an assertion -/

/-- An installation with one administrator and one agent. -/
def emptyMonitor : MonitorDb where
  control := { emptyControl with
    workspaces := [⟨"workspace", "main", none, none, none⟩]
    memberships := [⟨"workspace", "operator", .admin, true⟩]
    machines := [⟨"machine", "workspace", 1, none, none⟩]
    agents := [⟨"agent", "workspace", "machine", true⟩] }
  assertions := []
  auditLogs := []
  syncJobs := []
  dashboardResources := []
  publicPolicies := []

theorem keyed_emptyMonitor : Keyed emptyMonitor := ⟨List.Pairwise.nil, List.Pairwise.nil⟩

/-- The details of a mutation with the identifiers that are drawn for it. -/
def drawnDetails (auditId syncToken : String) (assertions : List NewAssertion) : Details where
  userId := "operator"
  now := 0
  dashboardId := "dashboard"
  auditId := auditId
  beforeDigest := none
  afterDigest := none
  syncToken := syncToken
  assertions := assertions

/-- `status equals 200`. -/
def statusAssertion : NewAssertion := ⟨"assertion", ⟨.status, .equals, none, "200", .down⟩⟩

/-- A mutation that takes so many steps without any other between them. -/
def mutated (index steps : ℕ) (details : Details) (mutation : Mutation) :
    List (Action MonitorRequest) :=
  .call (.mutation details mutation) :: List.replicate steps (.advance index)

/-- The service `service` with the checks `first` and `second`; the assertions are those of
`first`. -/
def monitored (assertions : List NewAssertion) : List (Action MonitorRequest) :=
  mutated 0 5 (drawnDetails "created" "token-0" assertions) (.createServiceMonitor
    ⟨operator, "api", "api", "service", "first", agentInput "key" 100⟩) ++
  mutated 1 5 (drawnDetails "added" "token-1" []) (.addServiceCheck
    ⟨operator, "service", "second", agentInput "token" 100⟩)

def deletionRun : List (Action MonitorRequest) :=
  monitored [statusAssertion] ++
    mutated 2 4 (drawnDetails "deleted" "token-2" []) (.deleteServiceCheck
      ⟨operator, "service", "first"⟩)

/-- Its deletion is refused with the check gone. -/
theorem deletionRun_not_truthful :
    ¬ Visits (observe serve perform) (Fair Truthful) (watch emptyMonitor) deletionRun := by
  rw [visits_fair_iff keyed_perform accounted_serve keyed_emptyMonitor (by decide +kernel)]
  decide +kernel

/-- Where the check has no assertion, its deletion tells what it has done. -/
theorem outcomes_truthful_plain :
    Visits (observe serve perform) (Fair Truthful) (watch emptyMonitor)
      (monitored [] ++ mutated 2 4 (drawnDetails "deleted" "token-2" []) (.deleteServiceCheck
        ⟨operator, "service", "first"⟩)) :=
  (outcomes_truthful_iff emptyMonitor keyed_emptyMonitor _ (by decide +kernel)).mpr
    (by decide +kernel)

end AlphaPing.Monitoring.MutationOutcomes
