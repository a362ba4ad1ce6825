import AlphaPing.Monitoring.HandlerBatches
import AlphaPing.Monitoring.SecretReferences
import Mathlib.Data.List.Dedup

/-!
# Runs of the handlers and the retention worker

What a request has read of a check is of use when its batch is performed, since the references of a
revision do not change and no secret moves to another check. A batch that reports a conflict has
changed nothing, but for the deletion of a check that is already gone: it deletes the secrets that
it has read all the same. The cleanup takes the secrets that no check names in the order of their
identifiers.
-/

namespace AlphaPing.Monitoring.SecretIntegrity

open Library.Runs Library.Tables Library.Workflows Control Handlers HandlerBatches CheckSecrets
  SecretReferences
open ServiceConfig hiding perform

theorem sends_overVault {P : VaultBatch → (Option ℕ → VaultFlow) → Prop}
    {assertionIds : List String} {syncToken : String} {flow : Flow}
    (h : flow.Sends fun batch next ↦ P (.mutate batch assertionIds syncToken) fun reply ↦
      overVault assertionIds syncToken (next reply)) :
    (overVault assertionIds syncToken flow).Sends P := by
  induction flow with
  | ask query next ih => exact fun vault ↦ ih _ (h vault.control)
  | send batch next ih => exact ⟨h.1, fun reply ↦ ih reply (h.2 reply)⟩
  | ended outcome => trivial
  | lost performed => trivial

/-! ## What the requests send is good -/

section Soundness

variable {createdAt : String → ℤ} {vault : Vault} {assertionIds : List String} {syncToken : String}

/-- What the flow sends is good from this state on. -/
abbrev Sound (createdAt : String → ℤ) (flow : VaultFlow) (vault : Vault) : Prop :=
  flow.Sound (perform createdAt) Inv Rely Good vault

theorem sound_of_sends {flow : VaultFlow}
    (h : flow.Sends fun batch _ ↦ ∀ later, Rely vault later → Inv later → Good later batch) :
    Sound createdAt flow vault :=
  Workflow.sound_of_sends (perform_guarantee createdAt) (fun _ _ ↦ trivial) h

theorem sound_loadMonitoringAccess {actor : Actor} {next : MonitoringAccess → Flow}
    (h : ∀ access, Sound createdAt (overVault assertionIds syncToken (next access)) vault) :
    Sound createdAt (overVault assertionIds syncToken (loadMonitoringAccess actor next))
      vault := by
  intro later hlater _
  dsimp only
  split
  · trivial
  · exact (h _).later (perform_guarantee createdAt) hlater
  · intro last hlast _
    dsimp only
    split
    · trivial
    · exact (h _).later (perform_guarantee createdAt) (hlater.trans hlast)

theorem sound_requireResourceCapability {access : MonitoringAccess} {resourceType : ResourceType}
    {resourceId : String} {capability : Capability} {next : Flow}
    (h : Sound createdAt (overVault assertionIds syncToken next) vault) :
    Sound createdAt (overVault assertionIds syncToken
      (requireResourceCapability access resourceType resourceId capability next)) vault := by
  rw [requireResourceCapability]
  split
  · exact h
  · trivial

theorem named_of_referenced {refs : SecretReferences} {id : String}
    (h : id ∈ referencedSecretIds refs) : id ∈ namedSecrets refs := by
  have hmem := (List.mem_filter.mp h).1
  simp only [List.mem_append] at hmem
  simp only [namedSecrets, List.mem_append]
  rcases hmem with (hbody | hpayload) | hheader
  · exact .inl (.inr hbody)
  · exact .inr hpayload
  · exact .inl (.inl hheader)

theorem replaceReady_of_replaces {request : ReplaceServiceCheckConfiguration} {row : CheckRow}
    {update : ReplaceCheck} (hreplaces : Replaces request row update)
    (hid : row.id = request.checkId) (hknows : Knows vault row)
    (howned : Owned vault (namedSecrets row.secretRefs) row.id)
    (hcompiles : ∀ compiled ∈ request.input.compiled.toOption, Compiles compiled) :
    ReplaceReady vault update := by
  have hcheckId : row.id = update.checkId := hid.trans hreplaces.checkId.symm
  have hcompiled := hreplaces.compiled
  have hold := hreplaces.oldSecretIds
  cases hinput : request.input.compiled with
  | error failure =>
    rw [hinput] at hcompiled
    cases hcompiled
  | ok compiled =>
    rw [hinput] at hcompiled hcompiles
    have hfinal : finalCompiled request row compiled = .ok update.compiled := hcompiled
    rw [finalCompiled] at hfinal
    split at hfinal
    · next hreplace =>
      rw [if_pos hreplace] at hold
      refine .replaced (fun id hgone ↦ ?_) ?_
      · rw [← hcheckId]
        exact howned id (named_of_referenced (hold ▸ hgone))
      · rw [← Except.ok.inj hfinal]
        exact hcompiles compiled rfl
    · next hkeep =>
      rw [if_neg hkeep] at hold
      split at hfinal
      · cases hfinal
      · have hkept := Except.ok.inj hfinal
        exact .kept row hknows hcheckId hreplaces.revision.symm (by rw [← hkept]) hold
          (by rw [← hkept])

theorem sound_replace (request : ReplaceServiceCheckConfiguration)
    (hcompiles : ∀ compiled ∈ request.input.compiled.toOption, Compiles compiled) :
    Sound createdAt (overVault assertionIds syncToken (replaceServiceCheckConfiguration request))
      vault := by
  apply sound_loadMonitoringAccess
  intro access
  apply sound_requireResourceCapability
  intro later _ hinv
  dsimp only
  split
  · trivial
  · next row machineId hload =>
    obtain ⟨hrow, hid, -⟩ := mem_of_loadCheck hload
    apply sound_of_sends
    apply sends_overVault
    apply passes_sends.requireMachine
    split
    · trivial
    · split
      · trivial
      · next compiled hcompiled =>
        apply passes_sends.withPreservedSecrets
        intro bytes
        apply sends_sendReplacement _ _ _ _ _ _ _ hcompiled
        intro update hreplaces last hlast _
        exact replaceReady_of_replaces hreplaces hid ((hinv.ordered.knows hrow).later hlast)
          ((hinv.ordered.owned hrow).later hlast) hcompiles

theorem sound_delete (request : DeleteServiceCheck) :
    Sound createdAt (overVault assertionIds syncToken (deleteServiceCheck request)) vault := by
  apply sound_loadMonitoringAccess
  intro access
  apply sound_requireResourceCapability
  intro later _ hinv last hlast _
  dsimp only
  split
  · trivial
  · next row machineId hload =>
    obtain ⟨hrow, hid, hservice, hworkspace⟩ := mem_of_loadCheck hload
    split
    · trivial
    · apply sound_of_sends
      apply sends_overVault
      refine ⟨fun again hagain _ ↦ ?_, sends_deletionChanged⟩
      have howned := (hinv.ordered.owned hrow).later (hlast.trans hagain)
      exact ⟨⟨row, (hinv.ordered.knows hrow).later (hlast.trans hagain), hid, hservice, hworkspace⟩,
        fun id hgone ↦ hid ▸ howned id (named_of_referenced hgone)⟩

theorem sound_web (request : WebRequest) : Sound createdAt
    (overVault request.assertionIds request.syncToken (handle request.request)) vault := by
  obtain ⟨request, assertionIds, syncToken, hcompiles⟩ := request
  dsimp only
  by_cases hreads : ∃ replace, request = .replaceServiceCheckConfiguration replace
  · obtain ⟨replace, rfl⟩ := hreads
    exact sound_replace replace hcompiles
  by_cases hdeletes : ∃ delete, request = .deleteServiceCheck delete
  · obtain ⟨delete, rfl⟩ := hdeletes
    exact sound_delete delete
  -- the other batches are good in every state
  apply sound_of_sends
  apply sends_overVault
  refine (sends_handle request).mono fun batch next hoffers later _ _ ↦ ?_
  cases hoffers with
  | createServiceMonitor request workspaceId service check hcompiled =>
    exact hcompiles check.compiled (by rw [compiledOf, hcompiled]; rfl)
  | addServiceCheck request workspaceId check conditions hcompiled =>
    exact hcompiles check.compiled (by rw [compiledOf, hcompiled]; rfl)
  | replaceServiceCheckConfiguration request workspaceId row update replaces =>
    exact absurd ⟨request, rfl⟩ hreads
  | deleteServiceCheck request workspaceId update checkId serviceId =>
    exact absurd ⟨request, rfl⟩ hdeletes
  | finalizeControl request resourceType resourceId cutoff next =>
    cases resourceType <;> trivial
  | _ => trivial

/-! ### The retention worker -/

theorem abandoned_of_subset {ids fewer : List String} (h : Abandoned vault ids)
    (hsubset : fewer ⊆ ids) : Abandoned vault fewer :=
  fun id hid ↦ h id (hsubset hid)

theorem sound_deleteSecrets {workspaceId : String} (left : ℕ) (ids : List String) {next : VaultFlow}
    (h : Abandoned vault ids) (hnext : ∀ later, Sound createdAt next later) :
    Sound createdAt (deleteSecrets workspaceId left ids next) vault := by
  induction left generalizing ids vault with
  | zero => exact hnext vault
  | succ left ih =>
    rw [deleteSecrets]
    split
    · exact hnext vault
    · intro later hlater hinv
      have hlaterIds := h.later hlater
      have hgood : Good later (.deleteSecrets workspaceId (ids.take secretBatch)) :=
        abandoned_of_subset hlaterIds (List.take_subset _ _)
      refine ⟨hgood, ?_⟩
      have hrely := (perform_guarantee createdAt).rely hinv hgood trivial
      exact ih _ (abandoned_of_subset (hlaterIds.later hrely) (List.drop_subset _ _))

def claims (policy : SoftDeletePolicy) (service : ResourceRow) (cutoff : ℤ) (vault : Vault)
    (row : ServiceRow) : Bool :=
  row.id = service.id && row.workspaceId = policy.workspaceId &&
    (row.deletedAt = service.deletedAt &&
      match row.deletedAt with
      | none => vault.control.workspaces.any fun workspace ↦ workspace.id = policy.workspaceId &&
          workspace.deletedAt.isSome && workspace.deletedAt = policy.workspaceDeletedAt &&
          workspace.purgeStartedAt.isSome
      | some deletedAt => decide (deletedAt ≤ cutoff))

theorem doomed_of_claimed {policy : SoftDeletePolicy} {service : ResourceRow} {now cutoff : ℤ}
    (hinv : Inv vault)
    (h : (perform createdAt (.mutate (.claimResource policy .service service now
      cutoff) [] "") vault).2 = some 1) :
    Doomed (perform createdAt (.mutate (.claimResource policy .service service now
      cutoff) [] "") vault).1 service.id := by
  let condition := claims policy service cutoff vault
  have hcount : vault.control.services.countP condition = 1 := Option.some.inj h
  obtain ⟨row, hrow, hmatched⟩ := List.countP_pos_iff.mp (hcount ▸ Nat.one_pos)
  have hid : row.id = service.id := by
    simp only [condition, claims, Bool.and_eq_true, decide_eq_true_eq] at hmatched
    exact hmatched.1.1
  refine ⟨hid ▸ hinv.ordered.services_drawn row hrow, fun new hnew hsame ↦ ?_⟩
  have hnew' : new ∈ updateWhere condition (fun row ↦ { row with
      deletedAt := row.deletedAt
      purgeStartedAt := row.purgeStartedAt <|> some now }) vault.control.services := hnew
  obtain ⟨old, hold, ⟨-, rfl⟩ | ⟨hnot, rfl⟩⟩ := mem_updateWhere.mp hnew'
  · show (old.purgeStartedAt <|> some now) ≠ none
    cases old.purgeStartedAt <;> simp
  · rw [hinv.ordered.services.eq_of_mem hold hrow (hsame.trans hid.symm), hmatched] at hnot
    cases hnot

theorem abandoned_collected (hinv : Inv vault) {request : PurgeService}
    (hdoomed : Doomed vault request.service.id) :
    Abandoned vault (collectSecretIds vault.control request) := by
  intro id hid
  obtain ⟨check, hcheck, hname⟩ := List.mem_flatMap.mp (List.mem_dedup.mp hid)
  obtain ⟨hmem, hmatch⟩ := List.mem_filter.mp hcheck
  simp only [Bool.and_eq_true, decide_eq_true_eq] at hmatch
  refine ⟨hinv.ordered.named_drawn check hmem id hname, fun other hother hname' ↦ ?_⟩
  rw [hinv.ordered.checks.eq_of_mem hother hmem
    (hinv.ordered.single other hother check hmem id hname' hname), hmatch.1.2]
  exact hdoomed

theorem sound_purgeService (request : PurgeService) :
    Sound createdAt (purgeService request) vault := by
  intro later _ hinv
  refine ⟨trivial, ?_⟩
  dsimp only
  split
  · next hclaimed =>
    have hdoomed := doomed_of_claimed hinv hclaimed
    split
    · trivial
    · intro last hlast hinv'
      apply sound_deleteSecrets _ _ (abandoned_collected hinv' (hlast.doomed _ hdoomed))
      intro again
      split
      · trivial
      · intro other _ _
        refine ⟨trivial, ?_⟩
        dsimp only
        split <;> trivial
  · trivial
  · trivial

theorem sound_serve (request : VaultRequest) : Sound createdAt (serve request) vault := by
  cases request with
  | web request => exact sound_web request
  | purgeService request => exact sound_purgeService request
  | cleanOrphanCheckSecrets workspaceId now rowBatch =>
    rw [serve, cleanOrphanCheckSecrets]
    split
    · trivial
    · intro later _ _
      refine ⟨trivial, ?_⟩
      dsimp only
      split <;> trivial

end Soundness

/-! ## Conflicts -/

/-- The mutation reports a conflict. -/
def conflict : Except HttpError Unit → Bool
  | .error failure => failure.status = 409
  | .ok _ => false

/-- A deletion of a check leaves the secrets of the check's workspace as long as the check is there;
the other requests leave all secrets. -/
def SecretsSpared : VaultRequest → ControlDb → ControlDb → Prop
  | .web ⟨.deleteServiceCheck request, _, _, _⟩, before, after =>
    after.secrets.Sublist before.secrets ∧
      ∀ secret ∈ before.secrets, (∃ check ∈ before.checks, check.id = request.checkId ∧
        check.serviceId = request.serviceId ∧ check.workspaceId = secret.workspaceId) →
          secret ∈ after.secrets
  | _, before, after => after.secrets = before.secrets

/-- What a request that reports a conflict has not changed. -/
def Spared (request : VaultRequest) (before after : Vault) : Prop :=
  after.assertions = before.assertions ∧ SecretsSpared request before.control after.control

section Conflicts

variable {createdAt : String → ℤ} {vault : Vault} {assertionIds : List String} {syncToken : String}

variable (request : VaultRequest)

theorem spared_of_eq {before after : Vault} (hassertions : after.assertions = before.assertions)
    (hsecrets : after.control.secrets = before.control.secrets) : Spared request before after := by
  refine ⟨hassertions, ?_⟩
  unfold SecretsSpared
  split
  · exact ⟨hsecrets ▸ List.Sublist.refl _, fun secret hsecret _ ↦ hsecrets ▸ hsecret⟩
  · exact hsecrets

theorem Spared.refl (vault : Vault) : Spared request vault vault :=
  spared_of_eq request rfl rfl

theorem perform_mutate_cases (createdAt : String → ℤ) (vault : Vault) (batch : Batch)
    (assertionIds : List String) (syncToken : String) :
    perform createdAt (.mutate batch assertionIds syncToken) vault = (vault, none) ∨
      drawnAnew vault (draws batch assertionIds syncToken) = true ∧ ∃ after changes,
        mutateStatements vault batch assertionIds syncToken = some (after, changes) ∧
        perform createdAt (.mutate batch assertionIds syncToken) vault =
          ({ after with drawn := draws batch assertionIds syncToken ++ vault.drawn },
            some changes) := by
  rw [perform]
  split
  · next hnew =>
    cases hafter : mutateStatements vault batch assertionIds syncToken with
    | none => exact .inl rfl
    | some result => exact .inr ⟨hnew, result.1, result.2, rfl, rfl⟩
  · exact .inl rfl

theorem cascadeAssertions_eq {before after : ControlDb}
    (h : ∀ check ∈ before.checks, ∃ other ∈ after.checks, other.id = check.id)
    (assertions : List AssertionRow) : cascadeAssertions before after assertions = assertions := by
  refine List.filter_eq_self.mpr fun row _ ↦ ?_
  cases hbefore : before.checks.any fun check ↦ check.id = row.checkId with
  | false => rfl
  | true =>
    obtain ⟨check, hcheck, hid⟩ := List.any_eq_true.mp hbefore
    obtain ⟨other, hother, hsame⟩ := h check hcheck
    have hafter : (after.checks.any fun check ↦ check.id = row.checkId) = true :=
      List.any_eq_true.mpr ⟨other, hother, decide_eq_true (hsame.trans (of_decide_eq_true hid))⟩
    rw [hafter]
    rfl

theorem cascadeAssertions_of_checks {before after : ControlDb}
    (h : after.checks = before.checks) (assertions : List AssertionRow) :
    cascadeAssertions before after assertions = assertions :=
  cascadeAssertions_eq (fun check hcheck ↦ ⟨check, h ▸ hcheck, rfl⟩) assertions

theorem insertAssertions_eq_nil {db : ControlDb} {batch : Batch} {checkId workspaceId : String}
    (hbatch : insertedCheck batch = some (checkId, workspaceId))
    (hnone : ∀ check ∈ db.checks, check.id ≠ checkId) (assertionIds : List String) :
    insertAssertions db batch assertionIds = [] := by
  rw [insertAssertions, hbatch]
  refine if_neg fun hany ↦ ?_
  obtain ⟨check, hcheck, hid⟩ := List.any_eq_true.mp hany
  simp only [Bool.and_eq_true, decide_eq_true_eq] at hid
  exact hnone check hcheck hid.1

theorem insertService_spec {db after : ControlDb} {workspaceId : String} {new : NewService}
    {condition : Bool} {changes : ℕ}
    (h : insertService db workspaceId new condition = some (after, changes)) :
    changes = 1 ∨ after = db := by
  rw [insertService] at h
  split at h
  · exact .inr (Prod.mk.inj (Option.some.inj h)).1.symm
  · split at h
    · cases h
    · exact .inl (Prod.mk.inj (Option.some.inj h)).2.symm

theorem insertCheck_of_no_service {db : ControlDb} {workspaceId : String} {new : NewCheck}
    {condition : Bool} (h : ∀ service ∈ db.services, service.id ≠ new.serviceId) :
    insertCheck db workspaceId new condition = some (db, 0) := by
  have hnone : hasService db workspaceId new.serviceId = false := by
    refine Bool.eq_false_iff.mpr fun hany ↦ ?_
    obtain ⟨service, hservice, hid⟩ := List.any_eq_true.mp hany
    simp only [Bool.and_eq_true, decide_eq_true_eq] at hid
    exact h service hservice hid.1.1
  rw [insertCheck, hnone, Bool.and_false]
  rfl

variable {after : Vault} {control : ControlDb} {workspaceId : String} {changes : ℕ}

theorem createService_unchanged {service : NewService} {check : NewCheck}
    {conditions : List FinalCondition} (hinv : Inv vault) (hservice : service.id ∉ vault.drawn)
    (h : createServiceBatch vault.control workspaceId service check conditions =
      some (control, changes)) :
    changes = 1 ∨ control.checks = vault.control.checks ∧
      control.secrets = vault.control.secrets := by
  obtain ⟨⟨inserted, count⟩, hinserted, hcheck⟩ := Option.bind_eq_some_iff.mp h
  obtain ⟨⟨created, count'⟩, hcreated, heq⟩ := Option.map_eq_some_iff.mp hcheck
  obtain ⟨rfl, rfl⟩ := Prod.mk.inj heq
  refine (insertService_spec hinserted).imp id ?_
  rintro rfl
  dsimp only at hcreated
  rw [insertCheck_of_no_service fun row hrow heq ↦ ?_] at hcreated
  · obtain ⟨rfl, -⟩ := Prod.mk.inj (Option.some.inj hcreated)
    exact ⟨checks_advanceAgentConfiguration _ _, (plain_advanceAgentConfiguration _ _ _).secrets⟩
  · rw [services_advanceAgentConfiguration] at hrow
    have hid : row.id = service.id := heq
    exact hservice (hid ▸ hinv.ordered.services_drawn row hrow)

theorem addCheck_unchanged {check : NewCheck} {conditions checkConditions : List FinalCondition}
    (h : addCheckBatch vault.control workspaceId check conditions checkConditions =
      some (control, changes)) :
    changes = 1 ∨ control.checks = vault.control.checks ∧
      control.secrets = vault.control.secrets := by
  rcases insertCheck_spec h with ⟨rfl, -⟩ | ⟨hone, -⟩
  · exact .inr ⟨checks_advanceAgentConfiguration _ _,
      (plain_advanceAgentConfiguration _ _ _).secrets⟩
  · exact .inl hone

theorem replaceStatements_unchanged {update : ReplaceCheck} (hinv : Inv vault)
    (htoken : syncToken ∉ vault.drawn)
    (h : replaceStatements vault workspaceId update assertionIds syncToken = some (after, changes))
    :
    changes = 1 ∨ after.assertions = vault.assertions ∧
      after.control.secrets = vault.control.secrets := by
  obtain ⟨⟨updated, count⟩, hupdate, heq⟩ := Option.map_eq_some_iff.mp h
  dsimp only at heq
  obtain ⟨hsecrets, -, -⟩ := replaceUpdate_spec hinv.ordered.checks hupdate
  have hguard := @hasSyncJob_insertSyncJob vault.syncJobs update.checkId syncToken
    (fun job hjob heq ↦ htoken (heq ▸ hinv.ordered.tokens_drawn job hjob)) count
  split at heq
  · next hjob =>
    obtain ⟨-, rfl⟩ := Prod.mk.inj heq
    exact .inl (hguard.mp hjob)
  · obtain ⟨rfl, -⟩ := Prod.mk.inj heq
    exact .inr ⟨rfl, hsecrets⟩

theorem updatePolicy_unchanged {update : UpdatePolicy}
    (h : updatePolicyBatch vault.control workspaceId update = some (control, changes)) :
    (∀ check ∈ vault.control.checks, ∃ other ∈ control.checks, other.id = check.id) ∧
      control.secrets = vault.control.secrets := by
  obtain ⟨hafter, -⟩ := updateChecks_cases h
  refine ⟨fun check hcheck ↦ ?_, (plain_updatePolicyBatch h).secrets⟩
  rw [← @checks_advanceAgentConfiguration vault.control] at hcheck
  rw [hafter]
  refine ⟨_, mem_updateWhere_of_mem hcheck, ?_⟩
  split <;> rfl

theorem deleteCheck_unchanged {update : DeleteCheck} (hinv : Inv vault)
    (h : (deleteCheckBatch vault.control workspaceId update).2 ≠ 1) :
    (deleteCheckBatch vault.control workspaceId update).1.checks = vault.control.checks ∧
      (deleteCheckBatch vault.control workspaceId update).1.secrets.Sublist
        vault.control.secrets ∧
      ∀ secret ∈ vault.control.secrets, (∃ check ∈ vault.control.checks,
        check.id = update.checkId ∧ check.serviceId = update.serviceId ∧
          check.workspaceId = secret.workspaceId) →
        secret ∈ (deleteCheckBatch vault.control workspaceId update).1.secrets := by
  let advanced := advanceAgentConfiguration vault.control workspaceId
    (vault.control.permits workspaceId update.machineConditions) update.machineId
  have hchecks : advanced.checks = vault.control.checks := checks_advanceAgentConfiguration _ _
  have hsecrets : advanced.secrets = vault.control.secrets :=
    (plain_advanceAgentConfiguration _ _ _).secrets
  have hnone : ∀ check ∈ advanced.checks, deletable advanced workspaceId update check = false := by
    have hle : advanced.checks.countP (deletable advanced workspaceId update) ≤ 1 := by
      refine le_trans (List.countP_mono_left fun check _ hmatched ↦ ?_)
        ((hchecks ▸ hinv.ordered.checks).countP_key_le_one update.checkId)
      rw [deletable] at hmatched
      simp only [Bool.and_eq_true, decide_eq_true_eq] at hmatched ⊢
      exact hmatched.1.1.1.1
    have hzero := Nat.lt_one_iff.mp (lt_of_le_of_ne hle h)
    exact fun check hcheck ↦ Bool.eq_false_iff.mpr (List.countP_eq_zero.mp hzero check hcheck)
  have hdeleted : (deleteChecks advanced (deletable advanced workspaceId update)).checks =
      vault.control.checks := by
    rw [← hchecks]
    exact List.filter_eq_self.mpr fun check hcheck ↦ by rw [hnone check hcheck]; rfl
  rw [deleteCheckBatch]
  dsimp only
  split
  · exact ⟨hdeleted, hsecrets ▸ List.Sublist.refl _, fun secret hsecret _ ↦ hsecrets ▸ hsecret⟩
  · next hgone =>
    refine ⟨hdeleted, hsecrets ▸ List.filter_sublist, ?_⟩
    rintro secret hsecret ⟨check, hcheck, hid, hservice, hworkspace⟩
    refine List.mem_filter.mpr ⟨hsecrets ▸ hsecret, ?_⟩
    have hother : secret.workspaceId ≠ workspaceId := fun hsame ↦ hgone <|
      List.any_eq_true.mpr ⟨check, hdeleted ▸ hcheck, by simp [hid, hservice, hworkspace, hsame]⟩
    simp [hother]

/-- A batch whose answer may be a conflict has changed nothing besides what is spared. -/
theorem spared_or_never {request : VaultRequest} {batch : Batch} {next : Option ℕ → Flow}
    (hone : next (some 1) = succeed)
    (h : ∀ after changes, drawnAnew vault (draws batch assertionIds syncToken) = true →
      mutateStatements vault batch assertionIds syncToken = some (after, changes) →
        changes = 1 ∨ Spared request vault after) :
    Spared request vault
        (perform createdAt (.mutate batch assertionIds syncToken) vault).1 ∨
      (overVault assertionIds syncToken (next (perform createdAt
        (.mutate batch assertionIds syncToken) vault).2)).Never
          (perform createdAt) conflict := by
  rcases perform_mutate_cases createdAt vault batch assertionIds syncToken with
    hsame | ⟨hnew, after, changes, hafter, hperform⟩
  · rw [hsame]
    exact .inl (.refl request vault)
  · rw [hperform]
    rcases h after changes hnew hafter with rfl | hspared
    · right
      rw [hone]
      rfl
    · exact .inl hspared

theorem never_finalizeResources {resourceType : ManagedResourceType} {policy : SoftDeletePolicy}
    {now cutoff : ℤ} {next : Flow} (rows : List ResourceRow) (purged : List Bool)
    (h : (overVault assertionIds syncToken next).Never (perform createdAt) conflict) :
    (overVault assertionIds syncToken (finalizeResources resourceType policy now cutoff rows purged
      next)).Never (perform createdAt) conflict := by
  induction rows generalizing purged with
  | nil => exact h
  | cons resource rest ih =>
    intro vault
    generalize (perform createdAt _ vault).2 = reply
    dsimp only
    split
    · split
      · intro later
        generalize (perform createdAt _ later).2 = reply
        cases reply with
        | none => rfl
        | some changes => exact ih _
      · exact ih _
    · exact ih _
    · rfl

theorem never_finalizeSoftDeletedResources (request : FinalizeSoftDeleted) :
    (overVault assertionIds syncToken (finalizeSoftDeletedResources request)).Never
      (perform createdAt) conflict := by
  have hdeleted (cutoff : ℤ) : (overVault assertionIds syncToken
      (finalizeDeleted request cutoff)).Never (perform createdAt) conflict := by
    intro vault
    apply never_finalizeResources
    intro later
    apply never_finalizeResources
    rfl
  unfold finalizeSoftDeletedResources
  dsimp only
  split
  · intro vault
    generalize (perform createdAt _ vault).2 = reply
    dsimp only
    split
    · exact hdeleted _
    · rfl
    · rfl
  · exact hdeleted _

theorem clean_web (web : WebRequest) :
    (overVault web.assertionIds web.syncToken (handle web.request)).Clean
      (perform createdAt) Inv (Spared (.web web)) conflict := by
  obtain ⟨request, assertionIds, syncToken, hcompiles⟩ := web
  dsimp only
  by_cases hfinalizes : ∃ finalize, request = .finalizeSoftDeletedResources finalize
  · obtain ⟨finalize, rfl⟩ := hfinalizes
    exact Workflow.clean_of_never (never_finalizeSoftDeletedResources finalize)
  apply Workflow.clean_of_sends
  apply sends_overVault
  refine (sends_handle request).mono fun batch next hoffers vault hinv ↦ ?_
  cases hoffers with
  | createServiceMonitor request workspaceId service check hcompiled =>
    refine spared_or_never rfl fun after changes hnew hafter ↦ ?_
    obtain ⟨⟨control, count⟩, hcontrol, heq⟩ := Option.map_eq_some_iff.mp hafter
    obtain ⟨rfl, rfl⟩ := Prod.mk.inj heq
    have hfresh := (drawnAnew_iff.mp hnew).2
    refine (createService_unchanged hinv (hfresh service.id List.mem_cons_self) hcontrol).imp id ?_
    rintro ⟨hchecks, hsecrets⟩
    refine spared_of_eq _ ?_ hsecrets
    dsimp only
    rw [cascadeAssertions_of_checks hchecks, insertAssertions_eq_nil rfl, List.append_nil]
    intro row hrow hid
    rw [hchecks] at hrow
    exact hfresh check.id (List.mem_cons_of_mem _ List.mem_cons_self)
      (hid ▸ hinv.ordered.checks_drawn row hrow)
  | addServiceCheck request workspaceId check conditions hcompiled =>
    refine spared_or_never rfl fun after changes hnew hafter ↦ ?_
    obtain ⟨⟨control, count⟩, hcontrol, heq⟩ := Option.map_eq_some_iff.mp hafter
    obtain ⟨rfl, rfl⟩ := Prod.mk.inj heq
    have hfresh := (drawnAnew_iff.mp hnew).2
    refine (addCheck_unchanged hcontrol).imp id ?_
    rintro ⟨hchecks, hsecrets⟩
    refine spared_of_eq _ ?_ hsecrets
    dsimp only
    rw [cascadeAssertions_of_checks hchecks, insertAssertions_eq_nil rfl, List.append_nil]
    intro row hrow hid
    rw [hchecks] at hrow
    exact hfresh check.id List.mem_cons_self (hid ▸ hinv.ordered.checks_drawn row hrow)
  | replaceServiceCheckConfiguration request workspaceId row update replaces =>
    refine spared_or_never rfl fun after changes hnew hafter ↦ ?_
    have htoken := (drawnAnew_iff.mp hnew).2 syncToken List.mem_cons_self
    refine (replaceStatements_unchanged hinv htoken hafter).imp id ?_
    rintro ⟨hassertions, hsecrets⟩
    exact spared_of_eq _ hassertions hsecrets
  | updateServiceCheckPolicy request workspaceId update =>
    refine spared_or_never rfl fun after changes hnew hafter ↦ .inr ?_
    obtain ⟨⟨control, count⟩, hcontrol, heq⟩ := Option.map_eq_some_iff.mp hafter
    obtain ⟨rfl, -⟩ := Prod.mk.inj heq
    obtain ⟨hchecks, hsecrets⟩ := updatePolicy_unchanged hcontrol
    exact spared_of_eq _ ((List.append_nil _).trans (cascadeAssertions_eq hchecks _)) hsecrets
  | deleteServiceCheck request workspaceId update hcheckId hserviceId =>
    refine spared_or_never rfl fun after changes hnew hafter ↦ ?_
    obtain ⟨rfl, rfl⟩ := Prod.mk.inj (Option.some.inj hafter)
    by_cases hone : (deleteCheckBatch vault.control workspaceId update).2 = 1
    · exact .inl hone
    · obtain ⟨hchecks, hsublist, hstays⟩ := deleteCheck_unchanged hinv hone
      exact .inr ⟨(List.append_nil _).trans (cascadeAssertions_of_checks hchecks _), hsublist,
        hcheckId ▸ hserviceId ▸ hstays⟩
  | softDeleteResource request workspaceId conditions =>
    refine spared_or_never rfl fun after changes hnew hafter ↦ .inr ?_
    obtain rfl := congrArg Prod.fst (Option.some.inj hafter)
    have hchecks : (softDeleteBatch vault.control workspaceId request.resourceType
        request.resourceId request.now conditions).1.checks = vault.control.checks :=
      checks_updateDeletion _ _ _ _
    exact spared_of_eq _ ((List.append_nil _).trans (cascadeAssertions_of_checks hchecks _))
      (plain_updateDeletion _ request.resourceType _ _ fun _ _ ↦ id).secrets
  | restoreResource request workspaceId deletedAt conditions =>
    refine spared_or_never rfl fun after changes hnew hafter ↦ .inr ?_
    obtain ⟨⟨control, count⟩, hcontrol, heq⟩ := Option.map_eq_some_iff.mp hafter
    obtain ⟨rfl, -⟩ := Prod.mk.inj heq
    exact spared_of_eq _ ((List.append_nil _).trans
      (cascadeAssertions_of_checks (restoreBatch_checks hcontrol).1 _))
      (plain_execute hcontrol trivial).secrets
  | claimWorkspace request | claimResource request | finalizeControl request =>
    exact absurd ⟨request, rfl⟩ hfinalizes
  | administer workspaces memberships grants machines agents => exact .inr rfl

theorem never_deleteSecrets (left : ℕ) (ids : List String) {next : VaultFlow}
    (h : next.Never (perform createdAt) conflict) :
    (deleteSecrets workspaceId left ids next).Never (perform createdAt) conflict := by
  induction left generalizing ids with
  | zero => exact h
  | succ left ih =>
    rw [deleteSecrets]
    split
    · exact h
    · exact fun vault ↦ ih _

theorem never_purgeService (request : PurgeService) :
    (purgeService request).Never (perform createdAt) conflict := by
  intro vault
  generalize (perform createdAt _ vault).2 = reply
  dsimp only
  split
  · split
    · rfl
    · intro later
      apply never_deleteSecrets
      split
      · rfl
      · intro last
        generalize (perform createdAt _ last).2 = reply
        cases reply <;> rfl
  · rfl
  · rfl

theorem clean_serve : (serve request).Clean
    (perform createdAt) Inv (Spared request) conflict := by
  cases request with
  | web request => exact clean_web request
  | purgeService request => exact Workflow.clean_of_never (never_purgeService request)
  | cleanOrphanCheckSecrets workspaceId now rowBatch =>
    apply Workflow.clean_of_never
    rw [serve, cleanOrphanCheckSecrets]
    split
    · rfl
    · exact fun _ ↦ rfl

end Conflicts

/-! ## The cleanup -/

/-- The cleanup leaves a secret that it looks for only when a whole batch comes before it. -/
theorem mem_cleaned_iff {createdAt : String → ℤ} {vault : Vault} (hinv : Inv vault)
    {workspaceId : String} {now : ℤ} {rowBatch : ℕ} {secret : SecretRow}
    (h : secret ∈ orphans createdAt vault workspaceId now) :
    secret ∈ (perform createdAt
        (.cleanOrphanCheckSecrets workspaceId now rowBatch) vault).1.control.secrets ↔
      rowBatch ≤ (orphans createdAt vault workspaceId now).countP fun other ↦
        decide (other.id < secret.id) := by
  have hunique : UniqueKey SecretRow.id (orphans createdAt vault workspaceId now) :=
    hinv.ordered.secrets.filter _
  have hstays : secret ∈ (perform createdAt
      (.cleanOrphanCheckSecrets workspaceId now rowBatch) vault).1.control.secrets ↔
        secret.id ∉ (selectOrdered SecretRow.id rowBatch
          (orphans createdAt vault workspaceId now)).map SecretRow.id := by
    simp only [perform, removeSecrets, List.mem_filter, (List.mem_filter.mp h).1,
      true_and, Bool.not_eq_true', List.contains_eq_mem, decide_eq_false_iff_not]
  have hchosen : secret.id ∈ (selectOrdered SecretRow.id rowBatch
      (orphans createdAt vault workspaceId now)).map SecretRow.id ↔
        secret ∈ selectOrdered SecretRow.id rowBatch (orphans createdAt vault workspaceId now) := by
    refine ⟨fun hid ↦ ?_, List.mem_map_of_mem⟩
    obtain ⟨other, hother, hsame⟩ := List.mem_map.mp hid
    exact hunique.eq_of_mem (mem_of_mem_selectOrdered hother) h hsame ▸ hother
  rw [hstays, hchosen, mem_selectOrdered_iff hunique h, not_lt]

/-! ## Runs -/

def emptyVault : Vault := ⟨emptyControl, [], [], []⟩

theorem inv_emptyVault : Inv emptyVault where
  ordered := {
    checks := uniqueKey_nil
    services := uniqueKey_nil
    secrets := uniqueKey_nil
    checks_drawn := fun _ h ↦ absurd h List.not_mem_nil
    services_drawn := fun _ h ↦ absurd h List.not_mem_nil
    secrets_drawn := fun _ h ↦ absurd h List.not_mem_nil
    tokens_drawn := fun _ h ↦ absurd h List.not_mem_nil
    named_drawn := fun _ h ↦ absurd h List.not_mem_nil
    single := fun _ h ↦ absurd h List.not_mem_nil }
  kept := fun _ h ↦ absurd h List.not_mem_nil

section Runs

variable (createdAt : String → ℤ)

theorem visits_serve (actions : List (Action VaultRequest)) :
    Visits (step serve (perform createdAt)) (fun system ↦ Inv system.store)
      (start emptyVault) actions := by
  have hstep : ∀ (system : System VaultRequest Vault VaultBatch (Option ℕ) (Except HttpError Unit))
      (action : Action VaultRequest), True → True := fun _ _ h ↦ h
  have hok : Along (step serve (perform createdAt)) (Performs fun _ _ ↦ True)
      (start emptyVault) actions :=
    along_of_visits (fun _ _ _ _ _ ↦ trivial) (visits_invariant hstep trivial actions)
  exact visits_inv serve (perform_guarantee createdAt)
    (fun request vault _ ↦ sound_serve request) inv_emptyVault hok

/-- In every run: the secrets that a check names are there, in every state, as long as the purge of
its service has not started; no step of a mutation that reports a conflict has changed an assertion
or a secret, but for the deletion of a check that was gone; and a cleanup leaves a secret that no
check has named for the grace period only when a whole batch of such secrets comes before it. -/
theorem secrets_hold (actions : List (Action VaultRequest)) :
    Visits (step serve (perform createdAt)) (fun system ↦ Intact system.store)
        (start emptyVault) actions ∧
      (∀ (index : ℕ) (request : VaultRequest) (message : String),
        (run (step serve (perform createdAt)) (start emptyVault)
            actions).calls[index]? = some ⟨request, .ended (.error ⟨409, message⟩)⟩ →
          Along (step serve (perform createdAt))
            (fun system action ↦ action.of = some index → Spared request system.store
              (step serve (perform createdAt) system action).store)
            (start emptyVault) actions) ∧
      Along (step serve (perform createdAt))
        (fun system action ↦ ∀ (workspaceId : String) (now : ℤ) (rowBatch : ℕ),
          .cleanOrphanCheckSecrets workspaceId now rowBatch ∈ performs system action →
            ∀ secret ∈ orphans createdAt system.store workspaceId now,
              secret ∈ (step serve (perform createdAt) system
                  action).store.control.secrets ↔
                rowBatch ≤ (orphans createdAt system.store workspaceId now).countP fun other ↦
                  decide (other.id < secret.id))
        (start emptyVault) actions := by
  have hvisits := visits_serve createdAt actions
  refine ⟨visits_mono (fun _ hinv ↦ hinv.intact) hvisits, fun index request message hended ↦ ?_,
    along_of_visits ?_ hvisits⟩
  · exact same_of_bad Spared.refl clean_serve (fun _ hcall ↦ by cases List.mem_of_getElem? hcall)
      hvisits hended rfl
  · intro system action hinv workspaceId now rowBatch hperforms secret hsecret
    rw [store_of_performs hperforms]
    exact mem_cleaned_iff hinv hsecret

end Runs

/-! ## A conflict that deletes a secret -/

theorem compiles_agentInput (secretId : String) (secretBytes : ℕ) :
    ∀ compiled ∈ (agentInput secretId secretBytes).compiled.toOption, Compiles compiled := by
  intro compiled hcompiled
  obtain rfl := Option.some.inj hcompiled
  exact ⟨⟨[], some ⟨"", secretId, secretBytes⟩, none⟩, rfl, rfl⟩

def setup : VaultRequest := .web ⟨workspaceSetup, [], "", nofun⟩

def creation : VaultRequest :=
  .web ⟨.createServiceMonitor
    ⟨operator, "api", "api", "service", "first", agentInput "key" 20000⟩, [], "",
    compiles_agentInput "key" 20000⟩

def addition : VaultRequest :=
  .web ⟨.addServiceCheck ⟨operator, "service", "second", agentInput "token" 100⟩, [], "",
    compiles_agentInput "token" 100⟩

def replacement : VaultRequest :=
  .web ⟨.replaceServiceCheckConfiguration
    ⟨operator, "service", "first", agentInput "fresh" 100, true, true⟩, [], "sync",
    compiles_agentInput "fresh" 100⟩

def deletion : VaultRequest :=
  .web ⟨.deleteServiceCheck ⟨operator, "service", "first"⟩, [], "", nofun⟩

/-- Two deletions read the check, one before and one after its secret is replaced; then the first
one deletes it. -/
def twoDeletions : List (Action VaultRequest) :=
  [.call setup, .advance 0, .call creation] ++ List.replicate 5 (.advance 1) ++
    .call addition :: List.replicate 5 (.advance 2) ++
    .call deletion :: List.replicate 3 (.advance 3) ++
    .call replacement :: List.replicate 4 (.advance 4) ++
    .call deletion :: List.replicate 3 (.advance 5) ++ [.advance 3]

/-- The call has reported a conflict. -/
def conflicted (system : System VaultRequest Vault VaultBatch (Option ℕ) (Except HttpError Unit))
    (index : ℕ) : Bool :=
  match system.calls[index]?.map Call.rest with
  | some (.ended outcome) => conflict outcome
  | _ => false

/-- The second deletion reports a conflict and deletes the secret that it has read. -/
theorem late_deletion_deletes_secret :
    conflicted (run (step serve (perform fun _ ↦ 0)) (start emptyVault)
        (twoDeletions ++ [.advance 5])) 5 = true ∧
      (run (step serve (perform fun _ ↦ 0)) (start emptyVault)
        twoDeletions).store.control.secrets.map SecretRow.id = ["token", "fresh"] ∧
      (run (step serve (perform fun _ ↦ 0)) (start emptyVault)
        (twoDeletions ++ [.advance 5])).store.control.secrets.map SecretRow.id = ["token"] := by
  decide +kernel

end AlphaPing.Monitoring.SecretIntegrity
