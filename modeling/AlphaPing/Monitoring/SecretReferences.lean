import AlphaPing.Monitoring.CheckSecrets

/-!
# References to secrets

Identifiers are drawn once, so a secret belongs to one check for all time. A replacement deletes
the secrets that it has read of a revision, and finds that revision still in place; a deletion
deletes those of a check that is gone when they are deleted; a purge deletes those of a service
that will not come back; and the cleanup looks at the references in the statement that deletes.
None of them can leave a check, whose service is not being purged, with a reference to nothing.
-/

namespace AlphaPing.Monitoring.SecretReferences

open Library.Tables Library.Workflows Control ServiceConfig Handlers CheckSecrets

/-- Every secret that a check names is there, unless the purge of its service has started. -/
def Intact (vault : Vault) : Prop :=
  ∀ check ∈ vault.control.checks, ∀ service ∈ vault.control.services,
    service.id = check.serviceId → service.purgeStartedAt = none →
      ∀ id ∈ namedSecrets check.secretRefs, ∃ secret ∈ vault.control.secrets, secret.id = id

/-! ## The life of a check -/

/-- The later row of a check. A revision has one set of references. -/
structure Descends (old new : CheckRow) : Prop where
  id : new.id = old.id
  service : new.serviceId = old.serviceId
  workspace : new.workspaceId = old.workspaceId
  revision : old.configRevision ≤ new.configRevision
  refs : new.configRevision = old.configRevision → new.secretRefs = old.secretRefs

theorem Descends.refl (check : CheckRow) : Descends check check where
  id := rfl
  service := rfl
  workspace := rfl
  revision := le_rfl
  refs _ := rfl

theorem Descends.trans {first second third : CheckRow} (h : Descends first second)
    (h' : Descends second third) : Descends first third where
  id := h'.id.trans h.id
  service := h'.service.trans h.service
  workspace := h'.workspace.trans h.workspace
  revision := h.revision.trans h'.revision
  refs heq := by
    have hfirst : second.configRevision = first.configRevision :=
      le_antisymm (h'.revision.trans heq.le) h.revision
    exact (h'.refs (heq.trans hfirst.symm)).trans (h.refs hfirst)

/-- The service is gone or claimed for its purge, and stays so. -/
def Doomed (vault : Vault) (serviceId : String) : Prop :=
  serviceId ∈ vault.drawn ∧
    ∀ service ∈ vault.control.services, service.id = serviceId → service.purgeStartedAt ≠ none

/-- Where a check comes from: it was there, with the references that it has or with some drawn
since, or all of it is new. -/
def Origin (before : Vault) (new : CheckRow) : Prop :=
  (∃ old ∈ before.control.checks, Descends old new ∧ ∀ id ∈ namedSecrets new.secretRefs,
      id ∈ namedSecrets old.secretRefs ∨ id ∉ before.drawn) ∨
    (new.id ∉ before.drawn ∧ ∀ id ∈ namedSecrets new.secretRefs, id ∉ before.drawn)

/-- What all batches keep to. -/
structure Rely (before after : Vault) : Prop where
  drawn : before.drawn ⊆ after.drawn
  origin : ∀ new ∈ after.control.checks, Origin before new
  doomed : ∀ serviceId, Doomed before serviceId → Doomed after serviceId

theorem Rely.refl (vault : Vault) : Rely vault vault where
  drawn := List.Subset.refl _
  origin new hnew := .inl ⟨new, hnew, .refl new, fun _ ↦ .inl⟩
  doomed _ := id

theorem Rely.trans {first second third : Vault} (h : Rely first second) (h' : Rely second third) :
    Rely first third where
  drawn := List.Subset.trans h.drawn h'.drawn
  doomed serviceId := h'.doomed serviceId ∘ h.doomed serviceId
  origin new hnew := by
    rcases h'.origin new hnew with ⟨mid, hmid, hdescends, hnamed⟩ | ⟨hfresh, hnamed⟩
    · rcases h.origin mid hmid with ⟨old, hold, hdescends', hnamed'⟩ | ⟨hfresh, hnamed'⟩
      · refine .inl ⟨old, hold, hdescends'.trans hdescends, fun id hid ↦ ?_⟩
        rcases hnamed id hid with hkept | hnew
        · exact hnamed' id hkept
        · exact .inr fun hdrawn ↦ hnew (h.drawn hdrawn)
      · refine .inr ⟨hdescends.id ▸ hfresh, fun id hid ↦ ?_⟩
        rcases hnamed id hid with hkept | hnew
        · exact hnamed' id hkept
        · exact fun hdrawn ↦ hnew (h.drawn hdrawn)
    · exact .inr ⟨fun hdrawn ↦ hfresh (h.drawn hdrawn),
        fun id hid hdrawn ↦ hnamed id hid (h.drawn hdrawn)⟩

/-! ## What a workflow knows -/

/-- The check was read, and what is there under its identifier descends from it. -/
def Knows (vault : Vault) (row : CheckRow) : Prop :=
  row.id ∈ vault.drawn ∧ ∀ check ∈ vault.control.checks, check.id = row.id → Descends row check

/-- Only the check with this identifier can name these secrets. -/
def Owned (vault : Vault) (ids : List String) (checkId : String) : Prop :=
  ∀ id ∈ ids, id ∈ vault.drawn ∧ ∀ check ∈ vault.control.checks,
    id ∈ namedSecrets check.secretRefs → check.id = checkId

/-- Only checks of services that are being purged can name these secrets. -/
def Abandoned (vault : Vault) (ids : List String) : Prop :=
  ∀ id ∈ ids, id ∈ vault.drawn ∧ ∀ check ∈ vault.control.checks,
    id ∈ namedSecrets check.secretRefs → Doomed vault check.serviceId

section Later

variable {before after : Vault}

theorem Knows.later {row : CheckRow} (h : Knows before row) (hrely : Rely before after) :
    Knows after row := by
  refine ⟨hrely.drawn h.1, fun new hnew hid ↦ ?_⟩
  rcases hrely.origin new hnew with ⟨old, hold, hdescends, -⟩ | ⟨hfresh, -⟩
  · exact (h.2 old hold (hdescends.id.symm.trans hid)).trans hdescends
  · exact absurd (hid ▸ h.1) hfresh

theorem exists_named_before (hrely : Rely before after) {new : CheckRow}
    (hnew : new ∈ after.control.checks) {id : String} (hdrawn : id ∈ before.drawn)
    (hid : id ∈ namedSecrets new.secretRefs) :
    ∃ old ∈ before.control.checks, Descends old new ∧ id ∈ namedSecrets old.secretRefs := by
  rcases hrely.origin new hnew with ⟨old, hold, hdescends, hnamed⟩ | ⟨-, hfresh⟩
  · rcases hnamed id hid with hkept | hnew
    · exact ⟨old, hold, hdescends, hkept⟩
    · exact absurd hdrawn hnew
  · exact absurd hdrawn (hfresh id hid)

theorem Owned.later {ids : List String} {checkId : String} (h : Owned before ids checkId)
    (hrely : Rely before after) : Owned after ids checkId := by
  intro id hid
  obtain ⟨hdrawn, hnamed⟩ := h id hid
  refine ⟨hrely.drawn hdrawn, fun new hnew hname ↦ ?_⟩
  obtain ⟨old, hold, hdescends, hname'⟩ := exists_named_before hrely hnew hdrawn hname
  exact hdescends.id.trans (hnamed old hold hname')

theorem Abandoned.later {ids : List String} (h : Abandoned before ids)
    (hrely : Rely before after) : Abandoned after ids := by
  intro id hid
  obtain ⟨hdrawn, hnamed⟩ := h id hid
  refine ⟨hrely.drawn hdrawn, fun new hnew hname ↦ ?_⟩
  obtain ⟨old, hold, hdescends, hname'⟩ := exists_named_before hrely hnew hdrawn hname
  exact hdescends.service ▸ hrely.doomed old.serviceId (hnamed old hold hname')

end Later

/-! ## The invariant -/

/-- What the proof needs to know of a state besides the secrets that are there. -/
structure Ordered (vault : Vault) : Prop where
  checks : UniqueKey CheckRow.id vault.control.checks
  services : UniqueKey ServiceRow.id vault.control.services
  secrets : UniqueKey SecretRow.id vault.control.secrets
  checks_drawn : ∀ check ∈ vault.control.checks, check.id ∈ vault.drawn
  services_drawn : ∀ service ∈ vault.control.services, service.id ∈ vault.drawn
  secrets_drawn : ∀ secret ∈ vault.control.secrets, secret.id ∈ vault.drawn
  tokens_drawn : ∀ job ∈ vault.syncJobs, job.syncToken ∈ vault.drawn
  named_drawn : ∀ check ∈ vault.control.checks, ∀ id ∈ namedSecrets check.secretRefs,
    id ∈ vault.drawn
  single : ∀ first ∈ vault.control.checks, ∀ second ∈ vault.control.checks,
    ∀ id ∈ namedSecrets first.secretRefs, id ∈ namedSecrets second.secretRefs →
      first.id = second.id

/-- Every secret that a check names is there, unless its service is doomed. -/
def Kept (vault : Vault) : Prop :=
  ∀ check ∈ vault.control.checks, ¬Doomed vault check.serviceId →
    ∀ id ∈ namedSecrets check.secretRefs,
      ∃ secret ∈ vault.control.secrets, secret.id = id ∧ secret.workspaceId = check.workspaceId

structure Inv (vault : Vault) : Prop where
  ordered : Ordered vault
  kept : Kept vault

variable {vault : Vault} {before after : Vault} {workspaceId : String} {changes : ℕ}

theorem Inv.intact (h : Inv vault) : Intact vault := by
  intro check hcheck service hservice hid hpurge id hname
  have halive : ¬Doomed vault check.serviceId := fun hdoomed ↦
    hdoomed.2 service hservice hid hpurge
  obtain ⟨secret, hsecret, hsame, -⟩ := h.kept check hcheck halive id hname
  exact ⟨secret, hsecret, hsame⟩

theorem Ordered.knows (h : Ordered vault) {row : CheckRow} (hrow : row ∈ vault.control.checks) :
    Knows vault row := by
  refine ⟨h.checks_drawn row hrow, fun check hcheck hid ↦ ?_⟩
  rw [h.checks.eq_of_mem hcheck hrow hid]
  exact .refl row

theorem Ordered.owned (h : Ordered vault) {row : CheckRow} (hrow : row ∈ vault.control.checks) :
    Owned vault (namedSecrets row.secretRefs) row.id :=
  fun id hid ↦ ⟨h.named_drawn row hrow id hid, fun check hcheck hname ↦
    h.single check hcheck row hrow id hname hid⟩

/-! ## Batches that leave the references alone -/

/-- References and secrets are left as they are, and no service comes back. -/
structure Plain (before after : ControlDb) : Prop where
  secrets : after.secrets = before.secrets
  unique : UniqueKey CheckRow.id before.checks → UniqueKey CheckRow.id after.checks
  checks : ∀ new ∈ after.checks, ∃ old ∈ before.checks, Descends old new ∧
    new.secretRefs = old.secretRefs
  services : UniqueKey ServiceRow.id before.services → UniqueKey ServiceRow.id after.services
  purging : ∀ new ∈ after.services, ∃ old ∈ before.services, old.id = new.id ∧
    (new.purgeStartedAt = none → old.purgeStartedAt = none)

section Plain

variable {before after : ControlDb} {workspaceId : String}

theorem plain_of_eq (hsecrets : after.secrets = before.secrets)
    (hchecks : after.checks = before.checks) (hservices : after.services = before.services) :
    Plain before after where
  secrets := hsecrets
  unique := hchecks ▸ id
  checks new hnew := ⟨new, hchecks ▸ hnew, .refl new, rfl⟩
  services := hservices ▸ id
  purging new hnew := ⟨new, hservices ▸ hnew, rfl, id⟩

theorem Plain.trans {first second third : ControlDb} (h : Plain first second)
    (h' : Plain second third) : Plain first third where
  secrets := h'.secrets.trans h.secrets
  unique := h'.unique ∘ h.unique
  services := h'.services ∘ h.services
  checks new hnew := by
    obtain ⟨mid, hmid, hdescends, hrefs⟩ := h'.checks new hnew
    obtain ⟨old, hold, hdescends', hrefs'⟩ := h.checks mid hmid
    exact ⟨old, hold, hdescends'.trans hdescends, hrefs.trans hrefs'⟩
  purging new hnew := by
    obtain ⟨mid, hmid, hid, hpurge⟩ := h'.purging new hnew
    obtain ⟨old, hold, hid', hpurge'⟩ := h.purging mid hmid
    exact ⟨old, hold, hid'.trans hid, hpurge' ∘ hpurge⟩

variable (db : ControlDb)

theorem plain_advanceAgentConfiguration (condition : Bool) (machineId : Option String) :
    Plain db (advanceAgentConfiguration db workspaceId condition machineId) := by
  cases machineId <;> exact plain_of_eq rfl rfl rfl

theorem plain_updateChecks (condition : CheckRow → Bool) {change : CheckRow → CheckRow}
    (hdescends : ∀ check, Descends check (change check))
    (hrefs : ∀ check, (change check).secretRefs = check.secretRefs) :
    Plain db { db with checks := updateWhere condition change db.checks } where
  secrets := rfl
  unique h := h.updateWhere fun check ↦ (hdescends check).id
  checks new hnew := by
    obtain ⟨old, hold, ⟨-, rfl⟩ | ⟨-, rfl⟩⟩ := mem_updateWhere.mp hnew
    · exact ⟨old, hold, hdescends old, hrefs old⟩
    · exact ⟨new, hold, .refl new, rfl⟩
  services := id
  purging new hnew := ⟨new, hnew, rfl, id⟩

theorem plain_deleteChecks (condition : CheckRow → Bool) :
    Plain db (deleteChecks db condition) where
  secrets := rfl
  unique h := h.filter _
  checks new hnew := ⟨new, (List.mem_filter.mp hnew).1, .refl new, rfl⟩
  services := id
  purging new hnew := ⟨new, hnew, rfl, id⟩

theorem plain_updateDeletion (resourceType : ManagedResourceType) (resourceId : String)
    (condition : Option ℤ → Option ℤ → Bool) {change : Option ℤ → Option ℤ → Option ℤ × Option ℤ}
    (hpurge : ∀ deletedAt purgeStartedAt, (change deletedAt purgeStartedAt).2 = none →
      purgeStartedAt = none) :
    Plain db (updateDeletion db resourceType workspaceId resourceId condition change).1 := by
  cases resourceType with
  | machine => exact plain_of_eq rfl rfl rfl
  | service =>
    exact {
      secrets := rfl
      unique := id
      checks := fun new hnew ↦ ⟨new, hnew, .refl new, rfl⟩
      services := fun h ↦ h.updateWhere fun _ ↦ rfl
      purging := fun new hnew ↦ by
        obtain ⟨old, hold, ⟨-, rfl⟩ | ⟨-, rfl⟩⟩ := mem_updateWhere.mp hnew
        · exact ⟨old, hold, rfl, hpurge _ _⟩
        · exact ⟨new, hold, rfl, id⟩ }

theorem plain_updatePolicyBatch {update : UpdatePolicy} {changes : ℕ}
    (h : updatePolicyBatch before workspaceId update = some (after, changes)) :
    Plain before after := by
  obtain ⟨hafter, -⟩ := updateChecks_cases h
  rw [hafter]
  refine (plain_advanceAgentConfiguration before _ update.machineId).trans
    (plain_updateChecks _ _ (fun check ↦ ?_) fun _ ↦ rfl)
  exact ⟨rfl, rfl, rfl, Nat.le_succ _, fun heq ↦ absurd heq (Nat.succ_ne_self _)⟩

theorem plain_finalizeMachineControlBatch (policy : SoftDeletePolicy) (machineId : String)
    (cutoff : ℤ) :
    Plain db (finalizeMachineControlBatch db policy machineId cutoff) := by
  have hchecks : Plain db { db with
      checks := updateWhere (onMachine db machineId) (fun check ↦ { check with
        enabled := false
        executorAgentId := none
        configRevision := check.configRevision + 1 }) db.checks } := by
    refine plain_updateChecks db _ (fun check ↦ ?_) fun _ ↦ rfl
    exact ⟨rfl, rfl, rfl, Nat.le_succ _, fun heq ↦ absurd heq (Nat.succ_ne_self _)⟩
  exact hchecks.trans (plain_of_eq rfl rfl rfl)

theorem plain_finalizeServiceControlBatch (policy : SoftDeletePolicy) (serviceId : String)
    (cutoff : ℤ) :
    Plain db (finalizeServiceControlBatch db policy serviceId cutoff) := by
  rw [finalizeServiceControlBatch]
  dsimp only
  split
  · refine (plain_deleteChecks db _).trans {
      secrets := rfl
      unique := id
      checks := fun new hnew ↦ ⟨new, hnew, .refl new, rfl⟩
      services := fun h ↦ h.filter _
      purging := fun new hnew ↦ ⟨new, (List.mem_filter.mp hnew).1, rfl, id⟩ }
  · exact plain_of_eq rfl rfl rfl

/-- The batch neither inserts a check nor touches secrets. -/
def Unrelated : Batch → Prop
  | .createService .. | .addCheck .. | .replaceCheck .. | .deleteCheck .. => False
  | _ => True

theorem plain_execute {batch : Batch} {changes : ℕ}
    (h : execute before batch = some (after, changes)) (hother : Unrelated batch) :
    Plain before after := by
  cases batch with
  | createService | addCheck | replaceCheck | deleteCheck => exact absurd hother id
  | updatePolicy workspaceId update => exact plain_updatePolicyBatch h
  | softDelete workspaceId resourceType resourceId now conditions =>
    obtain rfl := congrArg Prod.fst (Option.some.inj h)
    exact plain_updateDeletion before resourceType resourceId _ fun _ _ ↦ id
  | restore workspaceId resourceType resourceId deletedAt conditions =>
    rw [execute, restoreBatch] at h
    split at h
    · obtain rfl := congrArg Prod.fst (Option.some.inj h)
      exact plain_updateDeletion before resourceType resourceId _ fun _ _ ↦ id
    · cases h
  | claimWorkspace policy now cutoff =>
    obtain rfl := congrArg Prod.fst (Option.some.inj h)
    exact plain_of_eq rfl rfl rfl
  | claimResource policy resourceType resource now cutoff =>
    obtain rfl := congrArg Prod.fst (Option.some.inj h)
    refine plain_updateDeletion before resourceType resource.id _ fun _ purgeStartedAt hnone ↦ ?_
    cases purgeStartedAt with
    | none => rfl
    | some time => cases hnone
  | finalizeMachineControl policy machineId cutoff =>
    obtain rfl := congrArg Prod.fst (Option.some.inj h)
    exact plain_finalizeMachineControlBatch before policy machineId cutoff
  | finalizeServiceControl policy serviceId cutoff =>
    obtain rfl := congrArg Prod.fst (Option.some.inj h)
    exact plain_finalizeServiceControlBatch before policy serviceId cutoff
  | administer workspaces memberships grants machines agents =>
    obtain rfl := congrArg Prod.fst (Option.some.inj h)
    exact plain_of_eq rfl rfl rfl

end Plain

/-! ## What a batch may do -/

/-- All that a batch changes besides the secrets: checks descend from checks or are new, and what
is new has been drawn for the batch. -/
structure Change (before after : Vault) : Prop where
  drawn : before.drawn ⊆ after.drawn
  checks : UniqueKey CheckRow.id after.control.checks
  services : UniqueKey ServiceRow.id after.control.services
  origin : ∀ new ∈ after.control.checks, Origin before new
  checks_drawn : ∀ new ∈ after.control.checks, new.id ∉ before.drawn → new.id ∈ after.drawn
  named_drawn : ∀ new ∈ after.control.checks, ∀ id ∈ namedSecrets new.secretRefs,
    id ∉ before.drawn → id ∈ after.drawn
  single : ∀ first ∈ after.control.checks, ∀ second ∈ after.control.checks,
    ∀ id ∈ namedSecrets first.secretRefs, id ∈ namedSecrets second.secretRefs →
      id ∉ before.drawn → first.id = second.id
  purging : ∀ new ∈ after.control.services,
    (∃ old ∈ before.control.services, old.id = new.id ∧
      (new.purgeStartedAt = none → old.purgeStartedAt = none)) ∨
    (new.id ∉ before.drawn ∧ new.id ∈ after.drawn)
  tokens_drawn : ∀ job ∈ after.syncJobs, job ∈ before.syncJobs ∨ job.syncToken ∈ after.drawn

section Change

variable {before after : Vault}

theorem Change.doomed (h : Change before after) {serviceId : String}
    (hdoomed : Doomed before serviceId) : Doomed after serviceId := by
  refine ⟨h.drawn hdoomed.1, fun new hnew hid hnone ↦ ?_⟩
  rcases h.purging new hnew with ⟨old, hold, hsame, hpurge⟩ | ⟨hfresh, -⟩
  · exact hdoomed.2 old hold (hsame.trans hid) (hpurge hnone)
  · exact hfresh (hid ▸ hdoomed.1)

theorem Change.rely (h : Change before after) : Rely before after where
  drawn := h.drawn
  origin := h.origin
  doomed _ := h.doomed

theorem Change.ordered (h : Change before after) (hbefore : Ordered before)
    (hsecrets : UniqueKey SecretRow.id after.control.secrets)
    (hsecretsDrawn : ∀ secret ∈ after.control.secrets, secret.id ∈ after.drawn) :
    Ordered after where
  checks := h.checks
  services := h.services
  secrets := hsecrets
  secrets_drawn := hsecretsDrawn
  checks_drawn new hnew := by
    by_cases hdrawn : new.id ∈ before.drawn
    · exact h.drawn hdrawn
    · exact h.checks_drawn new hnew hdrawn
  services_drawn new hnew := by
    rcases h.purging new hnew with ⟨old, hold, hsame, -⟩ | ⟨-, hdrawn⟩
    · exact h.drawn (hsame ▸ hbefore.services_drawn old hold)
    · exact hdrawn
  tokens_drawn job hjob := by
    rcases h.tokens_drawn job hjob with hold | hnew
    · exact h.drawn (hbefore.tokens_drawn job hold)
    · exact hnew
  named_drawn new hnew id hid := by
    by_cases hdrawn : id ∈ before.drawn
    · exact h.drawn hdrawn
    · exact h.named_drawn new hnew id hid hdrawn
  single first hfirst second hsecond id hid hid' := by
    by_cases hdrawn : id ∈ before.drawn
    · obtain ⟨old, hold, hdescends, hname⟩ := exists_named_before h.rely hfirst hdrawn hid
      obtain ⟨old', hold', hdescends', hname'⟩ := exists_named_before h.rely hsecond hdrawn hid'
      rw [hdescends.id, hdescends'.id]
      exact hbefore.single old hold old' hold' id hname hname'
    · exact h.single first hfirst second hsecond id hid hid' hdrawn

end Change

/-- A batch that is plain in the control database and draws nothing that stays. -/
theorem change_of_plain (h : Plain before.control after.control) (hbefore : Ordered before)
    (hdrawn : before.drawn ⊆ after.drawn)
    (hjobs : ∀ job ∈ after.syncJobs, job ∈ before.syncJobs ∨ job.syncToken ∈ after.drawn) :
    Change before after where
  drawn := hdrawn
  checks := h.unique hbefore.checks
  services := h.services hbefore.services
  origin new hnew := by
    obtain ⟨old, hold, hdescends, hrefs⟩ := h.checks new hnew
    exact .inl ⟨old, hold, hdescends, fun id hid ↦ .inl (hrefs ▸ hid)⟩
  checks_drawn new hnew hfresh := by
    obtain ⟨old, hold, hdescends, -⟩ := h.checks new hnew
    exact absurd (hdescends.id ▸ hbefore.checks_drawn old hold) hfresh
  named_drawn new hnew id hid hfresh := by
    obtain ⟨old, hold, -, hrefs⟩ := h.checks new hnew
    exact absurd (hbefore.named_drawn old hold id (hrefs ▸ hid)) hfresh
  single first hfirst second hsecond id hid _ hfresh := by
    obtain ⟨old, hold, -, hrefs⟩ := h.checks first hfirst
    exact absurd (hbefore.named_drawn old hold id (hrefs ▸ hid)) hfresh
  purging new hnew := .inl (h.purging new hnew)
  tokens_drawn := hjobs

/-- A secret may go when no check names it, but for those of doomed services. -/
theorem kept_of_plain (h : Change before after)
    (hplain : ∀ new ∈ after.control.checks, ∃ old ∈ before.control.checks, Descends old new ∧
      new.secretRefs = old.secretRefs) (hkept : Kept before)
    (hsecrets : ∀ secret ∈ before.control.secrets, secret ∈ after.control.secrets ∨
      ∀ check ∈ after.control.checks, secret.workspaceId = check.workspaceId →
        secret.id ∈ namedSecrets check.secretRefs → Doomed after check.serviceId) : Kept after := by
  intro new hnew halive id hid
  obtain ⟨old, hold, hdescends, hrefs⟩ := hplain new hnew
  have hwas : ¬Doomed before old.serviceId := fun hdoomed ↦
    halive (hdescends.service ▸ h.doomed hdoomed)
  obtain ⟨secret, hsecret, rfl, hworkspace⟩ := hkept old hold hwas id (hrefs ▸ hid)
  rw [← hdescends.workspace] at hworkspace
  rcases hsecrets secret hsecret with hstays | hdoomed
  · exact ⟨secret, hstays, rfl, hworkspace⟩
  · exact absurd (hdoomed new hnew hworkspace hid) halive

/-! ### Secrets go -/

/-- The secrets that may be deleted at once. -/
def Removable (vault : Vault) (condition : SecretRow → Bool) : Prop :=
  ∀ secret ∈ vault.control.secrets, condition secret = true → ∀ check ∈ vault.control.checks,
    secret.workspaceId = check.workspaceId → secret.id ∈ namedSecrets check.secretRefs →
      Doomed vault check.serviceId

theorem removeSecrets_good (hinv : Inv vault) {condition : SecretRow → Bool}
    (h : Removable vault condition) :
    Inv (removeSecrets vault condition).1 ∧ Rely vault (removeSecrets vault condition).1 := by
  have hplain : ∀ new ∈ (removeSecrets vault condition).1.control.checks,
      ∃ old ∈ vault.control.checks, Descends old new ∧ new.secretRefs = old.secretRefs :=
    fun new hnew ↦ ⟨new, hnew, .refl new, rfl⟩
  have hchange : Change vault (removeSecrets vault condition).1 :=
    { drawn := List.Subset.refl _
      checks := hinv.ordered.checks
      services := hinv.ordered.services
      origin := fun new hnew ↦ .inl ⟨new, hnew, .refl new, fun _ ↦ .inl⟩
      checks_drawn := fun new hnew hfresh ↦ absurd (hinv.ordered.checks_drawn new hnew) hfresh
      named_drawn := fun new hnew id hid hfresh ↦
        absurd (hinv.ordered.named_drawn new hnew id hid) hfresh
      single := fun first hfirst second hsecond id hid hid' _ ↦
        hinv.ordered.single first hfirst second hsecond id hid hid'
      purging := fun new hnew ↦ .inl ⟨new, hnew, rfl, id⟩
      tokens_drawn := fun job hjob ↦ .inl hjob }
  refine ⟨⟨hchange.ordered hinv.ordered (hinv.ordered.secrets.filter _) fun secret hsecret ↦
    hinv.ordered.secrets_drawn secret (List.mem_filter.mp hsecret).1, ?_⟩, hchange.rely⟩
  refine kept_of_plain hchange hplain hinv.kept fun secret hsecret ↦ ?_
  cases hgone : condition secret with
  | false => exact .inl (List.mem_filter.mpr ⟨hsecret, by simp [hgone]⟩)
  | true => exact .inr fun check hcheck hworkspace hname ↦
      hchange.doomed (h secret hsecret hgone check hcheck hworkspace hname)

theorem removable_orphans (hinv : Inv vault) (createdAt : String → ℤ) (workspaceId : String)
    (now : ℤ) (rowBatch : ℕ) :
    Removable vault fun secret ↦ ((selectOrdered SecretRow.id rowBatch
      (orphans createdAt vault workspaceId now)).map SecretRow.id).contains secret.id := by
  intro secret hsecret hchosen check hcheck hworkspace hname
  obtain ⟨orphan, horphan, hid⟩ := List.mem_map.mp (List.contains_iff_mem.mp hchosen)
  obtain ⟨hmem, hcondition⟩ := List.mem_filter.mp (mem_of_mem_selectOrdered horphan)
  obtain rfl := hinv.ordered.secrets.eq_of_mem hmem hsecret hid
  simp only [Bool.and_eq_true, Bool.not_eq_eq_eq_not, Bool.not_true] at hcondition
  have hnamed : named vault.control orphan = true :=
    List.any_eq_true.mpr ⟨check, hcheck, by simp [hworkspace, hname]⟩
  exact absurd (hcondition.2.symm.trans hnamed) Bool.false_ne_true

/-! ### A check comes -/

theorem insertCheck_spec {db after : ControlDb} {new : NewCheck} {condition : Bool}
    (h : insertCheck db workspaceId new condition = some (after, changes)) :
    (after = db ∧ changes = 0) ∨
      (changes = 1 ∧ ∃ revision, after = insertSecrets
        { db with checks := db.checks ++ [new.row workspaceId revision] } workspaceId
          new.compiled.secrets) := by
  rw [insertCheck] at h
  split at h
  · obtain ⟨rfl, rfl⟩ := Prod.mk.inj (Option.some.inj h)
    exact .inl ⟨rfl, rfl⟩
  · split at h
    · cases h
    · split at h
      · cases h
      · obtain ⟨revision, -, heq⟩ := Option.map_eq_some_iff.mp h
        obtain ⟨rfl, rfl⟩ := Prod.mk.inj heq
        exact .inr ⟨rfl, revision, rfl⟩

theorem drawnAnew_iff {ids : List String} :
    drawnAnew vault ids = true ↔ ids.Nodup ∧ ∀ id ∈ ids, id ∉ vault.drawn := by
  simp [drawnAnew]

theorem Change.ordered_append (h : Change before after) (hbefore : Ordered before)
    {kept : List SecretRow} {inserts : List CheckSecretInsert}
    (hkept : kept.Sublist before.control.secrets)
    (hsecrets : after.control.secrets =
      kept ++ inserts.map fun secret ↦ ⟨secret.id, workspaceId, secret.wrappedBytes⟩)
    (hfresh : ∀ id ∈ inserts.map CheckSecretInsert.id, id ∉ before.drawn ∧ id ∈ after.drawn)
    (hnodup : (inserts.map CheckSecretInsert.id).Nodup) : Ordered after := by
  have hdrawn (secret : SecretRow) (hsecret : secret ∈ kept) : secret.id ∈ before.drawn :=
    hbefore.secrets_drawn secret (hkept.subset hsecret)
  refine h.ordered hbefore ?_ fun secret hsecret ↦ ?_
  · rw [hsecrets]
    refine uniqueKey_append (hbefore.secrets.sublist (hkept.map SecretRow.id)) ?_ ?_
    · rw [UniqueKey, List.map_map]
      exact hnodup
    · intro secret hsecret new hnew heq
      obtain ⟨insert, hinsert, rfl⟩ := List.mem_map.mp hnew
      have hid : secret.id = insert.id := heq
      exact (hfresh _ (List.mem_map_of_mem hinsert)).1 (hid ▸ hdrawn secret hsecret)
  · rw [hsecrets] at hsecret
    rcases List.mem_append.mp hsecret with hold | hnew
    · exact h.drawn (hdrawn secret hold)
    · obtain ⟨insert, hinsert, rfl⟩ := List.mem_map.mp hnew
      exact (hfresh _ (List.mem_map_of_mem hinsert)).2

/-- Each of the services was there, and no purge has been undone, or has been drawn. -/
def Serves (before after : Vault) (services : List ServiceRow) : Prop :=
  ∀ new ∈ services,
    (∃ old ∈ before.control.services, old.id = new.id ∧
      (new.purgeStartedAt = none → old.purgeStartedAt = none)) ∨
    (new.id ∉ before.drawn ∧ new.id ∈ after.drawn)

theorem insert_good (hinv : Inv before) {row : CheckRow} {secrets : List CheckSecretInsert}
    (hdrawn : before.drawn ⊆ after.drawn)
    (hfresh : ∀ id ∈ row.id :: secrets.map CheckSecretInsert.id,
      id ∉ before.drawn ∧ id ∈ after.drawn) (hnodup : (secrets.map CheckSecretInsert.id).Nodup)
    (hnamed : ∀ id ∈ namedSecrets row.secretRefs, id ∈ secrets.map CheckSecretInsert.id)
    (hchecks : after.control.checks = before.control.checks ++ [row])
    (hsecrets : after.control.secrets = before.control.secrets ++
      secrets.map fun secret ↦ ⟨secret.id, row.workspaceId, secret.wrappedBytes⟩)
    (hservices : UniqueKey ServiceRow.id after.control.services)
    (hpurging : Serves before after after.control.services)
    (hjobs : after.syncJobs = before.syncJobs) :
    Inv after ∧ Rely before after := by
  have hrow : row.id ∉ before.drawn ∧ row.id ∈ after.drawn := hfresh _ List.mem_cons_self
  have hname (id : String) (hid : id ∈ namedSecrets row.secretRefs) :
      id ∉ before.drawn ∧ id ∈ after.drawn := hfresh id (List.mem_cons_of_mem _ (hnamed id hid))
  have hcases (new : CheckRow) (hnew : new ∈ after.control.checks) :
      new ∈ before.control.checks ∨ new = row := by
    rw [hchecks] at hnew
    exact (List.mem_append.mp hnew).imp id List.mem_singleton.mp
  have hchange : Change before after :=
    { drawn := hdrawn
      checks := by
        rw [hchecks]
        exact uniqueKey_append_singleton hinv.ordered.checks fun check hcheck heq ↦
          hrow.1 (heq ▸ hinv.ordered.checks_drawn check hcheck)
      services := hservices
      origin := fun new hnew ↦ by
        rcases hcases new hnew with hold | rfl
        · exact .inl ⟨new, hold, .refl new, fun _ ↦ .inl⟩
        · exact .inr ⟨hrow.1, fun id hid ↦ (hname id hid).1⟩
      checks_drawn := fun new hnew hnone ↦ by
        rcases hcases new hnew with hold | rfl
        · exact absurd (hinv.ordered.checks_drawn new hold) hnone
        · exact hrow.2
      named_drawn := fun new hnew id hid hnone ↦ by
        rcases hcases new hnew with hold | rfl
        · exact absurd (hinv.ordered.named_drawn new hold id hid) hnone
        · exact (hname id hid).2
      single := fun first hfirst second hsecond id hid hid' hnone ↦ by
        rcases hcases first hfirst with hold | rfl
        · exact absurd (hinv.ordered.named_drawn first hold id hid) hnone
        · rcases hcases second hsecond with hold | rfl
          · exact absurd (hinv.ordered.named_drawn second hold id hid') hnone
          · rfl
      purging := hpurging
      tokens_drawn := fun job hjob ↦ .inl (hjobs ▸ hjob) }
  refine ⟨⟨hchange.ordered_append hinv.ordered (.refl _) hsecrets
    (fun id hid ↦ hfresh id (List.mem_cons_of_mem _ hid)) hnodup, ?_⟩, hchange.rely⟩
  intro new hnew halive id hid
  rw [hsecrets]
  rcases hcases new hnew with hold | rfl
  · have hwas : ¬Doomed before new.serviceId := fun hdoomed ↦ halive (hchange.doomed hdoomed)
    obtain ⟨secret, hsecret, hsame⟩ := hinv.kept new hold hwas id hid
    exact ⟨secret, List.mem_append_left _ hsecret, hsame⟩
  · obtain ⟨insert, hinsert, rfl⟩ := List.mem_map.mp (hnamed id hid)
    exact ⟨_, List.mem_append_right _ (List.mem_map_of_mem hinsert), rfl, rfl⟩

theorem services_good (hinv : Inv before) (hdrawn : before.drawn ⊆ after.drawn)
    (hchecks : after.control.checks = before.control.checks)
    (hsecrets : after.control.secrets = before.control.secrets)
    (hservices : UniqueKey ServiceRow.id after.control.services)
    (hpurging : Serves before after after.control.services)
    (hjobs : after.syncJobs = before.syncJobs) :
    Inv after ∧ Rely before after := by
  have hplain : ∀ new ∈ after.control.checks, ∃ old ∈ before.control.checks,
      Descends old new ∧ new.secretRefs = old.secretRefs :=
    fun new hnew ↦ ⟨new, hchecks ▸ hnew, .refl new, rfl⟩
  have hchange : Change before after :=
    { drawn := hdrawn
      checks := hchecks ▸ hinv.ordered.checks
      services := hservices
      origin := fun new hnew ↦ .inl ⟨new, hchecks ▸ hnew, .refl new, fun _ ↦ .inl⟩
      checks_drawn := fun new hnew hfresh ↦
        absurd (hinv.ordered.checks_drawn new (hchecks ▸ hnew)) hfresh
      named_drawn := fun new hnew id hid hfresh ↦
        absurd (hinv.ordered.named_drawn new (hchecks ▸ hnew) id hid) hfresh
      single := fun first hfirst second hsecond id hid hid' _ ↦
        hinv.ordered.single first (hchecks ▸ hfirst) second (hchecks ▸ hsecond) id hid hid'
      purging := hpurging
      tokens_drawn := fun job hjob ↦ .inl (hjobs ▸ hjob) }
  refine ⟨⟨hchange.ordered hinv.ordered (hsecrets ▸ hinv.ordered.secrets) fun secret hsecret ↦
    hdrawn (hinv.ordered.secrets_drawn secret (hsecrets ▸ hsecret)), ?_⟩, hchange.rely⟩
  exact kept_of_plain hchange hplain hinv.kept fun secret hsecret ↦ .inl (hsecrets ▸ hsecret)

theorem inserted_good {vault next : Vault} {db : ControlDb} {check : NewCheck} {condition : Bool}
    (hinv : Inv vault) (hcompiles : Compiles check.compiled) (hdrawn : vault.drawn ⊆ next.drawn)
    (hfresh : ∀ id ∈ check.id :: check.compiled.secrets.map CheckSecretInsert.id,
      id ∉ vault.drawn ∧ id ∈ next.drawn)
    (hnodup : (check.compiled.secrets.map CheckSecretInsert.id).Nodup)
    (hchecks : db.checks = vault.control.checks) (hsecrets : db.secrets = vault.control.secrets)
    (hservices : UniqueKey ServiceRow.id db.services) (hpurging : Serves vault next db.services)
    (hjobs : next.syncJobs = vault.syncJobs)
    (h : insertCheck db workspaceId check condition = some (next.control, changes)) :
    Inv next ∧ Rely vault next := by
  rcases insertCheck_spec h with ⟨hsame, -⟩ | ⟨-, revision, hinserted⟩
  · exact services_good hinv hdrawn (hsame ▸ hchecks) (hsame ▸ hsecrets) (hsame ▸ hservices)
      (hsame ▸ hpurging) hjobs
  · have hrow : next.control.checks =
        vault.control.checks ++ [check.row workspaceId revision] := by
      rw [hinserted, ← hchecks]
      rfl
    refine insert_good hinv hdrawn hfresh hnodup (fun id ↦ mem_inserts_of_mem_named hcompiles)
      hrow ?_ ?_ ?_ hjobs
    · rw [hinserted, ← hsecrets]
      rfl
    · rw [hinserted]
      exact hservices
    · rw [hinserted]
      exact hpurging

section Inserting

variable {vault next : Vault} {workspaceId : String} {check : NewCheck} {changes : ℕ}
  {conditions checkConditions : List FinalCondition} {used : List String}

theorem addCheck_good (hinv : Inv vault) (hcompiles : Compiles check.compiled)
    (hnew : drawnAnew vault (check.id :: check.compiled.secrets.map CheckSecretInsert.id ++ used) =
      true)
    (h : addCheckBatch vault.control workspaceId check conditions checkConditions =
      some (next.control, changes)) (hjobs : next.syncJobs = vault.syncJobs)
    (hdrawn : next.drawn =
      check.id :: check.compiled.secrets.map CheckSecretInsert.id ++ used ++ vault.drawn) :
    Inv next ∧ Rely vault next := by
  obtain ⟨hnodup, hfresh⟩ := drawnAnew_iff.mp hnew
  have hsecrets : (check.compiled.secrets.map CheckSecretInsert.id).Nodup :=
    (List.nodup_cons.mp hnodup.of_append_left).2
  refine inserted_good hinv hcompiles (hdrawn ▸ List.subset_append_right _ _) (fun id hid ↦ ?_)
    hsecrets (checks_advanceAgentConfiguration _ _) ?_ ?_ (fun new hnew ↦ .inl ?_) hjobs h
  · exact ⟨hfresh id (List.mem_append_left _ hid),
      hdrawn ▸ List.mem_append_left _ (List.mem_append_left _ hid)⟩
  · exact (plain_advanceAgentConfiguration _ _ _).secrets
  · rw [services_advanceAgentConfiguration]
    exact hinv.ordered.services
  · rw [services_advanceAgentConfiguration] at hnew
    exact ⟨new, hnew, rfl, id⟩

theorem createService_good {service : NewService} (hinv : Inv vault)
    (hcompiles : Compiles check.compiled)
    (hnew : drawnAnew vault (service.id :: check.id ::
      check.compiled.secrets.map CheckSecretInsert.id ++ used) = true)
    (h : createServiceBatch vault.control workspaceId service check conditions =
      some (next.control, changes)) (hjobs : next.syncJobs = vault.syncJobs)
    (hdrawn : next.drawn = service.id :: check.id ::
      check.compiled.secrets.map CheckSecretInsert.id ++ used ++ vault.drawn) :
    Inv next ∧ Rely vault next := by
  obtain ⟨⟨inserted, count⟩, hservice, hcheck⟩ := Option.bind_eq_some_iff.mp h
  obtain ⟨⟨created, count'⟩, hcreated, heq⟩ := Option.map_eq_some_iff.mp hcheck
  obtain ⟨rfl, -⟩ := Prod.mk.inj heq
  dsimp only at hcreated
  obtain ⟨hnodup, hfresh⟩ := drawnAnew_iff.mp hnew
  have hboth (id : String) (hid : id ∈ service.id :: check.id ::
      check.compiled.secrets.map CheckSecretInsert.id) : id ∉ vault.drawn ∧ id ∈ next.drawn :=
    ⟨hfresh id (List.mem_append_left _ hid),
      hdrawn ▸ List.mem_append_left _ (List.mem_append_left _ hid)⟩
  have hsecrets : (check.compiled.secrets.map CheckSecretInsert.id).Nodup :=
    (List.nodup_cons.mp (List.nodup_cons.mp hnodup.of_append_left).2).2
  obtain ⟨hchecks, -, hservices⟩ := insertService_cases hservice
  have hkeeps : inserted.secrets = vault.control.secrets := by
    rw [insertService] at hservice
    split at hservice
    · obtain ⟨rfl, -⟩ := Prod.mk.inj (Option.some.inj hservice)
      exact (plain_advanceAgentConfiguration _ _ _).secrets
    · split at hservice
      · cases hservice
      · obtain ⟨rfl, -⟩ := Prod.mk.inj (Option.some.inj hservice)
        exact (plain_advanceAgentConfiguration _ _ _).secrets
  rw [checks_advanceAgentConfiguration] at hchecks
  rw [services_advanceAgentConfiguration] at hservices
  let served : NewCheck := { check with serviceId := service.id }
  have hcompiles' : Compiles served.compiled := hcompiles
  refine inserted_good hinv hcompiles' (hdrawn ▸ List.subset_append_right _ _)
    (fun id hid ↦ hboth id (List.mem_cons_of_mem _ hid)) hsecrets hchecks hkeeps ?_ ?_ hjobs
    hcreated
  · rcases hservices with hsame | ⟨hnone, hmore⟩
    · exact hsame ▸ hinv.ordered.services
    · rw [hmore]
      exact uniqueKey_append_singleton hinv.ordered.services hnone
  · intro new hnew
    rcases hservices with hsame | ⟨-, hmore⟩
    · exact .inl ⟨new, hsame ▸ hnew, rfl, id⟩
    · rw [hmore] at hnew
      rcases List.mem_append.mp hnew with hold | hlast
      · exact .inl ⟨new, hold, rfl, id⟩
      · rw [List.mem_singleton.mp hlast]
        exact .inr (hboth service.id List.mem_cons_self)

end Inserting

/-! ### A check goes -/

theorem plain_good (h : Plain before.control after.control) (hinv : Inv before)
    (hdrawn : before.drawn ⊆ after.drawn)
    (hjobs : ∀ job ∈ after.syncJobs, job ∈ before.syncJobs ∨ job.syncToken ∈ after.drawn) :
    Inv after ∧ Rely before after := by
  have hchange := change_of_plain h hinv.ordered hdrawn hjobs
  refine ⟨⟨hchange.ordered hinv.ordered (h.secrets ▸ hinv.ordered.secrets) fun secret hsecret ↦
    hdrawn (hinv.ordered.secrets_drawn secret (h.secrets ▸ hsecret)), ?_⟩, hchange.rely⟩
  exact kept_of_plain hchange h.checks hinv.kept fun secret hsecret ↦ .inl (h.secrets ▸ hsecret)

/-- The check of a deletion was read, and the secrets are those that it named. -/
structure DeleteReady (vault : Vault) (workspaceId : String) (update : DeleteCheck) : Prop where
  knows : ∃ row, Knows vault row ∧ row.id = update.checkId ∧ row.serviceId = update.serviceId ∧
    row.workspaceId = workspaceId
  owned : Owned vault update.secretIds update.checkId

theorem DeleteReady.removable {update : DeleteCheck} (h : DeleteReady vault workspaceId update)
    (hgone : ¬vault.control.checks.any (fun check ↦ check.id = update.checkId &&
      check.serviceId = update.serviceId && check.workspaceId = workspaceId) = true) :
    Removable vault fun secret ↦
      secret.workspaceId = workspaceId && update.secretIds.contains secret.id := by
  intro secret hsecret hchosen check hcheck hworkspace hname
  simp only [Bool.and_eq_true, decide_eq_true_eq, List.contains_iff_mem] at hchosen
  obtain ⟨row, hknows, hid, hservice, hsame⟩ := h.knows
  have hcheckId : check.id = update.checkId := (h.owned secret.id hchosen.2).2 check hcheck hname
  have hdescends := hknows.2 check hcheck (hcheckId.trans hid.symm)
  refine absurd (List.any_eq_true.mpr ⟨check, hcheck, ?_⟩) hgone
  simp [hcheckId, hdescends.service, hdescends.workspace, hservice, hsame]

theorem deleteCheck_good {vault next : Vault} {update : DeleteCheck} (hinv : Inv vault)
    (h : DeleteReady vault workspaceId update)
    (hnext : next.control = (deleteCheckBatch vault.control workspaceId update).1)
    (hjobs : next.syncJobs = vault.syncJobs) (hdrawn : vault.drawn ⊆ next.drawn) :
    Inv next ∧ Rely vault next := by
  let advanced := advanceAgentConfiguration vault.control workspaceId
    (vault.control.permits workspaceId update.machineConditions) update.machineId
  let deleted := deleteChecks advanced (deletable advanced workspaceId update)
  let middle : Vault := { next with control := deleted }
  have hplain : Plain vault.control deleted :=
    (plain_advanceAgentConfiguration vault.control _ update.machineId).trans
      (plain_deleteChecks advanced _)
  obtain ⟨hmiddle, hrely⟩ : Inv middle ∧ Rely vault middle :=
    plain_good hplain hinv hdrawn fun job hjob ↦ .inl (hjobs ▸ hjob)
  have hready : DeleteReady middle workspaceId update := by
    obtain ⟨row, hknows, hrow⟩ := h.knows
    exact ⟨⟨row, hknows.later hrely, hrow⟩, h.owned.later hrely⟩
  rw [deleteCheckBatch] at hnext
  dsimp only at hnext
  split at hnext
  · have hsame : next = middle :=
      congrArg (fun control ↦ { next with control := control }) hnext
    rw [hsame]
    exact ⟨hmiddle, hrely⟩
  · next hgone =>
    have hremoved : next = (removeSecrets middle fun secret ↦
        secret.workspaceId = workspaceId && update.secretIds.contains secret.id).1 :=
      congrArg (fun control ↦ { next with control := control }) hnext
    obtain ⟨hnextInv, hnextRely⟩ := removeSecrets_good hmiddle (hready.removable hgone)
    rw [hremoved]
    exact ⟨hnextInv, hrely.trans hnextRely⟩

/-! ### References change -/

/-- What a replacement has read of the check, whose secrets go or stay. -/
inductive ReplaceReady (vault : Vault) (update : ReplaceCheck) : Prop where
  | replaced (owned : Owned vault update.oldSecretIds update.checkId)
      (compiles : Compiles update.compiled)
  | kept (row : CheckRow) (knows : Knows vault row) (id : row.id = update.checkId)
      (revision : row.configRevision = update.configRevision)
      (refs : row.secretRefs = update.compiled.secretRefs)
      (old : update.oldSecretIds = []) (new : update.compiled.secrets = [])

theorem hasSyncJob_insertSyncJob {jobs : List SyncJobRow} {checkId syncToken : String}
    (hfresh : ∀ job ∈ jobs, job.syncToken ≠ syncToken) (changes : ℕ) :
    hasSyncJob (insertSyncJob jobs checkId syncToken changes) checkId syncToken = true ↔
      changes = 1 := by
  rw [hasSyncJob, List.any_eq_true, insertSyncJob]
  split
  · next hone =>
    let job : SyncJobRow := ⟨"check:" ++ checkId, syncToken⟩
    have hfound : lookup SyncJobRow.jobKey job.jobKey
        (upsert SyncJobRow.jobKey (fun _ ↦ true) (fun _ ↦ job) job jobs) = some job := by
      rw [lookup_replace, if_pos rfl]
      cases lookup SyncJobRow.jobKey job.jobKey jobs <;> rfl
    exact ⟨fun _ ↦ hone, fun _ ↦ ⟨job, (lookup_some hfound).1, by simp [job]⟩⟩
  · next hother =>
    refine ⟨?_, fun hone ↦ absurd hone hother⟩
    rintro ⟨job, hjob, hsame⟩
    simp only [Bool.and_eq_true, decide_eq_true_eq] at hsame
    exact absurd hsame.2 (hfresh job hjob)

/-- What the update of a replacement matches and what it makes of it. -/
structure Replacement (workspaceId : String) (update : ReplaceCheck)
    (condition : CheckRow → Bool) (change : CheckRow → CheckRow) : Prop where
  matched : ∀ check, condition check = true → check.id = update.checkId ∧
    check.workspaceId = workspaceId ∧ check.configRevision = update.configRevision
  changed : ∀ check, (change check).id = check.id ∧
    (change check).serviceId = check.serviceId ∧
    (change check).workspaceId = check.workspaceId ∧
    (change check).configRevision = check.configRevision + 1 ∧
    (change check).secretRefs = update.compiled.secretRefs

theorem replaceUpdate_spec {db updated : ControlDb} {update : ReplaceCheck}
    (hunique : UniqueKey CheckRow.id db.checks)
    (h : replaceUpdate db workspaceId update = some (updated, changes)) :
    updated.secrets = db.secrets ∧ updated.services = db.services ∧
    ∃ condition : CheckRow → Bool, ∃ change : CheckRow → CheckRow,
      Replacement workspaceId update condition change ∧
      updated.checks = updateWhere condition change db.checks ∧
      (changes = 1 ∧ (∃ check ∈ db.checks, condition check = true) ∨
        changes = 0 ∧ ∀ check ∈ db.checks, condition check = false) := by
  obtain ⟨hafter, -⟩ := updateChecks_cases h
  have hchanges := updateChecks_changes h
  rw [checks_advanceAgentConfiguration] at hchanges
  refine ⟨?_, ?_, _, _, ⟨fun check hcondition ↦ ?_, fun check ↦ ?_⟩,
    (congrArg ControlDb.checks hafter).trans (congrArg _ (checks_advanceAgentConfiguration _ _)),
    ?_⟩
  · rw [hafter]
    exact (plain_advanceAgentConfiguration db _ update.machineId).secrets
  · rw [hafter]
    exact services_advanceAgentConfiguration _ _
  · simp only [Bool.and_eq_true, decide_eq_true_eq] at hcondition
    exact ⟨hcondition.1.1.1.1, hcondition.1.1.2, hcondition.1.2⟩
  · exact ⟨rfl, rfl, rfl, rfl, rfl⟩
  · have hle : changes ≤ 1 := by
      rw [hchanges]
      refine le_trans (List.countP_mono_left fun check _ hcondition ↦ ?_)
        (hunique.countP_key_le_one update.checkId)
      simp only [Bool.and_eq_true, decide_eq_true_eq] at hcondition ⊢
      exact hcondition.1.1.1.1
    rcases Nat.le_one_iff_eq_zero_or_eq_one.mp hle with hzero | hone
    · exact .inr ⟨hzero, fun check hcheck ↦ Bool.eq_false_iff.mpr
        (List.countP_eq_zero.mp (hchanges.symm.trans hzero) check hcheck)⟩
    · exact .inl ⟨hone, List.countP_pos_iff.mp (by rw [← hchanges, hone]; exact Nat.one_pos)⟩

theorem mem_insertSyncJob {jobs : List SyncJobRow} {checkId syncToken : String} {job : SyncJobRow}
    (h : job ∈ insertSyncJob jobs checkId syncToken changes) :
    job ∈ jobs ∨ job.syncToken = syncToken := by
  rw [insertSyncJob] at h
  split at h
  · rcases mem_upsert h with hold | rfl | ⟨old, -, -, rfl⟩
    · exact .inl hold
    · exact .inr rfl
    · exact .inr rfl
  · exact .inl h

section Replacing

variable {vault next : Vault} {workspaceId : String} {update : ReplaceCheck}
  {condition : CheckRow → Bool} {change : CheckRow → CheckRow}

theorem keptReferences_good (hinv : Inv vault) {row : CheckRow} (hknows : Knows vault row)
    (hid : row.id = update.checkId) (hrevision : row.configRevision = update.configRevision)
    (hrefs : row.secretRefs = update.compiled.secretRefs)
    (hreplacement : Replacement workspaceId update condition change)
    (hchecks : next.control.checks = updateWhere condition change vault.control.checks)
    (hservices : next.control.services = vault.control.services)
    (hsecrets : next.control.secrets = vault.control.secrets) (hdrawn : vault.drawn ⊆ next.drawn)
    (hjobs : ∀ job ∈ next.syncJobs, job ∈ vault.syncJobs ∨ job.syncToken ∈ next.drawn) :
    Inv next ∧ Rely vault next := by
  refine plain_good ?_ hinv hdrawn hjobs
  exact {
    secrets := hsecrets
    unique := fun h ↦ hchecks ▸ h.updateWhere fun check ↦ (hreplacement.changed check).1
    services := fun h ↦ hservices ▸ h
    purging := fun new hnew ↦ ⟨new, hservices ▸ hnew, rfl, id⟩
    checks := fun new hnew ↦ by
      rw [hchecks] at hnew
      obtain ⟨old, hold, ⟨hmatched, rfl⟩ | ⟨-, rfl⟩⟩ := mem_updateWhere.mp hnew
      · obtain ⟨hsame, hservice, hworkspace, hmore, hnewRefs⟩ := hreplacement.changed old
        obtain ⟨holdId, -, holdRevision⟩ := hreplacement.matched old hmatched
        have hdescends := hknows.2 old hold (holdId.trans hid.symm)
        refine ⟨old, hold, ⟨hsame, hservice, hworkspace, hmore ▸ Nat.le_succ _, fun heq ↦ ?_⟩, ?_⟩
        · exact absurd (hmore.symm.trans heq) (Nat.succ_ne_self _)
        · rw [hnewRefs, ← hrefs, hdescends.refs (holdRevision.trans hrevision.symm)]
      · exact ⟨new, hold, .refl new, rfl⟩ }

theorem exchanged_good (hinv : Inv vault) (howned : Owned vault update.oldSecretIds update.checkId)
    (hcompiles : Compiles update.compiled)
    (hfresh : ∀ id ∈ update.compiled.secrets.map CheckSecretInsert.id,
      id ∉ vault.drawn ∧ id ∈ next.drawn)
    (hnodup : (update.compiled.secrets.map CheckSecretInsert.id).Nodup)
    (hreplacement : Replacement workspaceId update condition change)
    (hmatched : ∃ check ∈ vault.control.checks, condition check = true)
    (hchecks : next.control.checks = updateWhere condition change vault.control.checks)
    (hservices : next.control.services = vault.control.services)
    (hsecrets : next.control.secrets = (vault.control.secrets.filter fun secret ↦
      !(secret.workspaceId = workspaceId && update.oldSecretIds.contains secret.id)) ++
        update.compiled.secrets.map fun secret ↦ ⟨secret.id, workspaceId, secret.wrappedBytes⟩)
    (hdrawn : vault.drawn ⊆ next.drawn)
    (hjobs : ∀ job ∈ next.syncJobs, job ∈ vault.syncJobs ∨ job.syncToken ∈ next.drawn) :
    Inv next ∧ Rely vault next := by
  have hcases (new : CheckRow) (hnew : new ∈ next.control.checks) :
      ∃ old ∈ vault.control.checks, (condition old = true ∧ new = change old) ∨
        (condition old = false ∧ new = old) := by
    rw [hchecks] at hnew
    exact mem_updateWhere.mp hnew
  have hname (old : CheckRow) (id : String) (hid : id ∈ namedSecrets (change old).secretRefs) :
      id ∈ update.compiled.secrets.map CheckSecretInsert.id := by
    rw [(hreplacement.changed old).2.2.2.2] at hid
    exact mem_inserts_of_mem_named hcompiles hid
  have hall : Change vault next :=
    { drawn := hdrawn
      checks := hchecks ▸ hinv.ordered.checks.updateWhere fun check ↦ (hreplacement.changed check).1
      services := hservices ▸ hinv.ordered.services
      purging := fun new hnew ↦ .inl ⟨new, hservices ▸ hnew, rfl, id⟩
      tokens_drawn := hjobs
      origin := fun new hnew ↦ by
        obtain ⟨old, hold, ⟨-, rfl⟩ | ⟨-, rfl⟩⟩ := hcases new hnew
        · obtain ⟨hsame, hservice, hworkspace, hmore, -⟩ := hreplacement.changed old
          refine .inl ⟨old, hold, ⟨hsame, hservice, hworkspace, hmore ▸ Nat.le_succ _,
            fun heq ↦ absurd (hmore.symm.trans heq) (Nat.succ_ne_self _)⟩, fun id hid ↦ .inr ?_⟩
          exact (hfresh id (hname old id hid)).1
        · exact .inl ⟨new, hold, .refl new, fun _ ↦ .inl⟩
      checks_drawn := fun new hnew hnone ↦ by
        obtain ⟨old, hold, ⟨-, rfl⟩ | ⟨-, rfl⟩⟩ := hcases new hnew
        · exact absurd ((hreplacement.changed old).1 ▸ hinv.ordered.checks_drawn old hold) hnone
        · exact absurd (hinv.ordered.checks_drawn new hold) hnone
      named_drawn := fun new hnew id hid hnone ↦ by
        obtain ⟨old, hold, ⟨-, rfl⟩ | ⟨-, rfl⟩⟩ := hcases new hnew
        · exact (hfresh id (hname old id hid)).2
        · exact absurd (hinv.ordered.named_drawn new hold id hid) hnone
      single := fun first hfirst second hsecond id hid hid' hnone ↦ by
        obtain ⟨old, hold, ⟨hmatched, rfl⟩ | ⟨-, rfl⟩⟩ := hcases first hfirst
        · obtain ⟨old', hold', ⟨hmatched', rfl⟩ | ⟨-, rfl⟩⟩ := hcases second hsecond
          · rw [(hreplacement.changed old).1, (hreplacement.changed old').1,
              (hreplacement.matched old hmatched).1, (hreplacement.matched old' hmatched').1]
          · exact absurd (hinv.ordered.named_drawn second hold' id hid') hnone
        · exact absurd (hinv.ordered.named_drawn first hold id hid) hnone }
  refine ⟨⟨hall.ordered_append hinv.ordered List.filter_sublist hsecrets hfresh hnodup, ?_⟩,
    hall.rely⟩
  intro new hnew halive id hid
  rw [hsecrets]
  obtain ⟨old, hold, ⟨hmatch, rfl⟩ | ⟨hother, rfl⟩⟩ := hcases new hnew
  · obtain ⟨insert, hinsert, rfl⟩ := List.mem_map.mp (hname old id hid)
    refine ⟨_, List.mem_append_right _ (List.mem_map_of_mem hinsert), rfl, ?_⟩
    rw [(hreplacement.changed old).2.2.1]
    exact (hreplacement.matched old hmatch).2.1.symm
  · have hwas : ¬Doomed vault new.serviceId := fun hdoomed ↦ halive (hall.doomed hdoomed)
    obtain ⟨secret, hsecret, hsame, hworkspace⟩ := hinv.kept new hold hwas id hid
    refine ⟨secret, List.mem_append_left _ (List.mem_filter.mpr ⟨hsecret, ?_⟩), hsame,
      hworkspace⟩
    -- only the check that was matched names one of the old secrets
    have hnot : id ∉ update.oldSecretIds := fun hgone ↦ by
      obtain ⟨matched, hmem, hmatch⟩ := hmatched
      have hid : new.id = matched.id :=
        ((howned id hgone).2 new hold hid).trans (hreplacement.matched matched hmatch).1.symm
      rw [hinv.ordered.checks.eq_of_mem hold hmem hid] at hother
      exact Bool.false_ne_true (hother.symm.trans hmatch)
    simp [hsame, hnot]

theorem replaceCheck_good {after : Vault} {assertionIds : List String} {syncToken : String}
    {used : List String} {changes : ℕ} (hinv : Inv vault) (hready : ReplaceReady vault update)
    (hnew : drawnAnew vault (syncToken :: update.compiled.secrets.map CheckSecretInsert.id ++
      used) = true)
    (h : replaceStatements vault workspaceId update assertionIds syncToken = some (after, changes))
    (hcontrol : next.control = after.control) (hsync : next.syncJobs = after.syncJobs)
    (hdrawn : next.drawn = syncToken :: update.compiled.secrets.map CheckSecretInsert.id ++
      used ++ vault.drawn) : Inv next ∧ Rely vault next := by
  obtain ⟨hnodup, hfresh⟩ := drawnAnew_iff.mp hnew
  have hmore : vault.drawn ⊆ next.drawn := hdrawn ▸ List.subset_append_right _ _
  have htoken : syncToken ∉ vault.drawn ∧ syncToken ∈ next.drawn :=
    ⟨hfresh syncToken List.mem_cons_self, hdrawn ▸ List.mem_cons_self⟩
  obtain ⟨⟨updated, count⟩, hupdate, heq⟩ := Option.map_eq_some_iff.mp h
  dsimp only at heq
  obtain ⟨hsecrets, hservices, condition, change, hreplacement, hchecks, hcount⟩ :=
    replaceUpdate_spec hinv.ordered.checks hupdate
  have hguard := @hasSyncJob_insertSyncJob vault.syncJobs update.checkId syncToken
    (fun job hjob heq ↦ htoken.1 (heq ▸ hinv.ordered.tokens_drawn job hjob)) count
  have hjobs (job : SyncJobRow)
      (hjob : job ∈ insertSyncJob vault.syncJobs update.checkId syncToken count) :
      job ∈ vault.syncJobs ∨ job.syncToken ∈ next.drawn :=
    (mem_insertSyncJob hjob).imp id fun (hsame : job.syncToken = syncToken) ↦ hsame ▸ htoken.2
  rcases hcount with ⟨hone, hmatched⟩ | ⟨hzero, hnone⟩
  · rw [if_pos (hguard.mpr hone)] at heq
    obtain ⟨rfl, -⟩ := Prod.mk.inj heq
    have hnextJobs : ∀ job ∈ next.syncJobs, job ∈ vault.syncJobs ∨ job.syncToken ∈ next.drawn :=
      fun job hjob ↦ hjobs job (by rwa [hsync] at hjob)
    have hnextSecrets : next.control.secrets = (vault.control.secrets.filter fun secret ↦
        !(secret.workspaceId = workspaceId && update.oldSecretIds.contains secret.id)) ++
          update.compiled.secrets.map fun secret ↦
            ⟨secret.id, workspaceId, secret.wrappedBytes⟩ := by
      rw [hcontrol, ← hsecrets]
      rfl
    have hnextChecks : next.control.checks = updateWhere condition change vault.control.checks :=
      (congrArg ControlDb.checks hcontrol).trans hchecks
    have hnextServices : next.control.services = vault.control.services :=
      (congrArg ControlDb.services hcontrol).trans hservices
    cases hready with
    | replaced owned compiles =>
      refine exchanged_good hinv owned compiles (fun id hid ↦ ?_) ?_ hreplacement hmatched
        hnextChecks hnextServices hnextSecrets hmore hnextJobs
      · have hmem : id ∈ syncToken :: update.compiled.secrets.map CheckSecretInsert.id ++ used :=
          List.mem_append_left _ (List.mem_cons_of_mem _ hid)
        exact ⟨hfresh id hmem, hdrawn ▸ List.mem_append_left _ hmem⟩
      · exact (List.nodup_cons.mp hnodup.of_append_left).2
    | kept row knows id revision refs old new =>
      refine keptReferences_good hinv knows id revision refs hreplacement hnextChecks
        hnextServices ?_ hmore hnextJobs
      rw [hnextSecrets, old, new]
      simp
  · rw [if_neg fun hjob ↦ by cases hzero.symm.trans (hguard.mp hjob)] at heq
    obtain ⟨rfl, -⟩ := Prod.mk.inj heq
    refine plain_good (plain_of_eq ?_ ?_ ?_) hinv hmore fun job hjob ↦
      hjobs job (by rwa [hsync] at hjob)
    · exact (congrArg ControlDb.secrets hcontrol).trans hsecrets
    · rw [hcontrol]
      exact hchecks.trans (updateWhere_eq_self hnone)
    · exact (congrArg ControlDb.services hcontrol).trans hservices

end Replacing

/-! ## Every batch -/

/-- What a batch needs of the state that it meets. -/
def Good (vault : Vault) : VaultBatch → Prop
  | .mutate (.createService _ _ check _) _ _ => Compiles check.compiled
  | .mutate (.addCheck _ check _ _) _ _ => Compiles check.compiled
  | .mutate (.replaceCheck _ update) _ _ => ReplaceReady vault update
  | .mutate (.deleteCheck workspaceId update) _ _ => DeleteReady vault workspaceId update
  | .mutate _ _ _ => True
  | .deleteSecrets _ ids => Abandoned vault ids
  | .cleanOrphanCheckSecrets _ _ _ => True

theorem mutate_good {vault after : Vault} {batch : Batch} {assertionIds : List String}
    {syncToken : String} (hinv : Inv vault)
    (hgood : Good vault (.mutate batch assertionIds syncToken))
    (hnew : drawnAnew vault (draws batch assertionIds syncToken) = true)
    (h : mutateStatements vault batch assertionIds syncToken = some (after, changes)) :
    Inv { after with drawn := draws batch assertionIds syncToken ++ vault.drawn } ∧
      Rely vault { after with drawn := draws batch assertionIds syncToken ++ vault.drawn } := by
  have hplain (hother : Unrelated batch) (hexecute : (execute vault.control batch).map (fun result ↦
        ({ vault with
          control := result.1
          assertions := cascadeAssertions vault.control result.1 vault.assertions ++
            insertAssertions result.1 batch assertionIds }, result.2)) = some (after, changes)) :
      Inv { after with drawn := draws batch assertionIds syncToken ++ vault.drawn } ∧
        Rely vault { after with drawn := draws batch assertionIds syncToken ++ vault.drawn } := by
    obtain ⟨⟨control, count⟩, hcontrol, heq⟩ := Option.map_eq_some_iff.mp hexecute
    obtain ⟨rfl, -⟩ := Prod.mk.inj heq
    exact plain_good (plain_execute hcontrol hother) hinv (List.subset_append_right _ _)
      fun job hjob ↦ .inl hjob
  cases batch with
  | createService workspaceId service check conditions =>
    obtain ⟨⟨control, count⟩, hcontrol, heq⟩ := Option.map_eq_some_iff.mp h
    obtain ⟨rfl, -⟩ := Prod.mk.inj heq
    exact createService_good hinv hgood hnew hcontrol rfl rfl
  | addCheck workspaceId check conditions checkConditions =>
    obtain ⟨⟨control, count⟩, hcontrol, heq⟩ := Option.map_eq_some_iff.mp h
    obtain ⟨rfl, -⟩ := Prod.mk.inj heq
    exact addCheck_good hinv hgood hnew hcontrol rfl rfl
  | replaceCheck workspaceId update =>
    exact replaceCheck_good hinv hgood hnew h rfl rfl rfl
  | deleteCheck workspaceId update =>
    obtain rfl := congrArg Prod.fst (Option.some.inj h)
    exact deleteCheck_good hinv hgood rfl rfl (List.subset_append_right _ _)
  | updatePolicy | softDelete | restore | claimWorkspace | claimResource | finalizeMachineControl
    | finalizeServiceControl | administer => exact hplain trivial h

theorem perform_guarantee (createdAt : String → ℤ) :
    Guarantee (CheckSecrets.perform createdAt) Inv Rely Good fun _ _ ↦ True := by
  have hboth {vault : Vault} {batch : VaultBatch} (hinv : Inv vault) (hgood : Good vault batch) :
      Inv (CheckSecrets.perform createdAt batch vault).1 ∧
        Rely vault (CheckSecrets.perform createdAt batch vault).1 := by
    cases batch with
    | mutate batch assertionIds syncToken =>
      rw [CheckSecrets.perform]
      split
      · next hnew =>
        split
        · next after changes h => exact mutate_good hinv hgood hnew h
        · exact ⟨hinv, .refl vault⟩
      · exact ⟨hinv, .refl vault⟩
    | deleteSecrets workspaceId ids =>
      refine removeSecrets_good hinv fun secret hsecret hchosen check hcheck _ hname ↦ ?_
      simp only [Bool.and_eq_true, decide_eq_true_eq, List.contains_iff_mem] at hchosen
      exact (hgood secret.id hchosen.2).2 check hcheck hname
    | cleanOrphanCheckSecrets workspaceId now rowBatch =>
      exact removeSecrets_good hinv (removable_orphans hinv createdAt workspaceId now rowBatch)
  exact {
    refl := .refl
    trans := .trans
    inv := fun hinv hgood _ ↦ (hboth hinv hgood).1
    rely := fun hinv hgood _ ↦ (hboth hinv hgood).2 }

end AlphaPing.Monitoring.SecretReferences
