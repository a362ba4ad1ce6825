import AlphaPing.Monitoring.Handlers

/-!
# The batches that the handlers send

A handler passes through the questions of its authorization and of its capacities to one batch,
and answers by the number of changes. `Offers` lists, for each request, the batches that it may
send with what follows them; what a proof needs to know of every batch of every handler is a
property of this list.
-/

namespace AlphaPing.Monitoring.HandlerBatches

open Control ServiceConfig Handlers

/-! ## Questions on the way -/

/-- A property of handlers that a question passes on, and that every refusal has. -/
structure Passes (Holds : Flow → Prop) : Prop where
  ask : ∀ {View : Type} (query : ControlDb → View) (next : View → Flow),
    (∀ db, Holds (next (query db))) → Holds (.ask query next)
  refused : ∀ failure, Holds (.ended (.error failure))

def deletionChanged : Option ℕ → Flow
  | none => d1Error
  | some changes =>
    if changes = 1 then succeed else refuse 409 "A service must keep at least one check"

/-- The agent that was found is the one of the input. -/
def Executes (input : CheckInput) (agent : Option AgentView) : Prop :=
  input.executorKind = .agent → ∃ view, agent = some view ∧ view.id = input.executorAgentId

/-- A new check enforces the capacity of the agent that it runs on. -/
def Enforces (check : NewCheck) : Prop :=
  (check.executorKind = .cloudflare → check.executorAgentId = none) ∧
    ∀ agentId, check.executorAgentId = some agentId → check.machineId.isSome = true ∧
      check.capacity = ⟨agentId, none, check.configBytes, true⟩

theorem mem_of_loadCheck {db : ControlDb} {workspaceId serviceId checkId : String}
    {row : CheckRow} {machineId : Option String}
    (h : loadCheck db workspaceId serviceId checkId = some (row, machineId)) :
    row ∈ db.checks ∧ row.id = checkId ∧ row.serviceId = serviceId ∧
      row.workspaceId = workspaceId := by
  rw [loadCheck] at h
  split at h
  · cases h
  · obtain ⟨found, hfound, heq⟩ := Option.map_eq_some_iff.mp h
    obtain ⟨rfl, -⟩ := Prod.mk.inj heq
    have hmatch := List.find?_some hfound
    simp only [Bool.and_eq_true, decide_eq_true_eq] at hmatch
    exact ⟨List.mem_of_find?_eq_some hfound, hmatch.1.1, hmatch.1.2, hmatch.2⟩

section Questions

variable {Holds : Flow → Prop} {next : Flow}

theorem Passes.loadMonitoringAccess (h : Passes Holds) {actor : Actor}
    {next : MonitoringAccess → Flow} (hnext : ∀ access, Holds (next access)) :
    Holds (loadMonitoringAccess actor next) := by
  apply h.ask
  intro db
  split
  · exact h.refused _
  · exact hnext _
  · apply h.ask
    intro later
    split
    · exact h.refused _
    · exact hnext _

variable {access : MonitoringAccess}

theorem Passes.requireAdmin (h : Passes Holds) (hnext : Holds next) :
    Holds (requireAdmin access next) := by
  rw [Handlers.requireAdmin]
  split
  · exact hnext
  · exact h.refused _

theorem Passes.requireResourceCapability (h : Passes Holds) {resourceType : ResourceType}
    {resourceId : String} {capability : Capability} (hnext : Holds next) :
    Holds (requireResourceCapability access resourceType resourceId capability next) := by
  rw [Handlers.requireResourceCapability]
  split
  · exact hnext
  · exact h.refused _

variable {workspaceId : String}

theorem Passes.assertWorkspaceMonitorCapacity (h : Passes Holds) {services : Bool}
    (hnext : Holds next) :
    Holds (assertWorkspaceMonitorCapacity workspaceId services next) := by
  apply h.ask
  intro db
  split
  · exact hnext
  · split
    · apply h.ask
      intro later
      split <;> exact h.refused _
    · exact h.refused _

theorem Passes.assertAgentCapacity (h : Passes Holds) {capacity : Option AgentCapacityInput}
    (hnext : Holds next) : Holds (assertAgentCapacity capacity next) := by
  unfold Handlers.assertAgentCapacity
  split
  · exact hnext
  · split
    · exact hnext
    · apply h.ask
      intro db
      split
      · exact h.refused _
      · split
        · exact h.refused _
        · exact hnext

theorem Passes.loadExecutor (h : Passes Holds) {input : CheckInput} {next : Option AgentView → Flow}
    (hnext : ∀ agent, Executes input agent → Holds (next agent)) :
    Holds (loadExecutor input workspaceId next) := by
  rw [Handlers.loadExecutor]
  cases hkind : input.executorKind with
  | cloudflare => exact hnext none fun hagent ↦ nomatch hkind.symm.trans hagent
  | agent =>
    apply h.ask
    intro db
    split
    · exact h.refused _
    · next agent hfound =>
      refine hnext _ fun _ ↦ ⟨agent, rfl, ?_⟩
      obtain ⟨row, hrow, rfl⟩ := Option.map_eq_some_iff.mp hfound
      have hmatch := List.find?_some hrow
      simp only [Bool.and_eq_true, decide_eq_true_eq] at hmatch
      exact hmatch.1.1

theorem Passes.withCapacity (h : Passes Holds) {input : CheckInput}
    {checkId serviceId name : String} {agent : Option AgentView} {next : NewCheck → Flow}
    (hagent : Executes input agent)
    (hnext : ∀ check : NewCheck, input.compiled = .ok check.compiled → Enforces check →
      Holds (next check)) :
    Holds (withCapacity input checkId serviceId name agent next) := by
  rw [Handlers.withCapacity]
  split
  · exact h.refused _
  · cases hcompiled : input.compiled with
    | error failure => exact h.refused _
    | ok compiled =>
      dsimp only
      split
      · exact h.refused _
      · refine hnext _ hcompiled ⟨fun hkind ↦ ?_, fun agentId hexecutor ↦ ?_⟩
        · dsimp only at hkind ⊢
          exact if_neg (by rw [hkind]; decide)
        · dsimp only at hexecutor ⊢
          split at hexecutor
          · obtain ⟨view, rfl, hview⟩ := hagent ‹_›
            refine ⟨rfl, ?_⟩
            dsimp only
            rw [hview, Option.some.inj hexecutor]
          · cases hexecutor

theorem Passes.availableSlug (h : Passes Holds) {workspaceId base : String} (left suffix : ℕ)
    {next : String → Flow} (hnext : ∀ slug, Holds (next slug)) :
    Holds (availableSlug workspaceId base left suffix next) := by
  induction left generalizing suffix with
  | zero => exact h.refused _
  | succ left ih =>
    apply h.ask
    intro db
    generalize (if suffix = 1 then base else base ++ "-" ++ toString suffix) = slug
    split
    · exact ih (suffix + 1)
    · exact hnext _

theorem Passes.withPreservedSecrets (h : Passes Holds) {replaceSecrets : Bool}
    {oldSecretIds : List String} {next : ℕ → Flow} (hnext : ∀ bytes, Holds (next bytes)) :
    Holds (withPreservedSecrets workspaceId replaceSecrets oldSecretIds next) := by
  rw [Handlers.withPreservedSecrets]
  split
  · exact hnext 0
  · apply h.ask
    intro db
    split
    · exact h.refused _
    · exact hnext _

theorem Passes.requireMachine (h : Passes Holds) {machineId : Option String} (hnext : Holds next) :
    Holds (requireMachine access machineId next) := by
  unfold Handlers.requireMachine
  split
  · exact h.requireResourceCapability hnext
  · exact hnext

theorem Passes.requireExecutor (h : Passes Holds) {row : CheckRow} {machineId : Option String}
    {enabled : Bool} (hnext : (row.executorKind = .agent → enabled = true →
      row.executorAgentId.isSome = true ∧ machineId.isSome = true) → Holds next) :
    Holds (requireExecutor access row machineId enabled next) := by
  rw [requireExecutor.eq_def]
  split
  · split
    · next hagent =>
      exact h.requireResourceCapability (hnext fun _ _ ↦ ⟨by rw [hagent]; rfl, rfl⟩)
    · exact h.refused _
  · next hdisabled =>
    refine hnext fun hkind henabled ↦ absurd ?_ hdisabled
    simp [hkind, henabled]

theorem Passes.assertRemaining (h : Passes Holds) {row : CheckRow} {enabled : Bool}
    {workspaceId serviceId checkId : String} (hnext : Holds next) :
    Holds (assertRemaining row enabled workspaceId serviceId checkId next) := by
  unfold Handlers.assertRemaining
  split
  · apply h.ask
    intro db
    split
    · exact hnext
    · exact h.refused _
  · exact hnext

end Questions

section Sends

variable {P : Batch → (Option ℕ → Flow) → Prop}

theorem passes_sends : Passes fun flow ↦ flow.Sends P where
  ask _ _ h := h
  refused _ := trivial

theorem sends_finish (capacity : Option AgentCapacityInput) (conflict : String)
    (reply : Option ℕ) : (finish capacity conflict reply).Sends P := by
  cases reply with
  | none => exact passes_sends.assertAgentCapacity trivial
  | some changes =>
    rw [finish]
    split <;> trivial

theorem sends_resourceChanged (reply : Option ℕ) : (resourceChanged reply).Sends P := by
  unfold resourceChanged
  split <;> trivial

theorem sends_deletionChanged (reply : Option ℕ) : (deletionChanged reply).Sends P := by
  unfold deletionChanged
  split
  · trivial
  · split <;> trivial

end Sends

/-! ## What a request may send -/

/-- A replacement of the configuration of `row` by the one of the request. -/
structure Replaces (request : ReplaceServiceCheckConfiguration) (row : CheckRow)
    (update : ReplaceCheck) : Prop where
  checkId : update.checkId = request.checkId
  serviceId : update.serviceId = request.serviceId
  revision : update.configRevision = row.configRevision
  compiled : request.input.compiled.bind (finalCompiled request row) = .ok update.compiled
  oldSecretIds : update.oldSecretIds =
    if request.replaceSecrets then referencedSecretIds row.secretRefs else []

/-- The batches of a request, with what follows them. -/
inductive Offers : Request → Batch → (Option ℕ → Flow) → Prop
  | createServiceMonitor (request : CreateServiceMonitor) (workspaceId : String)
      (service : NewService) (check : NewCheck)
      (compiled : request.input.compiled = .ok check.compiled) :
      Offers (.createServiceMonitor request) (.createService workspaceId service check
          [.admin request.actor.userId, .monitorCapacity true])
        (finish (NewCheck.enforced check)
          "Workspace access or monitoring capacity changed; reload and try again")
  | addServiceCheck (request : AddServiceCheck) (workspaceId : String) (check : NewCheck)
      (conditions : List FinalCondition)
      (compiled : request.input.compiled = .ok check.compiled) :
      Offers (.addServiceCheck request) (.addCheck workspaceId check
          (conditions ++ [.monitorCapacity false]) (conditions ++ [.monitorCapacity false]))
        (finish (NewCheck.enforced check)
          "Service access or check capacity changed; reload and try again")
  | replaceServiceCheckConfiguration (request : ReplaceServiceCheckConfiguration)
      (workspaceId : String) (row : CheckRow) (update : ReplaceCheck)
      (replaces : Replaces request row update) :
      Offers (.replaceServiceCheckConfiguration request) (.replaceCheck workspaceId update)
        (finish update.capacity "Check configuration changed; reload and try again")
  | updateServiceCheckPolicy (request : UpdateServiceCheckPolicy) (workspaceId : String)
      (update : UpdatePolicy) :
      Offers (.updateServiceCheckPolicy request) (.updatePolicy workspaceId update)
        (finish update.capacity "Check policy changed; reload and try again")
  | deleteServiceCheck (request : DeleteServiceCheck) (workspaceId : String)
      (update : DeleteCheck) (checkId : update.checkId = request.checkId)
      (serviceId : update.serviceId = request.serviceId) :
      Offers (.deleteServiceCheck request) (.deleteCheck workspaceId update) deletionChanged
  | softDeleteResource (request : ResourceRequest) (workspaceId : String)
      (conditions : List FinalCondition) :
      Offers (.softDeleteResource request) (.softDelete workspaceId request.resourceType
        request.resourceId request.now conditions) resourceChanged
  | restoreResource (request : ResourceRequest) (workspaceId : String) (deletedAt : ℤ)
      (conditions : List FinalCondition) :
      Offers (.restoreResource request) (.restore workspaceId request.resourceType
        request.resourceId deletedAt conditions) resourceChanged
  | claimWorkspace (request : FinalizeSoftDeleted) (now cutoff : ℤ) (next : Option ℕ → Flow) :
      Offers (.finalizeSoftDeletedResources request)
        (.claimWorkspace request.policy now cutoff) next
  | claimResource (request : FinalizeSoftDeleted) (resourceType : ManagedResourceType)
      (resource : ResourceRow) (now cutoff : ℤ) (next : Option ℕ → Flow) :
      Offers (.finalizeSoftDeletedResources request)
        (.claimResource request.policy resourceType resource now cutoff) next
  | finalizeControl (request : FinalizeSoftDeleted) (resourceType : ManagedResourceType)
      (resourceId : String) (cutoff : ℤ) (next : Option ℕ → Flow) :
      Offers (.finalizeSoftDeletedResources request)
        (Handlers.finalizeControl resourceType request.policy resourceId cutoff) next
  | administer (workspaces : List WorkspaceRow) (memberships : List MembershipRow)
      (grants : List GrantRow) (machines : List MachineRow) (agents : List AgentRow) :
      Offers (.administer workspaces memberships grants machines agents)
        (.administer workspaces memberships grants machines agents) fun _ ↦ succeed

/-! ## The way to the batch -/

section Mutations

variable {Holds : Flow → Prop}

theorem Passes.createServiceMonitor (h : Passes Holds) (request : CreateServiceMonitor)
    (hsend : ∀ workspaceId service check, request.input.compiled = .ok (NewCheck.compiled check) →
      Enforces check → Holds (.send (.createService workspaceId service check
          [.admin request.actor.userId, .monitorCapacity true])
        (finish (NewCheck.enforced check)
          "Workspace access or monitoring capacity changed; reload and try again"))) :
    Holds (createServiceMonitor request) := by
  apply h.loadMonitoringAccess
  intro access
  apply h.requireAdmin
  apply h.assertWorkspaceMonitorCapacity
  apply h.loadExecutor
  intro agent hagent
  apply h.withCapacity hagent
  intro check hcompiled henforces
  apply h.availableSlug
  intro slug
  exact hsend access.workspaceId _ check hcompiled henforces

theorem Passes.addServiceCheck (h : Passes Holds) (request : AddServiceCheck)
    (hsend : ∀ workspaceId check conditions,
      request.input.compiled = .ok (NewCheck.compiled check) → Enforces check →
      Holds (.send (.addCheck workspaceId check (conditions ++ [.monitorCapacity false])
          (conditions ++ [.monitorCapacity false]))
        (finish (NewCheck.enforced check)
          "Service access or check capacity changed; reload and try again"))) :
    Holds (addServiceCheck request) := by
  apply h.loadMonitoringAccess
  intro access
  apply h.requireResourceCapability
  apply h.ask
  intro db
  dsimp only
  split
  · exact h.refused _
  · generalize checkNameValid (trim request.input.checkName) = valid
    cases valid with
    | false => exact h.refused _
    | true =>
      apply h.assertWorkspaceMonitorCapacity
      apply h.loadExecutor
      intro agent hagent
      split
      · exact h.refused _
      · apply h.withCapacity hagent
        intro check hcompiled henforces
        exact hsend access.workspaceId check (_ :: _) hcompiled henforces

theorem Passes.sendReplacement (h : Passes Holds) (request : ReplaceServiceCheckConfiguration)
    (access : MonitoringAccess) (row : CheckRow) (machineId : Option String) (checkName : String)
    (compiled : CompiledServiceConfig) (configBytes : ℕ)
    (hcompiled : request.input.compiled.bind (finalCompiled request row) = .ok compiled)
    (hsend : ∀ update, Replaces request row update →
      update.machineConditions = update.checkConditions →
      Holds (.send (.replaceCheck access.workspaceId update)
        (finish update.capacity "Check configuration changed; reload and try again"))) :
    Holds (sendReplacement request access row machineId checkName compiled configBytes) := by
  rw [Handlers.sendReplacement]
  split
  · exact h.refused _
  · apply h.assertAgentCapacity
    split
    · exact h.refused _
    · exact hsend _ ⟨rfl, rfl, rfl, hcompiled, rfl⟩ rfl

theorem Passes.replaceServiceCheckConfiguration (h : Passes Holds)
    (request : ReplaceServiceCheckConfiguration)
    (hsend : ∀ workspaceId row update, Replaces request row update →
      update.machineConditions = update.checkConditions →
      Holds (.send (.replaceCheck workspaceId update)
        (finish update.capacity "Check configuration changed; reload and try again"))) :
    Holds (replaceServiceCheckConfiguration request) := by
  apply h.loadMonitoringAccess
  intro access
  apply h.requireResourceCapability
  apply h.ask
  intro db
  split
  · exact h.refused _
  · next row machineId _ =>
    apply h.requireMachine
    split
    · exact h.refused _
    · split
      · exact h.refused _
      · next compiled hcompiled =>
        apply h.withPreservedSecrets
        intro bytes
        exact h.sendReplacement request access row machineId _ compiled _ hcompiled
          (hsend access.workspaceId row)

theorem Passes.updateServiceCheckPolicy (h : Passes Holds) (request : UpdateServiceCheckPolicy)
    (hsend : ∀ workspaceId update, UpdatePolicy.machineConditions update = update.checkConditions →
      Holds (.send (.updatePolicy workspaceId update)
        (finish update.capacity "Check policy changed; reload and try again"))) :
    Holds (updateServiceCheckPolicy request) := by
  apply h.loadMonitoringAccess
  intro access
  apply h.requireResourceCapability
  apply h.ask
  intro db
  dsimp only
  split
  · exact h.refused _
  · apply h.requireExecutor
    intro _
    split
    · exact h.refused _
    · apply h.assertRemaining
      apply h.assertAgentCapacity
      exact hsend _ _ rfl

theorem Passes.deleteServiceCheck (h : Passes Holds) (request : DeleteServiceCheck)
    (hsend : ∀ workspaceId update, DeleteCheck.checkId update = request.checkId →
      update.serviceId = request.serviceId → update.machineConditions = update.checkConditions →
      Holds (.send (.deleteCheck workspaceId update) deletionChanged)) :
    Holds (deleteServiceCheck request) := by
  apply h.loadMonitoringAccess
  intro access
  apply h.requireResourceCapability
  apply h.ask
  intro db
  apply h.ask
  intro later
  dsimp only
  split
  · exact h.refused _
  · split
    · exact h.refused _
    · exact hsend _ _ rfl rfl rfl

end Mutations

section Requests

theorem sends_createServiceMonitor (request : CreateServiceMonitor) :
    (createServiceMonitor request).Sends (Offers (.createServiceMonitor request)) := by
  apply passes_sends.createServiceMonitor
  intro workspaceId service check hcompiled _
  exact ⟨.createServiceMonitor request workspaceId service check hcompiled, sends_finish _ _⟩

theorem sends_addServiceCheck (request : AddServiceCheck) :
    (addServiceCheck request).Sends (Offers (.addServiceCheck request)) := by
  apply passes_sends.addServiceCheck
  intro workspaceId check conditions hcompiled _
  exact ⟨.addServiceCheck request workspaceId check conditions hcompiled, sends_finish _ _⟩

theorem sends_sendReplacement {P : Batch → (Option ℕ → Flow) → Prop}
    (request : ReplaceServiceCheckConfiguration) (access : MonitoringAccess) (row : CheckRow)
    (machineId : Option String) (checkName : String) (compiled : CompiledServiceConfig)
    (configBytes : ℕ)
    (hcompiled : request.input.compiled.bind (finalCompiled request row) = .ok compiled)
    (h : ∀ update, Replaces request row update → P (.replaceCheck access.workspaceId update)
      (finish update.capacity "Check configuration changed; reload and try again")) :
    (sendReplacement request access row machineId checkName compiled configBytes).Sends P := by
  apply passes_sends.sendReplacement _ _ _ _ _ _ _ hcompiled
  intro update hreplaces _
  exact ⟨h update hreplaces, sends_finish _ _⟩

theorem sends_replaceServiceCheckConfiguration (request : ReplaceServiceCheckConfiguration) :
    (replaceServiceCheckConfiguration request).Sends
      (Offers (.replaceServiceCheckConfiguration request)) := by
  apply passes_sends.replaceServiceCheckConfiguration
  intro workspaceId row update hreplaces _
  exact ⟨.replaceServiceCheckConfiguration request workspaceId row update hreplaces,
    sends_finish _ _⟩

theorem sends_updateServiceCheckPolicy (request : UpdateServiceCheckPolicy) :
    (updateServiceCheckPolicy request).Sends (Offers (.updateServiceCheckPolicy request)) := by
  apply passes_sends.updateServiceCheckPolicy
  intro workspaceId update _
  exact ⟨.updateServiceCheckPolicy request workspaceId update, sends_finish _ _⟩

theorem sends_deleteServiceCheck (request : DeleteServiceCheck) :
    (deleteServiceCheck request).Sends (Offers (.deleteServiceCheck request)) := by
  apply passes_sends.deleteServiceCheck
  intro workspaceId update hcheck hservice _
  exact ⟨.deleteServiceCheck request workspaceId update hcheck hservice, sends_deletionChanged⟩

theorem sends_softDeleteResource (request : ResourceRequest) :
    (softDeleteResource request).Sends (Offers (.softDeleteResource request)) := by
  apply passes_sends.loadMonitoringAccess
  intro access
  apply passes_sends.requireResourceCapability
  intro db
  dsimp only
  split
  · exact ⟨.softDeleteResource request access.workspaceId _, sends_resourceChanged⟩
  · trivial

theorem sends_restoreResource (request : ResourceRequest) :
    (restoreResource request).Sends (Offers (.restoreResource request)) := by
  apply passes_sends.loadMonitoringAccess
  intro access
  apply passes_sends.requireAdmin
  intro db
  dsimp only
  split
  · split
    · trivial
    · split
      · trivial
      · exact ⟨.restoreResource request access.workspaceId _ _, sends_resourceChanged⟩
  · trivial

theorem sends_finalizeResources {request : FinalizeSoftDeleted} (resourceType : ManagedResourceType)
    (now cutoff : ℤ) (resources : List ResourceRow) (purged : List Bool) {next : Flow}
    (h : next.Sends (Offers (.finalizeSoftDeletedResources request))) :
    (finalizeResources resourceType request.policy now cutoff resources purged next).Sends
      (Offers (.finalizeSoftDeletedResources request)) := by
  induction resources generalizing purged with
  | nil => exact h
  | cons resource rest ih =>
    refine ⟨.claimResource request resourceType resource now cutoff _, fun reply ↦ ?_⟩
    dsimp only
    split
    · split
      · refine ⟨.finalizeControl request resourceType resource.id cutoff _, fun reply ↦ ?_⟩
        dsimp only
        split
        · exact ih _
        · trivial
      · exact ih _
    · exact ih _
    · trivial

theorem sends_finalizeSoftDeletedResources (request : FinalizeSoftDeleted) :
    (finalizeSoftDeletedResources request).Sends
      (Offers (.finalizeSoftDeletedResources request)) := by
  have hdeleted (cutoff : ℤ) : (finalizeDeleted request cutoff).Sends
      (Offers (.finalizeSoftDeletedResources request)) := by
    intro db
    apply sends_finalizeResources
    intro later
    apply sends_finalizeResources
    trivial
  unfold finalizeSoftDeletedResources
  dsimp only
  split
  · refine ⟨.claimWorkspace request _ _ _, fun reply ↦ ?_⟩
    dsimp only
    split
    · exact hdeleted _
    · trivial
    · trivial
  · exact hdeleted _

theorem sends_handle (request : Request) : (handle request).Sends (Offers request) := by
  cases request with
  | createServiceMonitor request => exact sends_createServiceMonitor request
  | addServiceCheck request => exact sends_addServiceCheck request
  | replaceServiceCheckConfiguration request =>
    exact sends_replaceServiceCheckConfiguration request
  | updateServiceCheckPolicy request => exact sends_updateServiceCheckPolicy request
  | deleteServiceCheck request => exact sends_deleteServiceCheck request
  | softDeleteResource request => exact sends_softDeleteResource request
  | restoreResource request => exact sends_restoreResource request
  | finalizeSoftDeletedResources request => exact sends_finalizeSoftDeletedResources request
  | administer workspaces memberships grants machines agents =>
    exact ⟨.administer workspaces memberships grants machines agents, fun _ ↦ trivial⟩

end Requests

end AlphaPing.Monitoring.HandlerBatches
