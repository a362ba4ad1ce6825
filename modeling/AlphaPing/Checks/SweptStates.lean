import AlphaPing.Checks.StaleChecks

/-!
# Every stale state is swept

The steps of the sync worker leave the checks alone. Here are the changes of the configuration, the
finalization and the requests, and with them the runs: as long as only checks without a state are
disabled by the finalization of a machine, and no request outlasts the protection of a job, no
state of a disabled or removed check is left when the jobs and the requests have ended.

The finalization of a machine disables the checks of its agents without a job.
-/

namespace AlphaPing.Checks.StaleChecks

open Library.Tables Library.Runs Ingest.CheckResults StateSync

section Changes

variable {state : Monitoring}

/-! ## Changes of the configuration with a job -/

variable {service : Service}

variable {serviceId : String} {check : CheckConfig} {after : Monitoring}

theorem Sound.service_eq (h : Sound state) (hservice : state.sync.service serviceId = some service)
    {other : Service} (hother : other ∈ state.sync.services.rows) (hid : other.id = serviceId) :
    other = service := by
  obtain ⟨hmem, hserviceId⟩ := Sync.service_some hservice
  exact state.sync.services.unique_id.eq_of_mem hother hmem (hid.trans hserviceId.symm)

theorem Sound.identity (h : Sound state) (hcheck : check ∈ state.sync.checks)
    (hservice : state.sync.service check.serviceId = some service) :
    ⟨check.id, check.telemetryPk, service.workspacePk⟩ ∈ state.identities := by
  obtain ⟨other, hother, hid, hknown⟩ := h.checks check hcheck
  exact h.service_eq hservice hother hid ▸ hknown

theorem Sound.telemetryPk_eq (h : Sound state) {check other : CheckConfig}
    (hcheck : check ∈ state.sync.checks) (hother : other ∈ state.sync.checks)
    (hid : check.id = other.id) : check.telemetryPk = other.telemetryPk := by
  obtain ⟨_, -, -, hknown⟩ := h.checks check hcheck
  obtain ⟨_, -, -, hotherKnown⟩ := h.checks other hother
  exact congrArg Identity.checkPk (h.unique_id.eq_of_mem hknown hotherKnown hid)

theorem active_of_kept {checkPk : ℕ} (hactive : state.active checkPk = true)
    (hpurging : after.purging = state.purging)
    (hkept : ∀ check ∈ state.sync.checks, check.telemetryPk = checkPk → check ∈ after.sync.checks) :
    after.active checkPk = true := by
  obtain ⟨check, hcheck, hmatch⟩ := List.any_eq_true.mp hactive
  have hpk : check.telemetryPk = checkPk := by
    simp only [Bool.and_eq_true, beq_iff_eq] at hmatch
    exact hmatch.1.1
  rw [Monitoring.active, hpurging]
  exact List.any_eq_true.mpr ⟨check, hkept check hcheck hpk, hmatch⟩

theorem Sound.setMaintenance (h : Sound state) (serviceId : String) (maintenanceUntil : Option ℤ)
    (token : String) : Sound (state.withSync
      (StateSync.step state.sync (.setMaintenance serviceId maintenanceUntil token))) := by
  simp only [StateSync.step]
  split
  · exact h
  · next service hservice =>
    split
    · exact h
    · next hdrawn =>
      have hfresh : token ∉ state.sync.drawn := by simpa using hdrawn
      refine h.applyAtOnce (h.queue.setMaintenance hfresh maintenanceUntil) hfresh ?_ ?_
        (fun _ hnone ↦ absurd hnone (Option.not_mem_none _)) (fun _ ↦ rfl) ?_
      · intro check hcheck
        obtain ⟨old, hold, hid, hknown⟩ := h.checks check hcheck
        refine ⟨_, mem_updateWhere_of_mem hold, ?_, ?_⟩
        · split <;> exact hid
        · split <;> exact hknown
      · intro changed hchanged hpurging
        obtain ⟨old, hold, ⟨-, rfl⟩ | ⟨-, rfl⟩⟩ := mem_update _ _ hchanged
        · exact h.purging old hold hpurging
        · exact h.purging changed hold hpurging
      · intro checkPk hactive _
        exact active_of_kept hactive rfl fun check hcheck _ ↦ hcheck

theorem Sound.updateCheck (h : Sound state) {check old : CheckConfig} {token : String}
    (hservice : state.sync.service check.serviceId = some service)
    (hfresh : token ∉ state.sync.drawn) (hold : old ∈ state.sync.checks) (hid : old.id = check.id)
    (hpk : old.telemetryPk = check.telemetryPk) (hof : old.serviceId = check.serviceId) :
    Sound (state.withSync (state.sync.configure service check token)) := by
  have hknown : ⟨check.id, check.telemetryPk, service.workspacePk⟩ ∈ state.identities :=
    hid ▸ hpk ▸ h.identity hold (hof ▸ hservice)
  obtain ⟨hmem, hserviceId⟩ := Sync.service_some hservice
  refine h.applyAtOnce (h.queue.configure service hfresh check) hfresh ?_ h.purging ?_
    (fun hnone ↦ by cases hnone) ?_
  · intro other hother
    rcases List.mem_append.mp hother with hkept | hnew
    · exact h.checks other (List.mem_of_mem_filter hkept)
    · rw [List.mem_singleton.mp hnew]
      exact ⟨service, hmem, hserviceId, hknown⟩
  · intro named hnamed
    obtain rfl := Option.some.inj hnamed
    exact ⟨hknown, rfl, rfl⟩
  · intro checkPk hactive hne
    refine active_of_kept hactive rfl fun other hother hotherPk ↦ ?_
    refine List.mem_append_left _ (List.mem_filter.mpr ⟨hother, ?_⟩)
    refine bne_iff_ne.mpr fun hsame ↦ hne (congrArg some ?_)
    exact (hpk.symm.trans (h.telemetryPk_eq hold hother (hid.trans hsame.symm))).trans hotherPk

theorem Sound.deleteCheck (h : Sound state) {token : String} (hcheck : check ∈ state.sync.checks)
    (hservice : state.sync.service check.serviceId = some service)
    (hfresh : token ∉ state.sync.drawn) : Sound (state.deleteCheck service check token) := by
  refine h.applyAtOnce ?_ hfresh ?_ h.purging ?_ (fun hnone ↦ by cases hnone) ?_
  · exact h.queue.applyAtOnce _ _ hfresh (fun hreason ↦ by cases hreason)
      (fun hreason ↦ by cases hreason) fun _ hmem ↦ .inl hmem
  · exact fun other hother ↦ h.checks other (List.mem_of_mem_filter hother)
  · intro named hnamed
    obtain rfl := Option.some.inj hnamed
    exact ⟨h.identity hcheck hservice, rfl, rfl⟩
  · intro checkPk hactive hne
    refine active_of_kept hactive rfl fun other hother hotherPk ↦ ?_
    refine List.mem_filter.mpr ⟨hother, bne_iff_ne.mpr fun hsame ↦ hne (congrArg some ?_)⟩
    exact (h.telemetryPk_eq hcheck hother hsame.symm).trans hotherPk

/-! ## Changes of the tables without a job -/

theorem queueSound_withServices {sync after : Sync} (h : QueueSound sync)
    (hclock : after.clock = sync.clock) (hjobs : after.jobs = sync.jobs)
    (hdrawn : after.drawn = sync.drawn) (hworkers : after.workers = sync.workers)
    (hservices : ∀ service ∈ after.services.rows, ∃ old ∈ sync.services.rows,
      old.id = service.id ∧ old.maintenanceUntil = service.maintenanceUntil) :
    QueueSound after where
  jobs := by
    refine ⟨hjobs ▸ h.jobs.unique, hjobs ▸ hdrawn ▸ h.jobs.drawn, hjobs ▸ h.jobs.key, ?_⟩
    intro row hrow hreason service hservice hid
    obtain ⟨old, hold, holdId, hmaintenance⟩ := hservices service hservice
    rw [← hmaintenance]
    exact h.jobs.covers row (hjobs ▸ hrow) hreason old hold (holdId.trans hid)
  workers worker hworker := (h.workers worker (hworkers ▸ hworker)).mono hclock.ge
    (hdrawn ▸ List.Subset.refl _) (.of_jobs_eq hjobs)

/-- The tables after a change that leaves the queue alone. -/
structure Reconfigures (state after : Monitoring) : Prop where
  clock : after.sync.clock = state.sync.clock
  jobs : after.sync.jobs = state.sync.jobs
  drawn : after.sync.drawn = state.sync.drawn
  workers : after.sync.workers = state.sync.workers
  services : ∀ service ∈ after.sync.services.rows, ∃ old ∈ state.sync.services.rows,
    old.id = service.id ∧ old.maintenanceUntil = service.maintenanceUntil
  identities : state.identities ⊆ after.identities
  rows : ∀ row ∈ after.sync.checkLatest, row ∈ state.sync.checkLatest ∨
    state.Known row.checkPk row.workspacePk
  requests : ∀ request ∈ after.requests, ∀ assigned ∈ request,
    state.Known assigned.checkPk assigned.workspacePk

theorem Monitoring.Known.mono {checkPk workspacePk : ℕ} (h : state.Known checkPk workspacePk)
    (hsubset : state.identities ⊆ after.identities) :
    after.Known checkPk workspacePk := by
  obtain ⟨checkId, hmem⟩ := h
  exact ⟨checkId, hsubset hmem⟩

theorem Sound.reconfigured (h : Sound state) (hchange : Reconfigures state after)
    (hid : UniqueKey Identity.checkId after.identities)
    (hpk : UniqueKey Identity.checkPk after.identities)
    (hchecks : ∀ check ∈ after.sync.checks, ∃ service ∈ after.sync.services.rows,
      service.id = check.serviceId ∧
        ⟨check.id, check.telemetryPk, service.workspacePk⟩ ∈ after.identities)
    (hpurging : ∀ service ∈ after.sync.services.rows, service.id ∈ after.purging →
      service.deleted = true)
    (hcovered : ∀ row ∈ after.sync.checkLatest, after.active row.checkPk = false →
      Covered state.sync row.checkPk) : Sound after where
  queue := queueSound_withServices h.queue hchange.clock hchange.jobs hchange.drawn hchange.workers
    hchange.services
  unique_id := hid
  unique_pk := hpk
  checks := hchecks
  rows row hrow := by
    rcases hchange.rows row hrow with hold | hknown
    · exact (h.rows row hold).mono hchange.identities
    · exact hknown.mono hchange.identities
  requests request hrequest assigned hassigned :=
    (hchange.requests request hrequest assigned hassigned).mono hchange.identities
  jobs job hjob check hcheck := by
    obtain ⟨hknown, hkey⟩ := h.jobs job (hchange.jobs ▸ hjob) check hcheck
    exact ⟨hchange.identities hknown, hkey⟩
  copies worker hworker copy hcopy job hjob :=
    h.copies worker (hchange.workers ▸ hworker) copy hcopy job (hchange.jobs ▸ hjob)
  purging := hpurging
  covered row hrow hinactive :=
    (hcovered row hrow hinactive).congr hchange.jobs hchange.workers

theorem Sound.covered_of_active (h : Sound state) {row : CheckStateRow}
    (hrow : row ∈ state.sync.checkLatest)
    (hactive : state.active row.checkPk = true → Covered state.sync row.checkPk) :
    Covered state.sync row.checkPk := by
  cases hbefore : state.active row.checkPk with
  | false => exact h.covered row hrow hbefore
  | true => exact hactive hbefore

theorem Sound.updateService (h : Sound state) (serviceId : String) {deleted : Bool}
    (hrestore : deleted = false → serviceId ∉ state.purging) :
    Sound (state.updateService serviceId deleted) := by
  refine h.reconfigured ⟨rfl, rfl, rfl, rfl, ?_, List.Subset.refl _, fun _ ↦ .inl, h.requests⟩
    h.unique_id h.unique_pk ?_ ?_ fun row hrow hinactive ↦ h.covered row hrow hinactive
  · intro service hservice
    obtain ⟨old, hold, ⟨-, rfl⟩ | ⟨-, rfl⟩⟩ := mem_updateWhere.mp hservice
    · exact ⟨old, hold, rfl, rfl⟩
    · exact ⟨service, hold, rfl, rfl⟩
  · intro check hcheck
    obtain ⟨old, hold, hid, hknown⟩ := h.checks check hcheck
    refine ⟨_, mem_updateWhere_of_mem hold, ?_, ?_⟩
    · split <;> exact hid
    · split <;> exact hknown
  · intro service hservice hpurging
    obtain ⟨old, hold, ⟨hid, rfl⟩ | ⟨-, rfl⟩⟩ := mem_updateWhere.mp hservice
    · cases deleted with
      | true => rfl
      | false =>
        have heq : old.id = serviceId := by simpa using hid
        exact absurd (heq ▸ hpurging) (hrestore rfl)
    · exact h.purging service hold hpurging

theorem Sound.addCheck (h : Sound state)
    (hservice : state.sync.service check.serviceId = some service)
    (hfresh : ∀ identity ∈ state.identities,
      identity.checkId ≠ check.id ∧ identity.checkPk ≠ check.telemetryPk)
    (executorAgentId : Option String) : Sound (state.addCheck service check executorAgentId) := by
  obtain ⟨hmem, hserviceId⟩ := Sync.service_some hservice
  refine h.reconfigured ⟨rfl, rfl, rfl, rfl, fun other hother ↦ ⟨other, hother, rfl, rfl⟩,
    List.subset_append_left _ _, fun _ ↦ .inl, h.requests⟩ ?_ ?_ ?_ h.purging ?_
  · exact uniqueKey_append_singleton h.unique_id fun identity hidentity ↦
      (hfresh identity hidentity).1
  · exact uniqueKey_append_singleton h.unique_pk fun identity hidentity ↦
      (hfresh identity hidentity).2
  · intro other hother
    rcases List.mem_append.mp hother with hold | hnew
    · obtain ⟨of, hof, hid, hknown⟩ := h.checks other hold
      exact ⟨of, hof, hid, List.mem_append_left _ hknown⟩
    · rw [List.mem_singleton.mp hnew]
      exact ⟨service, hmem, hserviceId, List.mem_append_right _ (List.mem_singleton_self _)⟩
  · intro row hrow hinactive
    refine h.covered_of_active hrow fun hactive ↦ ?_
    have hstill : (state.addCheck service check executorAgentId).active row.checkPk = true :=
      active_of_kept hactive rfl fun other hother _ ↦ List.mem_append_left _ hother
    exact absurd (hinactive.symm.trans hstill) Bool.false_ne_true

/-! ## Finalization -/

theorem covered_of_protectedKey (h : Sound state) {checkPk : ℕ}
    (hprotected : state.protected checkPk = true) : Covered state.sync checkPk := by
  obtain ⟨job, hjob, hmatch⟩ := List.any_eq_true.mp hprotected
  simp only [Bool.and_eq_true, decide_eq_true_eq, Option.any_eq_true, beq_iff_eq] at hmatch
  obtain ⟨⟨check, hcheck, rfl⟩, hprotect⟩ := hmatch
  exact covered_of_protected h.queue hjob (show job.check = some (check.1, check.2) from hcheck) hprotect

theorem Sound.finalizeMachine (h : Sound state) {machineId : String}
    (hcareful : Careful state (.finalizeMachine machineId)) :
    Sound (state.finalizeMachine machineId) := by
  refine h.reconfigured ⟨rfl, rfl, rfl, rfl, fun other hother ↦ ⟨other, hother, rfl, rfl⟩,
    List.Subset.refl _, fun _ ↦ .inl, h.requests⟩ h.unique_id h.unique_pk ?_ h.purging ?_
  · intro check hcheck
    obtain ⟨old, hold, ⟨-, rfl⟩ | ⟨-, rfl⟩⟩ := mem_updateWhere.mp hcheck
    · exact h.checks old hold
    · exact h.checks check hold
  · intro row hrow hinactive
    refine h.covered_of_active hrow fun hactive ↦ ?_
    obtain ⟨check, hcheck, hof⟩ := List.any_eq_true.mp hactive
    have hmatch := hof
    simp only [Bool.and_eq_true, beq_iff_eq] at hmatch
    have hexecuted : state.executedBy machineId check.id = true := by
      by_contra hnot
      have hkept : check ∈ (state.finalizeMachine machineId).sync.checks :=
        mem_updateWhere_of_not hcheck (Bool.eq_false_iff.mpr hnot)
      have hstill : (state.finalizeMachine machineId).active row.checkPk = true :=
        List.any_eq_true.mpr ⟨check, hkept, hof⟩
      exact Bool.false_ne_true (hinactive.symm.trans hstill)
    rcases hcareful check hcheck hmatch.1.2 hexecuted with hnone | hprotected
    · exact absurd hmatch.1.1.symm (hnone row hrow)
    · exact hmatch.1.1 ▸ covered_of_protectedKey h hprotected

theorem Monitoring.serviceRow_some (h : state.serviceRow serviceId = some service) :
    service ∈ state.sync.services.rows ∧ service.id = serviceId :=
  ⟨List.mem_of_find?_eq_some h, by simpa using List.find?_some h⟩

theorem Sound.purge (h : Sound state) (hservice : service ∈ state.sync.services.rows)
    (hdeleted : service.deleted = true) :
    Sound (state.purge service) := by
  refine h.reconfigured ⟨rfl, rfl, rfl, rfl, fun other hother ↦ ⟨other, hother, rfl, rfl⟩,
    List.Subset.refl _, fun row hrow ↦ .inl (List.mem_of_mem_filter hrow), h.requests⟩
    h.unique_id h.unique_pk h.checks ?_ ?_
  · intro other hother hpurging
    rcases List.mem_cons.mp hpurging with hid | hold
    · exact state.sync.services.unique_id.eq_of_mem hother hservice hid ▸ hdeleted
    · exact h.purging other hother hold
  · intro row hrow hinactive
    obtain ⟨hmem, hkept⟩ := List.mem_filter.mp hrow
    refine h.covered_of_active hmem fun hactive ↦ ?_
    exfalso
    obtain ⟨check, hcheck, hmatch⟩ := List.any_eq_true.mp hactive
    simp only [Bool.and_eq_true, beq_iff_eq, Bool.not_eq_true', List.contains_eq_mem,
      decide_eq_false_iff_not] at hmatch
    have hof : check.serviceId = service.id := by
      by_contra hne
      have hstill : (state.purge service).active row.checkPk = true :=
        List.any_eq_true.mpr ⟨check, hcheck, by
          simpa [Monitoring.purge, hmatch.1.1, hmatch.1.2, hne] using hmatch.2⟩
      exact Bool.false_ne_true (hinactive.symm.trans hstill)
    obtain ⟨other, hother, hid, hknown⟩ := h.checks check hcheck
    obtain rfl := state.sync.services.unique_id.eq_of_mem hother hservice (hid.trans hof)
    have hworkspace : row.workspacePk = other.workspacePk :=
      h.workspace_unique (h.rows row hmem) ⟨check.id, hmatch.1.1 ▸ hknown⟩
    have hofService : check ∈ state.checksOf other.id :=
      List.mem_filter.mpr ⟨hcheck, beq_iff_eq.mpr hof⟩
    have hany : (state.checksOf other.id).any
        (fun check ↦ check.telemetryPk == row.checkPk) = true :=
      List.any_eq_true.mpr ⟨check, hofService, beq_iff_eq.mpr hmatch.1.1⟩
    simp [hworkspace, hany] at hkept

theorem Sound.finalizeService (h : Sound state) (hpurging : serviceId ∈ state.purging) :
    Sound (state.finalizeService serviceId) := by
  refine h.reconfigured ⟨rfl, rfl, rfl, rfl, ?_, List.Subset.refl _, fun _ ↦ .inl, h.requests⟩
    h.unique_id h.unique_pk ?_ ?_ ?_
  · exact fun service hservice ↦ ⟨service, List.mem_of_mem_filter hservice, rfl, rfl⟩
  · intro check hcheck
    obtain ⟨hmem, hother⟩ := List.mem_filter.mp hcheck
    obtain ⟨service, hservice, hid, hknown⟩ := h.checks check hmem
    exact ⟨service, List.mem_filter.mpr ⟨hservice, hid ▸ hother⟩, hid, hknown⟩
  · exact fun service hservice ↦ h.purging service (List.mem_of_mem_filter hservice)
  · intro row hrow hinactive
    refine h.covered_of_active hrow fun hactive ↦ ?_
    obtain ⟨check, hcheck, hmatch⟩ := List.any_eq_true.mp hactive
    have hne : check.serviceId ≠ serviceId := by
      rintro rfl
      simp [hpurging] at hmatch
    have hkept : check ∈ (state.finalizeService serviceId).sync.checks :=
      List.mem_filter.mpr ⟨hcheck, bne_iff_ne.mpr hne⟩
    have hstill : (state.finalizeService serviceId).active row.checkPk = true :=
      List.any_eq_true.mpr ⟨check, hkept, hmatch⟩
    exact absurd (hinactive.symm.trans hstill) Bool.false_ne_true

/-! ## Requests -/

theorem Sound.known_of_assigned (h : Sound state) {agentId : Option String} {checkId : String}
    {assigned : Assigned} (hassigned : state.assigned agentId checkId = some assigned) :
    state.Known assigned.checkPk assigned.workspacePk := by
  obtain ⟨check, hcheck, hassigned⟩ := Option.bind_eq_some_iff.mp hassigned
  obtain ⟨service, hservice, hassigned⟩ := Option.bind_eq_some_iff.mp hassigned
  obtain ⟨hmem, hserviceId⟩ := Monitoring.serviceRow_some hservice
  obtain ⟨other, hother, hid, hknown⟩ := h.checks check (List.mem_of_find?_eq_some hcheck)
  obtain rfl := state.sync.services.unique_id.eq_of_mem hother hmem (hid.trans hserviceId.symm)
  split at hassigned
  · cases hassigned
  · obtain rfl := Option.some.inj hassigned
    exact ⟨check.id, hknown⟩

theorem mem_mapM {Value Result : Type} {f : Value → Option Result} {values : List Value}
    {results : List Result} (h : values.mapM f = some results) {result : Result}
    (hresult : result ∈ results) : ∃ value ∈ values, f value = some result := by
  induction values generalizing results with
  | nil =>
    rw [List.mapM_nil] at h
    obtain rfl := Option.some.inj h
    exact absurd hresult List.not_mem_nil
  | cons head tail ih =>
    rw [List.mapM_cons] at h
    obtain ⟨first, hfirst, h⟩ := Option.bind_eq_some_iff.mp h
    obtain ⟨rest, hrest, h⟩ := Option.bind_eq_some_iff.mp h
    obtain rfl := Option.some.inj h
    rcases List.mem_cons.mp hresult with rfl | hmem
    · exact ⟨head, List.mem_cons_self, hfirst⟩
    · obtain ⟨value, hvalue, hof⟩ := ih hrest hmem
      exact ⟨value, List.mem_cons_of_mem _ hvalue, hof⟩

theorem Sound.withRequests (h : Sound state) {requests : List (List Assigned)}
    (hrequests : ∀ request ∈ requests, ∀ assigned ∈ request,
      state.Known assigned.checkPk assigned.workspacePk) : Sound { state with requests } :=
  h.reconfigured ⟨rfl, rfl, rfl, rfl, fun other hother ↦ ⟨other, hother, rfl, rfl⟩,
    List.Subset.refl _, fun _ ↦ .inl, hrequests⟩ h.unique_id h.unique_pk h.checks h.purging
    h.covered

theorem Sound.write (h : Sound state) {request checkPk : ℕ} {assigned : Assigned}
    (hassigned : state.assignedOf request checkPk = some assigned)
    (hcareful : state.active checkPk = true ∨ state.protected checkPk = true)
    (result : ResultState) (configRevision : ℕ) (newer : Bool) :
    Sound (state.write (assigned.row result configRevision) newer) := by
  obtain ⟨found, hfound, hassigned⟩ := Option.bind_eq_some_iff.mp hassigned
  have hknown : state.Known assigned.checkPk assigned.workspacePk :=
    h.requests found (List.mem_of_getElem? hfound) assigned (List.mem_of_find?_eq_some hassigned)
  obtain rfl : assigned.checkPk = checkPk := by simpa using List.find?_some hassigned
  have hrows : ∀ row ∈ (state.write (assigned.row result configRevision) newer).sync.checkLatest,
      row ∈ state.sync.checkLatest ∨ row = assigned.row result configRevision := by
    intro row hrow
    rcases mem_upsert hrow with hold | rfl | ⟨-, -, -, rfl⟩
    · exact .inl hold
    · exact .inr rfl
    · exact .inr rfl
  refine h.reconfigured ⟨rfl, rfl, rfl, rfl, fun other hother ↦ ⟨other, hother, rfl, rfl⟩,
    List.Subset.refl _, ?_, h.requests⟩ h.unique_id h.unique_pk h.checks h.purging ?_
  · intro row hrow
    rcases hrows row hrow with hold | rfl
    · exact .inl hold
    · exact .inr hknown
  · intro row hrow hinactive
    rcases hrows row hrow with hold | rfl
    · exact h.covered row hold hinactive
    · have hcovered := hcareful.resolve_left fun hactive ↦
        Bool.false_ne_true (hinactive.symm.trans hactive)
      exact covered_of_protectedKey h hcovered

/-! ## Runs -/

theorem Sound.step (h : Sound state) (operation : Operation)
    (hcareful : Careful state operation) : Sound (step state operation) := by
  cases operation with
  | tick milliseconds => exact h.tick milliseconds
  | setMaintenance serviceId maintenanceUntil token =>
    exact h.setMaintenance serviceId maintenanceUntil token
  | deleteService serviceId => exact h.updateService serviceId fun hdeleted ↦ by cases hdeleted
  | restoreService serviceId =>
    simp only [StaleChecks.step]
    split
    · exact h
    · next hpurging => exact h.updateService serviceId fun _ ↦ by simpa using hpurging
  | registerAgent agentId machineId =>
    exact ⟨h.queue, h.unique_id, h.unique_pk, h.checks, h.rows, h.requests, h.jobs, h.copies,
      h.purging, h.covered⟩
  | addCheck check executorAgentId =>
    simp only [StaleChecks.step]
    split
    · exact h
    · next service hservice =>
      split
      · next hguard =>
        refine h.addCheck hservice (fun identity hidentity ↦ ?_) executorAgentId
        simp only [Bool.and_eq_true] at hguard
        simpa using List.all_eq_true.mp hguard.2 identity hidentity
      · exact h
  | updateCheck check token =>
    simp only [StaleChecks.step]
    split
    · exact h
    · next service hservice =>
      split
      · next hguard =>
        simp only [Bool.and_eq_true, Bool.not_eq_true', List.any_eq_true, beq_iff_eq] at hguard
        obtain ⟨⟨⟨old, hold, hmatch⟩, -⟩, hdrawn⟩ := hguard
        exact h.updateCheck hservice (by simpa using hdrawn) hold hmatch.1.1.1.1 hmatch.1.1.1.2
          hmatch.1.1.2
      · exact h
  | deleteCheck checkId token =>
    simp only [StaleChecks.step]
    split
    · exact h
    · next check hcheck =>
      split
      · exact h
      · next service hservice =>
        split
        · next hguard =>
          simp only [Bool.and_eq_true, Bool.not_eq_true'] at hguard
          exact h.deleteCheck (List.mem_of_find?_eq_some hcheck) hservice
            (by simpa using hguard.2)
        · exact h
  | finalizeMachine machineId => exact h.finalizeMachine hcareful
  | purgeService serviceId =>
    simp only [StaleChecks.step]
    split
    · exact h
    · next service hservice =>
      split
      · next hdeleted => exact h.purge (Monitoring.serviceRow_some hservice).1 hdeleted
      · exact h
  | finalizeService serviceId =>
    simp only [StaleChecks.step]
    split
    · next hpurging => exact h.finalizeService (by simpa using hpurging)
    · exact h
  | read agentId checkIds =>
    simp only [StaleChecks.step]
    split
    · exact h
    · next assigned hassigned =>
      refine h.withRequests fun request hrequest check hcheck ↦ ?_
      rcases List.mem_append.mp hrequest with hold | hnew
      · exact h.requests request hold check hcheck
      · rw [List.mem_singleton.mp hnew] at hcheck
        obtain ⟨checkId, -, hof⟩ := mem_mapM hassigned hcheck
        exact h.known_of_assigned hof
  | write request checkPk result configRevision newer =>
    simp only [StaleChecks.step]
    split
    · exact h
    · next assigned hassigned =>
      have hcondition := hcareful (by rw [hassigned]; rfl)
      exact h.write hassigned hcondition result configRevision newer
  | finish request =>
    refine h.withRequests fun other hother ↦ h.requests other ?_
    exact (List.eraseIdx_sublist _ _).mem hother
  | begin batch => exact h.begin batch
  | advance worker => exact h.advance worker
  | fail worker => exact h.fail worker
  | crash worker => exact h.crash worker

theorem sound_start (clock : ℤ) (services : Services) : Sound (start clock services) where
  queue := queueSound_start clock services [] []
  unique_id := uniqueKey_nil
  unique_pk := uniqueKey_nil
  checks _ h := by cases h
  rows _ h := by cases h
  requests _ h := by cases h
  jobs _ h := by cases h
  copies _ h := by cases h
  purging _ _ h := by cases h
  covered _ h := by cases h

end Changes

def probedService : Service where
  id := "service"
  workspaceId := "workspace"
  workspacePk := 1
  telemetryPk := 7
  maintenanceUntil := none
  deleted := false

def probedServices : Services where
  rows := [probedService]
  unique_id := List.nodup_singleton _
  unique_pk := List.nodup_singleton _

def agentCheck (id : String) (telemetryPk : ℕ) (enabled : Bool) : CheckConfig where
  id := id
  workspaceId := "workspace"
  serviceId := "service"
  telemetryPk := telemetryPk
  enabled := enabled
  critical := true
  cloudflare := false
  configRevision := 0

/-- The machine of the agent is finalized after its check has reported a failure. -/
def finalizedMachine : List Operation :=
  [.registerAgent "agent" "machine", .addCheck (agentCheck "check" 9 true) (some "agent"),
    .read (some "agent") ["check"], .write 0 9 .down 0 true, .finish 0, .finalizeMachine "machine"]

/-- The check is disabled, its last result stays, and no job will delete it. -/
theorem finalizedMachine_not_swept :
    ¬ Visits step Swept (start 0 probedServices) finalizedMachine := by
  intro h
  have hswept := visits_run h
  have hquiet : (run step (start 0 probedServices) finalizedMachine).quiet = true := by
    decide +kernel
  have hrow : (⟨9, 1, 7, .down, true, 0⟩ : CheckStateRow) ∈
      (run step (start 0 probedServices) finalizedMachine).sync.checkLatest := by
    decide +kernel
  have hsupported := hswept hquiet _ hrow
  revert hsupported
  decide +kernel

/-- In a run in which the finalization of machines disables no check with a state, and late results
come while a job for their check is protected, no state of a disabled or removed check is left in
any state without jobs and requests. -/
theorem visits_swept (clock : ℤ) (services : Services) (operations : List Operation)
    (h : Along step Careful (start clock services) operations) :
    Visits step Swept (start clock services) operations :=
  visits_mono (fun _ hsound ↦ hsound.swept)
    (visits_of_along (fun _ operation hsound ↦ hsound.step operation)
      (sound_start clock services) h)

/-- A check is disabled while a report is in progress; the row that the report writes is deleted by
the pass after the protection. -/
def lateResult : List Operation :=
  [.registerAgent "agent" "machine", .addCheck (agentCheck "check" 9 true) (some "agent"),
    .addCheck (agentCheck "other" 10 true) (some "agent"), .read (some "agent") ["check"],
    .updateCheck (agentCheck "check" 9 false) "token", .advance 0, .advance 0, .advance 0,
    .advance 0, .advance 0, .advance 0, .write 0 9 .down 0 true, .finish 0, .tick 900000,
    .begin 50, .advance 1, .advance 1, .advance 1, .advance 1, .advance 1, .advance 1]

theorem visits_swept_lateResult :
    Visits step Swept (start 0 probedServices) lateResult ∧
      (run step (start 0 probedServices) lateResult).quiet = true ∧
      (run step (start 0 probedServices) lateResult).sync.checkLatest = [] :=
  ⟨visits_swept 0 probedServices lateResult (by decide +kernel), by decide +kernel,
    by decide +kernel⟩

end AlphaPing.Checks.StaleChecks
