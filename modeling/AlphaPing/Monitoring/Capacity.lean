import AlphaPing.Monitoring.HandlerBatches

/-!
# The capacity of agents

Every batch that adds a check to an agent, or makes one of its checks larger, repeats the capacity
condition on the checks as they are then. A replacement also insists on the revision of the row
that it has read. The batch of a policy does not: it enables the check with the size that the
handler read before, and a replacement of the disabled check, which enforces no capacity, may have
made it larger in the meantime.
-/

namespace AlphaPing.Monitoring.Capacity

open Library.Runs Library.Tables Library.Workflows Control ServiceConfig Handlers HandlerBatches

/-! ## The sums -/

/-- The enabled checks that are assigned to an agent. -/
def agentChecks (checks : List CheckRow) (agentId : String) : List CheckRow :=
  checks.filter fun check ↦ check.runsOn agentId

/-- No agent has more than it may have. -/
structure WithinCapacity (db : ControlDb) : Prop where
  checks : ∀ agentId, (agentChecks db.checks agentId).length ≤ maxAgentChecks
  bytes : ∀ agentId,
    ((agentChecks db.checks agentId).map CheckRow.configBytes).sum ≤ maxAgentConfigBytes

def share (agentId : String) (size : CheckRow → ℕ) (check : CheckRow) : ℕ :=
  if check.runsOn agentId then size check else 0

def load (checks : List CheckRow) (agentId : String) (size : CheckRow → ℕ) : ℕ :=
  (checks.map (share agentId size)).sum

variable (checks : List CheckRow)

theorem sum_agentChecks (agentId : String) (size : CheckRow → ℕ) :
    ((agentChecks checks agentId).map size).sum = load checks agentId size :=
  sum_map_filter _ _ _

theorem length_agentChecks (agentId : String) :
    (agentChecks checks agentId).length = load checks agentId fun _ ↦ 1 := by
  rw [← sum_agentChecks]
  simp

variable {db : ControlDb} {before after : ControlDb}

theorem withinCapacity_iff :
    WithinCapacity db ↔ ∀ agentId, load db.checks agentId (fun _ ↦ 1) ≤ maxAgentChecks ∧
      load db.checks agentId CheckRow.configBytes ≤ maxAgentConfigBytes := by
  constructor
  · intro h agentId
    rw [← length_agentChecks, ← sum_agentChecks]
    exact ⟨h.checks agentId, h.bytes agentId⟩
  · intro h
    refine ⟨fun agentId ↦ ?_, fun agentId ↦ ?_⟩
    · rw [length_agentChecks]
      exact (h agentId).1
    · rw [sum_agentChecks]
      exact (h agentId).2

theorem runsOn_iff {check : CheckRow} {agentId : String} :
    check.runsOn agentId = true ↔
      check.executorAgentId = some agentId ∧ check.enabled = true := by
  rw [CheckRow.runsOn, Bool.and_eq_true]
  exact and_congr_left fun _ ↦ decide_eq_true_iff

theorem share_of_not_runsOn {agentId : String} {size : CheckRow → ℕ} {check : CheckRow}
    (h : check.runsOn agentId = false) : share agentId size check = 0 := by
  rw [share, if_neg (by simp [h])]

theorem share_le (agentId : String) (size : CheckRow → ℕ) (check : CheckRow) :
    share agentId size check ≤ size check := by
  rw [share]
  split
  · exact le_rfl
  · exact Nat.zero_le _

theorem load_of_agentCapacity {input : AgentCapacityInput} (h : db.agentCapacity input = true)
    (henforce : input.enforce = true) :
    load (db.checks.filter fun check ↦ some check.id != input.excludedCheckId) input.agentId
        (fun _ ↦ 1) < maxAgentChecks ∧
      load (db.checks.filter fun check ↦ some check.id != input.excludedCheckId) input.agentId
        CheckRow.configBytes + input.configBytes ≤ maxAgentConfigBytes := by
  simp only [ControlDb.agentCapacity, henforce, Bool.not_true, Bool.false_or, Bool.and_eq_true,
    decide_eq_true_eq] at h
  have hfilter : (agentChecks (db.checks.filter fun check ↦
      some check.id != input.excludedCheckId) input.agentId) = db.checks.filter fun check ↦
        check.runsOn input.agentId && some check.id != input.excludedCheckId := by
    rw [agentChecks, List.filter_filter]
  have hall : db.capacityRows input = agentChecks (db.checks.filter fun check ↦
      some check.id != input.excludedCheckId) input.agentId := by
    rw [hfilter, ControlDb.capacityRows, List.take_of_length_le]
    have hlength := h.1
    rw [ControlDb.capacityRows, List.length_take] at hlength
    omega
  rw [hall, length_agentChecks, sum_agentChecks] at h
  exact h

theorem load_filter_le (kind : CheckRow → Bool) (checks : List CheckRow) (agentId : String)
    (size : CheckRow → ℕ) : load (checks.filter kind) agentId size ≤ load checks agentId size := by
  induction checks with
  | nil => exact le_rfl
  | cons head tail ih =>
    simp only [load, List.map_cons, List.sum_cons] at ih ⊢
    cases hkind : kind head with
    | true =>
      rw [List.filter_cons_of_pos hkind, List.map_cons, List.sum_cons]
      exact Nat.add_le_add_left ih _
    | false =>
      rw [List.filter_cons_of_neg (by simp [hkind])]
      exact ih.trans (Nat.le_add_left _ _)

theorem load_append (check : CheckRow) (agentId : String) (size : CheckRow → ℕ) :
    load (checks ++ [check]) agentId size = load checks agentId size + share agentId size check := by
  rw [load, load, List.map_append, List.sum_append, List.map_singleton, List.sum_singleton]

theorem load_update_le {checks : List CheckRow} (hunique : UniqueKey CheckRow.id checks)
    {row : CheckRow} (hrow : row ∈ checks) {condition : CheckRow → Bool}
    (hcondition : condition row = true)
    (hkey : ∀ other, condition other = true → other.id = row.id) (change : CheckRow → CheckRow)
    {agentId : String} {size : CheckRow → ℕ} {bound : ℕ}
    (hbefore : load checks agentId size ≤ bound)
    (hgrow : (change row).runsOn agentId = true →
      (row.runsOn agentId = true ∧ size (change row) ≤ size row) ∨
        load (checks.filter fun other ↦ other.id ≠ row.id) agentId size + size (change row) ≤
          bound) :
    load (updateWhere condition change checks) agentId size ≤ bound := by
  cases hruns : (change row).runsOn agentId with
  | false =>
    rw [load, hunique.sum_updateWhere hrow hcondition hkey, share_of_not_runsOn hruns,
      Nat.add_zero]
    exact (load_filter_le _ checks agentId size).trans hbefore
  | true =>
    rcases hgrow hruns with ⟨hran, hsize⟩ | hroom
    · refine (sum_updateWhere_le fun other hother htrue ↦ ?_).trans hbefore
      obtain rfl : other = row := hunique.eq_of_mem hother hrow (hkey other htrue)
      rw [share, share, if_pos hruns, if_pos hran]
      exact hsize
    · rw [load, hunique.sum_updateWhere hrow hcondition hkey]
      exact (Nat.add_le_add_left (share_le agentId size (change row)) _).trans hroom

theorem filter_excluded_none : (checks.filter fun check ↦ some check.id != none) = checks :=
  List.filter_eq_self.mpr fun _ _ ↦ rfl

theorem filter_excluded_some (checkId : String) :
    (checks.filter fun check ↦ some check.id != some checkId) =
      checks.filter fun check ↦ check.id ≠ checkId :=
  List.filter_congr fun check _ ↦ by simp [bne, beq_eq_decide]

/-! ## What the other handlers leave of a row -/

/-- What becomes of a check: its executor stays or is taken away, and whoever changes it counts
its revision up. -/
structure Follows (old new : CheckRow) : Prop where
  id : new.id = old.id
  kind : new.executorKind = old.executorKind
  agent : new.executorAgentId = old.executorAgentId ∨ new.executorAgentId = none
  revision : old.configRevision ≤ new.configRevision
  same : new.configRevision = old.configRevision → new.enabled = old.enabled

theorem Follows.refl (check : CheckRow) : Follows check check :=
  ⟨rfl, rfl, .inl rfl, le_rfl, fun _ ↦ rfl⟩

theorem Follows.trans {first second third : CheckRow} (h : Follows first second)
    (h' : Follows second third) : Follows first third where
  id := h'.id.trans h.id
  kind := h'.kind.trans h.kind
  agent := by
    rcases h'.agent with hsecond | hnone
    · rcases h.agent with hfirst | hnone
      · exact .inl (hsecond.trans hfirst)
      · exact .inr (hsecond.trans hnone)
    · exact .inr hnone
  revision := h.revision.trans h'.revision
  same := by
    intro heq
    have hfirst := h.revision
    have hsecond := h'.revision
    rw [h'.same (by omega), h.same (by omega)]

/-- The identifier is in use, or was. -/
def Known (db : ControlDb) (id : String) : Prop :=
  id ∈ db.checks.map CheckRow.id ∨ id ∈ db.retired

/-- Checks change as `Follows` allows, and an identifier never comes back. -/
structure Continues (before after : ControlDb) : Prop where
  known : ∀ id, Known before id → Known after id
  follows : ∀ check ∈ after.checks, Known before check.id → ∃ old ∈ before.checks,
    Follows old check

theorem known_of_mem {check : CheckRow} (h : check ∈ db.checks) : Known db check.id :=
  .inl (List.mem_map_of_mem h)

theorem Continues.refl (db : ControlDb) : Continues db db :=
  ⟨fun _ ↦ id, fun check hcheck _ ↦ ⟨check, hcheck, Follows.refl check⟩⟩

theorem Continues.trans {first second third : ControlDb} (h : Continues first second)
    (h' : Continues second third) : Continues first third := by
  refine ⟨fun id hid ↦ h'.known id (h.known id hid), fun check hcheck hknown ↦ ?_⟩
  obtain ⟨middle, hmiddle, hlast⟩ := h'.follows check hcheck (h.known _ hknown)
  obtain ⟨old, hold, hfirst⟩ := h.follows middle hmiddle (hlast.id ▸ hknown)
  exact ⟨old, hold, hfirst.trans hlast⟩

/-- Whatever has the identifier of the row that was read has become of that row. -/
structure Tracks (row : CheckRow) (db : ControlDb) : Prop where
  known : Known db row.id
  follows : ∀ check ∈ db.checks, check.id = row.id → Follows row check

theorem tracks_of_mem (hunique : UniqueKey CheckRow.id db.checks) {row : CheckRow}
    (hrow : row ∈ db.checks) : Tracks row db := by
  refine ⟨known_of_mem hrow, fun check hcheck heq ↦ ?_⟩
  rw [hunique.eq_of_mem hcheck hrow heq]
  exact Follows.refl row

theorem Tracks.later {row : CheckRow} (h : Tracks row before) (hcontinues : Continues before after)
    : Tracks row after := by
  refine ⟨hcontinues.known _ h.known, fun check hcheck heq ↦ ?_⟩
  obtain ⟨old, hold, hfollows⟩ := hcontinues.follows check hcheck (heq ▸ h.known)
  exact (h.follows old hold (hfollows.id.symm.trans heq)).trans hfollows

/-! ## The steps of the table of checks -/

structure Inv (db : ControlDb) : Prop where
  within : WithinCapacity db
  unique : UniqueKey CheckRow.id db.checks
  cloudflare : ∀ check ∈ db.checks, check.executorKind = .cloudflare →
    check.executorAgentId = none

/-- What a batch does to the table of checks. -/
inductive ChecksStep (before after : ControlDb) : Prop
  | same (checks : after.checks = before.checks) (retired : after.retired = before.retired)
  | inserted (row : CheckRow) (fresh : ¬ Known before row.id)
      (cloudflare : row.executorKind = .cloudflare → row.executorAgentId = none)
      (checks : after.checks = before.checks ++ [row]) (retired : after.retired = before.retired)
  | updated (condition : CheckRow → Bool) (change : CheckRow → CheckRow)
      (follows : ∀ check, Follows check (change check))
      (checks : after.checks = updateWhere condition change before.checks)
      (retired : after.retired = before.retired)
  | deleted (condition : CheckRow → Bool)
      (checks : after.checks = before.checks.filter fun check ↦ !condition check)
      (retired : after.retired = (before.checks.filter condition).map CheckRow.id ++
        before.retired)

theorem ChecksStep.continues (h : ChecksStep before after) : Continues before after := by
  cases h with
  | same hchecks hretired =>
    refine ⟨fun id hid ↦ by rwa [Known, hchecks, hretired], fun check hcheck _ ↦ ?_⟩
    exact ⟨check, hchecks ▸ hcheck, Follows.refl check⟩
  | inserted row hfresh _ hchecks hretired =>
    refine ⟨fun id hid ↦ ?_, fun check hcheck hknown ↦ ?_⟩
    · rw [Known, hchecks, hretired, List.map_append]
      exact hid.imp_left (List.mem_append_left _)
    · rw [hchecks] at hcheck
      rcases List.mem_append.mp hcheck with hold | hnew
      · exact ⟨check, hold, Follows.refl check⟩
      · rw [List.mem_singleton.mp hnew] at hknown
        exact absurd hknown hfresh
  | updated condition change hfollows hchecks hretired =>
    refine ⟨fun id hid ↦ ?_, fun check hcheck _ ↦ ?_⟩
    · rw [Known, hchecks, hretired, map_updateWhere fun old ↦ (hfollows old).id]
      exact hid
    · rw [hchecks] at hcheck
      obtain ⟨old, hold, ⟨-, rfl⟩ | ⟨-, rfl⟩⟩ := mem_updateWhere.mp hcheck
      · exact ⟨old, hold, hfollows old⟩
      · exact ⟨check, hold, Follows.refl check⟩
  | deleted condition hchecks hretired =>
    refine ⟨fun id hid ↦ ?_, fun check hcheck _ ↦ ?_⟩
    · rw [Known, hchecks, hretired]
      rcases hid with hpresent | hgone
      · obtain ⟨check, hcheck, rfl⟩ := List.mem_map.mp hpresent
        cases hcondition : condition check with
        | true =>
          exact .inr (List.mem_append_left _ (List.mem_map_of_mem
            (List.mem_filter.mpr ⟨hcheck, hcondition⟩)))
        | false =>
          exact .inl (List.mem_map_of_mem (List.mem_filter.mpr ⟨hcheck, by simp [hcondition]⟩))
      · exact .inr (List.mem_append_right _ hgone)
    · rw [hchecks] at hcheck
      exact ⟨check, (List.mem_filter.mp hcheck).1, Follows.refl check⟩

theorem Known.congr {db other : ControlDb} (hchecks : other.checks = db.checks)
    (hretired : other.retired = db.retired) (id : String) : Known other id ↔ Known db id := by
  rw [Known, Known, hchecks, hretired]

/-- The step speaks of nothing but the checks and the identifiers that were used. -/
theorem ChecksStep.congr {before before' after after' : ControlDb} (h : ChecksStep before' after')
    (hchecks : before'.checks = before.checks) (hretired : before'.retired = before.retired)
    (hchecks' : after.checks = after'.checks) (hretired' : after.retired = after'.retired) :
    ChecksStep before after := by
  cases h with
  | same hsame hgone =>
    exact .same (hchecks'.trans (hsame.trans hchecks)) (hretired'.trans (hgone.trans hretired))
  | inserted row hfresh hcloudflare hsame hgone =>
    exact .inserted row (fun hknown ↦ hfresh ((Known.congr hchecks hretired _).mpr hknown))
      hcloudflare (hchecks'.trans (hchecks ▸ hsame)) (hretired'.trans (hgone.trans hretired))
  | updated condition change hfollows hsame hgone =>
    exact .updated condition change hfollows (hchecks'.trans (hchecks ▸ hsame))
      (hretired'.trans (hgone.trans hretired))
  | deleted condition hsame hgone =>
    exact .deleted condition (hchecks'.trans (hchecks ▸ hsame))
      (hretired'.trans (by rw [hgone, hchecks, hretired]))

theorem ChecksStep.inv (h : ChecksStep before after) (hinv : Inv before)
    (hwithin : WithinCapacity after) : Inv after := by
  refine ⟨hwithin, ?_, ?_⟩
  · cases h with
    | same hchecks _ => exact hchecks ▸ hinv.unique
    | inserted row hfresh _ hchecks _ =>
      rw [hchecks]
      exact uniqueKey_append_singleton hinv.unique fun check hcheck heq ↦
        hfresh (heq ▸ known_of_mem hcheck)
    | updated condition change hfollows hchecks _ =>
      rw [hchecks]
      exact hinv.unique.updateWhere fun old ↦ (hfollows old).id
    | deleted condition hchecks _ =>
      rw [hchecks]
      exact hinv.unique.filter _
  · intro check hcheck hkind
    cases h with
    | same hchecks _ => exact hinv.cloudflare check (hchecks ▸ hcheck) hkind
    | inserted row _ hcloudflare hchecks _ =>
      rw [hchecks] at hcheck
      rcases List.mem_append.mp hcheck with hold | hnew
      · exact hinv.cloudflare check hold hkind
      · obtain rfl := List.mem_singleton.mp hnew
        exact hcloudflare hkind
    | updated condition change hfollows hchecks _ =>
      rw [hchecks] at hcheck
      obtain ⟨old, hold, ⟨-, rfl⟩ | ⟨-, rfl⟩⟩ := mem_updateWhere.mp hcheck
      · have hnone := hinv.cloudflare old hold ((hfollows old).kind.symm.trans hkind)
        rcases (hfollows old).agent with hsame | hgone
        · exact hsame.trans hnone
        · exact hgone
      · exact hinv.cloudflare check hold hkind
    | deleted condition hchecks _ =>
      rw [hchecks] at hcheck
      exact hinv.cloudflare check (List.mem_filter.mp hcheck).1 hkind

/-! ## The batches -/

/-- A new check on an agent enforces the capacity of this agent. -/
structure GoodCheck (check : NewCheck) : Prop where
  cloudflare : check.executorKind = .cloudflare → check.executorAgentId = none
  capacity : ∀ agentId, check.executorAgentId = some agentId →
    check.machineId.isSome = true ∧
      check.capacity = ⟨agentId, none, check.configBytes, true⟩

/-- What the handlers see to: a batch that can make an agent's load larger enforces its capacity. -/
def Good (db : ControlDb) : Batch → Prop
  | .createService _ _ check _ => GoodCheck check
  | .addCheck _ check _ _ => GoodCheck check
  | .replaceCheck _ update => ∀ check ∈ db.checks, check.id = update.checkId →
    check.configRevision = update.configRevision → ∀ agentId, check.runsOn agentId = true →
      update.machineId.isSome = true ∧
        update.capacity = some ⟨agentId, some update.checkId, update.configBytes, true⟩
  | .updatePolicy _ update => update.enabled = true → ∀ check ∈ db.checks,
    check.id = update.checkId → ∀ agentId, check.executorAgentId = some agentId →
      update.machineId.isSome = true ∧
        update.capacity = some ⟨agentId, some update.checkId, update.configBytes, true⟩
  | _ => True

/-- A policy that turns a check on meets it no larger than it was read. -/
def CurrentBytes (db : ControlDb) : Batch → Prop
  | .updatePolicy _ update => update.wasEnabled = false → update.enabled = true →
    ∀ check ∈ db.checks, check.id = update.checkId → check.enabled = false →
      check.configBytes ≤ update.configBytes
  | _ => True

instance (db : ControlDb) : (batch : Batch) → Decidable (CurrentBytes db batch)
  | .updatePolicy _ update => inferInstanceAs (Decidable (update.wasEnabled = false →
      update.enabled = true → ∀ check ∈ db.checks, check.id = update.checkId →
        check.enabled = false → check.configBytes ≤ update.configBytes))
  | .createService .. => isTrue trivial
  | .addCheck .. => isTrue trivial
  | .replaceCheck .. => isTrue trivial
  | .deleteCheck .. => isTrue trivial
  | .softDelete .. => isTrue trivial
  | .restore .. => isTrue trivial
  | .claimWorkspace .. => isTrue trivial
  | .claimResource .. => isTrue trivial
  | .finalizeMachineControl .. => isTrue trivial
  | .finalizeServiceControl .. => isTrue trivial
  | .administer .. => isTrue trivial

section Batches

variable {base db after : ControlDb} {workspaceId : String} {changes : ℕ}

theorem within_of_checks_eq (h : WithinCapacity db) (hchecks : after.checks = db.checks) :
    WithinCapacity after := by
  rw [withinCapacity_iff] at h ⊢
  rwa [hchecks]

theorem unchanged (hinv : Inv db) (hchecks : after.checks = db.checks)
    (hretired : after.retired = db.retired) : ChecksStep db after ∧ WithinCapacity after :=
  ⟨.same hchecks hretired, within_of_checks_eq hinv.within hchecks⟩

theorem insertCheck_spec {new : NewCheck} {condition : Bool} (hinv : Inv base)
    (hsame : db.checks = base.checks) (hretiredSame : db.retired = base.retired)
    (hgood : GoodCheck new) (h : insertCheck db workspaceId new condition = some (after, changes)) :
    ChecksStep base after ∧ WithinCapacity after := by
  rcases insertCheck_cases h with ⟨rfl, -, -⟩ |
    ⟨revision, hrevision, hpresent, hretired, hchecks, hgone, -⟩
  · exact unchanged hinv hsame hretiredSame
  · rw [hsame] at hpresent hchecks
    rw [hretiredSame] at hretired hgone
    refine ⟨.inserted (new.row workspaceId revision) (fun hknown ↦ ?_) hgood.cloudflare hchecks
      hgone, ?_⟩
    · exact hknown.elim hpresent hretired
    · rw [withinCapacity_iff]
      intro agentId
      have hbefore := withinCapacity_iff.mp hinv.within agentId
      rw [hchecks, load_append, load_append]
      cases hruns : (new.row workspaceId revision).runsOn agentId with
      | false =>
        rw [share_of_not_runsOn hruns, share_of_not_runsOn hruns]
        exact hbefore
      | true =>
        have hagent : new.executorAgentId = some agentId := (runsOn_iff.mp hruns).1
        obtain ⟨hmachine, hcapacity⟩ := hgood.capacity agentId hagent
        have hroom := agentCapacity_of_assignmentRevision hmachine (by rw [hrevision]; rfl)
        have hload := load_of_agentCapacity hroom (by rw [hcapacity])
        rw [hcapacity, hsame] at hload
        dsimp only at hload
        rw [filter_excluded_none] at hload
        have hone := share_le agentId (fun _ ↦ 1) (new.row workspaceId revision)
        have hbytes := share_le agentId CheckRow.configBytes (new.row workspaceId revision)
        have hrow : (new.row workspaceId revision).configBytes = new.configBytes := rfl
        omega

/-- One check is updated: it keeps its executor, and where it runs it runs already, no larger, or
the capacity is enforced with its new size. -/
theorem updateChecks_spec (checkId : String) {machineId : Option String}
    {capacity : AgentCapacityInput} {condition : CheckRow → Bool} {change : CheckRow → CheckRow}
    (h : updateChecks db workspaceId machineId capacity condition change =
      some (after, changes))
    (hinv : Inv base) (hsame : db.checks = base.checks) (hretiredSame : db.retired = base.retired)
    (hkey : ∀ check, condition check = true → check.id = checkId)
    (hchange : ∀ check, (change check).id = check.id ∧
      (change check).executorKind = check.executorKind ∧
      (change check).executorAgentId = check.executorAgentId)
    (hgrow : ∀ check ∈ base.checks, condition check = true → ∀ agentId,
      (change check).runsOn agentId = true →
        (check.runsOn agentId = true ∧ (change check).configBytes ≤ check.configBytes) ∨
          (machineId.isSome = true ∧
            capacity = ⟨agentId, some checkId, capacity.configBytes, true⟩ ∧
            (change check).configBytes ≤ capacity.configBytes)) :
    ChecksStep base after ∧ WithinCapacity after := by
  obtain ⟨hafter, hrevision⟩ := updateChecks_cases h
  rw [hsame] at hafter hrevision
  have hchecks := congrArg ControlDb.checks hafter
  refine ⟨.updated condition _ (fun check ↦ ?_) hchecks (by rw [hafter, hretiredSame]), ?_⟩
  · obtain ⟨hid, hkind, hagent⟩ := hchange check
    exact ⟨hid, hkind, .inl hagent, Nat.le_succ _, fun heq ↦ absurd heq (Nat.succ_ne_self _)⟩
  · rw [withinCapacity_iff]
    intro agentId
    obtain ⟨hcount, hbytes⟩ := withinCapacity_iff.mp hinv.within agentId
    rw [hchecks]
    by_cases hmatch : ∃ check ∈ base.checks, condition check = true
    · obtain ⟨check, hcheck, hcondition⟩ := hmatch
      have hunique : ∀ other, condition other = true → other.id = check.id := fun other hother ↦
        (hkey other hother).trans (hkey check hcondition).symm
      -- Where the check gets larger, the capacity condition has been evaluated.
      have hroom : ∀ agentId, machineId.isSome = true →
          capacity = ⟨agentId, some checkId, capacity.configBytes, true⟩ →
          load (base.checks.filter fun other ↦ other.id ≠ check.id) agentId (fun _ ↦ 1) <
              maxAgentChecks ∧
            load (base.checks.filter fun other ↦ other.id ≠ check.id) agentId
              CheckRow.configBytes + capacity.configBytes ≤ maxAgentConfigBytes := by
        intro agentId hmachine hcapacity
        have hload := load_of_agentCapacity
          (agentCapacity_of_assignmentRevision hmachine (hrevision check hcheck hcondition))
          (by rw [hcapacity])
        rw [hcapacity, hsame] at hload
        dsimp only at hload
        rwa [filter_excluded_some, ← hkey check hcondition] at hload
      constructor
      · refine load_update_le hinv.unique hcheck hcondition hunique _ hcount fun hruns ↦ ?_
        rcases hgrow check hcheck hcondition agentId hruns with
          ⟨hran, -⟩ | ⟨hmachine, hcapacity, -⟩
        · exact .inl ⟨hran, le_rfl⟩
        · exact .inr (hroom agentId hmachine hcapacity).1
      · refine load_update_le hinv.unique hcheck hcondition hunique _ hbytes fun hruns ↦ ?_
        rcases hgrow check hcheck hcondition agentId hruns with
          hran | ⟨hmachine, hcapacity, hsize⟩
        · exact .inl hran
        · exact .inr ((Nat.add_le_add_left hsize _).trans (hroom agentId hmachine hcapacity).2)
    · rw [updateWhere_eq_self fun check hcheck ↦ by
        simpa using fun hcondition ↦ hmatch ⟨check, hcheck, hcondition⟩]
      exact ⟨hcount, hbytes⟩

theorem replaceCheckBatch_spec {update : ReplaceCheck} (hinv : Inv db)
    (hgood : Good db (.replaceCheck workspaceId update))
    (h : replaceCheckBatch db workspaceId update = some (after, changes)) :
    ChecksStep db after ∧ WithinCapacity after := by
  obtain ⟨⟨updated, count⟩, hupdate, heq⟩ := Option.map_eq_some_iff.mp h
  have hspec : ChecksStep db updated ∧ WithinCapacity updated := by
    refine updateChecks_spec update.checkId hupdate hinv (checks_advanceAgentConfiguration _ _)
      (retired_advanceAgentConfiguration _ _) ?_ (fun _ ↦ ⟨rfl, rfl, rfl⟩) ?_
    · intro check hcondition
      simp only [Bool.and_eq_true, decide_eq_true_eq] at hcondition
      exact hcondition.1.1.1.1
    · intro check hcheck hcondition agentId hruns
      simp only [Bool.and_eq_true, decide_eq_true_eq] at hcondition
      obtain ⟨hmachine, hcapacity⟩ := hgood check hcheck hcondition.1.1.1.1 hcondition.1.2
        agentId hruns
      refine .inr ⟨hmachine, ?_, ?_⟩
      · rw [hcapacity, capacityOr, Option.getD_some]
      · rw [hcapacity, capacityOr, Option.getD_some]
  have hafter : after.checks = updated.checks ∧ after.retired = updated.retired := by
    obtain ⟨rfl, -⟩ := Prod.mk.inj heq
    split <;> exact ⟨rfl, rfl⟩
  exact ⟨hspec.1.congr rfl rfl hafter.1 hafter.2, within_of_checks_eq hspec.2 hafter.1⟩

theorem updatePolicyBatch_spec {update : UpdatePolicy} (hinv : Inv db)
    (hgood : Good db (.updatePolicy workspaceId update))
    (hcurrent : CurrentBytes db (.updatePolicy workspaceId update))
    (h : updatePolicyBatch db workspaceId update = some (after, changes)) :
    ChecksStep db after ∧ WithinCapacity after := by
  refine updateChecks_spec update.checkId h hinv (checks_advanceAgentConfiguration _ _)
    (retired_advanceAgentConfiguration _ _) ?_ (fun _ ↦ ⟨rfl, rfl, rfl⟩) ?_
  · intro check hcondition
    simp only [Bool.and_eq_true, decide_eq_true_eq] at hcondition
    exact hcondition.1.1.1.1.1
  · intro check hcheck hcondition agentId hruns
    simp only [Bool.and_eq_true, decide_eq_true_eq] at hcondition
    obtain ⟨hagent, henabled⟩ := runsOn_iff.mp hruns
    dsimp only at hagent henabled
    cases hwas : check.enabled with
    | true => exact .inl ⟨runsOn_iff.mpr ⟨hagent, hwas⟩, le_rfl⟩
    | false =>
      obtain ⟨hmachine, hcapacity⟩ := hgood henabled check hcheck hcondition.1.1.1.1.1
        agentId hagent
      refine .inr ⟨hmachine, ?_, ?_⟩
      · rw [hcapacity, capacityOr, Option.getD_some]
      · rw [hcapacity, capacityOr, Option.getD_some]
        exact hcurrent (hcondition.1.1.2.symm.trans hwas) henabled check hcheck
          hcondition.1.1.1.1.1 hwas

theorem deleteChecks_spec (hinv : Inv db) (condition : CheckRow → Bool)
    (hchecks : after.checks = (deleteChecks db condition).checks)
    (hretired : after.retired = (deleteChecks db condition).retired) :
    ChecksStep db after ∧ WithinCapacity after := by
  refine ⟨.deleted condition hchecks hretired, withinCapacity_iff.mpr fun agentId ↦ ?_⟩
  obtain ⟨hcount, hbytes⟩ := withinCapacity_iff.mp hinv.within agentId
  rw [hchecks]
  exact ⟨(load_filter_le _ _ _ _).trans hcount, (load_filter_le _ _ _ _).trans hbytes⟩

theorem deleteCheckBatch_spec (update : DeleteCheck) (hinv : Inv db) :
    ChecksStep db (deleteCheckBatch db workspaceId update).1 ∧
      WithinCapacity (deleteCheckBatch db workspaceId update).1 := by
  obtain ⟨condition, hchecks, hretired⟩ := deleteCheckBatch_checks db workspaceId update
  exact deleteChecks_spec hinv condition hchecks hretired

theorem finalizeMachineControlBatch_spec (policy : SoftDeletePolicy) (machineId : String)
    (cutoff : ℤ) (hinv : Inv db) :
    ChecksStep db (finalizeMachineControlBatch db policy machineId cutoff) ∧
      WithinCapacity (finalizeMachineControlBatch db policy machineId cutoff) := by
  refine ⟨.updated (onMachine db machineId) _ (fun check ↦ ?_) rfl rfl,
    withinCapacity_iff.mpr fun agentId ↦ ?_⟩
  · exact ⟨rfl, rfl, .inr rfl, Nat.le_succ _, fun heq ↦ absurd heq (Nat.succ_ne_self _)⟩
  · obtain ⟨hcount, hbytes⟩ := withinCapacity_iff.mp hinv.within agentId
    have hle : ∀ size, load (finalizeMachineControlBatch db policy machineId cutoff).checks
        agentId size ≤ load db.checks agentId size := fun size ↦
      sum_updateWhere_le fun check _ _ ↦ by
        rw [share_of_not_runsOn rfl]
        exact Nat.zero_le _
    exact ⟨(hle _).trans hcount, (hle _).trans hbytes⟩

theorem execute_spec {batch : Batch} (hinv : Inv db) (hgood : Good db batch)
    (hcurrent : CurrentBytes db batch) (h : execute db batch = some (after, changes)) :
    ChecksStep db after ∧ WithinCapacity after := by
  cases batch with
  | createService workspaceId service check conditions =>
    obtain ⟨⟨inserted, count⟩, hservice, hcheck⟩ := Option.bind_eq_some_iff.mp h
    obtain ⟨⟨created, count'⟩, hcreated, heq⟩ := Option.map_eq_some_iff.mp hcheck
    obtain ⟨rfl, -⟩ := Prod.mk.inj heq
    obtain ⟨hchecks, hretired, -⟩ := insertService_cases hservice
    rw [checks_advanceAgentConfiguration] at hchecks
    rw [retired_advanceAgentConfiguration] at hretired
    have hcreatedGood : GoodCheck { check with serviceId := service.id } :=
      ⟨hgood.cloudflare, hgood.capacity⟩
    exact insertCheck_spec hinv hchecks hretired hcreatedGood hcreated
  | addCheck workspaceId check machineConditions checkConditions =>
    exact insertCheck_spec hinv (checks_advanceAgentConfiguration _ _)
      (retired_advanceAgentConfiguration _ _) hgood h
  | replaceCheck workspaceId update => exact replaceCheckBatch_spec hinv hgood h
  | updatePolicy workspaceId update => exact updatePolicyBatch_spec hinv hgood hcurrent h
  | deleteCheck workspaceId update =>
    obtain ⟨rfl, -⟩ := Prod.mk.inj (Option.some.inj h)
    exact deleteCheckBatch_spec update hinv
  | softDelete workspaceId resourceType resourceId now conditions =>
    obtain rfl := congrArg Prod.fst (Option.some.inj h)
    exact unchanged hinv (checks_updateDeletion _ _ _ _) (retired_updateDeletion _ _ _ _)
  | restore workspaceId resourceType resourceId deletedAt conditions =>
    obtain ⟨hchecks, hretired⟩ := restoreBatch_checks h
    exact unchanged hinv hchecks hretired
  | claimWorkspace policy now cutoff =>
    obtain ⟨rfl, -⟩ := Prod.mk.inj (Option.some.inj h)
    exact unchanged hinv rfl rfl
  | claimResource policy resourceType resource now cutoff =>
    obtain rfl := congrArg Prod.fst (Option.some.inj h)
    exact unchanged hinv (checks_updateDeletion _ _ _ _) (retired_updateDeletion _ _ _ _)
  | finalizeMachineControl policy machineId cutoff =>
    obtain ⟨rfl, -⟩ := Prod.mk.inj (Option.some.inj h)
    exact finalizeMachineControlBatch_spec policy machineId cutoff hinv
  | finalizeServiceControl policy serviceId cutoff =>
    obtain ⟨rfl, -⟩ := Prod.mk.inj (Option.some.inj h)
    rw [finalizeServiceControlBatch]
    dsimp only
    split
    · exact deleteChecks_spec hinv _ rfl rfl
    · exact unchanged hinv rfl rfl
  | administer workspaces memberships grants machines agents =>
    obtain ⟨rfl, -⟩ := Prod.mk.inj (Option.some.inj h)
    exact unchanged hinv rfl rfl

theorem guarantee : Guarantee perform Inv Continues Good CurrentBytes where
  refl := Continues.refl
  trans := Continues.trans
  inv {store batch} hinv hgood hcurrent := by
    rcases perform_cases batch store with hsame | ⟨changes, hexecute⟩
    · rwa [hsame]
    · obtain ⟨hstep, hwithin⟩ := execute_spec hinv hgood hcurrent hexecute
      exact hstep.inv hinv hwithin
  rely {store batch} hinv hgood hcurrent := by
    rcases perform_cases batch store with hsame | ⟨changes, hexecute⟩
    · rw [hsame]
      exact Continues.refl _
    · exact (execute_spec hinv hgood hcurrent hexecute).1.continues

end Batches

/-! ## The handlers -/

/-- What the handlers send is good from this database on. -/
abbrev Sound (flow : Flow) (db : ControlDb) : Prop :=
  flow.Sound perform Inv Continues Good db

section Requests

variable {db : ControlDb}

theorem sound_loadMonitoringAccess {actor : Actor} {next : MonitoringAccess → Flow}
    (h : ∀ access, Sound (next access) db) : Sound (loadMonitoringAccess actor next) db := by
  intro later hlater _
  dsimp only
  split
  · trivial
  · exact (h _).later guarantee hlater
  · intro last hlast _
    dsimp only
    split
    · trivial
    · exact (h _).later guarantee (hlater.trans hlast)

theorem sound_requireResourceCapability {access : MonitoringAccess} {next : Flow}
    {resourceType : ResourceType} {resourceId : String} {capability : Capability}
    (h : Sound next db) :
    Sound (requireResourceCapability access resourceType resourceId capability next) db := by
  rw [requireResourceCapability]
  split
  · exact h
  · trivial

variable {row : CheckRow}

theorem agent_of_tracks {row check : CheckRow} (htracks : Tracks row db) (hcheck : check ∈ db.checks)
    (hid : check.id = row.id)
    (hcloudflare : row.executorKind = .cloudflare → row.executorAgentId = none) {agentId : String}
    (hagent : check.executorAgentId = some agentId) :
    row.executorKind = .agent ∧ row.executorAgentId = some agentId := by
  have hfollows := htracks.follows check hcheck hid
  rcases hfollows.agent with hsame | hnone
  · have hrow : row.executorAgentId = some agentId := hsame.symm.trans hagent
    cases hkind : row.executorKind with
    | cloudflare =>
      rw [hcloudflare hkind] at hrow
      cases hrow
    | agent => exact ⟨rfl, hrow⟩
  · rw [hnone] at hagent
    cases hagent

theorem capacityOf_agent {agentId : String} (hkind : row.executorKind = .agent)
    (hagent : row.executorAgentId = some agentId) (configBytes : ℕ) (enforce : Bool) :
    capacityOf row configBytes enforce = some ⟨agentId, some row.id, configBytes, enforce⟩ := by
  rw [capacityOf, if_pos hkind, hagent, Option.getD_some]

theorem agentMachine_agent (hkind : row.executorKind = .agent) (machineId : Option String) :
    agentMachine row machineId = machineId :=
  if_pos hkind

theorem sound_replaceServiceCheckConfiguration (request : ReplaceServiceCheckConfiguration) :
    Sound (replaceServiceCheckConfiguration request) db := by
  refine sound_loadMonitoringAccess fun access ↦ sound_requireResourceCapability ?_
  intro later _ hinv
  dsimp only
  split
  · trivial
  · rename_i row machineId hload
    obtain ⟨hmem, hrow, -⟩ := mem_of_loadCheck hload
    apply Workflow.sound_of_last guarantee
    apply passes_sends.requireMachine
    split
    · trivial
    · split
      · trivial
      · apply passes_sends.withPreservedSecrets
        intro bytes
        rw [sendReplacement]
        split
        · trivial
        · apply passes_sends.assertAgentCapacity
          split
          · trivial
          · rename_i hmachine
            refine ⟨⟨fun last hlast _ ↦ ?_, sends_finish _ _⟩, sends_finish _ _⟩
            have hcurrent := (tracks_of_mem hinv.unique hmem).later hlast
            intro check hcheck hid hrevision agentId hruns
            obtain ⟨hagent, henabled⟩ := runsOn_iff.mp hruns
            obtain ⟨hkind, hrowAgent⟩ := agent_of_tracks hcurrent hcheck (hid.trans hrow.symm)
              (hinv.cloudflare row hmem) hagent
            -- The revision is the one that was read, so the check is as enabled as it was.
            have hsame := (hcurrent.follows check hcheck (hid.trans hrow.symm)).same hrevision
            refine ⟨?_, ?_⟩
            · dsimp only
              rw [agentMachine_agent hkind]
              cases machineId with
              | none => exact absurd (by simp [hkind]) hmachine
              | some machineId => rfl
            · dsimp only
              rw [capacityOf_agent hkind hrowAgent, ← hsame, henabled, hrow]

theorem sound_updateServiceCheckPolicy (request : UpdateServiceCheckPolicy) :
    Sound (updateServiceCheckPolicy request) db := by
  refine sound_loadMonitoringAccess fun access ↦ sound_requireResourceCapability ?_
  intro later _ hinv
  dsimp only
  split
  · trivial
  · rename_i row machineId hload
    obtain ⟨hmem, hid, -⟩ := mem_of_loadCheck hload
    apply Workflow.sound_of_last guarantee
    apply passes_sends.requireExecutor
    intro hexecutor
    split
    · trivial
    · apply passes_sends.assertRemaining
      apply passes_sends.assertAgentCapacity
      refine ⟨⟨fun last hlast _ ↦ ?_, sends_finish _ _⟩, sends_finish _ _⟩
      have hcurrent := (tracks_of_mem hinv.unique hmem).later hlast
      intro henabled check hcheck hcheckId agentId hagent
      obtain ⟨hkind, hrowAgent⟩ := agent_of_tracks hcurrent hcheck (hcheckId.trans hid.symm)
        (hinv.cloudflare row hmem) hagent
      refine ⟨?_, ?_⟩
      · dsimp only
        rw [agentMachine_agent hkind]
        exact (hexecutor hkind henabled).2
      · dsimp only at henabled ⊢
        rw [capacityOf_agent hkind hrowAgent, henabled, hid]

theorem sound_handle (request : Request) (db : ControlDb) : Sound (handle request) db := by
  cases request with
  | createServiceMonitor request =>
    apply Workflow.sound_of_always
    apply passes_sends.createServiceMonitor
    intro workspaceId service check _ henforces
    exact ⟨fun _ _ ↦ ⟨henforces.1, henforces.2⟩, sends_finish _ _⟩
  | addServiceCheck request =>
    apply Workflow.sound_of_always
    apply passes_sends.addServiceCheck
    intro workspaceId check conditions _ henforces
    exact ⟨fun _ _ ↦ ⟨henforces.1, henforces.2⟩, sends_finish _ _⟩
  | replaceServiceCheckConfiguration request =>
    exact sound_replaceServiceCheckConfiguration request
  | updateServiceCheckPolicy request => exact sound_updateServiceCheckPolicy request
  | deleteServiceCheck | softDeleteResource | restoreResource | administer =>
    refine Workflow.sound_of_always ((sends_handle _).mono fun batch next hoffers _ _ ↦ ?_)
    cases hoffers
    trivial
  | finalizeSoftDeletedResources =>
    refine Workflow.sound_of_always ((sends_handle _).mono fun batch next hoffers _ _ ↦ ?_)
    cases hoffers with
    | finalizeControl _ resourceType => cases resourceType <;> trivial
    | _ => trivial

end Requests

/-! ## Runs -/

/-- Any interleaving of requests with its failures keeps every agent within its capacity, when no
policy turns a check on that is larger than the policy's handler has read. -/
theorem within_of_currentBytes {db : ControlDb} (hdb : Inv db) {actions : List (Action Request)}
    (hcurrent : Along (step handle perform) (Performs CurrentBytes) (start db) actions) :
    Visits (step handle perform) (fun system ↦ WithinCapacity system.store) (start db) actions :=
  visits_mono (fun _ hinv ↦ hinv.within)
    (visits_inv handle guarantee (fun request store _ ↦ sound_handle request store) hdb hcurrent)

/-! ## A run beyond the capacity -/

theorem inv_emptyControl : Inv emptyControl where
  within := ⟨fun _ ↦ Nat.zero_le _, fun _ ↦ Nat.zero_le _⟩
  unique := uniqueKey_nil
  cloudflare := fun _ hcheck ↦ absurd hcheck List.not_mem_nil

/-- While a policy that enables `second` is on its way, its target is replaced by a larger one. -/
def staleEnable : List (Action Request) :=
  twoChecks ++
  served 4 3 (.updateServiceCheckPolicy ⟨operator, "service", "second", true, minutePolicy⟩) ++
  served 5 3 (.replaceServiceCheckConfiguration
    ⟨operator, "service", "second", agentInput "bearer" 30000, true, true⟩) ++
  [.advance 4]

/-- The handlers answer with success, and the agent is to run 51028 bytes of checks. -/
theorem staleEnable_overruns :
    ¬ Visits (step handle perform) (fun system ↦ WithinCapacity system.store)
      (start emptyControl) staleEnable := by
  intro hvisits
  have hbytes := (visits_run hvisits).bytes "agent"
  revert hbytes
  decide +kernel

theorem within_of_currentBytes_twoChecks :
    Visits (step handle perform) (fun system ↦ WithinCapacity system.store)
      (start emptyControl) twoChecks :=
  within_of_currentBytes inv_emptyControl (by decide +kernel)

end AlphaPing.Monitoring.Capacity
