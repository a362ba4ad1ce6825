import AlphaPing.Access.MemberHandlers

/-!
# Every workspace has an active administrator

A workspace comes with one in the batch that creates it. From then on the triggers on `memberships`
take back every batch that would leave the workspace without, whatever the handlers have read.
-/

namespace AlphaPing.Access.Administrators

open Library.Runs Library.Tables Library.Workflows Memberships MemberHandlers
open Library.Batches hiding perform

open Conditions (MembershipStatus)
open Monitoring.Control (WorkspaceRole Actor)
open Monitoring.ServiceConfig (HttpError)

/-- Some active administrator of the workspace. -/
def HasAdmin (db : AccessDb) (workspaceId : String) : Prop :=
  ∃ row ∈ db.memberships, row.workspaceId = workspaceId ∧ row.activeAdmin = true

/-- Every workspace has an active administrator. -/
def Administered (db : AccessDb) : Prop :=
  ∀ workspace ∈ db.workspaces, HasAdmin db workspace.id

structure Inv (db : AccessDb) : Prop where
  administered : Administered db
  memberKeys : UniqueKey MembershipRow.key db.memberships

/-- No workspace has come, and none has lost its administrators. -/
structure Keeps (db after : AccessDb) : Prop where
  workspaces : ∀ workspace ∈ after.workspaces, ∃ old ∈ db.workspaces, old.id = workspace.id
  admins : ∀ workspaceId, HasAdmin db workspaceId → HasAdmin after workspaceId
  memberKeys : UniqueKey MembershipRow.key db.memberships →
    UniqueKey MembershipRow.key after.memberships

variable {db after : AccessDb}

theorem Keeps.inv (h : Keeps db after) (hinv : Inv db) : Inv after where
  administered workspace hworkspace := by
    obtain ⟨old, hold, hid⟩ := h.workspaces workspace hworkspace
    rw [← hid]
    exact h.admins old.id (hinv.administered old hold)
  memberKeys := h.memberKeys hinv.memberKeys

theorem keeps_of_eq (hworkspaces : after.workspaces = db.workspaces)
    (hmemberships : after.memberships = db.memberships) : Keeps db after where
  workspaces workspace hworkspace := ⟨workspace, hworkspaces ▸ hworkspace, rfl⟩
  admins workspaceId h := by rwa [HasAdmin, hmemberships]
  memberKeys h := by rwa [hmemberships]

/-! ## Statements -/

section Statements

variable {db after : AccessDb} {changes changed : ℕ}

theorem otherAdmin_iff {rows : List MembershipRow} {old : MembershipRow} :
    otherAdmin rows old = true ↔ ∃ row ∈ rows, row.workspaceId = old.workspaceId ∧
      row.userId ≠ old.userId ∧ row.activeAdmin = true := by
  simp [otherAdmin, and_assoc]

theorem keeps_insertMembership {row : MembershipRow}
    (h : insertMembership row changes db = some (after, changed)) : Keeps db after := by
  unfold insertMembership at h
  split at h
  · next hfits =>
    obtain ⟨rfl, -⟩ := Prod.mk.inj (Option.some.inj h)
    simp only [membershipFits, Bool.and_eq_true, Bool.not_eq_true', List.any_eq_false,
      decide_eq_true_eq] at hfits
    refine ⟨fun workspace hworkspace ↦ ⟨workspace, hworkspace, rfl⟩, ?_, ?_⟩
    · rintro workspaceId ⟨admin, hadmin, hmatch⟩
      exact ⟨admin, List.mem_append_left _ hadmin, hmatch⟩
    · intro hkeys
      exact uniqueKey_append_singleton hkeys fun old hold ↦ hfits.1.1 old hold
  · cases h

theorem keeps_insertAudit {row : AuditRow}
    (h : insertAudit row changes db = some (after, changed)) : Keeps db after := by
  unfold insertAudit at h
  split at h
  · cases h
  · obtain ⟨rfl, -⟩ := Prod.mk.inj (Option.some.inj h)
    exact keeps_of_eq rfl rfl

theorem keeps_afterChange {statement : Statement AccessDb}
    (hstatement : statement changes db = some (after, changed) → Keeps db after)
    (h : statement.afterChange changes db = some (after, changed)) : Keeps db after := by
  unfold Statement.afterChange at h
  split at h
  · exact hstatement h
  · obtain ⟨rfl, -⟩ := Prod.mk.inj (Option.some.inj h)
    exact keeps_of_eq rfl rfl

/-- An administrator who is changed to something else leaves another one, by the trigger. -/
theorem keeps_updateMembership {workspaceId userId : String}
    {condition : AccessDb → MembershipRow → Bool} {role : WorkspaceRole}
    {status : MembershipStatus} {now : ℤ}
    (h : updateMembership workspaceId userId condition role status now changes db =
      some (after, changed)) : Keeps db after := by
  unfold updateMembership at h
  dsimp only at h
  split at h
  · cases h
  · next hguard =>
    obtain ⟨rfl, -⟩ := Prod.mk.inj (Option.some.inj h)
    refine ⟨fun workspace hworkspace ↦ ⟨workspace, hworkspace, rfl⟩, ?_, fun hkeys ↦ ?_⟩
    · rintro other ⟨admin, hadmin, hother, hactive⟩
      dsimp only [HasAdmin]
      by_cases hmatched : (admin.workspaceId = workspaceId && admin.userId = userId &&
          condition db admin) = true
      · by_cases hstays : (role = .admin && status = .active) = true
        · refine ⟨_, mem_updateWhere.mpr ⟨admin, hadmin, .inl ⟨hmatched, rfl⟩⟩, hother, ?_⟩
          simpa [MembershipRow.activeAdmin] using hstays
        · have hfound : otherAdmin db.memberships admin = true := by
            by_contra hnone
            apply hguard
            refine List.any_eq_true.mpr ⟨admin, hadmin, ?_⟩
            simp only [hmatched, hactive, Bool.eq_false_iff.mpr hstays,
              Bool.eq_false_iff.mpr hnone, Bool.not_false, Bool.and_self]
          obtain ⟨remaining, hmem, hworkspace, huser, hremaining⟩ := otherAdmin_iff.mp hfound
          have hleft : (remaining.workspaceId = workspaceId && remaining.userId = userId &&
              condition db remaining) = false := by
            simp only [Bool.and_eq_true, decide_eq_true_eq] at hmatched
            have : remaining.userId ≠ userId := hmatched.1.2 ▸ huser
            simp [this]
          exact ⟨remaining, mem_updateWhere_of_not hmem hleft, hworkspace.trans hother, hremaining⟩
      · exact ⟨admin, mem_updateWhere_of_not hadmin (Bool.eq_false_iff.mpr hmatched), hother,
          hactive⟩
    · exact hkeys.updateWhere fun _ ↦ rfl

theorem keeps_deleteMembership {key : String × String}
    (h : deleteMembership key changes db = some (after, changed)) : Keeps db after := by
  unfold deleteMembership at h
  split at h
  · cases h
  · next hguard =>
    obtain ⟨rfl, -⟩ := Prod.mk.inj (Option.some.inj h)
    refine ⟨fun workspace hworkspace ↦ ⟨workspace, hworkspace, rfl⟩, ?_, fun hkeys ↦ ?_⟩
    · rintro workspaceId ⟨admin, hadmin, hworkspace, hactive⟩
      by_cases hkey : admin.key = key
      · have hfound : otherAdmin db.memberships admin = true := by
          by_contra hnone
          apply hguard
          refine List.any_eq_true.mpr ⟨admin, hadmin, ?_⟩
          simp only [hkey, hactive, Bool.eq_false_iff.mpr hnone, decide_true, Bool.not_false,
            Bool.and_self]
        obtain ⟨remaining, hmem, hother, huser, hremaining⟩ := otherAdmin_iff.mp hfound
        refine ⟨remaining, List.mem_filter.mpr ⟨hmem, ?_⟩, hother.trans hworkspace, hremaining⟩
        refine decide_eq_true fun hsame ↦ huser ?_
        exact congrArg Prod.snd (hsame.trans hkey.symm)
      · exact ⟨admin, List.mem_filter.mpr ⟨hadmin, decide_eq_true hkey⟩, hworkspace, hactive⟩
    · exact hkeys.filter _

theorem keeps_markWorkspace {workspaceId : String} {deletedAt : Option ℤ}
    (h : markWorkspace workspaceId deletedAt changes db = some (after, changed)) :
    Keeps db after := by
  obtain ⟨rfl, -⟩ := Prod.mk.inj (Option.some.inj h)
  refine ⟨fun workspace hworkspace ↦ ?_, fun _ hadmin ↦ hadmin, id⟩
  obtain ⟨old, hold, ⟨-, rfl⟩ | ⟨-, rfl⟩⟩ := mem_updateWhere.mp hworkspace
  · exact ⟨old, hold, rfl⟩
  · exact ⟨workspace, hold, rfl⟩

theorem keeps_insertUser {row : UserRow}
    (h : insertUser row changes db = some (after, changed)) : Keeps db after := by
  unfold insertUser at h
  split at h
  · cases h
  · obtain ⟨rfl, -⟩ := Prod.mk.inj (Option.some.inj h)
    exact keeps_of_eq rfl rfl

theorem keeps_insertAccount {row : AccountRow}
    (h : insertAccount row changes db = some (after, changed)) : Keeps db after := by
  unfold insertAccount at h
  split at h
  · cases h
  · obtain ⟨rfl, -⟩ := Prod.mk.inj (Option.some.inj h)
    exact keeps_of_eq rfl rfl

theorem keeps_insertInvitation {row : InvitationRow}
    (h : insertInvitation row changes db = some (after, changed)) : Keeps db after := by
  unfold insertInvitation at h
  split_ifs at h
  · obtain ⟨rfl, -⟩ := Prod.mk.inj (Option.some.inj h)
    exact keeps_of_eq rfl rfl
  · obtain ⟨rfl, -⟩ := Prod.mk.inj (Option.some.inj h)
    exact keeps_of_eq rfl rfl

theorem keeps_revokeInvitations {condition : AccessDb → InvitationRow → Bool} {now : ℤ}
    (h : revokeInvitations condition now changes db = some (after, changed)) : Keeps db after := by
  obtain ⟨rfl, -⟩ := Prod.mk.inj (Option.some.inj h)
  exact keeps_of_eq rfl rfl

theorem keeps_consumeInvitation {invitationId : String} {now : ℤ}
    (h : consumeInvitation invitationId now changes db = some (after, changed)) :
    Keeps db after := by
  obtain ⟨rfl, -⟩ := Prod.mk.inj (Option.some.inj h)
  exact keeps_of_eq rfl rfl

theorem keeps_insertAcceptedMembership {invitationId userId : String} {now : ℤ}
    (h : insertAcceptedMembership invitationId userId now changes db = some (after, changed)) :
    Keeps db after := by
  unfold insertAcceptedMembership at h
  split at h
  · cases h
  · obtain ⟨⟨inserted, count⟩, hinsert, h⟩ := Option.map_eq_some_iff.mp h
    obtain ⟨rfl, -⟩ := Prod.mk.inj h
    have hkeeps := keeps_insertMembership hinsert
    exact ⟨hkeeps.workspaces, hkeeps.admins, hkeeps.memberKeys⟩

end Statements

/-! ## Batches -/

def Sent : Batch → Prop
  | .createWorkspace workspace membership _ =>
    membership.workspaceId = workspace.id ∧ membership.activeAdmin = true
  | _ => True

theorem keeps_statement {batch : Batch} (hbatch : ∀ w m a, batch ≠ .createWorkspace w m a)
    {statement : Statement AccessDb} (hstatement : statement ∈ statements batch)
    {changes changed : ℕ} (h : statement changes db = some (after, changed)) : Keeps db after := by
  cases batch with
  | createWorkspace workspace membership audit => exact absurd rfl (hbatch workspace membership audit)
  | nextWorkspaceSequence =>
    rw [List.mem_singleton.mp hstatement] at h
    obtain ⟨rfl, -⟩ := Prod.mk.inj (Option.some.inj h)
    exact keeps_of_eq rfl rfl
  | updateMembership update =>
    simp only [statements, List.mem_cons, List.not_mem_nil, or_false] at hstatement
    rcases hstatement with rfl | rfl
    · exact keeps_updateMembership h
    · exact keeps_afterChange keeps_insertAudit h
  | createInvitation invitation now audit =>
    simp only [statements, List.mem_cons, List.not_mem_nil, or_false] at hstatement
    rcases hstatement with rfl | rfl | rfl | rfl
    · obtain ⟨rfl, -⟩ := Prod.mk.inj (Option.some.inj h)
      exact keeps_of_eq rfl rfl
    · exact keeps_afterChange keeps_insertAudit h
    · exact keeps_revokeInvitations h
    · exact keeps_insertInvitation h
  | revokeInvitation workspaceId actorUserId invitationId now audit =>
    simp only [statements, List.mem_cons, List.not_mem_nil, or_false] at hstatement
    rcases hstatement with rfl | rfl
    · exact keeps_revokeInvitations h
    · exact keeps_afterChange keeps_insertAudit h
  | acceptInvitation invitationId userId now audit =>
    simp only [statements, List.map_cons, List.map_nil, List.mem_cons, List.not_mem_nil,
      or_false] at hstatement
    rcases hstatement with rfl | rfl | rfl
    · exact keeps_consumeInvitation h
    · exact keeps_afterChange keeps_insertAcceptedMembership h
    · exact keeps_afterChange keeps_insertAudit h
  | register invitationId user account now audit =>
    simp only [statements, List.map_cons, List.map_nil, List.mem_cons, List.not_mem_nil,
      or_false] at hstatement
    rcases hstatement with rfl | rfl | rfl | rfl | rfl
    · exact keeps_consumeInvitation h
    · exact keeps_afterChange keeps_insertUser h
    · exact keeps_afterChange keeps_insertAccount h
    · exact keeps_afterChange keeps_insertAcceptedMembership h
    · exact keeps_afterChange keeps_insertAudit h
  | deleteMemberships keys =>
    obtain ⟨key, -, rfl⟩ := List.mem_map.mp hstatement
    exact keeps_deleteMembership h
  | addUser user =>
    rw [List.mem_singleton.mp hstatement] at h
    exact keeps_insertUser h
  | markWorkspace workspaceId deletedAt =>
    rw [List.mem_singleton.mp hstatement] at h
    exact keeps_markWorkspace h
  | pass milliseconds =>
    rw [List.mem_singleton.mp hstatement] at h
    obtain ⟨rfl, -⟩ := Prod.mk.inj (Option.some.inj h)
    exact keeps_of_eq rfl rfl

theorem inv_createWorkspace {workspace : WorkspaceRow} {membership : MembershipRow}
    {audit : AuditRow} {results : List ℕ}
    (hsent : Sent (.createWorkspace workspace membership audit)) (hinv : Inv db)
    (h : performFrom (statements (.createWorkspace workspace membership audit)) 0 db =
      some (after, results)) : Inv after := by
  obtain ⟨created, _, _, hcreated, hrest, -⟩ := performFrom_cons_eq_some h
  obtain ⟨joined, _, _, hjoined, hlast, -⟩ := performFrom_cons_eq_some hrest
  obtain ⟨audited, _, _, haudited, hnil, -⟩ := performFrom_cons_eq_some hlast
  obtain ⟨rfl, -⟩ := Prod.mk.inj (Option.some.inj hnil)
  refine (keeps_insertAudit haudited).inv ?_
  unfold insertWorkspace at hcreated
  split at hcreated
  · cases hcreated
  · obtain ⟨rfl, -⟩ := Prod.mk.inj (Option.some.inj hcreated)
    have hkeys := (keeps_insertMembership hjoined).memberKeys hinv.memberKeys
    unfold insertMembership at hjoined
    split at hjoined
    · obtain ⟨rfl, -⟩ := Prod.mk.inj (Option.some.inj hjoined)
      refine ⟨fun other hother ↦ ?_, hkeys⟩
      rcases List.mem_append.mp hother with hold | hnew
      · obtain ⟨admin, hadmin, hmatch⟩ := hinv.administered other hold
        exact ⟨admin, List.mem_append_left _ hadmin, hmatch⟩
      · rw [List.mem_singleton.mp hnew]
        exact ⟨membership, List.mem_append_right _ (List.mem_singleton_self membership), hsent⟩
    · cases hjoined

theorem inv_perform {batch : Batch} (hsent : Sent batch) {db : AccessDb} (hinv : Inv db) :
    Inv (perform batch db).1 := by
  by_cases hbatch : ∀ w m a, batch ≠ .createWorkspace w m a
  · refine perform_keeps (fun statement hstatement changes db next changed hinv h ↦ ?_) hinv
    exact (keeps_statement hbatch hstatement h).inv hinv
  · simp only [not_forall, not_not] at hbatch
    obtain ⟨workspace, membership, audit, rfl⟩ := hbatch
    unfold perform Library.Batches.perform
    split
    · next after results h => exact inv_createWorkspace hsent hinv h
    · exact hinv

/-! ## Handlers -/

section Handlers

variable {platform : Platform}

theorem sends_finish (changed : ℕ) (conflict : String) (answer : Answer)
    (P : Batch → (Option (List ℕ) → Flow) → Prop) (reply : Option (List ℕ)) :
    (finish changed conflict answer reply).Sends P := by
  unfold finish
  split
  · trivial
  · split <;> trivial

variable {P : Batch → (Option (List ℕ) → Flow) → Prop}

theorem sends_requireWorkspaceAdmin {actor : Actor} {next : String → Flow}
    (h : ∀ workspaceId, (next workspaceId).Sends P) :
    (requireWorkspaceAdmin actor next).Sends P := by
  intro db
  dsimp only
  split
  · exact h _
  · trivial

theorem sends_requireInvitation {token : String} {now : ℤ} {next : InvitationRecord → Flow}
    (h : ∀ invitation, now < invitation.expiresAt → (next invitation).Sends P) :
    (requireInvitation platform token now next).Sends P := by
  unfold requireInvitation
  split
  · trivial
  · intro db
    dsimp only
    split
    · trivial
    · split
      · trivial
      · next hexpired => exact h _ (not_le.mp hexpired)

theorem sends_updateWorkspaceMembership (actor : Actor) (input : MembershipInput)
    (auditId : String) :
    (updateWorkspaceMembership actor input auditId).Sends fun batch _ ↦ Sent batch := by
  have hsend (workspaceId : String) (member : WorkspaceRole × MembershipStatus) (removes : Bool) :
      (sendUpdate workspaceId actor.userId auditId input member removes).Sends
        fun batch _ ↦ Sent batch :=
    fun _ ↦ ⟨trivial, sends_finish _ _ _ _⟩
  unfold updateWorkspaceMembership
  split
  · trivial
  · apply sends_requireWorkspaceAdmin
    intro workspaceId db
    dsimp only
    split
    · trivial
    · split
      · trivial
      · split
        · intro db
          dsimp only
          split
          · exact hsend _ _ _
          · trivial
        · exact hsend _ _ _

theorem sends_createWorkspace (actorUserId : String) (input : CreateWorkspaceInput)
    (fresh : Fresh) :
    (createWorkspace actorUserId input fresh).Sends fun batch _ ↦ Sent batch := by
  unfold createWorkspace
  split
  · trivial
  · intro db
    dsimp only
    split
    · trivial
    · intro db
      dsimp only
      split
      · trivial
      · refine ⟨trivial, fun _ db ↦ ⟨⟨rfl, rfl⟩, fun reply ↦ ?_⟩⟩
        cases reply with
        | some results => trivial
        | none =>
          intro db
          dsimp only
          split <;> trivial

theorem sends_createWorkspaceInvitation (actor : Actor) (email : String) (role : WorkspaceRole)
    (fresh : Fresh) :
    (createWorkspaceInvitation platform actor email role fresh).Sends
      fun batch _ ↦ Sent batch := by
  apply sends_requireWorkspaceAdmin
  intro workspaceId
  dsimp only
  split
  · trivial
  · intro db
    dsimp only
    split_ifs
    · trivial
    · split
      · trivial
      · exact fun _ ↦ ⟨trivial, sends_finish _ _ _ _⟩

theorem sends_revokeWorkspaceInvitation (actor : Actor) (invitationId auditId : String) :
    (revokeWorkspaceInvitation actor invitationId auditId).Sends fun batch _ ↦ Sent batch := by
  apply sends_requireWorkspaceAdmin
  intro workspaceId db
  dsimp only
  split
  · trivial
  · exact fun _ ↦ ⟨trivial, sends_finish _ _ _ _⟩

theorem sends_acceptInvitationForUser (token userId auditId : String) :
    (acceptInvitationForUser platform token userId auditId).Sends fun batch _ ↦ Sent batch := by
  intro db
  dsimp only
  split
  · trivial
  · apply sends_requireInvitation
    intro invitation _
    split
    · trivial
    · split
      · trivial
      · exact ⟨trivial, sends_finish _ _ _ _⟩

theorem sends_registerFromWorkspaceInvitation (token name password : String) (fresh : Fresh) :
    (registerFromWorkspaceInvitation platform token name password fresh).Sends
      fun batch _ ↦ Sent batch := by
  unfold registerFromWorkspaceInvitation
  intro db
  apply sends_requireInvitation
  intro invitation _
  split
  · exact True.intro
  · split
    · exact True.intro
    · split
      · exact True.intro
      · exact ⟨True.intro, sends_finish _ _ _ _⟩

theorem sends_sendOnly {batch : Batch} (h : Sent batch) :
    (sendOnly batch).Sends fun batch _ ↦ Sent batch := by
  rw [sendOnly, Workflow.Sends]
  refine ⟨h, fun reply ↦ ?_⟩
  cases reply <;> exact True.intro

theorem sends_program (platform : Platform) (request : Request) :
    (program platform request).Sends fun batch _ ↦ Sent batch := by
  cases request with
  | createWorkspace actorUserId input fresh => exact sends_createWorkspace actorUserId input fresh
  | updateWorkspaceMembership actor input auditId =>
    exact sends_updateWorkspaceMembership actor input auditId
  | createWorkspaceInvitation actor email role fresh =>
    exact sends_createWorkspaceInvitation actor email role fresh
  | revokeWorkspaceInvitation actor invitationId auditId =>
    exact sends_revokeWorkspaceInvitation actor invitationId auditId
  | acceptInvitationForUser token userId auditId =>
    exact sends_acceptInvitationForUser token userId auditId
  | registerFromWorkspaceInvitation token name password fresh =>
    exact sends_registerFromWorkspaceInvitation token name password fresh
  | deleteMemberships keys => exact sends_sendOnly trivial
  | addUser user => exact sends_sendOnly trivial
  | markWorkspace workspaceId deletedAt => exact sends_sendOnly trivial
  | pass milliseconds => exact sends_sendOnly trivial

end Handlers

theorem inv_emptyDb : Inv emptyDb where
  administered _ h := absurd h List.not_mem_nil
  memberKeys := uniqueKey_nil

theorem visits_inv (platform : Platform) (actions : List (Action Request)) :
    Visits (step (program platform) perform) (fun system ↦ Inv system.store)
      (start emptyDb) actions := by
  have hbatch : ∀ (db : AccessDb) (batch : Batch), Inv db → Sent batch → True →
      Inv (perform batch db).1 := fun _ _ hinv hsent _ ↦ inv_perform hsent hinv
  refine visits_of_sends (sends_program platform) hbatch inv_emptyDb ?_
  have hstep : ∀ (system : System Request AccessDb Batch (Option (List ℕ))
      (Except HttpError Answer)) (action : Action Request), True → True := fun _ _ h ↦ h
  exact along_of_visits (fun _ _ _ _ _ ↦ trivial) (visits_invariant hstep trivial actions)

/-! ## Updates that fail -/

/-- Memberships and the audit log are as they were. -/
def Unchanged (db after : AccessDb) : Prop :=
  after.memberships = db.memberships ∧ after.auditLogs = db.auditLogs

theorem Unchanged.refl (db : AccessDb) : Unchanged db db := ⟨rfl, rfl⟩

theorem unchanged_updateMembership {update : UpdateMembership} {results : List ℕ} (hinv : Inv db)
    (h : performFrom (statements (.updateMembership update)) 0 db = some (after, results))
    (hresults : results[0]? ≠ some 1) : Unchanged db after := by
  obtain ⟨updated, changed, rest, hupdated, hrest, rfl⟩ := performFrom_cons_eq_some h
  have hchanged : changed ≠ 1 := fun hone ↦ hresults (congrArg some hone)
  obtain ⟨audited, _, _, haudited, hnil, -⟩ := performFrom_cons_eq_some hrest
  obtain ⟨rfl, -⟩ := Prod.mk.inj (Option.some.inj hnil)
  rw [Statement.afterChange_of_ne hchanged] at haudited
  obtain ⟨rfl, -⟩ := Prod.mk.inj (Option.some.inj haudited)
  unfold updateMembership at hupdated
  dsimp only at hupdated
  split at hupdated
  · cases hupdated
  · obtain ⟨rfl, rfl⟩ := Prod.mk.inj (Option.some.inj hupdated)
    refine ⟨updateWhere_eq_self fun row hrow ↦ ?_, rfl⟩
    have hcount := hinv.memberKeys.countP_key_le_one (update.workspaceId, update.memberId)
    have hle : (db.memberships.countP fun row ↦ row.workspaceId = update.workspaceId &&
        row.userId = update.memberId && update.condition db row) ≤
          db.memberships.countP fun row ↦ row.key = (update.workspaceId, update.memberId) := by
      apply List.countP_mono_left
      intro row _ hmatched
      simp only [Bool.and_eq_true, decide_eq_true_eq] at hmatched
      exact decide_eq_true (Prod.ext hmatched.1.1 hmatched.1.2)
    have hzero := Nat.lt_one_iff.mp (lt_of_le_of_ne (hle.trans hcount) hchanged)
    exact Bool.eq_false_iff.mpr (List.countP_eq_zero.mp hzero row hrow)

/-- The requests whose error is looked at. -/
def failed : Request → Except HttpError Answer → Bool
  | .updateWorkspaceMembership _ _ _, .error _ => true
  | _, _ => false

theorem clean_sendUpdate {workspaceId actorUserId auditId : String} {input : MembershipInput}
    {member : WorkspaceRole × MembershipStatus} {removesActiveAdmin : Bool}
    {bad : Except HttpError Answer → Bool} (hbad : ∀ answer, bad (.ok answer) = false) :
    (sendUpdate workspaceId actorUserId auditId input member removesActiveAdmin).Clean
      perform Inv Unchanged bad := by
  intro clock _ db hinv
  generalize hbatch : Batch.updateMembership _ = batch
  cases hreply : (perform batch db).2 with
  | none =>
    refine .inl ⟨?_, trivial⟩
    rw [perform, perform_of_none hreply]
    exact .refl db
  | some results =>
    have hperform := perform_eq_some hreply
    by_cases hresults : results[0]? = some 1
    · right
      simp [finish, hresults, hbad, Workflow.Never]
    · refine .inl ⟨?_, ?_⟩
      · rw [← hbatch] at hperform ⊢
        exact unchanged_updateMembership hinv hperform hresults
      · simp [finish, hresults, refuse, Workflow.Clean]

theorem clean_updateWorkspaceMembership (actor : Actor) (input : MembershipInput) (auditId : String)
    {bad : Except HttpError Answer → Bool} (hbad : ∀ answer, bad (.ok answer) = false) :
    (updateWorkspaceMembership actor input auditId).Clean perform Inv Unchanged
      bad := by
  unfold updateWorkspaceMembership
  split
  · trivial
  · intro db _
    dsimp only
    split
    · intro db _
      dsimp only
      split
      · trivial
      · split
        · trivial
        · split
          · intro db _
            dsimp only
            split
            · exact clean_sendUpdate hbad
            · trivial
          · exact clean_sendUpdate hbad
    · trivial

/-- What a request's error must not have changed. -/
def Same : Request → AccessDb → AccessDb → Prop
  | .updateWorkspaceMembership _ _ _, db, after => Unchanged db after
  | _, _, _ => True

theorem clean_program (platform : Platform) (request : Request) :
    (program platform request).Clean perform Inv (Same request) (failed request) := by
  cases request with
  | updateWorkspaceMembership actor input auditId =>
    exact clean_updateWorkspaceMembership actor input auditId fun _ ↦ rfl
  | _ => exact Workflow.clean_of_never (Workflow.never_of_forall (fun _ ↦ rfl) _)

/-- In every run, every workspace has an active administrator in every state, and no step of an
update that ends with an error has changed a membership or the audit log. -/
theorem administrators_stay (platform : Platform) (actions : List (Action Request)) :
    Visits (step (program platform) perform)
        (fun system ↦ Administered system.store) (start emptyDb) actions ∧
      ∀ (index : ℕ) (actor : Actor) (input : MembershipInput) (auditId : String)
        (error : HttpError),
        (run (step (program platform) perform) (start emptyDb) actions).calls[index]? =
            some ⟨.updateWorkspaceMembership actor input auditId, .ended (.error error)⟩ →
          Along (step (program platform) perform)
            (fun system action ↦ action.of = some index → Unchanged system.store
              (step (program platform) perform system action).store)
            (start emptyDb) actions := by
  have hvisits := visits_inv platform actions
  refine ⟨visits_mono (fun _ hinv ↦ hinv.administered) hvisits, ?_⟩
  intro index actor input auditId error hended
  have hrefl : ∀ request db, Same request db db := by
    intro request db
    cases request with
    | updateWorkspaceMembership actor input auditId => exact .refl db
    | _ => trivial
  exact same_of_bad hrefl (clean_program platform)
    (fun _ hcall ↦ by cases List.mem_of_getElem? hcall) hvisits hended rfl

end AlphaPing.Access.Administrators
