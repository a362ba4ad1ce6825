import AlphaPing.Access.MemberHandlers

/-!
# Invitations are used once

An acceptance reads an invitation, and its batch marks the invitation, if it is still pending,
before anything else. What follows in the batch asks for that one change and takes the workspace
and the role from the row that was marked. An error leaves nothing behind: either the invitation
was not found, and the chain has done nothing, or a constraint has taken the batch back.

The time of an acceptance is read when it begins. An invitation that expires between this and the
batch is accepted all the same.
-/

namespace AlphaPing.Access.Invitations

open Library.Tables Library.Workflows Memberships MemberHandlers
open Library.Batches hiding perform

open Conditions (MembershipStatus)
open Monitoring.Control (WorkspaceRole Actor)
open Monitoring.ServiceConfig (HttpError)

/-! ## The invariant -/

/-- An invitation that is pending has not been replaced. -/
def Unreplaced (older newer : InvitationRow) : Prop :=
  older.pending = true → older.target ≠ newer.target

/-- The membership is the one that the invitation promises, for its recipient. -/
structure Rightful (platform : Platform) (invitation : InvitationRow) (users : List UserRow)
    (made : Yield) : Prop where
  id : invitation.id = made.invitationId
  workspace : made.membership.workspaceId = invitation.workspaceId
  role : made.membership.role = invitation.role
  recipient : ∃ user ∈ users, user.id = made.membership.userId ∧ user.email = made.email ∧
    normalizeEmail platform made.email = some invitation.email
  /-- The acceptance began before the invitation expired. -/
  unexpired : made.membership.createdAt < invitation.expiresAt

variable {platform : Platform}

variable (platform) in
structure Inv (db : AccessDb) : Prop where
  ids : UniqueKey InvitationRow.id db.invitations
  userIds : UniqueKey UserRow.id db.users
  normalized : ∀ row ∈ db.invitations, normalizeEmail platform row.email = some row.email
  unreplaced : db.invitations.Pairwise Unreplaced
  yields : ∀ made ∈ db.yields, ∃ row ∈ db.invitations, Rightful platform row db.users made ∧
    row.acceptedAt = some made.membership.createdAt ∧ row.revokedAt = none
  once : UniqueKey Yield.invitationId db.yields

theorem inv_emptyDb : Inv platform emptyDb where
  ids := uniqueKey_nil
  userIds := uniqueKey_nil
  normalized _ h := absurd h List.not_mem_nil
  unreplaced := .nil
  yields _ h := absurd h List.not_mem_nil
  once := uniqueKey_nil

theorem Inv.onePending {db : AccessDb} (h : Inv platform db) :
    UniqueKey InvitationRow.target (db.invitations.filter InvitationRow.pending) := by
  have hfilter := h.unreplaced.filter InvitationRow.pending
  refine List.pairwise_map.mpr (List.Pairwise.imp_of_mem (fun hmem _ hne ↦ ?_) hfilter)
  exact hne (List.mem_filter.mp hmem).2

/-- What a call has read of users, invitations and the clock still holds. -/
structure Rely (db later : AccessDb) : Prop where
  clock : db.clock ≤ later.clock
  users : ∀ user ∈ db.users, user ∈ later.users
  invitations : ∀ row ∈ db.invitations, ∃ other ∈ later.invitations, other.id = row.id ∧
    other.email = row.email

theorem Rely.refl (db : AccessDb) : Rely db db where
  clock := le_rfl
  users _ h := h
  invitations row h := ⟨row, h, rfl, rfl⟩

theorem Rely.trans {first second third : AccessDb} (h : Rely first second)
    (h' : Rely second third) : Rely first third where
  clock := h.clock.trans h'.clock
  users user huser := h'.users user (h.users user huser)
  invitations row hrow := by
    obtain ⟨other, hother, hid, hemail⟩ := h.invitations row hrow
    obtain ⟨last, hlast, hid', hemail'⟩ := h'.invitations other hother
    exact ⟨last, hlast, hid'.trans hid, hemail'.trans hemail⟩

theorem Rely.invitation {db later : AccessDb} (h : Rely db later) {id email : String}
    (hrow : ∃ row ∈ db.invitations, row.id = id ∧ row.email = email) :
    ∃ row ∈ later.invitations, row.id = id ∧ row.email = email := by
  obtain ⟨row, hmem, rfl, rfl⟩ := hrow
  exact h.invitations row hmem

variable (platform) in
/-- What a handler has checked before it sends its batch. -/
def Good (db : AccessDb) : Batch → Prop
  | .acceptInvitation invitationId userId now _ => now ≤ db.clock ∧
      ∃ row ∈ db.invitations, row.id = invitationId ∧
        ∃ user ∈ db.users, user.id = userId ∧ normalizeEmail platform user.email = some row.email
  | .register invitationId user _ now _ => now ≤ db.clock ∧
      ∃ row ∈ db.invitations, row.id = invitationId ∧ user.email = row.email
  | .createInvitation invitation _ _ => invitation.pending = true ∧
      normalizeEmail platform invitation.email = some invitation.email
  | _ => True

/-! ## Statements -/

section Statements

variable {db after : AccessDb} {changes changed : ℕ}

theorem inv_of_eq (hinv : Inv platform db) (hinvitations : after.invitations = db.invitations)
    (husers : after.users = db.users) (hyields : after.yields = db.yields) :
    Inv platform after where
  ids := hinvitations ▸ hinv.ids
  userIds := husers ▸ hinv.userIds
  normalized := hinvitations ▸ hinv.normalized
  unreplaced := hinvitations ▸ hinv.unreplaced
  yields := by
    rw [hinvitations, husers, hyields]
    exact hinv.yields
  once := hyields ▸ hinv.once

theorem rely_of_eq (hclock : db.clock ≤ after.clock)
    (hinvitations : after.invitations = db.invitations) (husers : after.users = db.users) :
    Rely db after where
  clock := hclock
  users _ h := husers ▸ h
  invitations row h := ⟨row, hinvitations ▸ h, rfl, rfl⟩

variable {change : InvitationRow → InvitationRow}

theorem unreplaced_updateWhere {rows : List InvitationRow} {condition : InvitationRow → Bool}
    (htarget : ∀ row, (change row).target = row.target)
    (hpending : ∀ row, (change row).pending = false) (h : rows.Pairwise Unreplaced) :
    (updateWhere condition change rows).Pairwise Unreplaced := by
  rw [updateWhere, List.pairwise_map]
  refine h.imp fun {older newer} hne ↦ ?_
  have hnewer : (if condition newer then change newer else newer).target = newer.target := by
    split
    · exact htarget newer
    · rfl
  rw [Unreplaced, hnewer]
  by_cases hcondition : condition older = true
  · rw [if_pos hcondition, hpending]
    exact fun h ↦ absurd h Bool.false_ne_true
  · rw [if_neg hcondition]
    exact hne

theorem inv_insertUser {row : UserRow} (hinv : Inv platform db)
    (h : insertUser row changes db = some (after, changed)) : Inv platform after := by
  unfold insertUser at h
  split at h
  · cases h
  · next hfresh =>
    obtain ⟨rfl, -⟩ := Prod.mk.inj (Option.some.inj h)
    simp only [List.any_eq_true, Bool.or_eq_true, decide_eq_true_eq, not_exists, not_and,
      not_or] at hfresh
    refine { hinv with userIds := ?_, yields := fun made hmade ↦ ?_ }
    · exact uniqueKey_append_singleton hinv.userIds fun old hold ↦ (hfresh old hold).1
    · obtain ⟨invitation, hmem, hright, haccepted⟩ := hinv.yields made hmade
      obtain ⟨user, huser, hmatch⟩ := hright.recipient
      exact ⟨invitation, hmem,
        { hright with recipient := ⟨user, List.mem_append_left _ huser, hmatch⟩ }, haccepted⟩

theorem rely_insertUser {row : UserRow}
    (h : insertUser row changes db = some (after, changed)) : Rely db after := by
  unfold insertUser at h
  split at h
  · cases h
  · obtain ⟨rfl, -⟩ := Prod.mk.inj (Option.some.inj h)
    exact ⟨le_rfl, fun user huser ↦ List.mem_append_left _ huser, fun row hrow ↦
      ⟨row, hrow, rfl, rfl⟩⟩

theorem inv_insertInvitation {row : InvitationRow} (hinv : Inv platform db)
    (hpending : row.pending = true) (hnormalized : normalizeEmail platform row.email = some row.email)
    (h : insertInvitation row changes db = some (after, changed)) : Inv platform after := by
  unfold insertInvitation at h
  split_ifs at h with hadmin hfresh
  · obtain ⟨rfl, -⟩ := Prod.mk.inj (Option.some.inj h)
    exact hinv
  · obtain ⟨rfl, -⟩ := Prod.mk.inj (Option.some.inj h)
    simp only [Bool.or_eq_true, List.any_eq_true, Bool.and_eq_true, decide_eq_true_eq, not_or,
      not_exists, not_and, hpending] at hfresh
    have hnew := hfresh.1.1
    refine { hinv with ids := ?_, normalized := ?_, unreplaced := ?_, yields := fun made hmade ↦ ?_ }
    · exact uniqueKey_append_singleton hinv.ids fun old hold ↦ (hnew old hold).1.1
    · intro other hother
      rcases List.mem_append.mp hother with hold | hlast
      · exact hinv.normalized other hold
      · rw [List.mem_singleton.mp hlast]
        exact hnormalized
    · refine List.pairwise_append.mpr ⟨hinv.unreplaced, List.pairwise_singleton _ _, ?_⟩
      intro old hold other hother hwaiting hsame
      rw [List.mem_singleton.mp hother] at hsame
      obtain ⟨hworkspace, hemail⟩ := Prod.mk.inj hsame
      exact (hnew old hold).2 ⟨⟨hwaiting, trivial⟩, hworkspace⟩ hemail
    · obtain ⟨invitation, hmem, hrest⟩ := hinv.yields made hmade
      exact ⟨invitation, List.mem_append_left _ hmem, hrest⟩

theorem rely_insertInvitation {row : InvitationRow}
    (h : insertInvitation row changes db = some (after, changed)) : Rely db after := by
  unfold insertInvitation at h
  split_ifs at h
  · obtain ⟨rfl, -⟩ := Prod.mk.inj (Option.some.inj h)
    exact .refl db
  · obtain ⟨rfl, -⟩ := Prod.mk.inj (Option.some.inj h)
    exact ⟨le_rfl, fun _ huser ↦ huser, fun row hrow ↦ ⟨row, List.mem_append_left _ hrow, rfl, rfl⟩⟩

theorem inv_revokeInvitations {condition : AccessDb → InvitationRow → Bool} {now : ℤ}
    (hinv : Inv platform db)
    (h : revokeInvitations condition now changes db = some (after, changed)) :
    Inv platform after := by
  obtain ⟨rfl, -⟩ := Prod.mk.inj (Option.some.inj h)
  refine { hinv with ids := ?_, normalized := ?_, unreplaced := ?_, yields := fun made hmade ↦ ?_ }
  · exact hinv.ids.updateWhere fun _ ↦ rfl
  · intro row hrow
    obtain ⟨old, hold, ⟨-, rfl⟩ | ⟨-, rfl⟩⟩ := mem_updateWhere.mp hrow
    · exact hinv.normalized old hold
    · exact hinv.normalized row hold
  · refine unreplaced_updateWhere (fun _ ↦ rfl) (fun row ↦ ?_) hinv.unreplaced
    simp [InvitationRow.pending]
  · obtain ⟨invitation, hmem, hright, haccepted⟩ := hinv.yields made hmade
    refine ⟨invitation, mem_updateWhere_of_not hmem ?_, hright, haccepted⟩
    simp [InvitationRow.pending, haccepted.1]

theorem rely_updateWhere {condition : InvitationRow → Bool} (hid : ∀ row, (change row).id = row.id)
    (hemail : ∀ row, (change row).email = row.email) :
    Rely db { db with invitations := updateWhere condition change db.invitations } where
  clock := le_rfl
  users _ h := h
  invitations row hrow := by
    by_cases hcondition : condition row = true
    · exact ⟨change row, mem_updateWhere.mpr ⟨row, hrow, .inl ⟨hcondition, rfl⟩⟩, hid row,
        hemail row⟩
    · exact ⟨row, mem_updateWhere_of_not hrow (Bool.eq_false_iff.mpr hcondition), rfl, rfl⟩

end Statements

/-! ## Acceptances -/

section Acceptances

variable {db after : AccessDb} {invitationId : String} {now : ℤ} {changes changed : ℕ}

/-- The invitation is marked. -/
def consumed (db : AccessDb) (invitationId : String) (now : ℤ) : AccessDb :=
  { db with
    invitations := updateWhere
      (fun row ↦ row.id = invitationId && row.pending && decide (now < row.expiresAt))
      (fun row ↦ { row with acceptedAt := some now }) db.invitations }

structure Acceptable (db : AccessDb) (row : InvitationRow) (now : ℤ) : Prop where
  mem : row ∈ db.invitations
  pending : row.pending = true
  unexpired : now < row.expiresAt

theorem consumeInvitation_cases (hinv : Inv platform db)
    (h : consumeInvitation invitationId now changes db = some (after, changed)) :
    (changed ≠ 1 ∧ after = db) ∨
      (changed = 1 ∧ ∃ row, row.id = invitationId ∧ Acceptable db row now ∧
        after = consumed db row.id now) := by
  obtain ⟨rfl, rfl⟩ := Prod.mk.inj (Option.some.inj h)
  by_cases hfound : ∃ row, row.id = invitationId ∧ Acceptable db row now
  · obtain ⟨row, rfl, hrow⟩ := hfound
    refine .inr ⟨?_, row, rfl, hrow, rfl⟩
    refine hinv.ids.countP_eq_one hrow.mem ?_ fun other hother ↦ ?_
    · simp [hrow.pending, hrow.unexpired]
    · simp only [Bool.and_eq_true, decide_eq_true_eq] at hother
      exact hother.1.1
  · have hnone : ∀ row ∈ db.invitations,
        (row.id = invitationId && row.pending && decide (now < row.expiresAt)) = false := by
      intro row hrow
      by_contra hmatch
      simp only [Bool.not_eq_false, Bool.and_eq_true, decide_eq_true_eq] at hmatch
      exact hfound ⟨row, hmatch.1.1, hrow, hmatch.1.2, hmatch.2⟩
    refine .inl ⟨?_, ?_⟩
    · have hzero := List.countP_eq_zero.mpr fun row hrow ↦ Bool.eq_false_iff.mp (hnone row hrow)
      rw [hzero]
      exact Nat.zero_ne_one
    · rw [updateWhere_eq_self hnone]

def acceptedMembership (row : InvitationRow) (userId : String) (now : ℤ) : MembershipRow :=
  ⟨row.workspaceId, userId, row.role, .active, now, now⟩

def madeBy (row : InvitationRow) (user : UserRow) (now : ℤ) : Yield :=
  ⟨row.id, acceptedMembership row user.id now, user.email⟩

theorem insertAcceptedMembership_eq_some {userId : String}
    (h : insertAcceptedMembership invitationId userId now changes db = some (after, changed)) :
    changed = 1 ∧ ∃ row ∈ db.invitations, row.id = invitationId ∧ row.acceptedAt = some now ∧
      ∃ user ∈ db.users, user.id = userId ∧
        after = { db with
          memberships := db.memberships ++ [acceptedMembership row user.id now]
          yields := db.yields ++ [madeBy row user now] } := by
  unfold insertAcceptedMembership at h
  split at h
  · cases h
  · next row hrow =>
    obtain ⟨⟨inserted, count⟩, hinsert, h⟩ := Option.map_eq_some_iff.mp h
    obtain ⟨rfl, rfl⟩ := Prod.mk.inj h
    unfold insertMembership at hinsert
    split at hinsert
    · next hfits =>
      obtain ⟨rfl, rfl⟩ := Prod.mk.inj (Option.some.inj hinsert)
      have hmatch := List.find?_some hrow
      simp only [Bool.and_eq_true, decide_eq_true_eq] at hmatch
      simp only [membershipFits, Bool.and_eq_true, List.any_eq_true, decide_eq_true_eq] at hfits
      obtain ⟨user, huser⟩ : ∃ user, db.users.find? (fun user ↦ user.id = userId) = some user := by
        apply Option.isSome_iff_exists.mp
        obtain ⟨user, hmem, hid⟩ := hfits.2
        exact List.find?_isSome.mpr ⟨user, hmem, decide_eq_true hid⟩
      obtain rfl : user.id = userId := by simpa using List.find?_some huser
      refine ⟨rfl, row, List.mem_of_find?_eq_some hrow, hmatch.1, hmatch.2, user,
        List.mem_of_find?_eq_some huser, rfl, ?_⟩
      rw [huser, ← hmatch.1]
      rfl
    · cases hinsert

/-- What an acceptance leaves. -/
def acceptedDb (db : AccessDb) (row : InvitationRow) (user : UserRow) (now : ℤ)
    (audit : AuditRow) : AccessDb :=
  { consumed db row.id now with
    memberships := db.memberships ++ [acceptedMembership row user.id now]
    yields := db.yields ++ [madeBy row user now]
    auditLogs := db.auditLogs ++ [audit] }

variable {audit : AuditRow} {row : InvitationRow} {user : UserRow}

variable {results : List ℕ}

theorem performFrom_accepted {userId : String} (hinv : Inv platform db)
    (hrow : Acceptable db row now)
    (h : performFrom ([insertAcceptedMembership row.id userId now, insertAudit audit].map
      Statement.afterChange) 1 (consumed db row.id now) = some (after, results)) :
    results = [1, 1] ∧ ∃ user ∈ db.users, user.id = userId ∧
      after = acceptedDb db row user now audit := by
  obtain ⟨joined, _, _, hjoined, hrest, rfl⟩ := performFrom_cons_eq_some h
  rw [Statement.afterChange_one] at hjoined
  obtain ⟨rfl, other, hother, hid, haccepted, user, huser, rfl, rfl⟩ :=
    insertAcceptedMembership_eq_some hjoined
  obtain ⟨audited, _, _, haudited, hnil, rfl⟩ := performFrom_cons_eq_some hrest
  obtain ⟨rfl, rfl⟩ := Prod.mk.inj (Option.some.inj hnil)
  rw [Statement.afterChange_one] at haudited
  unfold insertAudit at haudited
  split at haudited
  · cases haudited
  · obtain ⟨rfl, rfl⟩ := Prod.mk.inj (Option.some.inj haudited)
    -- the marked row is the one that was found
    have hkept : other.workspaceId = row.workspaceId ∧ other.role = row.role := by
      obtain ⟨old, hold, ⟨-, rfl⟩ | ⟨hnot, rfl⟩⟩ := mem_updateWhere.mp hother
      · rw [hinv.ids.eq_of_mem hold hrow.mem hid]
        exact ⟨rfl, rfl⟩
      · obtain rfl := hinv.ids.eq_of_mem hold hrow.mem hid
        simp [hrow.pending, hrow.unexpired] at hnot
    refine ⟨rfl, user, huser, rfl, ?_⟩
    simp only [acceptedDb, madeBy, acceptedMembership, hkept, hid, consumed]

/-- The batch of `acceptInvitationForUser` finds nothing and does nothing, or does it all. -/
theorem performFrom_acceptInvitation {userId : String} (hinv : Inv platform db)
    (h : performFrom (statements (.acceptInvitation invitationId userId now audit)) 0 db =
      some (after, results)) :
    (after = db ∧ results[0]? ≠ some 1) ∨
      (results = [1, 1, 1] ∧ ∃ row, row.id = invitationId ∧ Acceptable db row now ∧
        ∃ user ∈ db.users, user.id = userId ∧ after = acceptedDb db row user now audit) := by
  obtain ⟨marked, changed, _, hmarked, hrest, rfl⟩ := performFrom_cons_eq_some h
  rcases consumeInvitation_cases hinv hmarked with ⟨hnone, rfl⟩ | ⟨rfl, row, hid, hrow, rfl⟩
  · rw [performFrom_chain_of_ne hnone] at hrest
    obtain ⟨rfl, -⟩ := Prod.mk.inj (Option.some.inj hrest)
    exact .inl ⟨rfl, fun hone ↦ hnone (Option.some.inj hone)⟩
  · subst hid
    obtain ⟨rfl, haccepted⟩ := performFrom_accepted hinv hrow hrest
    exact .inr ⟨rfl, row, rfl, hrow, haccepted⟩

def registered (db : AccessDb) (user : UserRow) (account : AccountRow) : AccessDb :=
  { db with users := db.users ++ [user], accounts := db.accounts ++ [account] }

theorem inv_registered {account : AccountRow} (hinv : Inv platform db)
    (hfresh : ∀ old ∈ db.users, old.id ≠ user.id) :
    Inv platform (registered db user account) := by
  refine { hinv with userIds := ?_, yields := fun made hmade ↦ ?_ }
  · exact uniqueKey_append_singleton hinv.userIds hfresh
  · obtain ⟨invitation, hmem, hright, haccepted⟩ := hinv.yields made hmade
    obtain ⟨other, hother, hmatch⟩ := hright.recipient
    exact ⟨invitation, hmem,
      { hright with recipient := ⟨other, List.mem_append_left _ hother, hmatch⟩ }, haccepted⟩

/-- The batch of `registerFromWorkspaceInvitation` does it all or nothing, too. -/
theorem performFrom_register {account : AccountRow} (hinv : Inv platform db)
    (h : performFrom (statements (.register invitationId user account now audit)) 0 db =
      some (after, results)) :
    (after = db ∧ results[0]? ≠ some 1) ∨
      (results = [1, 1, 1, 1, 1] ∧ (∀ old ∈ db.users, old.id ≠ user.id) ∧
        ∃ row, row.id = invitationId ∧ Acceptable db row now ∧
          after = acceptedDb (registered db user account) row user now audit) := by
  obtain ⟨marked, changed, _, hmarked, hrest, rfl⟩ := performFrom_cons_eq_some h
  rcases consumeInvitation_cases hinv hmarked with ⟨hnone, rfl⟩ | ⟨rfl, row, hid, hrow, rfl⟩
  · rw [performFrom_chain_of_ne hnone] at hrest
    obtain ⟨rfl, -⟩ := Prod.mk.inj (Option.some.inj hrest)
    exact .inl ⟨rfl, fun hone ↦ hnone (Option.some.inj hone)⟩
  · subst hid
    obtain ⟨joined, _, _, hjoined, hrest, rfl⟩ := performFrom_cons_eq_some hrest
    rw [Statement.afterChange_one] at hjoined
    unfold insertUser at hjoined
    split at hjoined
    · cases hjoined
    · next hfresh =>
      obtain ⟨rfl, rfl⟩ := Prod.mk.inj (Option.some.inj hjoined)
      obtain ⟨opened, _, _, hopened, hrest, rfl⟩ := performFrom_cons_eq_some hrest
      rw [Statement.afterChange_one] at hopened
      unfold insertAccount at hopened
      split at hopened
      · cases hopened
      · obtain ⟨rfl, rfl⟩ := Prod.mk.inj (Option.some.inj hopened)
        have hnew : ∀ old ∈ db.users, old.id ≠ user.id := by
          simp only [List.any_eq_true, Bool.or_eq_true, decide_eq_true_eq, not_exists, not_and,
            not_or] at hfresh
          exact fun old hold ↦ (hfresh old hold).1
        have hregistered : Inv platform (registered db user account) := inv_registered hinv hnew
        have hstill : Acceptable (registered db user account) row now :=
          ⟨hrow.mem, hrow.pending, hrow.unexpired⟩
        obtain ⟨rfl, other, hother, hid, rfl⟩ := performFrom_accepted hregistered hstill hrest
        have huser : user ∈ (registered db user account).users :=
          List.mem_append_right _ (List.mem_singleton_self user)
        obtain rfl := hregistered.userIds.eq_of_mem hother huser hid
        exact .inr ⟨rfl, hnew, row, rfl, hrow, rfl⟩

theorem rightful_madeBy (hrow : Acceptable db row now) {users : List UserRow} (huser : user ∈ users)
    (hemail : normalizeEmail platform user.email = some row.email) :
    Rightful platform row users (madeBy row user now) where
  id := rfl
  workspace := rfl
  role := rfl
  recipient := ⟨user, huser, rfl, rfl, hemail⟩
  unexpired := hrow.unexpired

theorem inv_acceptedDb (hinv : Inv platform db) (hrow : Acceptable db row now)
    (huser : user ∈ db.users) (hemail : normalizeEmail platform user.email = some row.email) :
    Inv platform (acceptedDb db row user now audit) := by
  -- an invitation that is pending has made nothing yet
  have hnew : ∀ made ∈ db.yields, made.invitationId ≠ row.id := by
    intro made hmade hsame
    obtain ⟨other, hother, hright, haccepted, -⟩ := hinv.yields made hmade
    obtain rfl := hinv.ids.eq_of_mem hother hrow.mem (hright.id.trans hsame)
    have hpending := hrow.pending
    simp [InvitationRow.pending, haccepted] at hpending
  refine ⟨?_, hinv.userIds, ?_, ?_, ?_, ?_⟩
  · exact hinv.ids.updateWhere fun _ ↦ rfl
  · intro other hother
    obtain ⟨old, hold, ⟨-, rfl⟩ | ⟨-, rfl⟩⟩ := mem_updateWhere.mp hother
    · exact hinv.normalized old hold
    · exact hinv.normalized other hold
  · refine unreplaced_updateWhere (fun _ ↦ rfl) (fun other ↦ ?_) hinv.unreplaced
    simp [InvitationRow.pending]
  · intro made hmade
    rcases List.mem_append.mp hmade with hold | hlast
    · obtain ⟨other, hother, hright, haccepted⟩ := hinv.yields made hold
      refine ⟨other, mem_updateWhere_of_not hother ?_, hright, haccepted⟩
      simp [InvitationRow.pending, haccepted.1]
    · rw [List.mem_singleton.mp hlast]
      have hright := rightful_madeBy hrow huser hemail
      refine ⟨{ row with acceptedAt := some now }, ?_, ?_, rfl, ?_⟩
      · refine mem_updateWhere.mpr ⟨row, hrow.mem, .inl ⟨?_, rfl⟩⟩
        simp [hrow.pending, hrow.unexpired]
      · exact ⟨hright.id, hright.workspace, hright.role, hright.recipient, hright.unexpired⟩
      · have hpending := hrow.pending
        simp only [InvitationRow.pending, Bool.and_eq_true, Option.isNone_iff_eq_none] at hpending
        exact hpending.2
  · exact uniqueKey_append_singleton hinv.once hnew

theorem rely_acceptedDb : Rely db (acceptedDb db row user now audit) := by
  have hconsumed : Rely db (consumed db row.id now) :=
    rely_updateWhere (fun _ ↦ rfl) fun _ ↦ rfl
  exact ⟨hconsumed.clock, hconsumed.users, hconsumed.invitations⟩

end Acceptances

/-! ## Batches -/

def isAcceptance : Batch → Bool
  | .acceptInvitation _ _ _ _ => true
  | .register _ _ _ _ _ => true
  | _ => false

variable (platform) in
/-- Nothing is accepted, and the invariant stays. -/
structure Harmless (db after : AccessDb) : Prop where
  rely : Rely db after
  yields : after.yields = db.yields
  inv : Inv platform db → Inv platform after

section Harmless

variable {db after : AccessDb} {changes changed : ℕ}

theorem harmless_of_eq (hclock : db.clock ≤ after.clock)
    (hinvitations : after.invitations = db.invitations) (husers : after.users = db.users)
    (hyields : after.yields = db.yields) : Harmless platform db after where
  rely := rely_of_eq hclock hinvitations husers
  yields := hyields
  inv hinv := inv_of_eq hinv hinvitations husers hyields

theorem harmless_insertAudit {row : AuditRow}
    (h : (insertAudit row).afterChange changes db = some (after, changed)) :
    Harmless platform db after := by
  unfold Statement.afterChange insertAudit at h
  split_ifs at h
  all_goals
    obtain ⟨rfl, -⟩ := Prod.mk.inj (Option.some.inj h)
    exact harmless_of_eq le_rfl rfl rfl rfl

theorem harmless_revokeInvitations {condition : AccessDb → InvitationRow → Bool} {now : ℤ}
    (h : revokeInvitations condition now changes db = some (after, changed)) :
    Harmless platform db after := by
  have hinv : Inv platform db → Inv platform after := fun hinv ↦ inv_revokeInvitations hinv h
  obtain ⟨rfl, -⟩ := Prod.mk.inj (Option.some.inj h)
  exact ⟨rely_updateWhere (fun _ ↦ rfl) fun _ ↦ rfl, rfl, hinv⟩

theorem harmless_insertInvitation {row : InvitationRow} (hpending : row.pending = true)
    (hnormalized : normalizeEmail platform row.email = some row.email)
    (h : insertInvitation row changes db = some (after, changed)) :
    Harmless platform db after := by
  refine ⟨rely_insertInvitation h, ?_, fun hinv ↦
    inv_insertInvitation hinv hpending hnormalized h⟩
  unfold insertInvitation at h
  split_ifs at h
  all_goals
    obtain ⟨rfl, -⟩ := Prod.mk.inj (Option.some.inj h)
    rfl

theorem harmless_insertUser {row : UserRow}
    (h : insertUser row changes db = some (after, changed)) : Harmless platform db after := by
  refine ⟨rely_insertUser h, ?_, fun hinv ↦ inv_insertUser hinv h⟩
  unfold insertUser at h
  split at h
  · cases h
  · obtain ⟨rfl, -⟩ := Prod.mk.inj (Option.some.inj h)
    rfl

theorem harmless_insertMembership {row : MembershipRow}
    (h : insertMembership row changes db = some (after, changed)) :
    Harmless platform db after := by
  unfold insertMembership at h
  split at h
  · obtain ⟨rfl, -⟩ := Prod.mk.inj (Option.some.inj h)
    exact harmless_of_eq le_rfl rfl rfl rfl
  · cases h

theorem harmless_insertWorkspace {row : WorkspaceRow}
    (h : insertWorkspace row changes db = some (after, changed)) :
    Harmless platform db after := by
  unfold insertWorkspace at h
  split at h
  · cases h
  · obtain ⟨rfl, -⟩ := Prod.mk.inj (Option.some.inj h)
    exact harmless_of_eq le_rfl rfl rfl rfl

theorem harmless_statement {batch : Batch} (hbatch : isAcceptance batch = false) {first : AccessDb}
    (hgood : Good platform first batch) {statement : Statement AccessDb}
    (hstatement : statement ∈ statements batch)
    (h : statement changes db = some (after, changed)) : Harmless platform db after := by
  cases batch with
  | acceptInvitation invitationId userId now audit => cases hbatch
  | register invitationId user account now audit => cases hbatch
  | nextWorkspaceSequence =>
    rw [List.mem_singleton.mp hstatement] at h
    obtain ⟨rfl, -⟩ := Prod.mk.inj (Option.some.inj h)
    exact harmless_of_eq le_rfl rfl rfl rfl
  | createWorkspace workspace membership audit =>
    simp only [statements, List.mem_cons, List.not_mem_nil, or_false] at hstatement
    rcases hstatement with rfl | rfl | rfl
    · exact harmless_insertWorkspace h
    · exact harmless_insertMembership h
    · unfold insertAudit at h
      split at h
      · cases h
      · obtain ⟨rfl, -⟩ := Prod.mk.inj (Option.some.inj h)
        exact harmless_of_eq le_rfl rfl rfl rfl
  | updateMembership update =>
    simp only [statements, List.mem_cons, List.not_mem_nil, or_false] at hstatement
    rcases hstatement with rfl | rfl
    · unfold updateMembership at h
      dsimp only at h
      split at h
      · cases h
      · obtain ⟨rfl, -⟩ := Prod.mk.inj (Option.some.inj h)
        exact harmless_of_eq le_rfl rfl rfl rfl
    · exact harmless_insertAudit h
  | createInvitation invitation now audit =>
    simp only [statements, List.mem_cons, List.not_mem_nil, or_false] at hstatement
    rcases hstatement with rfl | rfl | rfl | rfl
    · obtain ⟨rfl, -⟩ := Prod.mk.inj (Option.some.inj h)
      exact harmless_of_eq le_rfl rfl rfl rfl
    · exact harmless_insertAudit h
    · exact harmless_revokeInvitations h
    · exact harmless_insertInvitation hgood.1 hgood.2 h
  | revokeInvitation workspaceId actorUserId invitationId now audit =>
    simp only [statements, List.mem_cons, List.not_mem_nil, or_false] at hstatement
    rcases hstatement with rfl | rfl
    · exact harmless_revokeInvitations h
    · exact harmless_insertAudit h
  | deleteMemberships keys =>
    obtain ⟨key, -, rfl⟩ := List.mem_map.mp hstatement
    unfold deleteMembership at h
    split at h
    · cases h
    · obtain ⟨rfl, -⟩ := Prod.mk.inj (Option.some.inj h)
      exact harmless_of_eq le_rfl rfl rfl rfl
  | addUser user =>
    rw [List.mem_singleton.mp hstatement] at h
    exact harmless_insertUser h
  | markWorkspace workspaceId deletedAt =>
    rw [List.mem_singleton.mp hstatement] at h
    obtain ⟨rfl, -⟩ := Prod.mk.inj (Option.some.inj h)
    exact harmless_of_eq le_rfl rfl rfl rfl
  | pass milliseconds =>
    rw [List.mem_singleton.mp hstatement] at h
    obtain ⟨rfl, -⟩ := Prod.mk.inj (Option.some.inj h)
    exact harmless_of_eq (Int.le_add_of_nonneg_right (Int.natCast_nonneg milliseconds)) rfl rfl rfl

theorem Harmless.trans {last : AccessDb} (h : Harmless platform db after)
    (h' : Harmless platform after last) : Harmless platform db last where
  rely := h.rely.trans h'.rely
  yields := h'.yields.trans h.yields
  inv hinv := h'.inv (h.inv hinv)

theorem harmless_perform {batch : Batch} (hbatch : isAcceptance batch = false)
    (hgood : Good platform db batch) : Harmless platform db (perform batch db).1 := by
  refine perform_keeps (fun statement hstatement changes middle next changed hkept h ↦ ?_)
    (harmless_of_eq le_rfl rfl rfl rfl)
  exact hkept.trans (harmless_statement hbatch hgood hstatement h)

end Harmless

section Accepting

variable {db : AccessDb}

variable (platform) in
/-- One membership is made, from an invitation that is pending and has not been replaced. -/
def Accepts (db after : AccessDb) : Prop :=
  ∃ made older row newer, db.invitations = older ++ row :: newer ∧
    (∀ other ∈ newer, other.target ≠ row.target) ∧ row.pending = true ∧
    Rightful platform row after.users made ∧ made.membership.createdAt ≤ db.clock ∧
    after.yields = db.yields ++ [made] ∧ after.memberships = db.memberships ++ [made.membership]

/-- What an acceptance's batch has done, and its answer. -/
inductive Done (platform : Platform) (db : AccessDb) (batch : Batch) (success : List ℕ) : Prop where
  | nothing (same : (perform batch db).1 = db)
      (refused : ∀ results, (perform batch db).2 = some results →
        results[0]? ≠ some 1)
  | all (reply : (perform batch db).2 = some success)
      (accepts : Accepts platform db (perform batch db).1)
      (rely : Rely db (perform batch db).1)
      (inv : Inv platform (perform batch db).1)

theorem newest_of_pending (hinv : Inv platform db) {row : InvitationRow} (hmem : row ∈ db.invitations)
    (hpending : row.pending = true) : ∃ older newer, db.invitations = older ++ row :: newer ∧
      ∀ other ∈ newer, other.target ≠ row.target := by
  obtain ⟨older, newer, hsplit⟩ := List.append_of_mem hmem
  refine ⟨older, newer, hsplit, fun other hother hsame ↦ ?_⟩
  have hunreplaced := hinv.unreplaced
  rw [hsplit, List.pairwise_append, List.pairwise_cons] at hunreplaced
  exact hunreplaced.2.1.1 other hother hpending hsame.symm

theorem done_acceptInvitation (hinv : Inv platform db) {invitationId userId : String} {now : ℤ}
    {audit : AuditRow}
    (hgood : Good platform db (.acceptInvitation invitationId userId now audit)) :
    Done platform db (.acceptInvitation invitationId userId now audit) [1, 1, 1] := by
  cases hreply : (perform (.acceptInvitation invitationId userId now audit) db).2 with
  | none => exact .nothing (perform_of_none hreply) fun results h ↦ nomatch hreply.symm.trans h
  | some results =>
    rcases performFrom_acceptInvitation hinv (perform_eq_some hreply) with
      ⟨hsame, hrefused⟩ | ⟨rfl, row, rfl, hrow, user, huser, rfl, hafter⟩
    · refine .nothing hsame fun others h ↦ ?_
      rwa [← Option.some.inj (hreply.symm.trans h)]
    · obtain ⟨hclock, other, hother, hid, reader, hreader, hreaderId, hemail⟩ := hgood
      obtain rfl := hinv.ids.eq_of_mem hother hrow.mem hid
      obtain rfl := hinv.userIds.eq_of_mem hreader huser hreaderId
      obtain ⟨older, newer, hsplit, hnewest⟩ := newest_of_pending hinv hrow.mem hrow.pending
      refine .all hreply ?_ ?_ ?_
      all_goals rw [perform, hafter]
      · exact ⟨_, older, other, newer, hsplit, hnewest, hrow.pending,
          rightful_madeBy hrow huser hemail, hclock, rfl, rfl⟩
      · exact rely_acceptedDb
      · exact inv_acceptedDb hinv hrow huser hemail

theorem done_register (hinv : Inv platform db) {invitationId : String} {user : UserRow}
    {account : AccountRow} {now : ℤ} {audit : AuditRow}
    (hgood : Good platform db (.register invitationId user account now audit)) :
    Done platform db (.register invitationId user account now audit) [1, 1, 1, 1, 1] := by
  cases hreply : (perform (.register invitationId user account now audit) db).2 with
  | none => exact .nothing (perform_of_none hreply) fun results h ↦ nomatch hreply.symm.trans h
  | some results =>
    rcases performFrom_register hinv (perform_eq_some hreply) with
      ⟨hsame, hrefused⟩ | ⟨rfl, hfresh, row, rfl, hrow, hafter⟩
    · refine .nothing hsame fun others h ↦ ?_
      rwa [← Option.some.inj (hreply.symm.trans h)]
    · obtain ⟨hclock, other, hother, hid, haddress⟩ := hgood
      obtain rfl := hinv.ids.eq_of_mem hother hrow.mem hid
      have hemail : normalizeEmail platform user.email = some other.email :=
        haddress ▸ hinv.normalized other hother
      have hregistered : Inv platform (registered db user account) := inv_registered hinv hfresh
      have hstill : Acceptable (registered db user account) other now :=
        ⟨hrow.mem, hrow.pending, hrow.unexpired⟩
      have huser : user ∈ (registered db user account).users :=
        List.mem_append_right _ (List.mem_singleton_self user)
      obtain ⟨older, newer, hsplit, hnewest⟩ := newest_of_pending hinv hrow.mem hrow.pending
      refine .all hreply ?_ ?_ ?_
      all_goals rw [perform, hafter]
      · exact ⟨_, older, other, newer, hsplit, hnewest, hrow.pending,
          rightful_madeBy hrow huser hemail, hclock, rfl, rfl⟩
      · have hgrown : Rely db (registered db user account) :=
          ⟨le_rfl, fun _ h ↦ List.mem_append_left _ h, fun row h ↦ ⟨row, h, rfl, rfl⟩⟩
        exact hgrown.trans rely_acceptedDb
      · exact inv_acceptedDb hregistered hstill huser hemail

variable (platform) in
/-- A membership comes from an invitation in one way only. -/
def Orderly (db : AccessDb) (batch : Batch) : Prop :=
  if isAcceptance batch = true then
    (perform batch db).1 = db ∨ Accepts platform db (perform batch db).1
  else (perform batch db).1.yields = db.yields

theorem orderly_of_good (hinv : Inv platform db) {batch : Batch} (hgood : Good platform db batch) :
    Orderly platform db batch := by
  have hdone {success : List ℕ} (h : Done platform db batch success) :
      (perform batch db).1 = db ∨
        Accepts platform db (perform batch db).1 := by
    cases h with
    | nothing same refused => exact .inl same
    | all reply accepts rely inv => exact .inr accepts
  unfold Orderly
  split
  · next hacceptance =>
    cases batch with
    | acceptInvitation invitationId userId now audit => exact hdone (done_acceptInvitation hinv hgood)
    | register invitationId user account now audit => exact hdone (done_register hinv hgood)
    | _ => cases hacceptance
  · next hother => exact (harmless_perform (Bool.eq_false_iff.mpr hother) hgood).yields

theorem guarantee (platform : Platform) :
    Guarantee perform (Inv platform) Rely (Good platform) fun _ _ ↦ True := by
  have hboth {db : AccessDb} {batch : Batch} (hinv : Inv platform db)
      (hgood : Good platform db batch) : Inv platform (perform batch db).1 ∧
        Rely db (perform batch db).1 := by
    have hdone {success : List ℕ} (h : Done platform db batch success) :
        Inv platform (perform batch db).1 ∧
          Rely db (perform batch db).1 := by
      cases h with
      | nothing same refused =>
        rw [same]
        exact ⟨hinv, .refl db⟩
      | all reply accepts rely inv => exact ⟨inv, rely⟩
    by_cases hacceptance : isAcceptance batch = true
    · cases batch with
      | acceptInvitation invitationId userId now audit =>
        exact hdone (done_acceptInvitation hinv hgood)
      | register invitationId user account now audit => exact hdone (done_register hinv hgood)
      | _ => cases hacceptance
    · have hharmless := harmless_perform (Bool.eq_false_iff.mpr hacceptance) hgood
      exact ⟨hharmless.inv hinv, hharmless.rely⟩
  exact {
    refl := .refl
    trans := .trans
    inv := fun hinv hgood _ ↦ (hboth hinv hgood).1
    rely := fun hinv hgood _ ↦ (hboth hinv hgood).2 }

end Accepting

end AlphaPing.Access.Invitations
