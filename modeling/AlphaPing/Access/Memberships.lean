import AlphaPing.Access.Conditions
import AlphaPing.Library.Batches
import AlphaPing.Protocol.Messages

/-!
# Members and invitations of a workspace

The tables behind the administration of members, the statements on them with the constraints and
triggers of the migrations, and the handlers: each asks its questions, looks at the clock where the
source calls `Date.now`, and sends its batches.

Users also come by other ways than invitations, workspaces are deleted softly and restored, and
memberships can be deleted; these are single statements here.
-/

namespace AlphaPing.Access.Memberships

open Library.Tables Library.Batches Protocol

open Conditions (MembershipStatus)
open Monitoring.Control (WorkspaceRole)

/-! ## Tables -/

structure WorkspaceRow where
  id : String
  telemetryPk : ℕ
  slug : String
  name : String
  deletedAt : Option ℤ

structure UserRow where
  id : String
  name : String
  email : String

/-- A row of `account` with the provider `credential`. -/
structure AccountRow where
  id : String
  userId : String
  password : String

structure MembershipRow where
  workspaceId : String
  userId : String
  role : WorkspaceRole
  status : MembershipStatus
  createdAt : ℤ
  updatedAt : ℤ

structure InvitationRow where
  id : String
  workspaceId : String
  email : String
  role : WorkspaceRole
  tokenDigest : Bytes
  expiresAt : ℤ
  acceptedAt : Option ℤ
  revokedAt : Option ℤ
  createdBy : String
  createdAt : ℤ

/-- What `auditDigest` is applied to. -/
inductive AuditValue where
  | membership (role : WorkspaceRole) (status : MembershipStatus)
  | invitation (role : WorkspaceRole) (expiresAt : ℤ)
  | revoked (revokedAt : ℤ)
  | accepted (accepted : Bool) (role : Option WorkspaceRole)
  | workspace (name slug : String)

/-- A row of `audit_logs`, with values in the place of their digests. -/
structure AuditRow where
  id : String
  workspaceId : String
  actorUserId : String
  action : String
  resourceType : String
  resourceId : String
  before : Option AuditValue
  after : Option AuditValue
  createdAt : ℤ

/-- The membership that an acceptance has made, and the address of its user. -/
structure Yield where
  invitationId : String
  membership : MembershipRow
  email : String

structure AccessDb where
  /-- `Date.now()`. -/
  clock : ℤ
  /-- `telemetry_resource_sequences` of the kind `workspace`. -/
  workspaceSequence : ℕ
  workspaces : List WorkspaceRow
  users : List UserRow
  accounts : List AccountRow
  memberships : List MembershipRow
  invitations : List InvitationRow
  auditLogs : List AuditRow
  /-- What the acceptances have made, in their order. -/
  yields : List Yield

def emptyDb : AccessDb := ⟨0, 0, [], [], [], [], [], [], []⟩

/-- The primary key of `memberships`. -/
def MembershipRow.key (row : MembershipRow) : String × String := (row.workspaceId, row.userId)

def MembershipRow.activeAdmin (row : MembershipRow) : Bool :=
  row.role = .admin && row.status = .active

/-- `workspace_invitations_pending_email_uq` is an index on these rows. -/
def InvitationRow.pending (row : InvitationRow) : Bool :=
  row.acceptedAt.isNone && row.revokedAt.isNone

def InvitationRow.target (row : InvitationRow) : String × String := (row.workspaceId, row.email)

/-- The condition that the triggers on `memberships` share. -/
def otherAdmin (rows : List MembershipRow) (old : MembershipRow) : Bool :=
  rows.any fun row ↦ row.workspaceId = old.workspaceId && row.userId ≠ old.userId &&
    row.activeAdmin

/-- The actor is an active administrator. -/
def AccessDb.hasAdmin (db : AccessDb) (workspaceId userId : String) : Bool :=
  db.memberships.any fun row ↦ row.workspaceId = workspaceId && row.userId = userId &&
    row.activeAdmin

/-! ## Statements -/

def insertWorkspace (row : WorkspaceRow) : Statement AccessDb := fun _ db ↦
  if db.workspaces.any fun old ↦ old.id = row.id || old.telemetryPk = row.telemetryPk ||
    old.slug = row.slug then none
  else some ({ db with workspaces := db.workspaces ++ [row] }, 1)

def insertUser (row : UserRow) : Statement AccessDb := fun _ db ↦
  if db.users.any fun old ↦ old.id = row.id || old.email = row.email then none
  else some ({ db with users := db.users ++ [row] }, 1)

def insertAccount (row : AccountRow) : Statement AccessDb := fun _ db ↦
  if (db.accounts.any fun old ↦ old.id = row.id || old.userId = row.userId) ||
    !db.users.any fun user ↦ user.id = row.userId then none
  else some ({ db with accounts := db.accounts ++ [row] }, 1)

/-- The primary key is free, and both references lead somewhere. -/
def membershipFits (db : AccessDb) (row : MembershipRow) : Bool :=
  (!db.memberships.any fun old ↦ old.key = row.key) &&
    (db.workspaces.any fun workspace ↦ workspace.id = row.workspaceId) &&
    db.users.any fun user ↦ user.id = row.userId

def insertMembership (row : MembershipRow) : Statement AccessDb := fun _ db ↦
  if membershipFits db row then some ({ db with memberships := db.memberships ++ [row] }, 1)
  else none

/-- `INSERT INTO audit_logs`. -/
def insertAudit (row : AuditRow) : Statement AccessDb := fun _ db ↦
  if (db.auditLogs.any fun old ↦ old.id = row.id) ||
    (!db.workspaces.any fun workspace ↦ workspace.id = row.workspaceId) ||
    (!db.users.any fun user ↦ user.id = row.actorUserId) then none
  else some ({ db with auditLogs := db.auditLogs ++ [row] }, 1)

/-- `UPDATE memberships SET role = ?, status = ?, updated_at = ?` of one member, under a
condition, with the trigger `memberships_keep_active_admin_on_update`. -/
def updateMembership (workspaceId userId : String) (condition : AccessDb → MembershipRow → Bool)
    (role : WorkspaceRole) (status : MembershipStatus) (now : ℤ) : Statement AccessDb := fun _ db ↦
  let matched (row : MembershipRow) : Bool :=
    row.workspaceId = workspaceId && row.userId = userId && condition db row
  if db.memberships.any fun row ↦ matched row && row.activeAdmin &&
    !(role = .admin && status = .active) && !otherAdmin db.memberships row then none
  else some
    ({ db with
      memberships := updateWhere matched
        (fun row ↦ { row with role := role, status := status, updatedAt := now }) db.memberships },
      db.memberships.countP matched)

/-- `UPDATE memberships SET updated_at = updated_at` of an administrator. -/
def touchAdmin (workspaceId userId : String) : Statement AccessDb := fun _ db ↦
  some (db, db.memberships.countP fun row ↦ row.workspaceId = workspaceId && row.userId = userId &&
    row.activeAdmin && db.hasAdmin row.workspaceId userId)

/-- `DELETE` of one membership, with the trigger `memberships_keep_active_admin_on_delete`. -/
def deleteMembership (key : String × String) : Statement AccessDb := fun _ db ↦
  if db.memberships.any fun row ↦ row.key = key && row.activeAdmin &&
    !otherAdmin db.memberships row then none
  else some ({ db with memberships := db.memberships.filter fun row ↦ row.key ≠ key },
    db.memberships.countP fun row ↦ row.key = key)

/-- `UPDATE workspaces SET deleted_at = ?`. -/
def markWorkspace (workspaceId : String) (deletedAt : Option ℤ) : Statement AccessDb := fun _ db ↦
  some
    ({ db with
      workspaces := updateWhere (fun row ↦ row.id = workspaceId)
        (fun row ↦ { row with deletedAt := deletedAt }) db.workspaces },
      db.workspaces.countP fun row ↦ row.id = workspaceId)

/-- `UPDATE workspace_invitations SET revoked_at = ?` of pending rows. -/
def revokeInvitations (condition : AccessDb → InvitationRow → Bool) (now : ℤ) :
    Statement AccessDb := fun _ db ↦
  let matched (row : InvitationRow) : Bool := row.pending && condition db row
  some
    ({ db with
      invitations := updateWhere matched (fun row ↦ { row with revokedAt := some now })
        db.invitations },
      db.invitations.countP matched)

/-- `INSERT INTO workspace_invitations … WHERE EXISTS` the administrator. -/
def insertInvitation (row : InvitationRow) : Statement AccessDb := fun _ db ↦
  if !db.hasAdmin row.workspaceId row.createdBy then some (db, 0)
  else if (db.invitations.any fun old ↦ old.id = row.id || old.tokenDigest = row.tokenDigest ||
      (old.pending && row.pending && old.workspaceId = row.workspaceId &&
        old.email = row.email)) ||
    (!db.workspaces.any fun workspace ↦ workspace.id = row.workspaceId) ||
    !db.users.any fun user ↦ user.id = row.createdBy then none
  else some ({ db with invitations := db.invitations ++ [row] }, 1)

/-- `UPDATE workspace_invitations SET accepted_at = ?`. -/
def consumeInvitation (invitationId : String) (now : ℤ) : Statement AccessDb := fun _ db ↦
  let matched (row : InvitationRow) : Bool :=
    row.id = invitationId && row.pending && decide (now < row.expiresAt)
  some
    ({ db with
      invitations := updateWhere matched (fun row ↦ { row with acceptedAt := some now })
        db.invitations },
      db.invitations.countP matched)

/-- The membership whose workspace and role are read from the accepted invitation. Without one
they are null, which violates a constraint. -/
def insertAcceptedMembership (invitationId userId : String) (now : ℤ) : Statement AccessDb :=
  fun changes db ↦
    match db.invitations.find? fun row ↦ row.id = invitationId && row.acceptedAt = some now with
    | none => none
    | some invitation =>
      let row : MembershipRow := ⟨invitation.workspaceId, userId, invitation.role, .active, now, now⟩
      (insertMembership row changes db).map fun (after, changed) ↦
        ({ after with yields := after.yields ++
            ((db.users.find? fun user ↦ user.id = userId).map fun user ↦
              ⟨invitationId, row, user.email⟩).toList }, changed)

/-! ## Batches -/

structure UpdateMembership where
  workspaceId : String
  actorUserId : String
  memberId : String
  /-- The row as it was read. -/
  member : WorkspaceRole × MembershipStatus
  role : WorkspaceRole
  status : MembershipStatus
  removesActiveAdmin : Bool
  now : ℤ
  audit : AuditRow

/-- The condition of the update, besides the primary key. -/
def UpdateMembership.condition (update : UpdateMembership) (db : AccessDb) (row : MembershipRow) :
    Bool :=
  (row.role, row.status) = update.member && db.hasAdmin row.workspaceId update.actorUserId &&
    (!update.removesActiveAdmin || otherAdmin db.memberships row)

inductive Batch where
  | nextWorkspaceSequence
  | createWorkspace (workspace : WorkspaceRow) (membership : MembershipRow) (audit : AuditRow)
  | updateMembership (update : UpdateMembership)
  | createInvitation (invitation : InvitationRow) (now : ℤ) (audit : AuditRow)
  | revokeInvitation (workspaceId actorUserId invitationId : String) (now : ℤ) (audit : AuditRow)
  | acceptInvitation (invitationId userId : String) (now : ℤ) (audit : AuditRow)
  | register (invitationId : String) (user : UserRow) (account : AccountRow) (now : ℤ)
      (audit : AuditRow)
  | deleteMemberships (keys : List (String × String))
  | addUser (user : UserRow)
  | markWorkspace (workspaceId : String) (deletedAt : Option ℤ)
  | pass (milliseconds : ℕ)

def statements : Batch → List (Statement AccessDb)
  | .nextWorkspaceSequence =>
    [fun _ db ↦ some ({ db with workspaceSequence := db.workspaceSequence + 1 }, 1)]
  | .createWorkspace workspace membership audit =>
    [insertWorkspace workspace, insertMembership membership, insertAudit audit]
  | .updateMembership update =>
    [updateMembership update.workspaceId update.memberId update.condition update.role
      update.status update.now, (insertAudit update.audit).afterChange]
  | .createInvitation invitation now audit =>
    [touchAdmin invitation.workspaceId invitation.createdBy, (insertAudit audit).afterChange,
      revokeInvitations (fun db row ↦ row.workspaceId = invitation.workspaceId &&
        row.email = invitation.email && db.hasAdmin row.workspaceId invitation.createdBy) now,
      insertInvitation invitation]
  | .revokeInvitation workspaceId actorUserId invitationId now audit =>
    [revokeInvitations (fun db row ↦ row.id = invitationId && row.workspaceId = workspaceId &&
        db.hasAdmin row.workspaceId actorUserId) now, (insertAudit audit).afterChange]
  | .acceptInvitation invitationId userId now audit =>
    consumeInvitation invitationId now ::
      [insertAcceptedMembership invitationId userId now, insertAudit audit].map
        Statement.afterChange
  | .register invitationId user account now audit =>
    consumeInvitation invitationId now ::
      [insertUser user, insertAccount account, insertAcceptedMembership invitationId user.id now,
        insertAudit audit].map Statement.afterChange
  | .deleteMemberships keys => keys.map deleteMembership
  | .addUser user => [insertUser user]
  | .markWorkspace workspaceId deletedAt => [markWorkspace workspaceId deletedAt]
  | .pass milliseconds => [fun _ db ↦ some ({ db with clock := db.clock + milliseconds }, 0)]

def perform (batch : Batch) (db : AccessDb) : AccessDb × Option (List ℕ) :=
  Library.Batches.perform (statements batch) db

end AlphaPing.Access.Memberships
