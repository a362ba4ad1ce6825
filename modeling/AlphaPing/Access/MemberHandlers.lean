import AlphaPing.Access.Memberships
import AlphaPing.Monitoring.Handlers

/-!
# The handlers of members and invitations

Each handler as the questions that it asks, with the refusals in between, and the batch that it
sends at the end. Random values (identifiers and tokens) come with the request; a collision with a
stored one is stopped by a constraint. The grants of a member, which `loadMonitoringAccess` reads
before `requireAdmin` refuses him, are left out.
-/

namespace AlphaPing.Access.MemberHandlers

open Library.Workflows Protocol Memberships

open Conditions (MembershipStatus)
open Monitoring.Control (WorkspaceRole Actor)
open Monitoring.ServiceConfig (HttpError)
open Monitoring.Handlers (isSpace trim utf16Length)

/-- What the handlers take from the platform. Case conversion is idempotent. -/
structure Platform where
  invitationSecret : String
  hmac : String → String → Bytes
  hashPassword : String → String
  toLowerCase : String → String
  toLowerCase_idem : ∀ text, toLowerCase (toLowerCase text) = toLowerCase text

inductive Answer where
  | done
  | workspaceCreated (id slug : String)
  | invited (id token : String) (expiresAt : ℤ)
  | accepted (workspaceSlug : String)
  | registered (workspaceSlug email : String)

abbrev Flow := Workflow AccessDb Batch (Option (List ℕ)) (Except HttpError Answer)

def refuse (status : ℕ) (message : String) : Flow :=
  .ended (.error ⟨status, message⟩)

/-- An error of D1 that the handler passes on. -/
def d1Error : Flow := refuse 500 "D1_ERROR"

/-- The end of a handler: each of the first so many statements has changed one row. -/
def finish (changed : ℕ) (conflict : String) (answer : Answer) : Option (List ℕ) → Flow
  | none => d1Error
  | some results =>
    if (List.range changed).all fun index ↦ results[index]? = some 1 then .ended (.ok answer)
    else refuse 409 conflict

/-! ## Texts -/

/-- The length of a text lies between these bounds. -/
@[irreducible] def lengthBetween (minimum maximum : ℕ) (text : String) : Bool :=
  minimum ≤ utf16Length text && utf16Length text ≤ maximum

/-- `/^[^\s@]+@[^\s@]+\.[^\s@]+$/`: the point is neither first nor last behind the sign. -/
def emailShape (characters : List Char) : Bool :=
  let domain := (characters.dropWhile (· ≠ '@')).tail
  !characters.any isSpace && characters.count '@' = 1 && characters.head? ≠ some '@' &&
    (domain.dropLast.drop 1).contains '.'

def normalizeEmail (platform : Platform) (email : String) : Option String :=
  let normalized := platform.toLowerCase (trim email)
  if !lengthBetween 3 254 normalized || !emailShape normalized.toList then none
  else some normalized

def tokenCharacter (character : Char) : Bool :=
  ('A' ≤ character && character ≤ 'Z') || ('a' ≤ character && character ≤ 'z') ||
    ('0' ≤ character && character ≤ '9') || character = '_' || character = '-'

def invitationDigest (platform : Platform) (token : String) : Option Bytes :=
  if token.toList.length = 43 && token.toList.all tokenCharacter &&
    32 ≤ utf16Length platform.invitationSecret then
    some (platform.hmac platform.invitationSecret ("alphaping/workspace-invitation/v1:" ++ token))
  else none

def slugCharacter (character : Char) : Bool :=
  ('a' ≤ character && character ≤ 'z') || ('0' ≤ character && character ≤ '9')

/-- `/^[a-z0-9][a-z0-9-]{1,46}[a-z0-9]$/`. -/
@[irreducible] def slugValid (slug : String) : Bool :=
  (3 ≤ slug.toList.length && slug.toList.length ≤ 48) && slug.toList.head?.any slugCharacter &&
    slug.toList.getLast?.any slugCharacter &&
    slug.toList.all fun character ↦ slugCharacter character || character = '-'

/-! ## Access -/

/-- The workspace of a slug and the role that the user has in it. -/
def workspaceOf (db : AccessDb) (actor : Actor) : Option (String × WorkspaceRole) :=
  (db.workspaces.filter fun workspace ↦
    workspace.slug = actor.workspaceSlug && workspace.deletedAt.isNone).findSome? fun workspace ↦
      (db.memberships.find? fun membership ↦ membership.workspaceId = workspace.id &&
        membership.userId = actor.userId && membership.status = .active).map fun membership ↦
          (workspace.id, membership.role)

def requireWorkspaceAdmin (actor : Actor) (next : String → Flow) : Flow :=
  .ask (fun db ↦ workspaceOf db actor) fun
  | some (workspaceId, .admin) => next workspaceId
  | _ => refuse 404 "Workspace not found"

/-! ## Members -/

structure MembershipInput where
  memberId : String
  role : WorkspaceRole
  status : MembershipStatus

/-- Two active administrators are found. -/
def replacementAdmin (db : AccessDb) (workspaceId : String) : Bool :=
  2 ≤ db.memberships.countP fun row ↦ row.workspaceId = workspaceId && row.activeAdmin

def memberOf (db : AccessDb) (workspaceId memberId : String) :
    Option (WorkspaceRole × MembershipStatus) :=
  (db.memberships.find? fun row ↦ row.workspaceId = workspaceId && row.userId = memberId &&
    (row.status = .active || row.status = .suspended)).map fun row ↦ (row.role, row.status)

/-- The last step of `updateWorkspaceMembership`. -/
def sendUpdate (workspaceId actorUserId auditId : String) (input : MembershipInput)
    (member : WorkspaceRole × MembershipStatus) (removesActiveAdmin : Bool) : Flow :=
  .ask AccessDb.clock fun now ↦
    .send (.updateMembership {
      workspaceId, actorUserId, memberId := input.memberId, member, role := input.role
      status := input.status, removesActiveAdmin, now
      audit := ⟨auditId, workspaceId, actorUserId, "membership.update", "membership",
        input.memberId, some (.membership member.1 member.2),
        some (.membership input.role input.status), now⟩ })
      (finish 1 "Workspace membership changed; reload and try again" .done)

def updateWorkspaceMembership (actor : Actor) (input : MembershipInput) (auditId : String) : Flow :=
  if input.status = .invited then refuse 400 "Membership status is invalid"
  else requireWorkspaceAdmin actor fun workspaceId ↦
    .ask (fun db ↦ memberOf db workspaceId input.memberId) fun
    | none => refuse 404 "Member not found"
    | some member =>
      let staysAdmin := decide (input.role = .admin ∧ input.status = .active)
      if input.memberId = actor.userId && !staysAdmin then
        refuse 409 "You cannot remove your own active administrator access"
      else
        let removesActiveAdmin := decide (member = (.admin, .active)) && !staysAdmin
        let send := sendUpdate workspaceId actor.userId auditId input member removesActiveAdmin
        if removesActiveAdmin then
          .ask (fun db ↦ replacementAdmin db workspaceId) fun replacement ↦
            if replacement then send
            else refuse 409 "The workspace must keep at least one active administrator"
        else send

/-! ## Workspaces -/

structure CreateWorkspaceInput where
  name : String
  slug : String
  rawDays : ℤ
  defaultSamplingIntervalSeconds : ℤ

/-- `normalizeWorkspaceInput`; the visibility is one of its three values. -/
def normalizeWorkspaceInput (input : CreateWorkspaceInput) :
    Except HttpError CreateWorkspaceInput :=
  let normalized := { input with name := trim input.name, slug := trim input.slug }
  let interval := input.defaultSamplingIntervalSeconds
  if !lengthBetween 2 80 normalized.name then
    .error ⟨400, "Workspace name is invalid"⟩
  else if !slugValid normalized.slug then .error ⟨400, "Workspace slug is invalid"⟩
  else if input.rawDays < 1 || 90 < input.rawDays then
    .error ⟨400, "Raw retention must be between 1 and 90 days"⟩
  else if interval < 1 || 300 < interval || 60 % interval ≠ 0 then
    .error ⟨400, "Default sampling interval must divide the 60 second report period"⟩
  else .ok normalized

/-- The identifiers that a request draws. -/
structure Fresh where
  id : String
  accountId : String
  auditId : String
  token : String

def slugTaken (db : AccessDb) (slug : String) : Bool :=
  db.workspaces.any fun workspace ↦ workspace.slug = slug

def createWorkspace (actorUserId : String) (input : CreateWorkspaceInput) (fresh : Fresh) : Flow :=
  match normalizeWorkspaceInput input with
  | .error error => .ended (.error error)
  | .ok normalized =>
    .ask (fun db ↦ db.users.any fun user ↦ user.id = actorUserId) fun actor ↦
      if !actor then refuse 404 "Account not found"
      else .ask (fun db ↦ slugTaken db normalized.slug) fun existing ↦
        if existing then refuse 409 "Workspace slug is already in use"
        else .send .nextWorkspaceSequence fun _ ↦
          .ask (fun db ↦ (db.workspaceSequence, db.clock)) fun (sequence, now) ↦
            .send (.createWorkspace
              ⟨fresh.id, sequence, normalized.slug, normalized.name, none⟩
              ⟨fresh.id, actorUserId, .admin, .active, now, now⟩
              ⟨fresh.auditId, fresh.id, actorUserId, "workspace.create", "workspace", fresh.id,
                none, some (.workspace normalized.name normalized.slug), now⟩) fun
            | some _ => .ended (.ok (.workspaceCreated fresh.id normalized.slug))
            | none => .ask (fun db ↦ slugTaken db normalized.slug) fun collision ↦
                if collision then refuse 409 "Workspace slug is already in use" else d1Error

/-! ## Invitations -/

structure InvitationRecord where
  id : String
  workspaceId : String
  workspaceSlug : String
  email : String
  role : WorkspaceRole
  expiresAt : ℤ
  existingUserId : Option String

/-- The query of `invitationRecord`. -/
def invitationRecord (db : AccessDb) (digest : Bytes) : Option InvitationRecord :=
  (db.invitations.filter fun row ↦ row.tokenDigest = digest && row.pending).findSome? fun row ↦
    (db.workspaces.find? fun workspace ↦
      workspace.id = row.workspaceId && workspace.deletedAt.isNone).map fun workspace ↦ {
        id := row.id, workspaceId := row.workspaceId, workspaceSlug := workspace.slug
        email := row.email, role := row.role, expiresAt := row.expiresAt
        existingUserId := (db.users.find? fun user ↦ user.email = row.email).map UserRow.id }

/-- `invitationRecord` of a token that has not expired. -/
def requireInvitation (platform : Platform) (token : String) (now : ℤ)
    (next : InvitationRecord → Flow) : Flow :=
  match invitationDigest platform token with
  | none => refuse 404 "Invitation not found"
  | some digest => .ask (fun db ↦ invitationRecord db digest) fun
    | none => refuse 404 "Invitation not found"
    | some invitation =>
      if invitation.expiresAt ≤ now then refuse 404 "Invitation not found" else next invitation

def invitationLifetime : ℤ := 7 * 24 * 60 * 60000

def createWorkspaceInvitation (platform : Platform) (actor : Actor) (email : String)
    (role : WorkspaceRole) (fresh : Fresh) : Flow :=
  requireWorkspaceAdmin actor fun workspaceId ↦
    match normalizeEmail platform email with
    | none => refuse 400 "A valid email address is required"
    | some email =>
      .ask (fun db ↦ db.memberships.any fun row ↦ row.workspaceId = workspaceId &&
          db.users.any fun user ↦ user.id = row.userId && user.email = email) fun member ↦
        if member then refuse 409 "This user already belongs to the workspace"
        else match invitationDigest platform fresh.token with
        | none => refuse 404 "Invitation not found"
        | some digest => .ask AccessDb.clock fun now ↦
          let expiresAt := now + invitationLifetime
          .send (.createInvitation
            ⟨fresh.id, workspaceId, email, role, digest, expiresAt, none, none, actor.userId, now⟩
            now
            ⟨fresh.auditId, workspaceId, actor.userId, "workspace_invitation.create",
              "workspace_invitation", fresh.id, none, some (.invitation role expiresAt), now⟩)
            (finish 1 "Workspace access changed; reload and try again"
              (.invited fresh.id fresh.token expiresAt))

def revokeWorkspaceInvitation (actor : Actor) (invitationId auditId : String) : Flow :=
  requireWorkspaceAdmin actor fun workspaceId ↦
    .ask (fun db ↦ db.invitations.find? fun row ↦
      row.id = invitationId && row.workspaceId = workspaceId && row.pending) fun
    | none => refuse 404 "Invitation not found"
    | some invitation => .ask AccessDb.clock fun now ↦
      .send (.revokeInvitation workspaceId actor.userId invitationId now
        ⟨auditId, workspaceId, actor.userId, "workspace_invitation.revoke", "workspace_invitation",
          invitationId, some (.invitation invitation.role invitation.expiresAt),
          some (.revoked now), now⟩)
        (finish 1 "Invitation is no longer revocable" .done)

def acceptanceAudit (invitation : InvitationRecord) (actorUserId auditId : String) (now : ℤ) :
    AuditRow :=
  ⟨auditId, invitation.workspaceId, actorUserId, "workspace_invitation.accept",
    "workspace_invitation", invitation.id, some (.accepted false none),
    some (.accepted true (some invitation.role)), now⟩

/-- The user is the one of the session. -/
def acceptInvitationForUser (platform : Platform) (token userId auditId : String) : Flow :=
  .ask (fun db ↦ (db.users.find? fun user ↦ user.id = userId, db.clock)) fun
  | (none, _) => refuse 401 "Unauthorized"
  | (some user, now) => requireInvitation platform token now fun invitation ↦
    match normalizeEmail platform user.email with
    | none => refuse 400 "A valid email address is required"
    | some email =>
      if email ≠ invitation.email then
        refuse 403 "Sign in with the email address that received this invitation"
      else .send (.acceptInvitation invitation.id user.id now
          (acceptanceAudit invitation user.id auditId now))
        (finish 2 "Invitation is no longer available" (.accepted invitation.workspaceSlug))

def registerFromWorkspaceInvitation (platform : Platform) (token name password : String)
    (fresh : Fresh) : Flow :=
  .ask AccessDb.clock fun now ↦ requireInvitation platform token now fun invitation ↦
    if invitation.existingUserId.isSome then
      refuse 409 "An account already exists for this invitation; sign in to continue"
    else if !lengthBetween 2 80 (trim name) then
      refuse 400 "Name must contain 2 to 80 characters"
    else if !lengthBetween 12 128 password then
      refuse 400 "Password must contain 12 to 128 characters"
    else .send (.register invitation.id ⟨fresh.id, trim name, invitation.email⟩
        ⟨fresh.accountId, fresh.id, platform.hashPassword password⟩ now
        (acceptanceAudit invitation fresh.id fresh.auditId now))
      (finish 4 "Invitation is no longer available"
        (.registered invitation.workspaceSlug invitation.email))

/-! ## Requests -/

inductive Request where
  | createWorkspace (actorUserId : String) (input : CreateWorkspaceInput) (fresh : Fresh)
  | updateWorkspaceMembership (actor : Actor) (input : MembershipInput) (auditId : String)
  | createWorkspaceInvitation (actor : Actor) (email : String) (role : WorkspaceRole)
      (fresh : Fresh)
  | revokeWorkspaceInvitation (actor : Actor) (invitationId auditId : String)
  | acceptInvitationForUser (token userId auditId : String)
  | registerFromWorkspaceInvitation (token name password : String) (fresh : Fresh)
  | deleteMemberships (keys : List (String × String))
  | addUser (user : UserRow)
  | markWorkspace (workspaceId : String) (deletedAt : Option ℤ)
  | pass (milliseconds : ℕ)

/-- A single batch. -/
def sendOnly (batch : Batch) : Flow := .send batch fun
  | none => d1Error
  | some _ => .ended (.ok .done)

def program (platform : Platform) : Request → Flow
  | .createWorkspace actorUserId input fresh => createWorkspace actorUserId input fresh
  | .updateWorkspaceMembership actor input auditId =>
    updateWorkspaceMembership actor input auditId
  | .createWorkspaceInvitation actor email role fresh =>
    createWorkspaceInvitation platform actor email role fresh
  | .revokeWorkspaceInvitation actor invitationId auditId =>
    revokeWorkspaceInvitation actor invitationId auditId
  | .acceptInvitationForUser token userId auditId =>
    acceptInvitationForUser platform token userId auditId
  | .registerFromWorkspaceInvitation token name password fresh =>
    registerFromWorkspaceInvitation platform token name password fresh
  | .deleteMemberships keys => sendOnly (.deleteMemberships keys)
  | .addUser user => sendOnly (.addUser user)
  | .markWorkspace workspaceId deletedAt => sendOnly (.markWorkspace workspaceId deletedAt)
  | .pass milliseconds => sendOnly (.pass milliseconds)

end AlphaPing.Access.MemberHandlers
