import AlphaPing.Library.Sql
import AlphaPing.Monitoring.Control

/-!
# The access conditions of SQL statements

Who may see or manage a resource is decided in three places: by `canAccessResource` on the grants
that were read, by `resourceCapabilityCondition` in the statements that list, and by
`finalResourceCapabilityCondition` in the statements that write. The two conditions are built here
as their sources build them, a text with positional parameters and a list of binds, and are
evaluated on the tables as they are when the statement runs.

An expression for a resource or for its workspace is a column of a row of the enclosing statement
or a parameter with its bind. The enclosing rows have names of their own (`machines`, `m`,
`service`, …), none of which is bound again inside a condition.
-/

namespace AlphaPing.Access.Conditions

open Library.Sql Library.Tables Monitoring.Control

/-! ## The tables -/

inductive MembershipStatus where
  | invited | active | suspended
  deriving DecidableEq

structure Membership where
  workspaceId : String
  userId : String
  role : WorkspaceRole
  status : MembershipStatus

/-- The primary key of `memberships`. -/
def Membership.key (row : Membership) : String × String := (row.workspaceId, row.userId)

structure Service where
  id : String
  workspaceId : String
  deletedAt : Option ℕ

inductive AffectedType where
  | machine | service
  deriving DecidableEq

/-- A row of `incident_resources`. -/
structure IncidentResource where
  incidentId : String
  resourceType : AffectedType
  resourceId : String

/-- The tables that decide who may do what, with their keys. -/
structure AccessDb where
  memberships : List Membership
  grants : List GrantRow
  services : List Service
  incidentResources : List IncidentResource
  oneMembership : UniqueKey Membership.key memberships
  oneService : UniqueKey Service.id services
  oneResource : incidentResources.Nodup

def AccessDb.membershipOf (db : AccessDb) (workspaceId userId : String) : Option Membership :=
  lookup Membership.key (workspaceId, userId) db.memberships

def AccessDb.grantsOf (db : AccessDb) (workspaceId userId : String) : List GrantRow :=
  db.grants.filter fun grant ↦ grant.workspaceId = workspaceId && grant.subjectUserId = userId

/-- The role of an active member. -/
def AccessDb.roleOf (db : AccessDb) (workspaceId userId : String) : Option WorkspaceRole :=
  ((db.membershipOf workspaceId userId).filter fun row ↦ row.status = .active).map
    Membership.role

def AccessDb.ActiveAs (db : AccessDb) (workspaceId userId : String) (role : WorkspaceRole) : Prop :=
  ∃ membership, db.membershipOf workspaceId userId = some membership ∧
    membership.status = .active ∧ membership.role = role

/-- The user is active with the role, and the policy grants the capability on the resource. -/
def AccessDb.Permits (db : AccessDb) (workspaceId userId : String) (role : WorkspaceRole)
    (resourceType : ResourceType) (resourceId : String) (capability : Capability) : Prop :=
  db.ActiveAs workspaceId userId role ∧
    canAccessResource role (db.grantsOf workspaceId userId) resourceType resourceId capability =
      true

/-! ## The rows that a statement sees -/

inductive Table where
  | memberships | resourceGrants | services | incidentResources
  deriving DecidableEq

inductive Column where
  | id | workspaceId | userId | role | status | subjectUserId | resourceType | resourceId
  | capability | effect | incidentId | deletedAt
  deriving DecidableEq

inductive Alias where
  | actor | allowed | denied | affected | blockedAffected | current
  /-- A row of the statement around the condition. -/
  | enclosing (name : String)
  deriving DecidableEq

inductive Value where
  | text (text : String)
  | number (number : ℕ)
  deriving DecidableEq

instance : NatCast Value := ⟨.number⟩

def roleText : WorkspaceRole → String
  | .admin => "admin"
  | .member => "member"

def statusText : MembershipStatus → String
  | .invited => "invited"
  | .active => "active"
  | .suspended => "suspended"

def resourceTypeText : ResourceType → String
  | .machine => "machine"
  | .service => "service"
  | .container => "container"
  | .dashboard => "dashboard"
  | .incident => "incident"

def capabilityText : Capability → String
  | .view => "view"
  | .manage => "manage"

def effectText : GrantEffect → String
  | .allow => "allow"
  | .deny => "deny"

def affectedTypeText : AffectedType → String
  | .machine => "machine"
  | .service => "service"

def membershipColumns (row : Membership) : Row Column Value
  | .workspaceId => some (.text row.workspaceId)
  | .userId => some (.text row.userId)
  | .role => some (.text (roleText row.role))
  | .status => some (.text (statusText row.status))
  | _ => none

def grantColumns (row : GrantRow) : Row Column Value
  | .workspaceId => some (.text row.workspaceId)
  | .subjectUserId => some (.text row.subjectUserId)
  | .resourceType => some (.text (resourceTypeText row.resourceType))
  | .resourceId => some (.text row.resourceId)
  | .capability => some (.text (capabilityText row.capability))
  | .effect => some (.text (effectText row.effect))
  | _ => none

def serviceColumns (row : Service) : Row Column Value
  | .id => some (.text row.id)
  | .workspaceId => some (.text row.workspaceId)
  | .deletedAt => row.deletedAt.map .number
  | _ => none

def incidentResourceColumns (row : IncidentResource) : Row Column Value
  | .incidentId => some (.text row.incidentId)
  | .resourceType => some (.text (affectedTypeText row.resourceType))
  | .resourceId => some (.text row.resourceId)
  | _ => none

def AccessDb.database (db : AccessDb) : Database Table Column Value
  | .memberships => db.memberships.map membershipColumns
  | .resourceGrants => db.grants.map grantColumns
  | .services => db.services.map serviceColumns
  | .incidentResources => db.incidentResources.map incidentResourceColumns

abbrev SqlTerm := Term Column Alias Value

abbrev SqlOperand := Operand Column Alias Value

/-- A text with positional parameters, and its binds. -/
abbrev QueryCondition := Query Table Column Alias Value

abbrev SqlScope := Scope Column Alias Value

abbrev quoted (text : String) : SqlTerm := .literal (.text text)

/-! ## `resource-access-query.ts` -/

structure ResourceQueryAccess where
  workspaceId : String
  userId : String
  role : WorkspaceRole

/-- `alias.column` in a text. -/
structure ColumnName where
  name : Alias
  field : Column

def ColumnName.term (column : ColumnName) : SqlTerm := .column column.name column.field

def activeRoleCondition (access : ResourceQueryAccess) : QueryCondition where
  sql := .any .memberships .actor <| .all
    (.equals (.column .actor .workspaceId) .parameter) [
    .equals (.column .actor .userId) .parameter,
    .equals (.column .actor .role) .parameter,
    .equals (.column .actor .status) (quoted "active")]
  binds := [.text access.workspaceId, .text access.userId, .text (roleText access.role)]
  filled := rfl

/-- The capabilities whose grant allows one. -/
def allowedCapabilities : Capability → List String
  | .manage => ["manage"]
  | .view => ["view", "manage"]

/-- The capabilities whose denial denies one. -/
def deniedCapabilities : Capability → List String
  | .manage => ["view", "manage"]
  | .view => ["view"]

def grantAllowCondition (access : ResourceQueryAccess) (resourceType : ResourceType)
    (resourceIdExpression : ColumnName) (capability : Capability) : QueryCondition where
  sql := .any .resourceGrants .allowed <| .all
    (.equals (.column .allowed .workspaceId) .parameter) [
    .equals (.column .allowed .subjectUserId) .parameter,
    .equals (.column .allowed .resourceType) .parameter,
    .equals (.column .allowed .resourceId) resourceIdExpression.term,
    .isIn (.column .allowed .capability) ((allowedCapabilities capability).map quoted),
    .equals (.column .allowed .effect) (quoted "allow")]
  binds := [.text access.workspaceId, .text access.userId, .text (resourceTypeText resourceType)]
  filled := by cases capability <;> rfl

def grantDenyCondition (access : ResourceQueryAccess) (resourceType : ResourceType)
    (resourceIdExpression : ColumnName) (capability : Capability) : QueryCondition where
  sql := .not <| .any .resourceGrants .denied <| .all
    (.equals (.column .denied .workspaceId) .parameter) [
    .equals (.column .denied .subjectUserId) .parameter,
    .equals (.column .denied .resourceType) .parameter,
    .equals (.column .denied .resourceId) resourceIdExpression.term,
    .isIn (.column .denied .capability) ((deniedCapabilities capability).map quoted),
    .equals (.column .denied .effect) (quoted "deny")]
  binds := [.text access.workspaceId, .text access.userId, .text (resourceTypeText resourceType)]
  filled := by cases capability <;> rfl

def resourceCapabilityCondition (access : ResourceQueryAccess) (resourceType : ResourceType)
    (resourceIdExpression : ColumnName) (capability : Capability) : QueryCondition :=
  let activeRole := activeRoleCondition access
  if access.role = .admin then activeRole
  else
    let allow := grantAllowCondition access resourceType resourceIdExpression capability
    let deny := grantDenyCondition access resourceType resourceIdExpression capability
    { sql := (activeRole.sql.and allow.sql).and deny.sql
      binds := activeRole.binds ++ allow.binds ++ deny.binds
      filled := by
        simp only [Condition.parameters, activeRole.filled, allow.filled, deny.filled,
          List.length_append] }

/-! ## `finalResourceCapabilityCondition` -/

/-- An expression in the text of an enclosing statement, with the binds that go with it. -/
inductive Expression where
  | column (name : String) (field : Column)
  | parameter (bind : String)

def Expression.operand : Expression → SqlOperand
  | .column name field => .column (.enclosing name) field
  | .parameter bind => .parameter (.text bind)

/-- Of the snapshot the condition depends on the role only. -/
def finalResourceCapabilityCondition (access : MonitoringAccess) (actorUserId : String)
    (resourceType : ResourceType) (workspace resource : Expression) (capability : Capability) :
    QueryCondition :=
  let workspaceExpression := workspace.operand.term
  let workspaceBinds := workspace.operand.binds
  let resourceIdExpression := resource.operand.term
  let resourceIdBinds := resource.operand.binds
  if access.role ≠ .member then
    { sql := .any .memberships .actor <| .all
        (.equals (.column .actor .workspaceId) workspaceExpression) [
        .equals (.column .actor .userId) .parameter,
        .equals (.column .actor .role) (quoted "admin"),
        .equals (.column .actor .status) (quoted "active")]
      binds := workspaceBinds ++ [.text actorUserId]
      filled := by cases workspace <;> rfl }
  else
    { sql :=
        ((Condition.any .memberships .actor <| .all
          (.equals (.column .actor .workspaceId) workspaceExpression) [
          .equals (.column .actor .userId) .parameter,
          .equals (.column .actor .role) (quoted "member"),
          .equals (.column .actor .status) (quoted "active")]).and
        (.any .resourceGrants .allowed <| .all
          (.equals (.column .allowed .workspaceId) workspaceExpression) [
          .equals (.column .allowed .subjectUserId) .parameter,
          .equals (.column .allowed .resourceType) .parameter,
          .equals (.column .allowed .resourceId) resourceIdExpression,
          .isIn (.column .allowed .capability) ((allowedCapabilities capability).map quoted),
          .equals (.column .allowed .effect) (quoted "allow")])).and
        (.not <| .any .resourceGrants .denied <| .all
          (.equals (.column .denied .workspaceId) workspaceExpression) [
          .equals (.column .denied .subjectUserId) .parameter,
          .equals (.column .denied .resourceType) .parameter,
          .equals (.column .denied .resourceId) resourceIdExpression,
          .isIn (.column .denied .capability) ((deniedCapabilities capability).map quoted),
          .equals (.column .denied .effect) (quoted "deny")])
      binds :=
        workspaceBinds ++ [.text actorUserId] ++
        workspaceBinds ++ [.text actorUserId, .text (resourceTypeText resourceType)] ++
        resourceIdBinds ++
        workspaceBinds ++ [.text actorUserId, .text (resourceTypeText resourceType)] ++
        resourceIdBinds
      filled := by cases workspace <;> cases resource <;> cases capability <;> rfl }

/-! ## The parts of a condition -/

/-- The comparison of a column of the row that a `SELECT` has brought into scope. -/
abbrev own (name : Alias) (field : Column) (operand : SqlOperand) : QueryCondition :=
  .equals (.column name field) operand

def text (text : String) : SqlOperand := .literal (.text text)

/-- `EXISTS (SELECT 1 FROM memberships actor …)` -/
def memberQuery (workspace userId role : SqlOperand) : QueryCondition :=
  .any .memberships .actor <| .all
    (own .actor .workspaceId workspace) [
    own .actor .userId userId,
    own .actor .role role,
    own .actor .status (text "active")]

abbrev ownIn (name : Alias) (field : Column) (constants : List String) : QueryCondition :=
  .isIn (.column name field) (constants.map text)

/-- `EXISTS (SELECT 1 FROM resource_grants …)`, with its comparison of the capability. -/
def grantQuery (name : Alias) (workspace userId resourceType resource : SqlOperand)
    (capability : QueryCondition) (effect : GrantEffect) : QueryCondition :=
  .any .resourceGrants name <| .all
    (own name .workspaceId workspace) [
    own name .subjectUserId userId,
    own name .resourceType resourceType,
    own name .resourceId resource,
    capability,
    own name .effect (text (effectText effect))]

section Parts

variable {db : AccessDb} {scope : SqlScope}

variable {row : Row Column Value}

variable {name : Alias}

theorem holds_own {field : Column} {operand : SqlOperand} (h : operand.Free name) :
    (own name field operand).Holds db.database (Function.update scope name row) ↔
      ∃ value, row field = some value ∧ operand.value scope = some value := by
  rw [own, Query.holds_equals, Operand.value_self, h]

theorem holds_own_text {field : Column} {constant : String} :
    (own name field (text constant)).Holds db.database (Function.update scope name row) ↔
      row field = some (.text constant) := by
  rw [text, holds_own (Operand.free_literal name _)]
  simp

theorem roleText_injective : Function.Injective roleText := by
  intro first second
  cases first <;> cases second <;> decide

theorem resourceTypeText_injective : Function.Injective resourceTypeText := by
  intro first second
  cases first <;> cases second <;> decide

theorem holds_memberQuery {workspace userId role : SqlOperand} (hworkspace : workspace.Free .actor)
    (huserId : userId.Free .actor) (hrole : role.Free .actor) :
    (memberQuery workspace userId role).Holds db.database scope ↔
      ∃ row ∈ db.memberships, workspace.value scope = some (.text row.workspaceId) ∧
        userId.value scope = some (.text row.userId) ∧
        role.value scope = some (.text (roleText row.role)) ∧ row.status = .active := by
  have hstatus (status : MembershipStatus) : statusText status = "active" ↔ status = .active := by
    cases status <;> decide
  rw [memberQuery, Query.holds_any]
  simp only [AccessDb.database, List.mem_map, exists_exists_and_eq_and]
  apply exists_congr
  intro row
  apply and_congr_right
  intro hrow
  rw [Query.holds_all, holds_own hworkspace]
  simp only [List.forall_mem_cons, holds_own huserId, holds_own hrole, holds_own_text,
    membershipColumns, Option.some.injEq, exists_eq_left', Value.text.injEq, hstatus]
  simp

theorem holds_ownIn {field : Column} {constants : List String} {constant : String}
    (h : row field = some (.text constant)) :
    (ownIn name field constants).Holds db.database (Function.update scope name row) ↔
      constant ∈ constants := by
  rw [ownIn, Query.holds_isIn]
  simp [text, h]

def ComparesCapability (db : AccessDb) (name : Alias) (capability : QueryCondition)
    (capabilities : List String) : Prop :=
  ∀ (scope : SqlScope) (grant : GrantRow),
    capability.Holds db.database (Function.update scope name (grantColumns grant)) ↔
      capabilityText grant.capability ∈ capabilities

theorem comparesCapability_ownIn (db : AccessDb) (name : Alias) (capabilities : List String) :
    ComparesCapability db name (ownIn name .capability capabilities) capabilities :=
  fun _ _ ↦ holds_ownIn rfl

theorem comparesCapability_own (db : AccessDb) (name : Alias) (capability : String) :
    ComparesCapability db name (own name .capability (text capability)) [capability] := by
  intro scope grant
  rw [holds_own_text]
  simp [grantColumns]

theorem holds_grantQuery {workspace userId resourceType resource : SqlOperand}
    {capability : QueryCondition} {capabilities : List String} {effect : GrantEffect}
    (hworkspace : workspace.Free name) (huserId : userId.Free name)
    (hresourceType : resourceType.Free name) (hresource : resource.Free name)
    (hcapability : ComparesCapability db name capability capabilities) :
    (grantQuery name workspace userId resourceType resource capability effect).Holds
        db.database scope ↔
      ∃ grant ∈ db.grants, workspace.value scope = some (.text grant.workspaceId) ∧
        userId.value scope = some (.text grant.subjectUserId) ∧
        resourceType.value scope = some (.text (resourceTypeText grant.resourceType)) ∧
        resource.value scope = some (.text grant.resourceId) ∧
        capabilityText grant.capability ∈ capabilities ∧ grant.effect = effect := by
  have heffect (other : GrantEffect) : effectText other = effectText effect ↔ other = effect := by
    cases other <;> cases effect <;> decide
  rw [grantQuery, Query.holds_any]
  simp only [AccessDb.database, List.mem_map, exists_exists_and_eq_and]
  apply exists_congr
  intro grant
  apply and_congr_right
  intro hgrant
  rw [Query.holds_all, holds_own hworkspace]
  simp only [List.forall_mem_cons, holds_own huserId, holds_own hresourceType,
    holds_own hresource, holds_own_text, hcapability scope grant, grantColumns,
    Option.some.injEq, exists_eq_left', Value.text.injEq, heffect]
  simp

end Parts

/-! ## The conditions as compositions of their parts -/

def ResourceQueryAccess.workspace (access : ResourceQueryAccess) : SqlOperand :=
  .parameter (.text access.workspaceId)

def ResourceQueryAccess.user (access : ResourceQueryAccess) : SqlOperand :=
  .parameter (.text access.userId)

def ColumnName.operand (column : ColumnName) : SqlOperand := .column column.name column.field

variable (access : ResourceQueryAccess)

theorem activeRoleCondition_eq :
    activeRoleCondition access = memberQuery access.workspace access.user
      (.parameter (.text (roleText access.role))) := rfl

theorem grantAllowCondition_eq (resourceType : ResourceType) (column : ColumnName)
    (capability : Capability) :
    grantAllowCondition access resourceType column capability =
      grantQuery .allowed access.workspace access.user
        (.parameter (.text (resourceTypeText resourceType))) column.operand
        (ownIn .allowed .capability (allowedCapabilities capability)) .allow := by
  cases capability <;> rfl

theorem grantDenyCondition_eq (resourceType : ResourceType) (column : ColumnName)
    (capability : Capability) :
    grantDenyCondition access resourceType column capability =
      .not (grantQuery .denied access.workspace access.user
        (.parameter (.text (resourceTypeText resourceType))) column.operand
        (ownIn .denied .capability (deniedCapabilities capability)) .deny) := by
  cases capability <;> rfl

theorem finalResourceCapabilityCondition_member {access : MonitoringAccess}
    (hrole : access.role = .member) (actorUserId : String) (resourceType : ResourceType)
    (workspace resource : Expression) (capability : Capability) :
    finalResourceCapabilityCondition access actorUserId resourceType workspace resource
      capability =
      ((memberQuery workspace.operand (.parameter (.text actorUserId)) (text "member")).and
        (grantQuery .allowed workspace.operand (.parameter (.text actorUserId))
          (.parameter (.text (resourceTypeText resourceType))) resource.operand
          (ownIn .allowed .capability (allowedCapabilities capability)) .allow)).and
        (.not (grantQuery .denied workspace.operand (.parameter (.text actorUserId))
          (.parameter (.text (resourceTypeText resourceType))) resource.operand
          (ownIn .denied .capability (deniedCapabilities capability)) .deny)) := by
  obtain ⟨workspaceId, role, grants⟩ := access
  subst hrole
  cases workspace <;> cases resource <;> cases capability <;> rfl

theorem finalResourceCapabilityCondition_admin {access : MonitoringAccess}
    (hrole : access.role = .admin) (actorUserId : String) (resourceType : ResourceType)
    (workspace resource : Expression) (capability : Capability) :
    finalResourceCapabilityCondition access actorUserId resourceType workspace resource
      capability =
      memberQuery workspace.operand (.parameter (.text actorUserId)) (text "admin") := by
  obtain ⟨workspaceId, role, grants⟩ := access
  subst hrole
  cases workspace <;> rfl

/-! ## What the policy says of the grants -/

def Allows (grants : List GrantRow) (resourceType : ResourceType) (resourceId : String)
    (capability : Capability) : Prop :=
  ∃ grant ∈ grants, grant.resourceType = resourceType ∧ grant.resourceId = resourceId ∧
    capabilityText grant.capability ∈ allowedCapabilities capability ∧ grant.effect = .allow

def Denies (grants : List GrantRow) (resourceType : ResourceType) (resourceId : String)
    (capability : Capability) : Prop :=
  ∃ grant ∈ grants, grant.resourceType = resourceType ∧ grant.resourceId = resourceId ∧
    capabilityText grant.capability ∈ deniedCapabilities capability ∧ grant.effect = .deny

theorem canAccessResource_admin (grants : List GrantRow) (resourceType : ResourceType)
    (resourceId : String) (capability : Capability) :
    canAccessResource .admin grants resourceType resourceId capability = true := rfl

variable {capability : Capability} {grants : List GrantRow}

theorem deniesCapability_iff {grant : GrantRow} :
    grant.deniesCapability capability = true ↔
      capabilityText grant.capability ∈ deniedCapabilities capability ∧ grant.effect = .deny := by
  have hdenied : (grant.capability = capability ∨
      capability = .manage ∧ grant.capability = .view) ↔
      capabilityText grant.capability ∈ deniedCapabilities capability := by
    cases capability <;> cases grant.capability <;> decide
  simp only [GrantRow.deniesCapability, Bool.and_eq_true, Bool.or_eq_true, decide_eq_true_eq,
    hdenied]
  rw [and_comm]

theorem canAccessResource_member {resourceType : ResourceType} {resourceId : String} :
    canAccessResource .member grants resourceType resourceId capability = true ↔
      Allows grants resourceType resourceId capability ∧
        ¬ Denies grants resourceType resourceId capability := by
  have hallowed (grant : GrantRow) : (grant.capability = capability ∨
      capability = .view ∧ grant.capability = .manage) ↔
      capabilityText grant.capability ∈ allowedCapabilities capability := by
    cases capability <;> cases grant.capability <;> decide
  have hrole : decide (WorkspaceRole.member = WorkspaceRole.admin) = false := rfl
  simp only [canAccessResource, hrole, Bool.false_or, Bool.and_eq_true, Bool.not_eq_true',
    ← Bool.not_eq_true, List.any_eq_true, List.mem_filter, deniesCapability_iff,
    decide_eq_true_eq, Bool.or_eq_true, hallowed]
  rw [and_comm]
  apply and_congr
  · apply exists_congr
    intro grant
    tauto
  · apply not_congr
    apply exists_congr
    intro grant
    tauto

theorem canAccessResource_view_of_manage {role : WorkspaceRole} {resourceType : ResourceType}
    {resourceId : String} (h : canAccessResource role grants resourceType resourceId .manage = true)
    : canAccessResource role grants resourceType resourceId .view = true := by
  cases role with
  | admin => exact canAccessResource_admin grants resourceType resourceId .view
  | member =>
    have hallowed (capability : Capability) :
        capabilityText capability ∈ allowedCapabilities .manage →
          capabilityText capability ∈ allowedCapabilities .view := by
      cases capability <;> decide
    have hdenied (capability : Capability) :
        capabilityText capability ∈ deniedCapabilities .view →
          capabilityText capability ∈ deniedCapabilities .manage := by
      cases capability <;> decide
    rw [canAccessResource_member] at h ⊢
    constructor
    · obtain ⟨grant, hgrant, htype, hid, hcapability, heffect⟩ := h.1
      exact ⟨grant, hgrant, htype, hid, hallowed _ hcapability, heffect⟩
    · rintro ⟨grant, hgrant, htype, hid, hcapability, heffect⟩
      exact h.2 ⟨grant, hgrant, htype, hid, hdenied _ hcapability, heffect⟩

theorem canAccessResource_of_denial {grant : GrantRow} (hgrant : grant ∈ grants)
    (heffect : grant.effect = .deny)
    (hcapability : grant.capability = .view ∨ grant.capability = capability) :
    canAccessResource .member grants grant.resourceType grant.resourceId capability = false := by
  have hdenied : capabilityText grant.capability ∈ deniedCapabilities capability := by
    rcases hcapability with hview | hsame
    · rw [hview]
      cases capability <;> decide
    · rw [hsame]
      cases capability <;> decide
  rw [← Bool.not_eq_true, canAccessResource_member]
  intro h
  exact h.2 ⟨grant, hgrant, rfl, rfl, hdenied, heffect⟩

/-! ## The conditions are the policy -/

section Policy

variable {db : AccessDb} {scope : SqlScope} {workspaceId userId resourceId : String}
  {resourceType : ResourceType} {capability : Capability}

theorem holds_memberQuery_iff {workspace user roleOperand : SqlOperand} {role : WorkspaceRole}
    (hworkspace : workspace.Free .actor) (huser : user.Free .actor)
    (hrole : roleOperand.Free .actor) (hw : workspace.value scope = some (.text workspaceId))
    (hu : user.value scope = some (.text userId))
    (hr : roleOperand.value scope = some (.text (roleText role))) :
    (memberQuery workspace user roleOperand).Holds db.database scope ↔
      db.ActiveAs workspaceId userId role := by
  rw [holds_memberQuery hworkspace huser hrole]
  apply exists_congr
  intro row
  rw [AccessDb.membershipOf, db.oneMembership.lookup_eq_some_iff, hw, hu, hr]
  simp only [Option.some.injEq, Value.text.injEq, Membership.key, Prod.mk.injEq,
    roleText_injective.eq_iff]
  constructor
  · rintro ⟨hrow, rfl, rfl, rfl, hstatus⟩
    exact ⟨⟨hrow, rfl, rfl⟩, hstatus, rfl⟩
  · rintro ⟨⟨hrow, rfl, rfl⟩, hstatus, rfl⟩
    exact ⟨hrow, rfl, rfl, rfl, hstatus⟩

variable {workspace user typeOperand resource : SqlOperand}

theorem holds_grantQuery_iff {name : Alias} {test : QueryCondition} {capabilities : List String}
    {effect : GrantEffect} (htest : ComparesCapability db name test capabilities)
    (hworkspace : workspace.Free name) (huser : user.Free name) (htype : typeOperand.Free name)
    (hresource : resource.Free name) (hw : workspace.value scope = some (.text workspaceId))
    (hu : user.value scope = some (.text userId))
    (ht : typeOperand.value scope = some (.text (resourceTypeText resourceType)))
    (hid : resource.value scope = some (.text resourceId)) :
    (grantQuery name workspace user typeOperand resource test effect).Holds db.database scope ↔
      ∃ grant ∈ db.grantsOf workspaceId userId, grant.resourceType = resourceType ∧
        grant.resourceId = resourceId ∧ capabilityText grant.capability ∈ capabilities ∧
        grant.effect = effect := by
  rw [holds_grantQuery hworkspace huser htype hresource htest, hw, hu, ht, hid]
  apply exists_congr
  intro grant
  simp only [Option.some.injEq, Value.text.injEq, resourceTypeText_injective.eq_iff,
    AccessDb.grantsOf, List.mem_filter, Bool.and_eq_true, decide_eq_true_eq]
  constructor
  · rintro ⟨hgrant, rfl, rfl, rfl, rfl, hrest⟩
    exact ⟨⟨hgrant, rfl, rfl⟩, rfl, rfl, hrest⟩
  · rintro ⟨⟨hgrant, rfl, rfl⟩, rfl, rfl, hrest⟩
    exact ⟨hgrant, rfl, rfl, rfl, rfl, hrest⟩

theorem definite_grantQuery {name : Alias} {test : QueryCondition} {effect : GrantEffect} :
    (grantQuery name workspace user typeOperand resource test effect).Definite
      db.database scope :=
  Query.definite_any

theorem free_enclosing (name : Alias) (field : Column) (enclosing : String)
    (h : ∀ text, name ≠ .enclosing text) :
    (Operand.column (.enclosing enclosing) field : SqlOperand).Free name :=
  Operand.free_column (fun hname ↦ h enclosing hname.symm) field

theorem Expression.free (expression : Expression) {name : Alias}
    (h : ∀ text, name ≠ .enclosing text) : expression.operand.Free name := by
  cases expression with
  | column enclosing field => exact free_enclosing name field enclosing h
  | parameter bind => exact Operand.free_parameter name _

variable {access : ResourceQueryAccess} {column : ColumnName}

theorem holds_grantAllowCondition (hname : column.name ≠ .allowed)
    (hid : column.operand.value scope = some (.text resourceId)) :
    (grantAllowCondition access resourceType column capability).Holds db.database scope ↔
      Allows (db.grantsOf access.workspaceId access.userId) resourceType resourceId
        capability := by
  rw [grantAllowCondition_eq]
  exact holds_grantQuery_iff (comparesCapability_ownIn _ _ _) (Operand.free_parameter _ _)
    (Operand.free_parameter _ _) (Operand.free_parameter _ _) (Operand.free_column hname _) rfl rfl
    rfl hid

theorem holds_grantDenyCondition (hname : column.name ≠ .denied)
    (hid : column.operand.value scope = some (.text resourceId)) :
    (grantDenyCondition access resourceType column capability).Holds db.database scope ↔
      ¬ Denies (db.grantsOf access.workspaceId access.userId) resourceType resourceId
        capability := by
  rw [grantDenyCondition_eq, Query.holds_not definite_grantQuery]
  apply not_congr
  exact holds_grantQuery_iff (comparesCapability_ownIn _ _ _) (Operand.free_parameter _ _)
    (Operand.free_parameter _ _) (Operand.free_parameter _ _) (Operand.free_column hname _) rfl rfl
    rfl hid

theorem definite_grantAllowCondition :
    (grantAllowCondition access resourceType column capability).Definite db.database scope := by
  rw [grantAllowCondition_eq]
  exact definite_grantQuery

theorem definite_grantDenyCondition :
    (grantDenyCondition access resourceType column capability).Definite db.database scope := by
  rw [grantDenyCondition_eq]
  exact Query.definite_not definite_grantQuery

theorem holds_activeRoleCondition (access : ResourceQueryAccess) :
    (activeRoleCondition access).Holds db.database scope ↔
      db.ActiveAs access.workspaceId access.userId access.role := by
  rw [activeRoleCondition_eq]
  exact holds_memberQuery_iff (Operand.free_parameter _ _) (Operand.free_parameter _ _)
    (Operand.free_parameter _ _) rfl rfl rfl

theorem holds_resourceCapabilityCondition {name : String} {field : Column}
    (hid : scope (.enclosing name) field = some (.text resourceId)) :
    (resourceCapabilityCondition access resourceType ⟨.enclosing name, field⟩ capability).Holds
        db.database scope ↔
      db.Permits access.workspaceId access.userId access.role resourceType resourceId
        capability := by
  cases hrole : access.role with
  | admin =>
    rw [resourceCapabilityCondition, if_pos hrole, holds_activeRoleCondition, AccessDb.Permits,
      hrole, canAccessResource_admin]
    simp
  | member =>
    have hmember : access.role ≠ .admin := by simp [hrole]
    let column : ColumnName := ⟨.enclosing name, field⟩
    have hvalue : column.operand.value scope = some (.text resourceId) := hid
    rw [resourceCapabilityCondition, if_neg hmember]
    show (((activeRoleCondition access).and (grantAllowCondition access resourceType column
      capability)).and (grantDenyCondition access resourceType column capability)).Holds
        db.database scope ↔ _
    rw [Query.holds_and, Query.holds_and, holds_activeRoleCondition,
      holds_grantAllowCondition Alias.noConfusion hvalue,
      holds_grantDenyCondition Alias.noConfusion hvalue, AccessDb.Permits,
      canAccessResource_member, hrole, and_assoc]

theorem holds_finalResourceCapabilityCondition {access : MonitoringAccess}
    {workspace resource : Expression}
    (hworkspace : workspace.operand.value scope = some (.text workspaceId))
    (hid : resource.operand.value scope = some (.text resourceId)) :
    (finalResourceCapabilityCondition access userId resourceType workspace resource
        capability).Holds db.database scope ↔
      db.Permits workspaceId userId access.role resourceType resourceId capability := by
  have hmember (role : WorkspaceRole) :
      (memberQuery workspace.operand (.parameter (.text userId)) (text (roleText role))).Holds
        db.database scope ↔ db.ActiveAs workspaceId userId role :=
    holds_memberQuery_iff (workspace.free (by simp)) (Operand.free_parameter _ _)
      (Operand.free_literal _ _) hworkspace rfl rfl
  cases hrole : access.role with
  | admin =>
    rw [finalResourceCapabilityCondition_admin hrole, AccessDb.Permits, canAccessResource_admin]
    exact (hmember .admin).trans (and_iff_left rfl).symm
  | member =>
    rw [finalResourceCapabilityCondition_member hrole, Query.holds_and, Query.holds_and,
      Query.holds_not definite_grantQuery, AccessDb.Permits, canAccessResource_member, and_assoc]
    apply and_congr
    · exact hmember .member
    · apply and_congr
      · exact holds_grantQuery_iff (comparesCapability_ownIn _ _ _) (workspace.free (by simp))
          (Operand.free_parameter _ _) (Operand.free_parameter _ _) (resource.free (by simp))
          hworkspace rfl rfl hid
      · apply not_congr
        exact holds_grantQuery_iff (comparesCapability_ownIn _ _ _) (workspace.free (by simp))
          (Operand.free_parameter _ _) (Operand.free_parameter _ _) (resource.free (by simp))
          hworkspace rfl rfl hid

end Policy

end AlphaPing.Access.Conditions
