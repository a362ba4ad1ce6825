import AlphaPing.Library.Tables
import Mathlib.Data.String.Basic

/-!
# The control database of the web application

Workspaces with their members and grants, machines with their agents, services and their checks.
A handler of the web application reads the actor's access first; each of its mutations then
repeats the authorization, and the capacity of the workspace and of the agent, inside the
statement that writes, as `finalResourceCapabilityCondition` and its siblings do.
-/

namespace AlphaPing.Monitoring.Control

inductive WorkspaceRole where
  | admin | member
  deriving DecidableEq

inductive Capability where
  | view | manage
  deriving DecidableEq

inductive GrantEffect where
  | allow | deny
  deriving DecidableEq

inductive ResourceType where
  | machine | service | container | dashboard | incident
  deriving DecidableEq

inductive CheckKind where
  | http | tcp | icmp
  deriving DecidableEq

inductive ExecutorKind where
  | cloudflare | agent
  deriving DecidableEq

structure WorkspaceRow where
  id : String
  slug : String
  deletedAt : Option ℤ
  purgeStartedAt : Option ℤ
  /-- `retention_policies.soft_delete_grace_days`. -/
  softDeleteGraceDays : Option ℤ

structure MembershipRow where
  workspaceId : String
  userId : String
  role : WorkspaceRole
  active : Bool

/-- A row of `resource_grants`. -/
structure GrantRow where
  workspaceId : String
  subjectUserId : String
  resourceType : ResourceType
  resourceId : String
  capability : Capability
  effect : GrantEffect
  deriving DecidableEq

structure MachineRow where
  id : String
  workspaceId : String
  desiredConfigRevision : ℕ
  deletedAt : Option ℤ
  purgeStartedAt : Option ℤ

structure AgentRow where
  id : String
  workspaceId : String
  machineId : String
  /-- `status = 'active'`. -/
  active : Bool

structure ServiceRow where
  id : String
  workspaceId : String
  name : String
  slug : String
  deletedAt : Option ℤ
  purgeStartedAt : Option ℤ

/-- The schedule and the confirmation rules of a check. -/
structure CheckPolicy where
  intervalSeconds : ℤ
  timeoutMs : ℤ
  retryCount : ℤ
  failureConfirmations : ℤ
  recoveryConfirmations : ℤ
  critical : Bool
  deriving DecidableEq

/-- `check_configs.secret_refs_json`: identifiers of rows of `check_secrets`. -/
structure SecretReferences where
  headers : List (String × String)
  body : Option String
  tcpPayload : Option String

/-- A row of `check_configs`. -/
structure CheckRow where
  id : String
  workspaceId : String
  serviceId : String
  name : String
  kind : CheckKind
  executorKind : ExecutorKind
  executorAgentId : Option String
  enabled : Bool
  policy : CheckPolicy
  requestJson : String
  secretRefs : SecretReferences
  configBytes : ℕ
  configRevision : ℕ
  assignmentRevision : ℕ

/-- A row of `check_secrets`. -/
structure SecretRow where
  id : String
  workspaceId : String
  /-- `length(wrapped_value)`. -/
  wrappedBytes : ℕ

structure ControlDb where
  workspaces : List WorkspaceRow
  memberships : List MembershipRow
  grants : List GrantRow
  machines : List MachineRow
  agents : List AgentRow
  services : List ServiceRow
  checks : List CheckRow
  secrets : List SecretRow
  /-- The identifiers of deleted checks. `crypto.randomUUID` does not give one of them again. -/
  retired : List String

/-! ## Access -/

structure Actor where
  workspaceSlug : String
  userId : String

structure MonitoringAccess where
  workspaceId : String
  role : WorkspaceRole
  grants : List GrantRow

def maxAccessGrants : ℕ := 5000

def GrantRow.deniesCapability (grant : GrantRow) (capability : Capability) : Bool :=
  grant.effect = .deny &&
    (grant.capability = capability || (capability = .manage && grant.capability = .view))

def canAccessResource (role : WorkspaceRole) (grants : List GrantRow) (resourceType : ResourceType)
    (resourceId : String) (capability : Capability) : Bool :=
  role = .admin ||
    let relevant := grants.filter fun grant ↦
      grant.resourceType = resourceType && grant.resourceId = resourceId
    (!relevant.any fun grant ↦ grant.deniesCapability capability) &&
      relevant.any fun grant ↦ grant.effect = .allow &&
        (grant.capability = capability || (capability = .view && grant.capability = .manage))

/-- The workspace of a slug and the role that the user has in it. -/
def ControlDb.workspaceOf (db : ControlDb) (actor : Actor) : Option (String × WorkspaceRole) :=
  (db.workspaces.filter fun workspace ↦
    workspace.slug = actor.workspaceSlug && workspace.deletedAt.isNone).findSome? fun workspace ↦
      (db.memberships.find? fun membership ↦ membership.workspaceId = workspace.id &&
        membership.userId = actor.userId && membership.active).map fun membership ↦
          (workspace.id, membership.role)

def ControlDb.grantsOf (db : ControlDb) (workspaceId userId : String) : List GrantRow :=
  (db.grants.filter fun grant ↦
    grant.workspaceId = workspaceId && grant.subjectUserId = userId).take (maxAccessGrants + 1)

def maxWorkspaceServices : ℕ := 200

def maxWorkspaceChecks : ℕ := 1000

/-- `finalWorkspaceMonitorCapacityCondition`. -/
def ControlDb.monitorCapacity (db : ControlDb) (workspaceId : String)
    (includeServiceCapacity : Bool) : Bool :=
  (!includeServiceCapacity ||
    (db.services.countP fun service ↦
      service.workspaceId = workspaceId && service.deletedAt.isNone) < maxWorkspaceServices) &&
  (db.checks.countP fun check ↦ check.workspaceId = workspaceId &&
    db.services.any fun service ↦ service.id = check.serviceId && service.deletedAt.isNone) <
      maxWorkspaceChecks

/-- What a mutation demands once more when it writes. -/
inductive FinalCondition where
  | admin (userId : String)
  | resource (role : WorkspaceRole) (userId : String) (resourceType : ResourceType)
      (resourceId : String) (capability : Capability)
  | monitorCapacity (includeServiceCapacity : Bool)

def ControlDb.hasRole (db : ControlDb) (workspaceId userId : String) (role : WorkspaceRole) : Bool :=
  db.memberships.any fun membership ↦ membership.workspaceId = workspaceId &&
    membership.userId = userId && membership.role = role && membership.active

def FinalCondition.holds (db : ControlDb) (workspaceId : String) : FinalCondition → Bool
  | .admin userId => db.hasRole workspaceId userId .admin
  | .resource .admin userId _ _ _ => db.hasRole workspaceId userId .admin
  | .resource .member userId resourceType resourceId capability =>
    let relevant := db.grants.filter fun grant ↦
      grant.workspaceId = workspaceId && grant.subjectUserId = userId &&
        grant.resourceType = resourceType && grant.resourceId = resourceId
    db.hasRole workspaceId userId .member &&
      (relevant.any fun grant ↦ grant.effect = .allow &&
        (grant.capability = .manage || capability = .view)) &&
      !relevant.any fun grant ↦ grant.effect = .deny &&
        (grant.capability = .view || capability = .manage)
  | .monitorCapacity includeServiceCapacity =>
    db.monitorCapacity workspaceId includeServiceCapacity

/-- `combineFinalAuthorizationConditions`. -/
def ControlDb.permits (db : ControlDb) (workspaceId : String) (conditions : List FinalCondition) :
    Bool :=
  conditions.all fun condition ↦ condition.holds db workspaceId

/-! ## The capacity of an agent -/

def maxAgentChecks : ℕ := 32

def maxAgentConfigBytes : ℕ := 44 * 1024

structure AgentCapacityInput where
  agentId : String
  excludedCheckId : Option String
  configBytes : ℕ
  enforce : Bool

def CheckRow.runsOn (check : CheckRow) (agentId : String) : Bool :=
  check.executorAgentId = some agentId && check.enabled

/-- The checks that count against the capacity, no more than the limit of the subquery. -/
def ControlDb.capacityRows (db : ControlDb) (input : AgentCapacityInput) : List CheckRow :=
  (db.checks.filter fun check ↦
    check.runsOn input.agentId && some check.id != input.excludedCheckId).take maxAgentChecks

/-- `AGENT_CAPACITY_CONDITION`. -/
def ControlDb.agentCapacity (db : ControlDb) (input : AgentCapacityInput) : Bool :=
  !input.enforce ||
    ((db.capacityRows input).length < maxAgentChecks &&
      ((db.capacityRows input).map CheckRow.configBytes).sum + input.configBytes ≤
        maxAgentConfigBytes)

end AlphaPing.Monitoring.Control
