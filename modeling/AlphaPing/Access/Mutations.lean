import AlphaPing.Access.Conditions
import AlphaPing.Library.Transactions

/-!
# Guarded mutations

A handler decides on a snapshot of the actor's membership and grants, and repeats the decision
inside the statement that writes. Between the two anything may happen to the tables. The condition
of the statement is the policy, so the change is made only if the policy permits it then.
-/

namespace AlphaPing.Access.Mutations

open Library.Runs Library.Transactions Monitoring.Control Conditions

/-- A mutation of one resource, whose condition names the resource and its workspace by
expressions of the statement. -/
structure Mutation (Store : Type) where
  workspaceId : String
  userId : String
  resourceType : ResourceType
  resourceId : String
  capability : Capability
  workspace : Expression
  resource : Expression
  /-- The row that the statement is about to change. -/
  scope : Store → SqlScope
  inWorkspace : ∀ store, workspace.operand.value (scope store) = some (.text workspaceId)
  ofResource : ∀ store, resource.operand.value (scope store) = some (.text resourceId)
  change : Store → Store

inductive Writer (Store : Type) where
  | guarded (mutation : Mutation Store)
  /-- Any other statement or batch. -/
  | other (change : Store → Store)

variable {Store : Type} (tables : Store → AccessDb)

/-- The statement with the condition of a snapshot. -/
def guard (mutation : Mutation Store) (access : MonitoringAccess) (store : Store) : Store :=
  if (finalResourceCapabilityCondition access mutation.userId mutation.resourceType
      mutation.workspace mutation.resource mutation.capability).Holds (tables store).database
      (mutation.scope store) then
    mutation.change store
  else store

/-- `requireResourceCapability` on the snapshot, then the statement. -/
def decideThenWrite (mutation : Mutation Store) (access : MonitoringAccess) : Transaction Store :=
  if canAccessResource access.role access.grants mutation.resourceType mutation.resourceId
      mutation.capability then
    .commit (guard tables mutation access)
  else .done

def program : Writer Store → Transaction Store
  | .other change => .commit change
  | .guarded mutation =>
    .read (fun store ↦ (tables store).roleOf mutation.workspaceId mutation.userId) fun
    | none => .done
    | some .admin => decideThenWrite tables mutation ⟨mutation.workspaceId, .admin, []⟩
    | some .member =>
      .read (fun store ↦ (tables store).grantsOf mutation.workspaceId mutation.userId) fun grants ↦
        if grants.length > maxAccessGrants then .done
        else decideThenWrite tables mutation ⟨mutation.workspaceId, .member, grants⟩

/-- A guarded mutation takes effect in a store in which the policy permits it. -/
def Permitted : Writer Store → Store → Store → Prop
  | .other change, before, after => after = change before
  | .guarded mutation, before, after => after = before ∨
    (after = mutation.change before ∧ ∃ role, (tables before).Permits mutation.workspaceId
      mutation.userId role mutation.resourceType mutation.resourceId mutation.capability)

theorem permitted_guard (mutation : Mutation Store) (access : MonitoringAccess) (store : Store) :
    Permitted tables (.guarded mutation) store (guard tables mutation access store) := by
  rw [guard]
  split
  · next hholds =>
    apply Or.inr
    refine ⟨rfl, access.role, ?_⟩
    exact (holds_finalResourceCapabilityCondition (mutation.inWorkspace store)
      (mutation.ofResource store)).mp hholds
  · exact .inl rfl

theorem makes_decideThenWrite (mutation : Mutation Store) (access : MonitoringAccess) :
    (decideThenWrite tables mutation access).Makes fun change ↦
      ∀ store, Permitted tables (.guarded mutation) store (change store) := by
  rw [decideThenWrite]
  split
  · exact .commit _ (permitted_guard tables mutation access)
  · exact .done

theorem makes_program (writer : Writer Store) :
    (program tables writer).Makes fun change ↦
      ∀ store, Permitted tables writer store (change store) := by
  cases writer with
  | other change => exact .commit _ fun store ↦ rfl
  | guarded mutation =>
    apply Transaction.Makes.read
    intro role
    match role with
    | none => exact .done
    | some .admin => exact makes_decideThenWrite tables mutation _
    | some .member =>
      apply Transaction.Makes.read
      intro grants
      split
      · exact .done
      · exact makes_decideThenWrite tables mutation _

/-- Both conditions are the policy on the tables as they are, in which `manage` includes `view` and
a member is refused what a grant denies, and the guarded mutations of every interleaving take
effect only where the policy permits them. -/
theorem conditions_are_policy :
    (∀ (db : AccessDb) (scope : SqlScope) (access : ResourceQueryAccess)
      (resourceType : ResourceType) (name : String) (field : Column) (resourceId : String)
      (capability : Capability), scope (.enclosing name) field = some (.text resourceId) →
      ((resourceCapabilityCondition access resourceType ⟨.enclosing name, field⟩
          capability).Holds db.database scope ↔
        db.Permits access.workspaceId access.userId access.role resourceType resourceId
          capability)) ∧
    (∀ (db : AccessDb) (scope : SqlScope) (access : MonitoringAccess) (userId : String)
      (resourceType : ResourceType) (workspace resource : Expression)
      (workspaceId resourceId : String) (capability : Capability),
      workspace.operand.value scope = some (.text workspaceId) →
      resource.operand.value scope = some (.text resourceId) →
      ((finalResourceCapabilityCondition access userId resourceType workspace resource
          capability).Holds db.database scope ↔
        db.Permits workspaceId userId access.role resourceType resourceId capability)) ∧
    (∀ (db : AccessDb) (workspaceId userId : String) (role : WorkspaceRole)
      (resourceType : ResourceType) (resourceId : String),
      db.Permits workspaceId userId role resourceType resourceId .manage →
        db.Permits workspaceId userId role resourceType resourceId .view) ∧
    (∀ (db : AccessDb) (workspaceId userId : String) (grant : GrantRow) (capability : Capability),
      grant ∈ db.grantsOf workspaceId userId → grant.effect = .deny →
      (grant.capability = .view ∨ grant.capability = capability) →
        ¬ db.Permits workspaceId userId .member grant.resourceType grant.resourceId capability) ∧
    (∀ (Store : Type) (tables : Store → AccessDb) (store : Store)
      (actions : List (Action (Writer Store))),
      Along (step (program tables)) (Commits (program tables) (Permitted tables)) (start store)
        actions) := by
  refine ⟨?_, ?_, ?_, ?_, ?_⟩
  · intro db scope access resourceType name field resourceId capability hid
    exact holds_resourceCapabilityCondition hid
  · intro db scope access userId resourceType workspace resource workspaceId resourceId
      capability hworkspace hid
    exact holds_finalResourceCapabilityCondition hworkspace hid
  · intro db workspaceId userId role resourceType resourceId h
    exact ⟨h.1, canAccessResource_view_of_manage h.2⟩
  · intro db workspaceId userId grant capability hgrant heffect hcapability h
    have hrefused := canAccessResource_of_denial hgrant heffect hcapability
    exact absurd h.2 (by simp [hrefused])
  · intro Store tables store actions
    exact along_commits (makes_program tables) store actions

/-- A member who may manage a machine. -/
def machineManager : AccessDb where
  memberships := [⟨"workspace", "user", .member, .active⟩]
  grants := [⟨"workspace", "user", .machine, "machine", .manage, .allow⟩]
  services := []
  incidentResources := []
  oneMembership := List.nodup_singleton _
  oneService := Library.Tables.uniqueKey_nil
  oneResource := List.nodup_nil

/-- A statement on the row of the machine. -/
def machineScope : SqlScope := fun name field ↦
  if name = .enclosing "m" ∧ field = .id then some (.text "machine") else none

/-- The member sees the machine. -/
theorem conditions_are_policy_machine :
    (resourceCapabilityCondition ⟨"workspace", "user", .member⟩ .machine ⟨.enclosing "m", .id⟩
      .view).Holds machineManager.database machineScope := by
  rw [conditions_are_policy.1 machineManager machineScope _ _ "m" .id "machine" .view (by decide)]
  exact ⟨⟨_, rfl, rfl, rfl⟩, rfl⟩

/-- An administrator whom a grant denies a machine. -/
def deniedAdmin : AccessDb where
  memberships := [⟨"workspace", "user", .admin, .active⟩]
  grants := [⟨"workspace", "user", .machine, "machine", .manage, .deny⟩]
  services := []
  incidentResources := []
  oneMembership := List.nodup_singleton _
  oneService := Library.Tables.uniqueKey_nil
  oneResource := List.nodup_nil

/-- The role wins over the denial. -/
theorem denial_of_admin_ignored :
    ¬ ∀ (db : AccessDb) (workspaceId userId : String) (role : WorkspaceRole) (grant : GrantRow)
      (capability : Capability), grant ∈ db.grantsOf workspaceId userId → grant.effect = .deny →
      (grant.capability = .view ∨ grant.capability = capability) →
        ¬ db.Permits workspaceId userId role grant.resourceType grant.resourceId capability := by
  intro h
  have hpermits : deniedAdmin.Permits "workspace" "user" .admin .machine "machine" .manage :=
    ⟨⟨_, rfl, rfl, rfl⟩, rfl⟩
  exact h deniedAdmin "workspace" "user" .admin
    ⟨"workspace", "user", .machine, "machine", .manage, .deny⟩ .manage (by decide) rfl
    (.inr rfl) hpermits

end AlphaPing.Access.Mutations
