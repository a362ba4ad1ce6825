import AlphaPing.Access.Conditions

/-!
# The access conditions of incidents

An incident may be managed by direct access to it, or by access to all the services that it
affects. The listing asks for either by `incidentManageCondition`, as `canAccessIncident` does on
a snapshot; `finalServiceSetManageCondition` asks, by their number, for services that the caller
has read.
-/

namespace AlphaPing.Access.IncidentConditions

open Library.Sql Monitoring.Control Conditions

/-! ## The conditions -/

def incidentManageCondition (access : ResourceQueryAccess) (incidentIdExpression : ColumnName) :
    QueryCondition :=
  let activeRole := activeRoleCondition access
  if access.role = .admin then activeRole
  else
    let directAllow := grantAllowCondition access .incident incidentIdExpression .manage
    let directDeny := grantDenyCondition access .incident incidentIdExpression .manage
    let blocked : ColumnName := ⟨.blockedAffected, .resourceId⟩
    let inheritedAllow := grantAllowCondition access .service blocked .manage
    let inheritedDeny := grantDenyCondition access .service blocked .manage
    { sql := (activeRole.sql.and directDeny.sql).and <|
        directAllow.sql.or <|
          (Condition.any .incidentResources .affected <| .all
            (.equals (.column .affected .incidentId) incidentIdExpression.term) [
            .equals (.column .affected .resourceType) (quoted "service")]).and <|
          .not <| .any .incidentResources .blockedAffected <| .all
            (.equals (.column .blockedAffected .incidentId) incidentIdExpression.term) [
            .equals (.column .blockedAffected .resourceType) (quoted "service"),
            .not (inheritedAllow.sql.and inheritedDeny.sql)]
      binds := activeRole.binds ++ directDeny.binds ++ directAllow.binds ++
        inheritedAllow.binds ++ inheritedDeny.binds
      filled := by
        simp only [Condition.parameters, Condition.all, List.foldl, activeRole.filled,
          directAllow.filled, directDeny.filled, inheritedAllow.filled, inheritedDeny.filled,
          List.length_append, Term.parameters, ColumnName.term]
        omega }

/-- `placeholders` -/
def placeholders (length : ℕ) : List SqlTerm := List.replicate length .parameter

theorem choiceParameters_placeholders (length : ℕ) :
    choiceParameters (placeholders length) = length := by
  induction length with
  | zero => rfl
  | succ length ih =>
    rw [placeholders, List.replicate_succ, choiceParameters, ← placeholders, ih, Nat.add_comm]
    rfl

def finalServiceSetManageCondition (access : MonitoringAccess) (actorUserId : String)
    (serviceIds : List String) : QueryCondition :=
  let servicePlaceholders := placeholders serviceIds.length
  if access.role = .admin then
    { sql :=
        (Condition.any .memberships .actor <| .all
          (.equals (.column .actor .workspaceId) .parameter) [
          .equals (.column .actor .userId) .parameter,
          .equals (.column .actor .role) (quoted "admin"),
          .equals (.column .actor .status) (quoted "active")]).and <|
        .count .services .current
          (.all
            (.equals (.column .current .workspaceId) .parameter) [
            .isNull (.column .current .deletedAt),
            .isIn (.column .current .id) servicePlaceholders])
          .parameter
      binds := [.text access.workspaceId, .text actorUserId, .text access.workspaceId] ++
        serviceIds.map .text ++ [.number serviceIds.length]
      filled := by
        simp only [Condition.parameters, Condition.all, List.foldl, Term.parameters,
          servicePlaceholders, choiceParameters_placeholders, List.length_append, List.length_map,
          List.length_cons, List.length_nil]
        omega }
  else
    { sql :=
        (Condition.any .memberships .actor <| .all
          (.equals (.column .actor .workspaceId) .parameter) [
          .equals (.column .actor .userId) .parameter,
          .equals (.column .actor .role) (quoted "member"),
          .equals (.column .actor .status) (quoted "active")]).and <|
        .count .services .current
          (.all
            (.equals (.column .current .workspaceId) .parameter) [
            .isNull (.column .current .deletedAt),
            .isIn (.column .current .id) servicePlaceholders,
            .any .resourceGrants .allowed <| .all
              (.equals (.column .allowed .workspaceId) (.column .current .workspaceId)) [
              .equals (.column .allowed .subjectUserId) .parameter,
              .equals (.column .allowed .resourceType) (quoted "service"),
              .equals (.column .allowed .resourceId) (.column .current .id),
              .equals (.column .allowed .capability) (quoted "manage"),
              .equals (.column .allowed .effect) (quoted "allow")],
            .not <| .any .resourceGrants .denied <| .all
              (.equals (.column .denied .workspaceId) (.column .current .workspaceId)) [
              .equals (.column .denied .subjectUserId) .parameter,
              .equals (.column .denied .resourceType) (quoted "service"),
              .equals (.column .denied .resourceId) (.column .current .id),
              .isIn (.column .denied .capability) [quoted "view", quoted "manage"],
              .equals (.column .denied .effect) (quoted "deny")]])
          .parameter
      binds := [.text access.workspaceId, .text actorUserId, .text access.workspaceId] ++
        serviceIds.map .text ++ [.text actorUserId, .text actorUserId, .number serviceIds.length]
      filled := by
        simp only [Condition.parameters, Condition.all, List.foldl, Term.parameters,
          servicePlaceholders, choiceParameters_placeholders, choiceParameters,
          List.length_append, List.length_map, List.length_cons, List.length_nil]
        omega }

/-! ## The conditions as compositions of their parts -/

section Parts

theorem incidentManageCondition_eq {access : ResourceQueryAccess} (hrole : access.role = .member)
    (column : ColumnName) :
    incidentManageCondition access column =
      ((activeRoleCondition access).and (grantDenyCondition access .incident column .manage)).and
        ((grantAllowCondition access .incident column .manage).or
          ((Query.any .incidentResources .affected (Query.all
            (own .affected .incidentId column.operand) [
            own .affected .resourceType (text "service")])).and
          (.not (Query.any .incidentResources .blockedAffected (Query.all
            (own .blockedAffected .incidentId column.operand) [
            own .blockedAffected .resourceType (text "service"),
            .not ((grantAllowCondition access .service ⟨.blockedAffected, .resourceId⟩
                .manage).and
              (grantDenyCondition access .service ⟨.blockedAffected, .resourceId⟩
                .manage))]))))) := by
  rw [incidentManageCondition, if_neg (by simp [hrole])]
  rfl

theorem placeholders_eq (values : List String) :
    placeholders values.length =
      (values.map fun value ↦ (.parameter (.text value) : SqlOperand)).map Operand.term := by
  induction values with
  | nil => rfl
  | cons value values ih =>
    rw [placeholders, List.length_cons, List.replicate_succ, ← placeholders, ih]
    rfl

/-- `id IN (?, …)` -/
def requested (serviceIds : List String) : QueryCondition :=
  .isIn (.column .current .id) (serviceIds.map fun id ↦ .parameter (.text id))

theorem binds_requested (serviceIds : List String) :
    (requested serviceIds).binds = serviceIds.map Value.text := by
  show choiceBinds (serviceIds.map fun id ↦ (.parameter (.text id) : SqlOperand)) = _
  induction serviceIds with
  | nil => rfl
  | cons id serviceIds ih =>
    rw [List.map_cons, List.map_cons, choiceBinds, List.flatMap_cons, ← choiceBinds, ih]
    rfl

theorem finalServiceSetManageCondition_eq {access : MonitoringAccess}
    (hrole : access.role = .member) (userId : String) (serviceIds : List String) :
    finalServiceSetManageCondition access userId serviceIds =
      (memberQuery (.parameter (.text access.workspaceId)) (.parameter (.text userId))
        (text "member")).and
        (Query.count .services .current
          (Query.all (own .current .workspaceId (.parameter (.text access.workspaceId))) [
            .isNull (.column .current .deletedAt),
            requested serviceIds,
            grantQuery .allowed (.column .current .workspaceId) (.parameter (.text userId))
              (text "service") (.column .current .id) (own .allowed .capability (text "manage"))
              .allow,
            .not (grantQuery .denied (.column .current .workspaceId) (.parameter (.text userId))
              (text "service") (.column .current .id)
              (ownIn .denied .capability (deniedCapabilities .manage)) .deny)])
          (.parameter (.number serviceIds.length))) := by
  rw [finalServiceSetManageCondition, if_neg (by simp [hrole])]
  apply Query.ext
  · simp only [placeholders_eq]
    rfl
  · show _ = ([.text access.workspaceId, .text userId] ++ (((([.text access.workspaceId] ++
      (requested serviceIds).binds) ++ [.text userId]) ++ [.text userId]) ++
      [.number serviceIds.length]) : List Value)
    rw [binds_requested]
    simp

end Parts

/-! ## What the conditions say -/

def canAccessIncident (role : WorkspaceRole) (grants : List GrantRow) (incidentId : String)
    (capability : Capability) (inheritedFromServices : Bool) : Bool :=
  role = .admin ||
    let incidentGrants := grants.filter fun grant ↦
      grant.resourceType = .incident && grant.resourceId = incidentId
    (!incidentGrants.any fun grant ↦ grant.deniesCapability capability) &&
      (canAccessResource role incidentGrants .incident incidentId capability ||
        inheritedFromServices)

/-- The services that an incident affects, deleted ones included. -/
def affectedServices (db : AccessDb) (incidentId : String) : List String :=
  (db.incidentResources.filter fun row ↦
    row.incidentId = incidentId && row.resourceType = .service).map IncidentResource.resourceId

/-- Some services, all of which the grants let the actor manage. -/
def managesServices (role : WorkspaceRole) (grants : List GrantRow) (services : List String) :
    Bool :=
  !services.isEmpty && services.all fun id ↦ canAccessResource role grants .service id .manage

theorem nodup_affectedServices (db : AccessDb) (incidentId : String) :
    (affectedServices db incidentId).Nodup := by
  apply List.Nodup.map_on
  · rintro ⟨firstIncident, firstType, first⟩ hfirst ⟨secondIncident, secondType, second⟩ hsecond
      hsame
    simp only [List.mem_filter, Bool.and_eq_true, decide_eq_true_eq] at hfirst hsecond
    obtain ⟨-, rfl, rfl⟩ := hfirst
    obtain ⟨-, rfl, rfl⟩ := hsecond
    exact congrArg _ hsame
  · exact db.oneResource.filter _

theorem canAccessIncident_member {grants : List GrantRow} {incidentId : String}
    {capability : Capability} {inheritedFromServices : Bool} :
    canAccessIncident .member grants incidentId capability inheritedFromServices = true ↔
      ¬ Denies grants .incident incidentId capability ∧
        (Allows grants .incident incidentId capability ∨ inheritedFromServices = true) := by
  let incidentGrants := grants.filter fun grant ↦
    grant.resourceType = .incident && grant.resourceId = incidentId
  have hmem (grant : GrantRow) : grant ∈ incidentGrants ↔
      grant ∈ grants ∧ grant.resourceType = .incident ∧ grant.resourceId = incidentId := by
    simp [incidentGrants]
  have hallows : Allows incidentGrants .incident incidentId capability ↔
      Allows grants .incident incidentId capability := by
    apply exists_congr
    intro grant
    rw [hmem]
    tauto
  have hdenies : Denies incidentGrants .incident incidentId capability ↔
      Denies grants .incident incidentId capability := by
    apply exists_congr
    intro grant
    rw [hmem]
    tauto
  have hany : (incidentGrants.any fun grant ↦ grant.deniesCapability capability) = true ↔
      Denies grants .incident incidentId capability := by
    rw [List.any_eq_true]
    apply exists_congr
    intro grant
    rw [hmem, deniesCapability_iff]
    tauto
  show ((false || (!incidentGrants.any _) && _) = true) ↔ _
  rw [Bool.false_or, Bool.and_eq_true, Bool.or_eq_true, Bool.not_eq_true', ← Bool.not_eq_true,
    hany, canAccessResource_member, hallows, hdenies]
  tauto

section Meaning

variable {db : AccessDb} {scope : SqlScope} {incidentId userId : String}

theorem mem_affectedServices {id : String} : id ∈ affectedServices db incidentId ↔
    ∃ row ∈ db.incidentResources, row.incidentId = incidentId ∧ row.resourceType = .service ∧
      row.resourceId = id := by
  simp only [affectedServices, List.mem_map, List.mem_filter, Bool.and_eq_true,
    decide_eq_true_eq, and_assoc]

theorem affectedTypeText_service {resourceType : AffectedType} :
    affectedTypeText resourceType = "service" ↔ resourceType = .service := by
  cases resourceType <;> decide

theorem managesServices_affected {grants : List GrantRow} :
    managesServices .member grants (affectedServices db incidentId) = true ↔
      (∃ row ∈ db.incidentResources, row.incidentId = incidentId ∧ row.resourceType = .service) ∧
      ∀ row ∈ db.incidentResources, row.incidentId = incidentId → row.resourceType = .service →
        canAccessResource .member grants .service row.resourceId .manage = true := by
  rw [managesServices, Bool.and_eq_true, Bool.not_eq_true', ← Bool.not_eq_true,
    List.isEmpty_iff, List.all_eq_true]
  apply and_congr
  · rw [List.eq_nil_iff_forall_not_mem]
    simp only [mem_affectedServices]
    simp only [not_forall, not_not]
    constructor
    · rintro ⟨id, row, hrow, hincident, htype, -⟩
      exact ⟨row, hrow, hincident, htype⟩
    · rintro ⟨row, hrow, hincident, htype⟩
      exact ⟨row.resourceId, row, hrow, hincident, htype, rfl⟩
  · simp only [mem_affectedServices]
    constructor
    · intro h row hrow hincident htype
      exact h row.resourceId ⟨row, hrow, hincident, htype, rfl⟩
    · rintro h id ⟨row, hrow, hincident, htype, rfl⟩
      exact h row hrow hincident htype

theorem holds_incidentManageCondition {access : ResourceQueryAccess} {name : String}
    {field : Column} (hid : scope (.enclosing name) field = some (.text incidentId)) :
    (incidentManageCondition access ⟨.enclosing name, field⟩).Holds db.database scope ↔
      db.ActiveAs access.workspaceId access.userId access.role ∧
        canAccessIncident access.role (db.grantsOf access.workspaceId access.userId) incidentId
          .manage (managesServices access.role (db.grantsOf access.workspaceId access.userId)
            (affectedServices db incidentId)) = true := by
  cases hrole : access.role with
  | admin =>
    rw [incidentManageCondition, if_pos hrole, holds_activeRoleCondition, hrole]
    exact (and_iff_left rfl).symm
  | member =>
    let column : ColumnName := ⟨.enclosing name, field⟩
    have hvalue : column.operand.value scope = some (.text incidentId) := hid
    have hincident (inner : Alias) (h : ∀ text, inner ≠ .enclosing text) (row : IncidentResource) :
        (own inner .incidentId column.operand).Holds db.database
          (Function.update scope inner (incidentResourceColumns row)) ↔
            row.incidentId = incidentId := by
      have hfree : column.operand.Free inner := free_enclosing inner field name h
      rw [holds_own hfree, hvalue]
      simp [incidentResourceColumns, eq_comm]
    rw [incidentManageCondition_eq hrole, Query.holds_and, Query.holds_and, Query.holds_or,
      Query.holds_and, Query.holds_not Query.definite_any, holds_activeRoleCondition, hrole,
      holds_grantAllowCondition Alias.noConfusion hvalue,
      holds_grantDenyCondition Alias.noConfusion hvalue, canAccessIncident_member,
      managesServices_affected, and_assoc]
    apply and_congr_right
    intro hactive
    apply and_congr_right
    intro hdenied
    apply or_congr_right
    apply and_congr
    · rw [Query.holds_any]
      simp only [AccessDb.database, List.mem_map, exists_exists_and_eq_and]
      apply exists_congr
      intro row
      rw [Query.holds_all, hincident .affected (by simp)]
      simp only [List.forall_mem_cons, holds_own_text, incidentResourceColumns,
        Option.some.injEq, Value.text.injEq, affectedTypeText_service]
      simp
    · rw [Query.holds_any]
      simp only [AccessDb.database, List.mem_map, exists_exists_and_eq_and, not_exists, not_and]
      apply forall_congr'
      intro row
      apply imp_congr_right
      intro hrow
      have hresource : (⟨.blockedAffected, .resourceId⟩ : ColumnName).operand.value
          (Function.update scope .blockedAffected (incidentResourceColumns row)) =
            some (.text row.resourceId) := by
        rw [ColumnName.operand, Operand.value_column, Function.update_self]
        rfl
      rw [Query.holds_all, hincident .blockedAffected (by simp)]
      simp only [List.forall_mem_cons, holds_own_text, incidentResourceColumns,
        Option.some.injEq, Value.text.injEq, affectedTypeText_service,
        Query.holds_not (Query.definite_and definite_grantAllowCondition
          definite_grantDenyCondition), Query.holds_and,
        holds_grantAllowCondition Alias.noConfusion hresource,
        holds_grantDenyCondition Alias.noConfusion hresource, canAccessResource_member]
      simp

def manageableQuery (workspaceId userId : String) (serviceIds : List String) : QueryCondition :=
  .all (own .current .workspaceId (.parameter (.text workspaceId))) [
    .isNull (.column .current .deletedAt),
    requested serviceIds,
    grantQuery .allowed (.column .current .workspaceId) (.parameter (.text userId))
      (text "service") (.column .current .id) (own .allowed .capability (text "manage")) .allow,
    .not (grantQuery .denied (.column .current .workspaceId) (.parameter (.text userId))
      (text "service") (.column .current .id)
      (ownIn .denied .capability (deniedCapabilities .manage)) .deny)]

variable {serviceIds : List String}

theorem holds_requested {row : Service} :
    (requested serviceIds).Holds db.database
      (Function.update scope .current (serviceColumns row)) ↔ row.id ∈ serviceIds := by
  rw [requested, Query.holds_isIn, Operand.value_self]
  simp [serviceColumns]

theorem holds_manageableQuery {workspaceId : String} {row : Service} :
    (manageableQuery workspaceId userId serviceIds).Holds db.database
        (Function.update scope .current (serviceColumns row)) ↔
      row.workspaceId = workspaceId ∧ row.deletedAt = none ∧ row.id ∈ serviceIds ∧
        canAccessResource .member (db.grantsOf workspaceId userId) .service row.id .manage =
          true := by
  have hvalue (field : Column) : (Operand.column .current field : SqlOperand).value
      (Function.update scope .current (serviceColumns row)) = serviceColumns row field :=
    Operand.value_self scope .current field (serviceColumns row)
  have hallowed : (grantQuery .allowed (.column .current .workspaceId) (.parameter (.text userId))
      (text "service") (.column .current .id) (own .allowed .capability (text "manage"))
      .allow).Holds db.database (Function.update scope .current (serviceColumns row)) ↔
        Allows (db.grantsOf row.workspaceId userId) .service row.id .manage :=
    holds_grantQuery_iff (comparesCapability_own _ _ _) (Operand.free_column Alias.noConfusion _)
      (Operand.free_parameter _ _) (Operand.free_literal _ _)
      (Operand.free_column Alias.noConfusion _) (hvalue .workspaceId) rfl rfl (hvalue .id)
  have hdenied : (grantQuery .denied (.column .current .workspaceId) (.parameter (.text userId))
      (text "service") (.column .current .id)
      (ownIn .denied .capability (deniedCapabilities .manage)) .deny).Holds db.database
        (Function.update scope .current (serviceColumns row)) ↔
        Denies (db.grantsOf row.workspaceId userId) .service row.id .manage :=
    holds_grantQuery_iff (comparesCapability_ownIn _ _ _)
      (Operand.free_column Alias.noConfusion _) (Operand.free_parameter _ _)
      (Operand.free_literal _ _) (Operand.free_column Alias.noConfusion _) (hvalue .workspaceId)
      rfl rfl (hvalue .id)
  have hown : (own .current .workspaceId (.parameter (.text workspaceId))).Holds db.database
      (Function.update scope .current (serviceColumns row)) ↔ row.workspaceId = workspaceId := by
    rw [holds_own (Operand.free_parameter _ _)]
    simp [serviceColumns, eq_comm]
  have hnull : (Query.isNull (.column .current .deletedAt) : QueryCondition).Holds db.database
      (Function.update scope .current (serviceColumns row)) ↔ row.deletedAt = none := by
    rw [Query.holds_isNull, hvalue]
    simp [serviceColumns]
  rw [manageableQuery, Query.holds_all, hown]
  simp only [List.forall_mem_cons, hnull, holds_requested, hallowed,
    Query.holds_not definite_grantQuery, hdenied, canAccessResource_member]
  constructor
  · rintro ⟨rfl, hlive, hmem, hallows, hdenies, -⟩
    exact ⟨rfl, hlive, hmem, hallows, hdenies⟩
  · rintro ⟨rfl, hlive, hmem, hallows, hdenies⟩
    exact ⟨rfl, hlive, hmem, hallows, hdenies, by simp⟩

/-- The service is there, and not deleted. -/
def Undeleted (db : AccessDb) (workspaceId id : String) : Prop :=
  ∃ service ∈ db.services, service.id = id ∧ service.workspaceId = workspaceId ∧
    service.deletedAt = none

theorem holds_finalServiceSetManageCondition {access : MonitoringAccess}
    (hrole : access.role = .member) (hnodup : serviceIds.Nodup) :
    (finalServiceSetManageCondition access userId serviceIds).Holds db.database scope ↔
      db.ActiveAs access.workspaceId userId .member ∧
        ∀ id ∈ serviceIds, Undeleted db access.workspaceId id ∧
          canAccessResource .member (db.grantsOf access.workspaceId userId) .service id .manage =
            true := by
  rw [finalServiceSetManageCondition_eq hrole, ← manageableQuery, Query.holds_and]
  apply and_congr
  · exact holds_memberQuery_iff (Operand.free_parameter _ _) (Operand.free_parameter _ _)
      (Operand.free_literal _ _) rfl rfl rfl
  · rw [Query.holds_count, Operand.value_parameter, AccessDb.database, List.countP_map]
    have hasked : ∀ row : Service, decide ((manageableQuery access.workspaceId userId
        serviceIds).Holds db.database (Function.update scope .current (serviceColumns row))) =
          true → row.id ∈ serviceIds :=
      fun row hrow ↦ (holds_manageableQuery.mp (of_decide_eq_true hrow)).2.2.1
    have hcount := db.oneService.countP_eq_length_iff hnodup hasked
    constructor
    · intro hnumber id hid
      have hlength := Value.number.inj (Option.some.inj hnumber)
      obtain ⟨row, hrow, hholds, rfl⟩ := hcount.mp hlength.symm id hid
      obtain ⟨hworkspace, hlive, -, haccess⟩ := holds_manageableQuery.mp (of_decide_eq_true hholds)
      exact ⟨⟨row, hrow, rfl, hworkspace, hlive⟩, haccess⟩
    · intro hall
      have hlength := hcount.mpr fun id hid ↦ by
        obtain ⟨⟨row, hrow, rfl, hworkspace, hlive⟩, haccess⟩ := hall id hid
        exact ⟨row, hrow, decide_eq_true
          (holds_manageableQuery.mpr ⟨hworkspace, hlive, hid, haccess⟩), rfl⟩
      exact congrArg (fun number ↦ some (Value.number number)) hlength.symm

end Meaning

end AlphaPing.Access.IncidentConditions
