import AlphaPing.Library.ForeignKeys
import AlphaPing.Library.Runs
import AlphaPing.Library.Tables

/-!
# The deletion of a workspace

The control database as its migrations leave it: which tables refer to which, with what action,
and the triggers on `memberships`. Of a row only the key, the references and the columns that the
triggers and the finalization read are kept.

The last active administrator of a workspace cannot be deleted, and the deletion of a workspace
deletes its memberships.
-/

namespace AlphaPing.Retention.WorkspaceDeletion

open Library.ForeignKeys Library.Runs Library.Tables

/-! ## The schema -/

/-- The tables that refer to others or are referred to. -/
inductive Table where
  | user | session | account | workspaces | memberships | dashboards | dashboardResources
  | resourceGrants | resourcePublicPolicies | machines | agentEnrollmentTokens | agents
  | agentKeys | agentCommands | services | checkConfigs | checkAssertions | checkSecrets
  | incidents | incidentUpdates | incidentResources | announcements | retentionPolicies
  | containers | workspaceInvitations | auditLogs | serviceStateSyncJobs | notificationChannels
  | notificationRules | notificationDeliveries
  deriving DecidableEq

inductive Column where
  | workspaceId | userId | dashboardId | subjectUserId | createdBy | machineId | agentId
  | serviceId | executorAgentId | checkId | incidentId | actorUserId | channelId | role | status
  deriving DecidableEq

inductive OnDelete where
  | cascade | setNull | noAction
  deriving DecidableEq

structure ForeignKey where
  column : Column
  parent : Table
  onDelete : OnDelete

def ofWorkspace : ForeignKey := ⟨.workspaceId, .workspaces, .cascade⟩

def byUser : ForeignKey := ⟨.createdBy, .user, .noAction⟩

/-- The references of a table in the migrated schema. -/
def foreignKeys : Table → List ForeignKey
  | .user => []
  | .session => [⟨.userId, .user, .cascade⟩]
  | .account => [⟨.userId, .user, .cascade⟩]
  | .workspaces => []
  | .memberships => [ofWorkspace, ⟨.userId, .user, .cascade⟩]
  | .dashboards => [ofWorkspace, byUser]
  | .dashboardResources => [⟨.dashboardId, .dashboards, .cascade⟩]
  | .resourceGrants => [ofWorkspace, ⟨.subjectUserId, .user, .cascade⟩, byUser]
  | .resourcePublicPolicies => [ofWorkspace]
  | .machines => [ofWorkspace]
  | .agentEnrollmentTokens => [ofWorkspace, ⟨.machineId, .machines, .cascade⟩, byUser]
  | .agents => [ofWorkspace, ⟨.machineId, .machines, .cascade⟩]
  | .agentKeys => [⟨.agentId, .agents, .cascade⟩]
  | .agentCommands => [ofWorkspace, ⟨.agentId, .agents, .cascade⟩, byUser]
  | .services => [ofWorkspace]
  | .checkConfigs => [ofWorkspace, ⟨.serviceId, .services, .cascade⟩,
      ⟨.executorAgentId, .agents, .noAction⟩]
  | .checkAssertions => [⟨.checkId, .checkConfigs, .cascade⟩]
  | .checkSecrets => [ofWorkspace]
  | .incidents => [ofWorkspace, byUser]
  | .incidentUpdates => [⟨.incidentId, .incidents, .cascade⟩, byUser]
  | .incidentResources => [⟨.incidentId, .incidents, .cascade⟩]
  | .announcements => [ofWorkspace, byUser]
  | .retentionPolicies => [ofWorkspace]
  | .containers => [ofWorkspace, ⟨.machineId, .machines, .cascade⟩]
  | .workspaceInvitations => [ofWorkspace, byUser]
  | .auditLogs => [ofWorkspace, ⟨.actorUserId, .user, .setNull⟩]
  | .serviceStateSyncJobs => [ofWorkspace]
  | .notificationChannels => [ofWorkspace, byUser]
  | .notificationRules => [ofWorkspace, ⟨.channelId, .notificationChannels, .cascade⟩, byUser]
  | .notificationDeliveries => [ofWorkspace, ⟨.channelId, .notificationChannels, .cascade⟩]

structure Row where
  table : Table
  /-- The values of the primary key. -/
  key : List String
  columns : List (Column × String)
  deletedAt : Option ℤ
  purgeStartedAt : Option ℤ
  deriving DecidableEq

/-- The value of a column; none is a null. -/
def Row.value (row : Row) (column : Column) : Option String :=
  (lookup Prod.fst column row.columns).map Prod.snd

abbrev Key := Table × List String

def Row.references (row : Row) (onDelete : OnDelete) : List Key :=
  ((foreignKeys row.table).filter fun reference ↦ reference.onDelete = onDelete).filterMap
    fun reference ↦ (row.value reference.column).map fun value ↦ (reference.parent, [value])

def Row.clear (row : Row) (key : Key) : Row :=
  { row with
    columns := row.columns.filter fun column ↦ !(foreignKeys row.table).any fun reference ↦
      reference.onDelete = .setNull && reference.column = column.1 &&
        (reference.parent, [column.2]) = key }

/-- An active administrator of some workspace. -/
def Row.activeAdmin (row : Row) : Bool :=
  row.table = .memberships && row.value .role = some "admin" && row.value .status = some "active"

/-- The condition that the triggers on `memberships` share. -/
def otherAdmin (rows : List Row) (row : Row) : Bool :=
  rows.any fun other ↦ other.activeAdmin && other.value .workspaceId = row.value .workspaceId &&
    other.value .userId ≠ row.value .userId

/-- `memberships_keep_active_admin_on_delete`. -/
def keepActiveAdminOnDelete (rows : List Row) (row : Row) : Bool :=
  !row.activeAdmin || otherAdmin rows row

def controlSchema : Schema Row Key where
  key row := (row.table, row.key)
  follows row := row.references .cascade
  needs row := row.references .noAction
  forget key row := row.clear key
  guard := keepActiveAdminOnDelete

/-! ## Statements -/

/-- `INSERT` of one row. -/
def insertRow (rows : List Row) (row : Row) : Option (List Row) :=
  if rows.any fun other ↦ controlSchema.key other = controlSchema.key row then none
  else if intact controlSchema (rows ++ [row]) &&
    (row.references .cascade ++ row.references .setNull).all fun key ↦
      rows.any fun other ↦ controlSchema.key other = key
  then some (rows ++ [row])
  else none

def membershipRow (workspaceId userId role status : String) : Row where
  table := .memberships
  key := [workspaceId, userId]
  columns := [(.workspaceId, workspaceId), (.userId, userId), (.role, role), (.status, status)]
  deletedAt := none
  purgeStartedAt := none

def workspaceRow (workspaceId : String) : Row := ⟨.workspaces, [workspaceId], [], none, none⟩

/-- The batch that creates a workspace: its row, its administrator, and further rows. -/
def createWorkspace (rows : List Row) (workspaceId userId : String) (others : List Row) :
    Option (List Row) :=
  (workspaceRow workspaceId :: membershipRow workspaceId userId "admin" "active" ::
    others.filter fun row ↦ row.table ≠ .workspaces).foldlM insertRow rows

def Row.withRole (row : Row) (role status : String) : Row :=
  { row with
    columns := [(.role, role), (.status, status)] ++ row.columns.filter fun column ↦
      column.1 ≠ .role && column.1 ≠ .status }

/-- `UPDATE memberships SET role = ?, status = ?`, with the trigger
`memberships_keep_active_admin_on_update`. -/
def updateMembership (rows : List Row) (workspaceId userId role status : String) :
    Option (List Row) :=
  let matched (row : Row) : Bool := row.table = .memberships &&
    row.value .workspaceId = some workspaceId && row.value .userId = some userId
  if rows.any fun row ↦ matched row && row.activeAdmin &&
    !(role = "admin" && status = "active") && !otherAdmin rows row then none
  else some (updateWhere matched (fun row ↦ row.withRole role status) rows)

/-- `UPDATE` of the times of a row. -/
def markRow (rows : List Row) (table : Table) (key : List String)
    (deletedAt purgeStartedAt : Option ℤ) : List Row :=
  updateWhere (fun row ↦ row.table = table && row.key = key)
    (fun row ↦ { row with deletedAt := deletedAt, purgeStartedAt := purgeStartedAt }) rows

/-- `UPDATE` of a column of a row, which is not a membership. -/
def assignColumn (rows : List Row) (table : Table) (key : List String) (column : Column)
    (value : Option String) : List Row :=
  if table = .memberships then rows
  else updateWhere (fun row ↦ row.table = table && row.key = key) (fun row ↦ { row with
    columns := (value.toList.map fun value ↦ (column, value)) ++ row.columns.filter fun old ↦
      old.1 ≠ column }) rows

/-- What the web application and the workers do to the database, but for the finalization of a
workspace. -/
inductive Operation where
  | createWorkspace (workspaceId userId : String) (others : List Row)
  /-- Any row but a workspace; a membership comes with an invitation. -/
  | insert (row : Row)
  | updateMembership (workspaceId userId role status : String)
  | mark (table : Table) (key : List String) (deletedAt purgeStartedAt : Option ℤ)
  | assign (table : Table) (key : List String) (column : Column) (value : Option String)
  | delete (table : Table) (key : List String)

/-- An operation that fails leaves the rows as they are. -/
def apply (choice : Choice Row) (rows : List Row) : Operation → List Row
  | .createWorkspace workspaceId userId others =>
    (createWorkspace rows workspaceId userId others).getD rows
  | .insert row => if row.table = .workspaces then rows else (insertRow rows row).getD rows
  | .updateMembership workspaceId userId role status =>
    (updateMembership rows workspaceId userId role status).getD rows
  | .mark table key deletedAt purgeStartedAt => markRow rows table key deletedAt purgeStartedAt
  | .assign table key column value => assignColumn rows table key column value
  | .delete table key =>
    (deleteWhere controlSchema choice (fun row ↦ row.table = table && row.key = key) rows).getD
      rows

/-! ## The finalization of a workspace -/

structure SoftDeletePolicy where
  workspaceId : String
  workspaceDeletedAt : Option ℤ
  softDeleteGraceDays : ℤ

def dayMs : ℤ := 86400000

def ofPolicy (policy : SoftDeletePolicy) (row : Row) : Bool :=
  row.table = .workspaces && row.key = [policy.workspaceId] &&
    row.deletedAt = policy.workspaceDeletedAt

/-- `claimWorkspaceFinalization` of a workspace that is deleted long enough. -/
def claimWorkspace (rows : List Row) (policy : SoftDeletePolicy) (now : ℤ) : List Row :=
  updateWhere (ofPolicy policy) (fun row ↦ { row with
    purgeStartedAt := row.purgeStartedAt <|> some now }) rows

/-- Rows of the workspace that stand in the way of its deletion. -/
def blocking (workspaceId : String) (row : Row) : Bool :=
  [Table.machines, .services, .containers, .dashboards, .incidents, .announcements].contains
      row.table &&
    row.value .workspaceId = some workspaceId

/-- The workspace is deleted long enough. -/
def pastGrace (policy : SoftDeletePolicy) (now : ℤ) : Bool :=
  policy.workspaceDeletedAt.any fun deletedAt ↦
    deletedAt ≤ now - policy.softDeleteGraceDays * dayMs

/-- `finalizeDeletedWorkspace`: the rows after it and how many it has deleted, unless it throws.
The telemetry of the workspace is empty or not. -/
def finalizeDeletedWorkspace (choice : Choice Row) (rows : List Row) (policy : SoftDeletePolicy)
    (now : ℤ) (telemetryIsEmpty : Bool) : Option (List Row × ℕ) :=
  if !pastGrace policy now then some (rows, 0)
  else if !rows.any (ofPolicy policy) then some (rows, 0)
  else
    let claimed := claimWorkspace rows policy now
    if claimed.any (blocking policy.workspaceId) || !telemetryIsEmpty then some (claimed, 0)
    else
      let matched (row : Row) : Bool := ofPolicy policy row && row.purgeStartedAt.isSome
      (deleteWhere controlSchema choice matched claimed).map fun after ↦
        (after, claimed.countP matched)

/-! ## Administrators stay -/

def Administers (workspaceId : String) (row : Row) : Prop :=
  row.activeAdmin = true ∧ row.value .workspaceId = some workspaceId

/-- Every workspace has an active administrator. -/
def Administered (rows : List Row) : Prop :=
  ∀ workspace ∈ rows, workspace.table = .workspaces → ∀ workspaceId,
    workspace.key = [workspaceId] → ∃ admin ∈ rows, Administers workspaceId admin

theorem clear_membership {row : Row} (h : row.table = .memberships) (key : Key) :
    row.clear key = row := by
  have hcolumns : row.columns.filter (fun column ↦ !(foreignKeys row.table).any fun reference ↦
      reference.onDelete = .setNull && reference.column = column.1 &&
        (reference.parent, [column.2]) = key) = row.columns := by
    rw [h, List.filter_eq_self]
    intro column _
    simp [foreignKeys, ofWorkspace]
  rw [Row.clear, hcolumns]

theorem table_of_activeAdmin {row : Row} (h : row.activeAdmin = true) :
    row.table = .memberships := by
  simp only [Row.activeAdmin, Bool.and_eq_true, decide_eq_true_eq] at h
  exact h.1.1

theorem administers_congr {row other : Row} (htable : other.table = row.table)
    (hcolumns : other.columns = row.columns) {workspaceId : String} :
    Administers workspaceId other ↔ Administers workspaceId row := by
  obtain ⟨table, key, columns, deletedAt, purgeStartedAt⟩ := row
  obtain ⟨table', key', columns', deletedAt', purgeStartedAt'⟩ := other
  obtain rfl : table' = table := htable
  obtain rfl : columns' = columns := hcolumns
  exact Iff.rfl

theorem keepsLast_administers (workspaceId : String) :
    KeepsLast controlSchema (Administers workspaceId) where
  forget key row h := by
    show Administers workspaceId (row.clear key)
    rwa [clear_membership (table_of_activeAdmin h.1)]
  guard rows row hguard h := by
    have hother : otherAdmin rows row = true := by
      simpa [controlSchema, keepActiveAdminOnDelete, h.1] using hguard
    obtain ⟨other, hmem, hmatch⟩ := List.any_eq_true.mp hother
    simp only [Bool.and_eq_true, decide_eq_true_eq] at hmatch
    refine ⟨other, hmem, ?_, hmatch.1.1, hmatch.1.2.trans h.2⟩
    rintro rfl
    exact hmatch.2 rfl

theorem follows_of_administers {workspaceId : String} {row : Row}
    (h : Administers workspaceId row) :
    ((Table.workspaces, [workspaceId]) : Key) ∈ controlSchema.follows row := by
  simp [controlSchema, Row.references, table_of_activeAdmin h.1, foreignKeys, ofWorkspace, h.2]

section Operations

variable {rows after : List Row}

theorem Administered.of_rows (h : Administered rows)
    (hadmins : ∀ workspaceId, (∃ admin ∈ rows, Administers workspaceId admin) →
      ∃ admin ∈ after, Administers workspaceId admin)
    (hworkspaces : ∀ workspace ∈ after, workspace.table = .workspaces →
      ∃ old ∈ rows, old.table = .workspaces ∧ old.key = workspace.key) : Administered after := by
  intro workspace hmem htable workspaceId hkey
  obtain ⟨old, hold, holdTable, holdKey⟩ := hworkspaces workspace hmem htable
  exact hadmins workspaceId (h old hold holdTable workspaceId (holdKey.trans hkey))

theorem insertRow_eq_some {row : Row} (h : insertRow rows row = some after) :
    after = rows ++ [row] := by
  rw [insertRow] at h
  split at h
  · cases h
  · split at h
    · exact (Option.some.inj h).symm
    · cases h

theorem foldlM_insertRow_eq_some {new : List Row} (h : new.foldlM insertRow rows = some after) :
    after = rows ++ new := by
  induction new generalizing rows with
  | nil => exact (Option.some.inj h).symm.trans (List.append_nil rows).symm
  | cons row later ih =>
    obtain ⟨between, hfirst, hlater⟩ := Option.bind_eq_some_iff.mp h
    rw [ih hlater, insertRow_eq_some hfirst, List.append_assoc, List.singleton_append]

theorem administers_membershipRow (workspaceId userId : String) :
    Administers workspaceId (membershipRow workspaceId userId "admin" "active") :=
  ⟨by simp [Row.activeAdmin, membershipRow, Row.value, lookup], rfl⟩

theorem createWorkspace_administered {workspaceId userId : String} {others : List Row}
    (h : Administered rows) (hafter : createWorkspace rows workspaceId userId others = some after) :
    Administered after := by
  rw [createWorkspace] at hafter
  obtain rfl := foldlM_insertRow_eq_some hafter
  intro workspace hmem htable otherId hkey
  rcases List.mem_append.mp hmem with hold | hnew
  · obtain ⟨admin, hadmin, hadministers⟩ := h workspace hold htable otherId hkey
    exact ⟨admin, List.mem_append_left _ hadmin, hadministers⟩
  · rcases List.mem_cons.mp hnew with rfl | hother
    · obtain rfl : workspaceId = otherId := by simpa [workspaceRow] using hkey
      exact ⟨_, List.mem_append_right _ (List.mem_cons_of_mem _ List.mem_cons_self),
        administers_membershipRow workspaceId userId⟩
    · rcases List.mem_cons.mp hother with rfl | hfurther
      · cases htable
      · exact absurd htable (by simpa using (List.mem_filter.mp hfurther).2)

theorem insertRow_administered {row : Row} (h : Administered rows) (hrow : row.table ≠ .workspaces)
    (hafter : insertRow rows row = some after) : Administered after := by
  obtain rfl := insertRow_eq_some hafter
  apply h.of_rows
  · rintro workspaceId ⟨admin, hadmin, hadministers⟩
    exact ⟨admin, List.mem_append_left _ hadmin, hadministers⟩
  · intro workspace hmem htable
    rcases List.mem_append.mp hmem with hold | hnew
    · exact ⟨workspace, hold, htable, rfl⟩
    · exact absurd (List.mem_singleton.mp hnew ▸ htable) hrow

theorem updateWhere_administered {condition : Row → Bool} {change : Row → Row}
    (h : Administered rows)
    (hchange : ∀ row, (change row).table = row.table ∧ (change row).key = row.key)
    (hadmins : ∀ row ∈ rows, condition row = true → row.table = .memberships →
      (change row).columns = row.columns) : Administered (updateWhere condition change rows) := by
  apply h.of_rows
  · rintro workspaceId ⟨admin, hadmin, hadministers⟩
    refine ⟨_, mem_updateWhere_of_mem hadmin, ?_⟩
    split
    · next hcondition =>
      have htable := table_of_activeAdmin hadministers.1
      exact (administers_congr (hchange admin).1
        (hadmins admin hadmin hcondition htable)).mpr hadministers
    · exact hadministers
  · intro workspace hmem htable
    obtain ⟨old, hold, ⟨-, rfl⟩ | ⟨-, rfl⟩⟩ := mem_updateWhere.mp hmem
    · exact ⟨old, hold, (hchange old).1.symm.trans htable, (hchange old).2.symm⟩
    · exact ⟨workspace, hold, htable, rfl⟩

theorem value_withRole_role (row : Row) (role status : String) :
    (row.withRole role status).value .role = some role := by
  simp [Row.value, Row.withRole, lookup]

theorem value_withRole_status (row : Row) (role status : String) :
    (row.withRole role status).value .status = some status := by
  simp [Row.value, Row.withRole, lookup]

theorem value_withRole_of_ne (row : Row) (role status : String) {column : Column}
    (hrole : column ≠ .role) (hstatus : column ≠ .status) :
    (row.withRole role status).value column = row.value column := by
  have hfind : (fun old : Column × String ↦ decide ((old.1 ≠ .role && old.1 ≠ .status) = true) &&
      decide (old.1 = column)) = fun old ↦ decide (old.1 = column) := by
    funext old
    by_cases h : old.1 = column
    · simp [h, hrole, hstatus]
    · simp [h]
  simp only [Row.value, Row.withRole, lookup, List.cons_append, List.nil_append,
    List.find?_cons, hrole.symm, hstatus.symm, decide_false, List.find?_filter]
  simpa using congrArg (fun found ↦ (List.find? found row.columns).map Prod.snd) hfind

theorem administers_withRole {workspaceId : String} {row : Row} (h : Administers workspaceId row) :
    Administers workspaceId (row.withRole "admin" "active") := by
  constructor
  · simp only [Row.activeAdmin, value_withRole_role, value_withRole_status, Bool.and_eq_true,
      decide_eq_true_eq]
    exact ⟨⟨(table_of_activeAdmin h.1 : row.table = .memberships), trivial⟩, trivial⟩
  · rw [value_withRole_of_ne row _ _ (by decide) (by decide)]
    exact h.2

theorem otherAdmin_of_not_any {workspaceId userId role status otherId : String} {admin : Row}
    (hlast : ¬(rows.any fun row ↦ (row.table = .memberships &&
      row.value .workspaceId = some workspaceId && row.value .userId = some userId) &&
        row.activeAdmin && !(role = "admin" && status = "active") && !otherAdmin rows row) = true)
    (hadmin : admin ∈ rows) (hadministers : Administers otherId admin)
    (hmatched : admin.value .workspaceId = some workspaceId ∧ admin.value .userId = some userId)
    (hstays : ¬(role = "admin" ∧ status = "active")) :
    ∃ other ∈ rows, other.activeAdmin = true ∧
      other.value .workspaceId = admin.value .workspaceId ∧
      other.value .userId ≠ admin.value .userId := by
  have hother : otherAdmin rows admin = true := by
    by_contra hnone
    apply hlast
    rw [List.any_eq_true]
    refine ⟨admin, hadmin, ?_⟩
    simp only [table_of_activeAdmin hadministers.1, hmatched.1, hmatched.2, hadministers.1,
      Bool.eq_false_iff.mpr hnone, decide_true, Bool.and_true, Bool.not_false, Bool.true_and]
    simpa only [Bool.not_eq_true', Bool.and_eq_false_iff, decide_eq_false_iff_not, not_and_or]
      using hstays
  obtain ⟨other, hmem, hmatch⟩ := List.any_eq_true.mp hother
  simp only [Bool.and_eq_true, decide_eq_true_eq] at hmatch
  exact ⟨other, hmem, hmatch.1.1, hmatch.1.2, hmatch.2⟩

theorem updateMembership_administered {workspaceId userId role status : String}
    (h : Administered rows)
    (hafter : updateMembership rows workspaceId userId role status = some after) :
    Administered after := by
  rw [updateMembership] at hafter
  dsimp only at hafter
  split at hafter
  · cases hafter
  · next hlast =>
    obtain rfl := Option.some.inj hafter
    apply h.of_rows
    · rintro otherId ⟨admin, hadmin, hadministers⟩
      by_cases hmatched : admin.value .workspaceId = some workspaceId ∧
          admin.value .userId = some userId
      · by_cases hstays : role = "admin" ∧ status = "active"
        · obtain ⟨rfl, rfl⟩ := hstays
          refine ⟨_, mem_updateWhere_of_mem hadmin, ?_⟩
          split
          · exact administers_withRole hadministers
          · exact hadministers
        · obtain ⟨other, hother, hotherAdmin, hworkspace, huser⟩ :=
            otherAdmin_of_not_any hlast hadmin hadministers hmatched hstays
          refine ⟨other, mem_updateWhere_of_not hother ?_, hotherAdmin,
            hworkspace.trans hadministers.2⟩
          simpa using fun _ _ ↦ hmatched.2 ▸ huser
      · refine ⟨admin, mem_updateWhere_of_not hadmin ?_, hadministers⟩
        simpa using fun _ hworkspace huser ↦ hmatched ⟨hworkspace, huser⟩
    · intro workspace hmem htable
      obtain ⟨old, hold, ⟨-, rfl⟩ | ⟨-, rfl⟩⟩ := mem_updateWhere.mp hmem
      · exact ⟨old, hold, htable, rfl⟩
      · exact ⟨workspace, hold, htable, rfl⟩

theorem deleteWhere_administered {choice : Choice Row} {condition : Row → Bool}
    (h : Administered rows)
    (hafter : deleteWhere controlSchema choice condition rows = some after) :
    Administered after := by
  rw [deleteWhere] at hafter
  apply h.of_rows
  · intro workspaceId hadmin
    exact (keepsLast_administers workspaceId).foldlM_delete hadmin hafter
  · refine forall_of_foldlM_delete (fun key row hrow ↦ hrow) ?_ hafter
    intro workspace hmem htable
    exact ⟨workspace, hmem, htable, rfl⟩

theorem apply_administered (choice : Choice Row) (rows : List Row) (operation : Operation)
    (h : Administered rows) : Administered (apply choice rows operation) := by
  cases operation with
  | createWorkspace workspaceId userId others =>
    dsimp only [apply]
    cases hafter : createWorkspace rows workspaceId userId others with
    | none => exact h
    | some after => exact createWorkspace_administered h hafter
  | insert row =>
    dsimp only [apply]
    split
    · exact h
    · next hrow =>
      cases hafter : insertRow rows row with
      | none => exact h
      | some after => exact insertRow_administered h hrow hafter
  | updateMembership workspaceId userId role status =>
    dsimp only [apply]
    cases hafter : updateMembership rows workspaceId userId role status with
    | none => exact h
    | some after => exact updateMembership_administered h hafter
  | mark table key deletedAt purgeStartedAt =>
    exact updateWhere_administered h (fun _ ↦ ⟨rfl, rfl⟩) fun _ _ _ _ ↦ rfl
  | assign table key column value =>
    dsimp only [apply, assignColumn]
    split
    · exact h
    · next htable =>
      refine updateWhere_administered h (fun _ ↦ ⟨rfl, rfl⟩) fun row _ hcondition hmembership ↦ ?_
      simp only [Bool.and_eq_true, decide_eq_true_eq] at hcondition
      exact absurd (hcondition.1.symm.trans hmembership) htable
  | delete table key =>
    dsimp only [apply]
    cases hafter : deleteWhere controlSchema choice
        (fun row ↦ row.table = table && row.key = key) rows with
    | none => exact h
    | some after => exact deleteWhere_administered h hafter

theorem run_administered (choice : Choice Row) (operations : List Operation) :
    Administered (run (apply choice) [] operations) :=
  run_invariant (apply_administered choice) (fun _ hmem ↦ absurd hmem List.not_mem_nil) operations

end Operations

/-! ## The deletion is always taken back -/

section Finalization

variable {choice : Choice Row} {rows : List Row} {policy : SoftDeletePolicy} {now : ℤ}

theorem claimWorkspace_administered (h : Administered rows) :
    Administered (claimWorkspace rows policy now) :=
  updateWhere_administered h (fun _ ↦ ⟨rfl, rfl⟩) fun _ _ _ _ ↦ rfl

theorem exists_claimed (h : rows.any (ofPolicy policy) = true) :
    ∃ row ∈ claimWorkspace rows policy now,
      (ofPolicy policy row && row.purgeStartedAt.isSome) = true := by
  obtain ⟨row, hmem, hrow⟩ := List.any_eq_true.mp h
  refine ⟨_, mem_updateWhere_of_mem hmem, ?_⟩
  rw [if_pos hrow, Bool.and_eq_true]
  constructor
  · exact hrow
  · cases row.purgeStartedAt <;> rfl

theorem foldlM_delete_eq_none {targets : List Row} {target : Row}
    (hfirst : targets.head? = some target) (h : delete controlSchema choice rows target = none) :
    targets.foldlM (delete controlSchema choice) rows = none := by
  cases targets with
  | nil => cases hfirst
  | cons first later =>
    obtain rfl : first = target := Option.some.inj hfirst
    rw [List.foldlM_cons, h]
    rfl

theorem deleteWhere_eq_none {condition : Row → Bool} {workspaceId : String} (h : Administered rows)
    (hcondition : ∀ row, condition row = true → row.table = .workspaces ∧ row.key = [workspaceId])
    (hsome : ∃ row ∈ rows, condition row = true) :
    deleteWhere controlSchema choice condition rows = none := by
  obtain ⟨row, hmem, hrow⟩ := hsome
  cases htargets : rows.filter condition with
  | nil =>
    have hnone := List.filter_eq_nil_iff.mp htargets row hmem
    exact absurd hrow hnone
  | cons target later =>
    have htarget : target ∈ rows.filter condition := htargets ▸ List.mem_cons_self
    obtain ⟨hmemTarget, hmatched⟩ := List.mem_filter.mp htarget
    obtain ⟨htable, hkey⟩ := hcondition target hmatched
    rw [deleteWhere, htargets]
    apply foldlM_delete_eq_none List.head?_cons
    apply (keepsLast_administers workspaceId).delete_eq_none hmemTarget
    · intro admin hadmin
      have hfollows := follows_of_administers hadmin
      rwa [← htable, ← hkey] at hfollows
    · exact h target hmemTarget htable workspaceId hkey

/-- The rows that block the finalization are gone. -/
def Cleared (rows : List Row) (policy : SoftDeletePolicy) : Prop :=
  rows.any (blocking policy.workspaceId) = false

instance (rows : List Row) (policy : SoftDeletePolicy) : Decidable (Cleared rows policy) :=
  inferInstanceAs (Decidable (_ = _))

theorem blocking_claimWorkspace :
    (claimWorkspace rows policy now).any (blocking policy.workspaceId) =
      rows.any (blocking policy.workspaceId) := by
  rw [claimWorkspace, updateWhere, List.any_map]
  apply congrArg (rows.any ·)
  funext row
  simp only [Function.comp_apply]
  split
  · rfl
  · rfl

end Finalization

/-- Whatever was done to the database, the finalization of a workspace that is deleted long enough
and empty throws: the trigger on its memberships takes the deletion back. -/
theorem finalizeDeletedWorkspace_throws (choice : Choice Row) (operations : List Operation)
    (policy : SoftDeletePolicy) (now : ℤ)
    (hworkspace : (run (apply choice) [] operations).any (ofPolicy policy) = true)
    (hgrace : pastGrace policy now = true)
    (hcleared : Cleared (run (apply choice) [] operations) policy) :
    finalizeDeletedWorkspace choice (run (apply choice) [] operations) policy now true = none := by
  have hadministered := run_administered choice operations
  generalize run (apply choice) [] operations = rows at *
  have hblocking : (claimWorkspace rows policy now).any (blocking policy.workspaceId) = false :=
    blocking_claimWorkspace.trans hcleared
  have hdelete : deleteWhere controlSchema choice
      (fun row ↦ ofPolicy policy row && row.purgeStartedAt.isSome)
      (claimWorkspace rows policy now) = none := by
    apply deleteWhere_eq_none (claimWorkspace_administered hadministered)
    · intro row hrow
      simp only [ofPolicy, Bool.and_eq_true, decide_eq_true_eq] at hrow
      exact hrow.1.1
    · exact exists_claimed hworkspace
  simp only [finalizeDeletedWorkspace, hgrace, hworkspace, hblocking, hdelete, Bool.not_true,
    Bool.false_eq_true, Bool.or_self, if_false, Option.map_none]

/-- A user creates a workspace and deletes it. -/
def deletedWorkspace : List Operation :=
  [.insert ⟨.user, ["u"], [], none, none⟩, .createWorkspace "w" "u" [],
    .mark .workspaces ["w"] (some 0) none]

def weekLong : SoftDeletePolicy := ⟨"w", some 0, 7⟩

theorem finalizeDeletedWorkspace_throws_deleted :
    finalizeDeletedWorkspace (Choice.first Row) (run (apply (Choice.first Row)) [] deletedWorkspace)
      weekLong (7 * dayMs) true = none :=
  finalizeDeletedWorkspace_throws (Choice.first Row) deletedWorkspace weekLong (7 * dayMs)
    (by decide +kernel) (by decide +kernel) (by decide +kernel)

/-- A workspace without members would go. -/
example : finalizeDeletedWorkspace (Choice.first Row)
    [{ workspaceRow "w" with deletedAt := some 0 }] weekLong (7 * dayMs) true = some ([], 1) := by
  decide +kernel

/-- The workspace is empty and deleted long enough, and its finalization throws. -/
theorem deletedWorkspace_stays :
    (run (apply (Choice.first Row)) [] deletedWorkspace).any (ofPolicy weekLong) = true ∧
      pastGrace weekLong (7 * dayMs) = true ∧
      Cleared (run (apply (Choice.first Row)) [] deletedWorkspace) weekLong ∧
      finalizeDeletedWorkspace (Choice.first Row)
        (run (apply (Choice.first Row)) [] deletedWorkspace) weekLong (7 * dayMs) true = none := by
  decide +kernel

end AlphaPing.Retention.WorkspaceDeletion
