import AlphaPing.Access.IncidentConditions
import AlphaPing.Monitoring.Handlers

/-!
# Updates of an incident

`appendIncidentUpdate` reads the actor's access and the affected services, decides, and then
updates the incident in a batch whose statement decides once more. An actor with direct access to
the incident is asked for direct access again; one who manages all affected services is asked for
these services. Neither is what the listing asks for.

Between the reads and the batch, memberships, grants and services may change in any way. What an
incident affects is written when it is created and not changed.
-/

namespace AlphaPing.Access.Incidents

open Library.Sql Library.Tables Library.Runs Monitoring.Control Monitoring.ServiceConfig
  Monitoring.Handlers Conditions IncidentConditions

/-! ## `appendIncidentUpdate` -/

inductive IncidentState where
  | investigating | identified | monitoring | resolved
  deriving DecidableEq

structure Incident where
  id : String
  workspaceId : String
  state : IncidentState
  resolvedAt : Option ℤ
  updatedAt : ℤ
  deletedAt : Option ℤ

structure IncidentUpdate where
  id : String
  incidentId : String
  state : IncidentState
  body : String
  publishedAt : ℤ
  createdBy : String
  createdAt : ℤ
  deriving DecidableEq

structure Store where
  access : AccessDb
  workspaces : List WorkspaceRow
  incidents : List Incident
  oneIncident : UniqueKey Incident.id incidents
  updates : List IncidentUpdate

structure Request where
  workspaceSlug : String
  userId : String
  incidentId : String
  state : IncidentState
  body : String
  now : ℤ
  /-- The identifier that the update gets. -/
  updateId : String

def maxIncidentServices : ℕ := 20

def validText (value : String) (minimum maximum : ℕ) (label : String) : Except HttpError String :=
  let trimmed := trim value
  if utf16Length trimmed < minimum ∨ maximum < utf16Length trimmed then
    .error ⟨400, s!"{label} must contain between {minimum} and {maximum} characters"⟩
  else .ok trimmed

def Store.workspaceOf (store : Store) (slug userId : String) : Option (String × WorkspaceRole) :=
  (store.workspaces.filter fun workspace ↦
    workspace.slug = slug && workspace.deletedAt.isNone).findSome? fun workspace ↦
      (store.access.roleOf workspace.id userId).map fun role ↦ (workspace.id, role)

/-- What a call has read, up to its batch. -/
inductive Progress where
  | reading
  /-- A member, whose grants are read next. -/
  | granting (workspaceId : String)
  | finding (access : MonitoringAccess)
  | listing (access : MonitoringAccess)
  | writing (access : MonitoringAccess) (services : List String) (body : String)
  | ended (outcome : Except HttpError Unit)

/-- A row of the statement around a condition. -/
def incidentScope (name : String) (row : Incident) : SqlScope
  | .enclosing other, .id => if other = name then some (.text row.id) else none
  | .enclosing other, .workspaceId => if other = name then some (.text row.workspaceId) else none
  | _, _ => none

/-- The actor has access to the incident itself, by the snapshot. -/
def directIncidentAccess (request : Request) (access : MonitoringAccess) : Bool :=
  canAccessIncident access.role access.grants request.incidentId .manage false

def authorization (request : Request) (access : MonitoringAccess) (services : List String) :
    QueryCondition :=
  if directIncidentAccess request access then
    finalResourceCapabilityCondition access request.userId .incident
      (.column "incidents" .workspaceId) (.column "incidents" .id) .manage
  else finalServiceSetManageCondition access request.userId services

/-- The condition of the `UPDATE`. -/
def updates (request : Request) (access : MonitoringAccess) (services : List String)
    (store : Store) (row : Incident) : Bool :=
  row.id = request.incidentId && row.workspaceId = access.workspaceId && row.deletedAt.isNone &&
    decide ((authorization request access services).Holds store.access.database
      (incidentScope "incidents" row))

def changeIncident (request : Request) (row : Incident) : Incident :=
  { row with
    state := request.state
    resolvedAt := if request.state = .resolved then some request.now else none
    updatedAt := request.now }

/-- The batch: the second statement follows the changes of the first. -/
def write (request : Request) (access : MonitoringAccess) (services : List String) (body : String)
    (store : Store) : Store × Progress :=
  let condition := updates request access services store
  let changed : Store := { store with
    incidents := updateWhere condition (changeIncident request) store.incidents
    oneIncident := store.oneIncident.updateWhere fun _ ↦ rfl }
  if store.incidents.countP condition = 1 then
    ({ changed with
      updates := store.updates ++ [⟨request.updateId, request.incidentId, request.state, body,
        request.now, request.userId, request.now⟩] }, .ended (.ok ()))
  else (changed, .ended (.error ⟨409, "Incident access changed; reload and try again"⟩))

/-- The checks after the last read. -/
def decideUpdate (request : Request) (access : MonitoringAccess) (services : List String) :
    Progress :=
  if services.length > maxIncidentServices then
    .ended (.error ⟨503, "Incident resource scope exceeds the supported limit"⟩)
  else if !canAccessIncident access.role access.grants request.incidentId .manage
      (managesServices access.role access.grants services) then
    .ended (.error ⟨404, "Incident not found"⟩)
  else match validText request.body 2 4000 "Incident update" with
  | .error failure => .ended (.error failure)
  | .ok body => .writing access services body

/-- One read, or the batch. -/
def advance (request : Request) (store : Store) : Progress → Store × Progress
  | .reading =>
    match store.workspaceOf request.workspaceSlug request.userId with
    | none => (store, .ended (.error ⟨404, "Workspace not found"⟩))
    | some (workspaceId, .admin) => (store, .finding ⟨workspaceId, .admin, []⟩)
    | some (workspaceId, .member) => (store, .granting workspaceId)
  | .granting workspaceId =>
    let grants := (store.access.grantsOf workspaceId request.userId).take (maxAccessGrants + 1)
    if grants.length > maxAccessGrants then
      (store, .ended (.error ⟨503, "Resource access scope exceeds the supported limit"⟩))
    else (store, .finding ⟨workspaceId, .member, grants⟩)
  | .finding access =>
    if store.incidents.any fun row ↦ row.id = request.incidentId &&
        row.workspaceId = access.workspaceId && row.deletedAt.isNone then
      (store, .listing access)
    else (store, .ended (.error ⟨404, "Incident not found"⟩))
  | .listing access =>
    (store, decideUpdate request access
      ((affectedServices store.access request.incidentId).take (maxIncidentServices + 1)))
  | .writing access services body => write request access services body store
  | .ended outcome => (store, .ended outcome)

structure State where
  store : Store
  progress : Progress

inductive Action where
  /-- Memberships, grants and services become these. -/
  | change (tables : AccessDb)
  | advance

/-- The tables without a change of what the incidents affect. -/
def keepResources (tables old : AccessDb) : AccessDb :=
  { tables with
    incidentResources := old.incidentResources
    oneResource := old.oneResource }

def step (request : Request) (state : State) : Action → State
  | .change tables =>
    { state with store := { state.store with access := keepResources tables state.store.access } }
  | .advance =>
    let (store, progress) := advance request state.store state.progress
    ⟨store, progress⟩

/-! ## The batch -/

/-- The incident is there, in the workspace of the access. -/
def Found (request : Request) (access : MonitoringAccess) (store : Store) : Prop :=
  ∃ row ∈ store.incidents, row.id = request.incidentId ∧ row.workspaceId = access.workspaceId ∧
    row.deletedAt = none

/-- `incidentManageCondition` holds of the actor and the incident. -/
def Manages (request : Request) (access : MonitoringAccess) (store : Store) : Prop :=
  ∃ row ∈ store.incidents, row.id = request.incidentId ∧
    (incidentManageCondition ⟨access.workspaceId, request.userId, access.role⟩
      ⟨.enclosing "incident", .id⟩).Holds store.access.database (incidentScope "incident" row)

section Batch

variable {request : Request} {access : MonitoringAccess} {services : List String} {body : String}
  {store : Store}

theorem incidentScope_id (name : String) (row : Incident) :
    incidentScope name row (.enclosing name) .id = some (.text row.id) := if_pos rfl

theorem incidentScope_workspaceId (name : String) (row : Incident) :
    incidentScope name row (.enclosing name) .workspaceId = some (.text row.workspaceId) :=
  if_pos rfl

theorem manages_iff (hfound : Found request access store) :
    Manages request access store ↔
      store.access.ActiveAs access.workspaceId request.userId access.role ∧
        canAccessIncident access.role
          (store.access.grantsOf access.workspaceId request.userId) request.incidentId .manage
          (managesServices access.role
            (store.access.grantsOf access.workspaceId request.userId)
            (affectedServices store.access request.incidentId)) = true := by
  constructor
  · rintro ⟨row, -, hid, hholds⟩
    rw [← hid]
    exact (holds_incidentManageCondition (incidentScope_id "incident" row)).mp hholds
  · intro h
    obtain ⟨row, hrow, hid, -, -⟩ := hfound
    rw [← hid] at h
    exact ⟨row, hrow, hid,
      (holds_incidentManageCondition (incidentScope_id "incident" row)).mpr h⟩

theorem holds_authorization {row : Incident} (hid : row.id = request.incidentId)
    (hworkspace : row.workspaceId = access.workspaceId) (hservices : services.Nodup)
    (hrole : directIncidentAccess request access = false → access.role = .member) :
    (authorization request access services).Holds store.access.database
        (incidentScope "incidents" row) ↔
      store.access.ActiveAs access.workspaceId request.userId access.role ∧
        if directIncidentAccess request access then
          canAccessResource access.role
            (store.access.grantsOf access.workspaceId request.userId) .incident
            request.incidentId .manage = true
        else ∀ id ∈ services, Undeleted store.access access.workspaceId id ∧
          canAccessResource .member (store.access.grantsOf access.workspaceId request.userId)
            .service id .manage = true := by
  rw [authorization]
  split
  · have hscope : (Expression.column "incidents" .workspaceId).operand.value
        (incidentScope "incidents" row) = some (.text access.workspaceId) :=
      hworkspace ▸ incidentScope_workspaceId "incidents" row
    have hresource : (Expression.column "incidents" .id).operand.value
        (incidentScope "incidents" row) = some (.text request.incidentId) :=
      hid ▸ incidentScope_id "incidents" row
    exact holds_finalResourceCapabilityCondition hscope hresource
  · next hpath =>
    have hmember := hrole (by simpa using hpath)
    rw [hmember]
    exact holds_finalServiceSetManageCondition hmember hservices

theorem write_takes_effect {row : Incident} (hrow : row ∈ store.incidents)
    (hid : row.id = request.incidentId) (hworkspace : row.workspaceId = access.workspaceId)
    (hlive : row.deletedAt = none) :
    (write request access services body store).1.updates ≠ store.updates ↔
      (authorization request access services).Holds store.access.database
        (incidentScope "incidents" row) := by
  have hupdates : updates request access services store row = true ↔
      (authorization request access services).Holds store.access.database
        (incidentScope "incidents" row) := by
    simp [updates, hid, hworkspace, hlive]
  have hkey (other : Incident) (hother : updates request access services store other = true) :
      other.id = row.id := by
    simp only [updates, Bool.and_eq_true, decide_eq_true_eq] at hother
    rw [hother.1.1.1, hid]
  rw [← hupdates, write]
  by_cases hholds : updates request access services store row = true
  · rw [if_pos (store.oneIncident.countP_eq_one hrow hholds hkey)]
    simp [hholds]
  · have hnone : store.incidents.countP (updates request access services store) = 0 := by
      rw [List.countP_eq_zero]
      intro other hother htrue
      obtain rfl := store.oneIncident.eq_of_mem hother hrow (hkey other htrue)
      exact hholds htrue
    rw [if_neg (by rw [hnone]; decide)]
    simp [hholds]

end Batch

/-! ## When the batch agrees with the listing -/

section Agreement

variable (request : Request) (access : MonitoringAccess) (store : Store)

/-- The grants of the actor as they are. -/
def currentGrants : List GrantRow :=
  store.access.grantsOf access.workspaceId request.userId

def IncidentDenied : Prop :=
  Denies (currentGrants request access store) .incident request.incidentId .manage

def IncidentAllowed : Prop :=
  Allows (currentGrants request access store) .incident request.incidentId .manage

/-- The incident affects services, and the actor manages all of them, deleted ones included. -/
def ServicesManaged : Prop :=
  managesServices .member (currentGrants request access store)
    (affectedServices store.access request.incidentId) = true

def ServicesUndeleted : Prop :=
  ∀ id ∈ affectedServices store.access request.incidentId,
    Undeleted store.access access.workspaceId id

/-- For a member who is still active: on the direct path, the direct permission has not been
withdrawn and left access by the services; on the other path, the incident has not been denied
while the services stay, it has not been allowed while they have not stayed, and none of them is
deleted while all are managed. -/
def Settled : Prop :=
  access.role = .member → store.access.ActiveAs access.workspaceId request.userId .member →
    if directIncidentAccess request access then
      IncidentDenied request access store ∨ IncidentAllowed request access store ∨
        ¬ ServicesManaged request access store
    else
      ¬ (IncidentDenied request access store ∧ ServicesManaged request access store ∧
        ServicesUndeleted request access store) ∧
      ¬ (¬ IncidentDenied request access store ∧ IncidentAllowed request access store ∧
        ¬ (ServicesManaged request access store ∧ ServicesUndeleted request access store)) ∧
      ¬ (¬ IncidentDenied request access store ∧ ServicesManaged request access store ∧
        ¬ ServicesUndeleted request access store)

variable {request access store} {services : List String} {body : String}

theorem directIncidentAccess_of_admin (h : access.role = .admin) :
    directIncidentAccess request access = true := by
  rw [directIncidentAccess, canAccessIncident, h]
  rfl

theorem member_of_not_direct (h : directIncidentAccess request access = false) :
    access.role = .member := by
  cases hrole : access.role with
  | admin => exact absurd (h.symm.trans (directIncidentAccess_of_admin hrole)) Bool.false_ne_true
  | member => rfl

theorem manages_member_iff (hrole : access.role = .member)
    (hfound : Found request access store) : Manages request access store ↔
      store.access.ActiveAs access.workspaceId request.userId .member ∧
        ¬ IncidentDenied request access store ∧
          (IncidentAllowed request access store ∨ ServicesManaged request access store) := by
  rw [manages_iff hfound, hrole, canAccessIncident_member]
  rfl

/-- The services that were read are managed and not deleted, as a set that is not empty. -/
theorem all_services_iff (hservices : services = affectedServices store.access request.incidentId)
    (hnonempty : services ≠ []) :
    (∀ id ∈ services, Undeleted store.access access.workspaceId id ∧
      canAccessResource .member (store.access.grantsOf access.workspaceId request.userId)
        .service id .manage = true) ↔
      ServicesManaged request access store ∧ ServicesUndeleted request access store := by
  subst hservices
  have hmanaged : ServicesManaged request access store ↔
      ∀ id ∈ affectedServices store.access request.incidentId,
        canAccessResource .member (store.access.grantsOf access.workspaceId request.userId)
          .service id .manage = true := by
    rw [ServicesManaged, managesServices, Bool.and_eq_true, List.all_eq_true]
    exact and_iff_right (by simpa using hnonempty)
  rw [hmanaged, ServicesUndeleted]
  constructor
  · intro h
    exact ⟨fun id hid ↦ (h id hid).2, fun id hid ↦ (h id hid).1⟩
  · rintro ⟨hmanages, hundeleted⟩ id hid
    exact ⟨hundeleted id hid, hmanages id hid⟩

/-- The batch of a call that has been let through does what the listing says exactly when the
tables are settled. -/
theorem write_agrees_iff (hfound : Found request access store)
    (hservices : services = affectedServices store.access request.incidentId)
    (hdecided : canAccessIncident access.role access.grants request.incidentId .manage
      (managesServices access.role access.grants services) = true) :
    (((write request access services body store).1.updates ≠ store.updates) ↔
      Manages request access store) ↔ Settled request access store := by
  obtain ⟨row, hrow, hid, hworkspace, hlive⟩ := id hfound
  have hnodup : services.Nodup := hservices ▸ nodup_affectedServices store.access _
  rw [write_takes_effect hrow hid hworkspace hlive,
    holds_authorization hid hworkspace hnodup member_of_not_direct]
  cases hrole : access.role with
  | admin =>
    rw [if_pos (directIncidentAccess_of_admin hrole), manages_iff hfound, hrole, Settled, hrole]
    simp [canAccessResource_admin, canAccessIncident]
  | member =>
    rw [manages_member_iff hrole hfound, Settled]
    by_cases hpath : directIncidentAccess request access = true
    · rw [if_pos hpath, if_pos hpath, canAccessResource_member]
      show ((_ ∧ IncidentAllowed request access store ∧ ¬ IncidentDenied request access store) ↔
        _) ↔ _
      tauto
    · have hnonempty : services ≠ [] := by
        rintro rfl
        have hmanages : managesServices access.role access.grants [] = false := rfl
        rw [hmanages] at hdecided
        exact hpath hdecided
      rw [if_neg hpath, if_neg hpath, all_services_iff hservices hnonempty]
      tauto

end Agreement

/-! ## Runs -/

section Runs

variable {request : Request}

/-- What a call that has come so far has seen still holds. -/
def Decided (request : Request) (state : State) : Prop :=
  match state.progress with
  | .listing access => Found request access state.store
  | .writing access services _ =>
    Found request access state.store ∧
      services = affectedServices state.store.access request.incidentId ∧
      canAccessIncident access.role access.grants request.incidentId .manage
        (managesServices access.role access.grants services) = true
  | _ => True

theorem decideUpdate_cases (access : MonitoringAccess) (read : List String) :
    (∃ failure, decideUpdate request access read = .ended (.error failure)) ∨
    ∃ body, decideUpdate request access read = .writing access read body ∧
      read.length ≤ maxIncidentServices ∧
      canAccessIncident access.role access.grants request.incidentId .manage
        (managesServices access.role access.grants read) = true := by
  rw [decideUpdate]
  split
  · exact .inl ⟨_, rfl⟩
  · next hlength =>
    split
    · exact .inl ⟨_, rfl⟩
    · next haccess =>
      cases validText request.body 2 4000 "Incident update" with
      | error failure => exact .inl ⟨failure, rfl⟩
      | ok body => exact .inr ⟨body, rfl, not_lt.mp hlength, by simpa using haccess⟩

theorem take_eq_of_length_le {Row : Type} {rows : List Row} {limit : ℕ}
    (h : (rows.take (limit + 1)).length ≤ limit) : rows.take (limit + 1) = rows := by
  apply List.take_of_length_le
  rw [List.length_take] at h
  omega

theorem decided_step (state : State) (action : Action) (h : Decided request state) :
    Decided request (step request state action) := by
  obtain ⟨store, progress⟩ := state
  cases action with
  | change tables =>
    cases progress with
    | listing access => exact h
    | writing access services body => exact h
    | reading => trivial
    | granting workspaceId => trivial
    | finding access => trivial
    | ended outcome => trivial
  | advance =>
    cases progress with
    | reading =>
      simp only [step, advance]
      split <;> trivial
    | granting workspaceId =>
      simp only [step, advance]
      split <;> trivial
    | finding access =>
      simp only [step, advance]
      split
      · next hany =>
        obtain ⟨row, hrow, hmatch⟩ := List.any_eq_true.mp hany
        simp only [Bool.and_eq_true, decide_eq_true_eq, Option.isNone_iff_eq_none] at hmatch
        exact ⟨row, hrow, hmatch.1.1, hmatch.1.2, hmatch.2⟩
      · trivial
    | listing access =>
      simp only [step, advance]
      rcases decideUpdate_cases access ((affectedServices store.access request.incidentId).take
        (maxIncidentServices + 1)) with ⟨failure, hrefused⟩ | ⟨body, hnext, hlength, hdecided⟩
      · rw [hrefused]
        trivial
      · rw [hnext]
        exact ⟨h, take_eq_of_length_le hlength, hdecided⟩
    | writing access services body =>
      simp only [step, advance, write]
      split <;> trivial
    | ended outcome => trivial

instance (access : MonitoringAccess) (store : Store) : Decidable (Manages request access store) :=
  inferInstanceAs (Decidable (∃ row ∈ store.incidents, _ ∧ _))

/-- A batch takes effect if and only if the listing says then that the actor may. -/
def Agrees (request : Request) (state : State) : Action → Prop
  | .change _ => True
  | .advance =>
    match state.progress with
    | .writing access _ _ => (step request state .advance).store.updates ≠ state.store.updates ↔
        Manages request access state.store
    | _ => True

instance : (state : State) → (action : Action) → Decidable (Agrees request state action)
  | _, .change _ => isTrue trivial
  | ⟨_, .writing _ _ _⟩, .advance => inferInstanceAs (Decidable (_ ≠ _ ↔ Manages _ _ _))
  | ⟨_, .reading⟩, .advance => isTrue trivial
  | ⟨_, .granting _⟩, .advance => isTrue trivial
  | ⟨_, .finding _⟩, .advance => isTrue trivial
  | ⟨_, .listing _⟩, .advance => isTrue trivial
  | ⟨_, .ended _⟩, .advance => isTrue trivial

/-- A batch agrees with the listing exactly when the tables are settled. -/
def AgreesWhenSettled (request : Request) (state : State) (action : Action) : Prop :=
  match action, state.progress with
  | .advance, .writing access _ _ =>
    Agrees request state .advance ↔ Settled request access state.store
  | _, _ => True

theorem agrees_of_decided (state : State) (action : Action) (h : Decided request state) :
    AgreesWhenSettled request state action := by
  obtain ⟨store, progress⟩ := state
  cases action with
  | change tables => trivial
  | advance =>
    cases progress with
    | writing access services body => exact write_agrees_iff h.1 h.2.1 h.2.2
    | reading => trivial
    | granting workspaceId => trivial
    | finding access => trivial
    | listing access => trivial
    | ended outcome => trivial

/-! ### A call alone -/

def BodyValid (request : Request) : Prop :=
  ∃ body, validText request.body 2 4000 "Incident update" = .ok body

/-- The tables do not change while the call runs. -/
def alone (request : Request) (store : Store) : State :=
  run (step request) ⟨store, .reading⟩ (List.replicate 5 .advance)

theorem finding_alone {access : MonitoringAccess} {store : Store}
    (hfound : Found request access store) (hmanages : Manages request access store)
    (hdecided : canAccessIncident access.role access.grants request.incidentId .manage
      (managesServices access.role access.grants
        (affectedServices store.access request.incidentId)) = true) :
    ∃ after outcome, run (step request) ⟨store, .finding access⟩ (List.replicate 3 .advance) =
      ⟨after, .ended outcome⟩ ∧
      (after.updates ≠ store.updates ↔ BodyValid request ∧
        (affectedServices store.access request.incidentId).length ≤ maxIncidentServices ∧
        Settled request access store) := by
  let services := affectedServices store.access request.incidentId
  have hany : (store.incidents.any fun row ↦ row.id = request.incidentId &&
      row.workspaceId = access.workspaceId && row.deletedAt.isNone) = true := by
    obtain ⟨row, hrow, hid, hworkspace, hlive⟩ := hfound
    exact List.any_eq_true.mpr ⟨row, hrow, by simp [hid, hworkspace, hlive]⟩
  have hlisting : run (step request) ⟨store, .finding access⟩ (List.replicate 3 .advance) =
      step request ⟨store, decideUpdate request access (services.take (maxIncidentServices + 1))⟩
        .advance := by
    show step request (step request (step request ⟨store, .finding access⟩ .advance) .advance)
      .advance = _
    simp only [step, advance, hany, if_true]
    rfl
  rw [hlisting]
  by_cases hlength : services.length ≤ maxIncidentServices
  · have hread : services.take (maxIncidentServices + 1) = services :=
      List.take_of_length_le (by omega)
    rw [hread, decideUpdate, if_neg (by omega), hdecided]
    cases hbody : validText request.body 2 4000 "Incident update" with
    | error failure =>
      refine ⟨store, .error failure, rfl, ?_⟩
      simp [BodyValid, hbody]
    | ok body =>
      have hagrees : ((write request access services body store).1.updates ≠ store.updates ↔
          Manages request access store) ↔ Settled request access store :=
        write_agrees_iff hfound rfl hdecided
      have hended : ∃ outcome, (write request access services body store).2 = .ended outcome := by
        rw [write]
        split
        · exact ⟨_, rfl⟩
        · exact ⟨_, rfl⟩
      obtain ⟨outcome, houtcome⟩ := hended
      refine ⟨(write request access services body store).1, outcome, ?_, ?_⟩
      · rw [← houtcome]
        rfl
      · rw [← hagrees]
        constructor
        · intro heffect
          exact ⟨⟨body, hbody⟩, hlength, fun _ ↦ hmanages, fun _ ↦ heffect⟩
        · rintro ⟨-, -, hagree⟩
          exact hagree.mpr hmanages
  · have hread : (services.take (maxIncidentServices + 1)).length > maxIncidentServices := by
      rw [List.length_take]
      omega
    rw [decideUpdate, if_pos hread]
    refine ⟨store, _, rfl, ?_⟩
    simp only [ne_eq, not_true_eq_false, false_iff, not_and]
    exact fun _ hshort ↦ absurd hshort hlength

/-- What a call alone has read. -/
def snapshot (store : Store) (userId workspaceId : String) (role : WorkspaceRole) :
    MonitoringAccess :=
  ⟨workspaceId, role, if role = .admin then [] else store.access.grantsOf workspaceId userId⟩

/-- What is read alone is settled but for a deleted service on which the actor depends. -/
theorem settled_snapshot_iff {store : Store} {workspaceId : String}
    (hfound : Found request (snapshot store request.userId workspaceId .member) store)
    (hmanages : Manages request (snapshot store request.userId workspaceId .member) store) :
    Settled request (snapshot store request.userId workspaceId .member) store ↔
      IncidentAllowed request (snapshot store request.userId workspaceId .member) store ∨
        ServicesUndeleted request (snapshot store request.userId workspaceId .member) store := by
  obtain ⟨hactive, hdenied, hreason⟩ := (manages_member_iff rfl hfound).mp hmanages
  have hdirect : directIncidentAccess request (snapshot store request.userId workspaceId .member) =
      true ↔ ¬ IncidentDenied request (snapshot store request.userId workspaceId .member) store ∧
        (IncidentAllowed request (snapshot store request.userId workspaceId .member) store ∨
          false = true) := canAccessIncident_member
  constructor
  · intro hsettled
    by_cases hallowed : IncidentAllowed request
        (snapshot store request.userId workspaceId .member) store
    · exact .inl hallowed
    · have hpath := hsettled rfl hactive
      rw [if_neg fun h ↦ (hdirect.mp h).2.elim hallowed Bool.false_ne_true] at hpath
      apply Or.inr
      by_contra hdeleted
      exact hpath.2.2 ⟨hdenied, hreason.resolve_left hallowed, hdeleted⟩
  · intro h hrole hstill
    by_cases hallowed : IncidentAllowed request
        (snapshot store request.userId workspaceId .member) store
    · rw [if_pos (hdirect.mpr ⟨hdenied, .inl hallowed⟩)]
      exact .inr (.inl hallowed)
    · rw [if_neg fun h ↦ (hdirect.mp h).2.elim hallowed Bool.false_ne_true]
      have hundeleted := h.resolve_left hallowed
      exact ⟨fun hlost ↦ hdenied hlost.1, fun hgained ↦ hallowed hgained.2.1,
        fun hdeleted ↦ hdeleted.2.2 hundeleted⟩

/-- Alone, a call of an actor for whom the listing says yes takes effect unless it meets a limit,
or the actor depends on a service that is deleted. -/
theorem alone_takes_effect_iff {store : Store} {workspaceId : String} {role : WorkspaceRole}
    (hworkspace : store.workspaceOf request.workspaceSlug request.userId = some (workspaceId, role))
    (hfound : Found request (snapshot store request.userId workspaceId role) store)
    (hmanages : Manages request (snapshot store request.userId workspaceId role) store) :
    (alone request store).store.updates ≠ store.updates ↔ BodyValid request ∧
      (affectedServices store.access request.incidentId).length ≤ maxIncidentServices ∧
      (role = .member →
        (store.access.grantsOf workspaceId request.userId).length ≤ maxAccessGrants ∧
        (IncidentAllowed request (snapshot store request.userId workspaceId role) store ∨
          ServicesUndeleted request (snapshot store request.userId workspaceId role) store)) := by
  have hdecided := ((manages_iff hfound).mp hmanages).2
  cases role with
  | admin =>
    have hstart : step request ⟨store, .reading⟩ .advance =
        ⟨store, .finding (snapshot store request.userId workspaceId .admin)⟩ := by
      simp only [step, advance, hworkspace]
      rfl
    have halone : alone request store = step request (run (step request)
        ⟨store, .finding (snapshot store request.userId workspaceId .admin)⟩
        (List.replicate 3 .advance)) .advance := by
      rw [← hstart]
      rfl
    obtain ⟨after, outcome, hrun, heffect⟩ := finding_alone hfound hmanages rfl
    have hsettled : Settled request (snapshot store request.userId workspaceId .admin) store :=
      fun hrole ↦ absurd (show WorkspaceRole.admin = .member from hrole) (by decide)
    rw [halone, hrun]
    show after.updates ≠ store.updates ↔ _
    rw [heffect]
    simp [hsettled]
  | member =>
    let access := snapshot store request.userId workspaceId .member
    let grants := store.access.grantsOf workspaceId request.userId
    have halone : alone request store = run (step request) ⟨store, .granting workspaceId⟩
        (List.replicate 4 .advance) := by
      show run (step request) (step request ⟨store, .reading⟩ .advance)
        (List.replicate 4 .advance) = _
      simp only [step, advance, hworkspace]
    have hgranting : step request ⟨store, .granting workspaceId⟩ .advance =
        ⟨store, if (grants.take (maxAccessGrants + 1)).length > maxAccessGrants then
          .ended (.error ⟨503, "Resource access scope exceeds the supported limit"⟩)
          else .finding ⟨workspaceId, .member, grants.take (maxAccessGrants + 1)⟩⟩ := by
      simp only [step, advance]
      split <;> rfl
    rw [halone, List.replicate_succ, run_cons, hgranting]
    by_cases hgrants : grants.length ≤ maxAccessGrants
    · have htake : grants.take (maxAccessGrants + 1) = grants :=
        List.take_of_length_le (by omega)
      rw [htake, if_neg (by omega)]
      obtain ⟨after, outcome, hrun, heffect⟩ := finding_alone hfound hmanages hdecided
      rw [show run (step request) ⟨store, .finding ⟨workspaceId, .member, grants⟩⟩
        (List.replicate 3 .advance) = _ from hrun]
      show after.updates ≠ store.updates ↔ _
      rw [heffect]
      have hsettled := settled_snapshot_iff hfound hmanages
      have hfew : (store.access.grantsOf workspaceId request.userId).length ≤ maxAccessGrants :=
        hgrants
      rw [hsettled]
      simp only [true_imp_iff, hfew, true_and]
    · have hmore : (grants.take (maxAccessGrants + 1)).length > maxAccessGrants := by
        rw [List.length_take]
        omega
      rw [if_pos hmore]
      show store.updates ≠ store.updates ↔ _
      simp only [ne_eq, not_true_eq_false, false_iff, not_and]
      intro _ _ h
      exact absurd (h trivial).1 hgrants

/-- However the tables change during a call, its batch does what the listing says exactly when
they are settled; and alone it is refused, again and again, to an actor for whom the listing says
yes and who depends on a deleted service. -/
theorem updates_agree_iff (request : Request) (store : Store) :
    (∀ actions : List Action,
      Along (step request) (AgreesWhenSettled request) ⟨store, .reading⟩ actions) ∧
    ∀ (workspaceId : String) (role : WorkspaceRole),
      store.workspaceOf request.workspaceSlug request.userId = some (workspaceId, role) →
      Found request (snapshot store request.userId workspaceId role) store →
      Manages request (snapshot store request.userId workspaceId role) store →
      ((alone request store).store.updates ≠ store.updates ↔ BodyValid request ∧
        (affectedServices store.access request.incidentId).length ≤ maxIncidentServices ∧
        (role = .member →
          (store.access.grantsOf workspaceId request.userId).length ≤ maxAccessGrants ∧
          (IncidentAllowed request (snapshot store request.userId workspaceId role) store ∨
            ServicesUndeleted request (snapshot store request.userId workspaceId role)
              store))) := by
  constructor
  · intro actions
    have hstart : Decided request ⟨store, .reading⟩ := trivial
    exact along_invariant decided_step agrees_of_decided hstart actions
  · intro workspaceId role hworkspace hfound hmanages
    exact alone_takes_effect_iff hworkspace hfound hmanages

end Runs

/-! ## A denial during the call -/

/-- A member who manages the only service of an incident. -/
def serviceManager : AccessDb where
  memberships := [⟨"w", "u", .member, .active⟩]
  grants := [⟨"w", "u", .service, "s", .manage, .allow⟩]
  services := [⟨"s", "w", none⟩]
  incidentResources := [⟨"i", .service, "s"⟩]
  oneMembership := List.nodup_singleton _
  oneService := List.nodup_singleton _
  oneResource := List.nodup_singleton _

def incidentStore : Store where
  access := serviceManager
  workspaces := [⟨"w", "slug", none, none, none⟩]
  incidents := [⟨"i", "w", .investigating, none, 0, none⟩]
  oneIncident := List.nodup_singleton _
  updates := []

def resolveIncident : Request := ⟨"slug", "u", "i", .resolved, "fixed", 1000, "update"⟩

/-- Nothing happens in between. -/
theorem updates_agree_iff_resolve :
    (alone resolveIncident incidentStore).store.updates ≠ incidentStore.updates := by
  have hfound : Found resolveIncident (snapshot incidentStore "u" "w" .member) incidentStore :=
    ⟨_, List.mem_singleton_self _, rfl, rfl, rfl⟩
  apply ((updates_agree_iff resolveIncident incidentStore).2 "w" .member (by decide +kernel) hfound
    (by decide +kernel)).mpr
  refine ⟨⟨"fixed", by decide +kernel⟩, by decide +kernel, fun _ ↦ ⟨by decide +kernel, .inr ?_⟩⟩
  intro id hid
  have haffected : affectedServices incidentStore.access resolveIncident.incidentId = ["s"] := by
    decide +kernel
  rw [haffected, List.mem_singleton] at hid
  exact ⟨⟨"s", "w", none⟩, List.mem_singleton_self _, hid.symm, rfl, rfl⟩

/-- The member is denied the incident itself. -/
def incidentDenied : AccessDb :=
  { serviceManager with grants := ⟨"w", "u", .incident, "i", .manage, .deny⟩ ::
      serviceManager.grants }

/-- The incident is denied between the reads and the batch. -/
def deniedMeanwhile : List Action :=
  [.advance, .advance, .advance, .advance, .change incidentDenied, .advance]

/-- The denial does not stop the update. -/
theorem denied_incident_updated :
    ¬ ∀ (request : Request) (store : Store) (actions : List Action),
      Along (step request) (Agrees request) ⟨store, .reading⟩ actions := by
  intro h
  have hagrees := h resolveIncident incidentStore deniedMeanwhile
  revert hagrees
  decide +kernel

end AlphaPing.Access.Incidents
