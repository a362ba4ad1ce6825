import AlphaPing.Library.Collations
import AlphaPing.Library.QueryBatches
import AlphaPing.PublicStatus.Pages
import Mathlib.Data.List.Dedup

/-!
# Queries that are split and merged

Three loaders of the public pages split a list of identifiers, select the first rows of each part
and merge the parts. The database orders texts by their octets; the merge orders the names and
identifiers of containers by their hexadecimal digits and the identifiers of incidents and updates
by their code units.

Containers that several batches find come several times, an incident comes once. Updates are
selected incident by incident, each with a limit of its own.
-/

namespace AlphaPing.PublicStatus.BatchedQueries

open Library.Tables Library.Restrictions Library.Collations Library.QueryBatches
  PublicStatus.Pages

/-- The control database. Identifiers of incidents and of updates are random UUIDs. -/
structure Store where
  control : ControlDb
  containers : UniqueKey Container.id control.containers
  policies : UniqueKey (fun policy : Policy ↦
    (policy.workspaceId, policy.resourceType, policy.resourceId)) control.policies
  incidents : UniqueKey Incident.id control.incidents
  updates : UniqueKey IncidentUpdate.id control.incidentUpdates
  basicIncidents : ∀ incident ∈ control.incidents, Basic incident.id
  basicUpdates : ∀ update ∈ control.incidentUpdates, Basic update.id

/-! ## The loaders -/

/-- `ORDER BY c.name, c.id`, as the database compares texts. -/
def containerSqlKey (pair : Container × Policy) : List ℕ ×ₗ List ℕ :=
  toLex (binaryText pair.1.name, binaryText pair.1.id)

/-- `compareText` of the two hexadecimal sort keys. -/
def containerSortKey (pair : Container × Policy) : List ℕ ×ₗ List ℕ :=
  toLex (hexText pair.1.name, hexText pair.1.id)

/-- `publicContainers` of `loadPublicMachineProjection`. -/
def publicContainers (control : ControlDb) (workspaceId : String) (machineIds : List String) :
    List (Container × Policy) :=
  selectOrdered containerSortKey 500
    (queryInBatches machineIds fun batch ↦
      selectOrdered containerSqlKey 500 (publicContainerRows control workspaceId batch))

/-- `ORDER BY i.starts_at DESC, i.id`. -/
def incidentSqlKey (incident : Incident) : ℤ ×ₗ List ℕ :=
  toLex (-incident.startsAt, binaryText incident.id)

/-- `right.starts_at - left.starts_at || compareText(left.id, right.id)`. -/
def incidentSortKey (incident : Incident) : ℤ ×ₗ List ℕ :=
  toLex (-incident.startsAt, unitText incident.id)

/-- `incidentRows` of `loadPublicStatusPage`. -/
def publicIncidents (control : ControlDb) (workspaceId : String) (now : ℤ)
    (serviceIds : List String) : List Incident :=
  selectOrdered incidentSortKey 20 (distinctIncidents (queryInBatches serviceIds fun batch ↦
    selectOrdered incidentSqlKey 20 (incidentCandidates control workspaceId now batch)))

/-- `queryEachInBatches`: one statement for each value, ninety of them in a transaction. -/
def queryEachInBatches {Value Row : Type} (values : List Value) (query : Value → List Row) :
    List Row :=
  (batches 90 values).flatMap fun batch ↦ batch.flatMap query

/-- `ORDER BY COALESCE(published_at, created_at) DESC, id`. -/
def updateSqlKey (update : IncidentUpdate) : ℤ ×ₗ List ℕ :=
  toLex (-update.time, binaryText update.id)

/-- The comparison of `loadLatestIncidentUpdates`. -/
def updateSortKey (update : IncidentUpdate) : ℤ ×ₗ List ℕ :=
  toLex (-update.time, unitText update.id)

def incidentUpdates (control : ControlDb) (limit : ℕ) (incidentId : String) :
    List IncidentUpdate :=
  selectOrdered updateSqlKey limit
    (control.incidentUpdates.filter fun update ↦ update.incidentId = incidentId)

/-- A limit that is accepted. -/
def validLimit (limit : ℤ) : Bool :=
  safeInteger limit && decide (1 ≤ limit)

def loadLatestIncidentUpdates (control : ControlDb) (incidentIds : List String)
    (perIncidentLimit globalLimit : ℤ) : Except String (List IncidentUpdate) :=
  if validLimit perIncidentLimit && validLimit globalLimit then
    .ok (selectOrdered updateSortKey globalLimit.toNat
      (queryEachInBatches incidentIds (incidentUpdates control perIncidentLimit.toNat)))
  else .error "incident update limits must be positive safe integers"

/-! ## The queries over whole lists -/

def containersQuery (control : ControlDb) (workspaceId : String) (machineIds : List String) :
    List (Container × Policy) :=
  selectOrdered containerSqlKey 500 (publicContainerRows control workspaceId machineIds)

def incidentsQuery (control : ControlDb) (workspaceId : String) (now : ℤ)
    (serviceIds : List String) : List Incident :=
  selectOrdered incidentSqlKey 20 (incidentCandidates control workspaceId now serviceIds)

def updatesQuery (control : ControlDb) (incidentIds : List String) (limit : ℕ) :
    List IncidentUpdate :=
  selectOrdered updateSqlKey limit
    (control.incidentUpdates.filter fun update ↦ incidentIds.contains update.incidentId)

def rankInIncident (control : ControlDb) (update : IncidentUpdate) : ℕ :=
  control.incidentUpdates.countP fun other ↦
    decide (updateSqlKey other < updateSqlKey update) &&
      decide (other.incidentId = update.incidentId)

def rankedUpdatesQuery (control : ControlDb) (incidentIds : List String)
    (perIncidentLimit globalLimit : ℕ) : List IncidentUpdate :=
  selectOrdered updateSqlKey globalLimit
    (control.incidentUpdates.filter fun update ↦ incidentIds.contains update.incidentId &&
      decide (rankInIncident control update < perIncidentLimit))

/-! ## Orders -/

section Orders

theorem binaryText_injective : Function.Injective binaryText := fun _ _ h ↦
  le_antisymm ((binaryText_le_iff _ _).mp h.le) ((binaryText_le_iff _ _).mp h.ge)

theorem toLex_le_iff {First Second Other : Type*} [LinearOrder First] [LinearOrder Second]
    [LinearOrder Other] {a b : First} {x y : Second} {x' y' : Other}
    (h : x ≤ y ↔ x' ≤ y') : toLex (a, x) ≤ toLex (b, y) ↔ toLex (a, x') ≤ toLex (b, y') := by
  rw [Prod.Lex.toLex_le_toLex, Prod.Lex.toLex_le_toLex, h]

theorem containerKeys_alike (first second : Container × Policy) :
    containerSortKey first ≤ containerSortKey second ↔
      containerSqlKey first ≤ containerSqlKey second := by
  have hname : hexText first.1.name = hexText second.1.name ↔
      binaryText first.1.name = binaryText second.1.name := by
    rw [le_antisymm_iff, le_antisymm_iff, hexText_le_iff, hexText_le_iff, binaryText_le_iff,
      binaryText_le_iff]
  rw [containerSortKey, containerSortKey, containerSqlKey, containerSqlKey,
    Prod.Lex.toLex_le_toLex, Prod.Lex.toLex_le_toLex]
  dsimp only
  rw [hexText_lt_iff, binaryText_lt_iff, hexText_le_iff, binaryText_le_iff, hname]

theorem unitText_alike {first second : String} (hfirst : Basic first) (hsecond : Basic second) :
    unitText first ≤ unitText second ↔ binaryText first ≤ binaryText second := by
  rw [unitText_le_iff hfirst hsecond, binaryText_le_iff]

end Orders

/-! ## Containers -/

section Containers

variable {Row Other : Type*} {matched : Row → Other → Bool} {left : List Row} {right : List Other}

theorem joinOn_filter (condition : Row → Bool) :
    joinOn matched (left.filter condition) right =
      (joinOn matched left right).filter fun pair ↦ condition pair.1 := by
  induction left with
  | nil => rfl
  | cons row left ih =>
    have hcons : joinOn matched (row :: left) right =
        ((right.filter (matched row)).map fun other ↦ (row, other)) ++
          joinOn matched left right := List.flatMap_cons
    rw [hcons, List.filter_append, ← ih, List.filter_map, List.filter_cons]
    cases hrow : condition row with
    | true =>
      rw [if_pos rfl]
      have hall : (fun pair : Row × Other ↦ condition pair.1) ∘ (fun other ↦ (row, other)) =
          fun _ ↦ true := funext fun _ ↦ hrow
      rw [hall, List.filter_true]
      exact List.flatMap_cons
    | false =>
      rw [if_neg Bool.false_ne_true]
      have hnone : (fun pair : Row × Other ↦ condition pair.1) ∘ (fun other ↦ (row, other)) =
          fun _ ↦ false := funext fun _ ↦ hrow
      rw [hnone, List.filter_false, List.map_nil, List.nil_append]

theorem nodup_joinOn (hleft : left.Nodup) (hright : right.Nodup) :
    (joinOn matched left right).Nodup := by
  refine List.nodup_flatMap.mpr ⟨fun row _ ↦ ?_, hleft.imp fun hne ↦ ?_⟩
  · exact (hright.filter _).map fun _ _ h ↦ congrArg Prod.snd h
  · intro pair hfirst hsecond
    obtain ⟨_, -, rfl⟩ := List.mem_map.mp hfirst
    obtain ⟨_, -, hpair⟩ := List.mem_map.mp hsecond
    exact hne (congrArg Prod.fst hpair).symm

def allowedContainers (control : ControlDb) (workspaceId : String) : List (Container × Policy) :=
  joinOn (fun container policy ↦ policy.workspaceId = container.workspaceId &&
      policy.resourceType = .container && policy.resourceId = container.id &&
      policy.effect = .allow)
    (control.containers.filter fun container ↦ container.workspaceId = workspaceId &&
      container.deletedAt.isNone)
    control.policies

theorem publicContainerRows_eq (control : ControlDb) (workspaceId : String)
    (machineIds : List String) :
    publicContainerRows control workspaceId machineIds =
      (allowedContainers control workspaceId).filter fun pair ↦
        machineIds.contains pair.1.machineId := by
  refine Eq.trans ?_ (joinOn_filter fun container : Container ↦
    machineIds.contains container.machineId)
  rw [List.filter_filter, publicContainerRows]
  congr 1
  apply List.filter_congr
  intro container _
  exact Bool.and_comm _ _

theorem uniqueKey_allowedContainers (store : Store) (workspaceId : String) :
    UniqueKey containerSqlKey (allowedContainers store.control workspaceId) := by
  have hcontainers := List.Nodup.of_map _ store.containers
  have hpolicies := List.Nodup.of_map _ store.policies
  apply (nodup_joinOn (hcontainers.filter _) hpolicies).map_on
  intro first hfirst second hsecond hkey
  have hid : first.1.id = second.1.id :=
    binaryText_injective (congrArg Prod.snd (toLex.injective hkey))
  obtain ⟨hfirstLeft, hfirstRight, hfirstMatched⟩ := mem_joinOn.mp hfirst
  obtain ⟨hsecondLeft, hsecondRight, hsecondMatched⟩ := mem_joinOn.mp hsecond
  have hcontainer : first.1 = second.1 :=
    store.containers.eq_of_mem (List.mem_of_mem_filter hfirstLeft)
      (List.mem_of_mem_filter hsecondLeft) hid
  simp only [Bool.and_eq_true, decide_eq_true_eq] at hfirstMatched hsecondMatched
  have hpolicy : first.2 = second.2 := by
    apply store.policies.eq_of_mem hfirstRight hsecondRight
    simp only [hfirstMatched.1, hsecondMatched.1, hcontainer]
  exact Prod.ext hcontainer hpolicy

theorem queryInBatches_eq {Value Row : Type} (values : List Value) (query : List Value → List Row) :
    queryInBatches values query = (batches 90 values).flatMap query := by
  rw [queryInBatches, batches, List.flatMap_map]

theorem publicContainers_eq (store : Store) (workspaceId : String) {machineIds : List String}
    (hdisjoint : (batches 90 machineIds).Pairwise List.Disjoint) :
    publicContainers store.control workspaceId machineIds =
      containersQuery store.control workspaceId machineIds := by
  rw [publicContainers, containersQuery,
    selectOrdered_congr fun first _ second _ ↦ containerKeys_alike first second,
    queryInBatches_eq, publicContainerRows_eq]
  simp only [publicContainerRows_eq]
  exact selectOrdered_batches (by decide) (uniqueKey_allowedContainers store workspaceId)
    (fun pair ↦ pair.1.machineId) hdisjoint

end Containers

/-! ## Incidents -/

section Incidents

variable {rows : List Incident}

theorem mem_distinctIncidents
    (hsame : ∀ first ∈ rows, ∀ second ∈ rows, first.id = second.id → first = second)
    (incident : Incident) : incident ∈ distinctIncidents rows ↔ incident ∈ rows := by
  simp only [distinctIncidents, List.mem_filterMap, List.mem_reverse, List.mem_dedup,
    List.mem_map]
  constructor
  · rintro ⟨id, -, hfound⟩
    exact (lookupLast_eq_some hfound).1
  · intro hincident
    refine ⟨incident.id, ⟨incident, hincident, rfl⟩, ?_⟩
    cases hfound : lookupLast Incident.id incident.id rows with
    | none =>
      exact absurd (decide_eq_true rfl)
        (List.find?_eq_none.mp hfound incident (List.mem_reverse.mpr hincident))
    | some other =>
      obtain ⟨hother, hid⟩ := lookupLast_eq_some hfound
      exact congrArg some (hsame other hother incident hincident hid)

theorem nodup_distinctIncidents : (distinctIncidents rows).Nodup := by
  refine List.Nodup.filterMap (fun first second incident hfirst hsecond ↦ ?_)
    (List.nodup_reverse.mpr (List.nodup_dedup _))
  exact (lookupLast_eq_some hfirst).2.symm.trans (lookupLast_eq_some hsecond).2

theorem publicIncidents_eq (store : Store) (workspaceId : String) (now : ℤ)
    (serviceIds : List String) :
    publicIncidents store.control workspaceId now serviceIds =
      incidentsQuery store.control workspaceId now serviceIds := by
  have hstored : ∀ {batch incident}, incident ∈ incidentCandidates store.control workspaceId now
      batch → incident ∈ store.control.incidents := fun h ↦ List.mem_of_mem_filter h
  have hfound : ∀ {incident}, incident ∈ queryInBatches serviceIds (fun batch ↦
      selectOrdered incidentSqlKey 20 (incidentCandidates store.control workspaceId now batch)) →
        ∃ batch ∈ batches 90 serviceIds, incident ∈ selectOrdered incidentSqlKey 20
          (incidentCandidates store.control workspaceId now batch) := by
    intro incident h
    rw [queryInBatches_eq] at h
    exact List.mem_flatMap.mp h
  have hmem := fun incident ↦ @mem_distinctIncidents
    (queryInBatches serviceIds fun batch ↦
      selectOrdered incidentSqlKey 20 (incidentCandidates store.control workspaceId now batch))
    (fun first hfirst second hsecond hid ↦ by
      obtain ⟨_, -, hfirst⟩ := hfound hfirst
      obtain ⟨_, -, hsecond⟩ := hfound hsecond
      exact store.incidents.eq_of_mem (hstored (mem_of_mem_selectOrdered hfirst))
        (hstored (mem_of_mem_selectOrdered hsecond)) hid) incident
  have hunique : UniqueKey incidentSqlKey
      (incidentCandidates store.control workspaceId now serviceIds) := by
    have hnodup := List.Nodup.of_map _ store.incidents
    apply (hnodup.filter _).map_on
    intro first hfirst second hsecond hkey
    exact store.incidents.eq_of_mem (hstored hfirst) (hstored hsecond)
      (binaryText_injective (congrArg Prod.snd (toLex.injective hkey)))
  -- a batch finds incidents that the whole list finds
  have hsublist : ∀ {batch}, batch ∈ batches 90 serviceIds →
      (incidentCandidates store.control workspaceId now batch).Sublist
        (incidentCandidates store.control workspaceId now serviceIds) := by
    intro batch hbatch
    apply List.monotone_filter_right
    intro incident
    simp only [Bool.and_eq_true, List.any_eq_true, List.contains_iff_mem]
    rintro ⟨hshown, link, hlink, hmatched, hservice⟩
    exact ⟨hshown, link, hlink, hmatched, subset_of_mem_batches hbatch hservice⟩
  rw [publicIncidents, incidentsQuery]
  refine Eq.trans (selectOrdered_congr fun first hfirst second hsecond ↦ ?_)
    (selectOrdered_of_covered hunique nodup_distinctIncidents ?_ ?_)
  · obtain ⟨_, -, hfirst⟩ := hfound ((hmem first).mp hfirst)
    obtain ⟨_, -, hsecond⟩ := hfound ((hmem second).mp hsecond)
    exact toLex_le_iff (unitText_alike
      (store.basicIncidents first (hstored (mem_of_mem_selectOrdered hfirst)))
      (store.basicIncidents second (hstored (mem_of_mem_selectOrdered hsecond))))
  · intro incident hincident
    obtain ⟨batch, hbatch, hselected⟩ := hfound ((hmem incident).mp hincident)
    exact (hsublist hbatch).subset (mem_of_mem_selectOrdered hselected)
  · intro incident hincident
    obtain ⟨hstore, hcondition⟩ := List.mem_filter.mp hincident
    simp only [Bool.and_eq_true, List.any_eq_true, List.contains_iff_mem] at hcondition
    obtain ⟨hshown, link, hlink, hmatched, hservice⟩ := hcondition
    obtain ⟨batch, hbatch, hmember⟩ := exists_batch (by decide : 0 < 90) hservice
    refine ⟨incidentCandidates store.control workspaceId now batch, hsublist hbatch, ?_, ?_⟩
    · apply List.mem_filter.mpr
      simp only [Bool.and_eq_true, List.any_eq_true, List.contains_iff_mem]
      exact ⟨hstore, hshown, link, hlink, hmatched, hmember⟩
    · intro other hother
      rw [hmem, queryInBatches_eq]
      exact List.mem_flatMap.mpr ⟨batch, hbatch, hother⟩

end Incidents

/-! ## Updates -/

section Updates

variable (store : Store) (incidentIds : List String)

theorem uniqueKey_updates : UniqueKey updateSqlKey store.control.incidentUpdates := by
  apply (List.Nodup.of_map _ store.updates).map_on
  intro first hfirst second hsecond hkey
  exact store.updates.eq_of_mem hfirst hsecond
    (binaryText_injective (congrArg Prod.snd (toLex.injective hkey)))

theorem mem_incidentUpdates {limit : ℕ} {incidentId : String} {update : IncidentUpdate} :
    update ∈ incidentUpdates store.control limit incidentId ↔
      update ∈ store.control.incidentUpdates ∧ update.incidentId = incidentId ∧
        rankInIncident store.control update < limit := by
  have hunique := (uniqueKey_updates store).filter fun update ↦
    decide (update.incidentId = incidentId)
  have hrank : ∀ {update : IncidentUpdate}, update.incidentId = incidentId →
      ((store.control.incidentUpdates.filter fun update ↦ update.incidentId = incidentId).countP
        fun other ↦ decide (updateSqlKey other < updateSqlKey update)) =
          rankInIncident store.control update := by
    intro update hupdate
    rw [List.countP_filter, rankInIncident, hupdate]
  constructor
  · intro h
    have hmem := mem_of_mem_selectOrdered h
    obtain ⟨hstored, hid⟩ := List.mem_filter.mp hmem
    have hupdate : update.incidentId = incidentId := of_decide_eq_true hid
    refine ⟨hstored, hupdate, ?_⟩
    rw [← hrank hupdate]
    exact (mem_selectOrdered_iff hunique hmem).mp h
  · rintro ⟨hstored, hupdate, hlt⟩
    have hmem : update ∈ store.control.incidentUpdates.filter fun update ↦
        update.incidentId = incidentId :=
      List.mem_filter.mpr ⟨hstored, decide_eq_true hupdate⟩
    apply (mem_selectOrdered_iff hunique hmem).mpr
    rw [hrank hupdate]
    exact hlt

theorem queryEachInBatches_eq {Value Row : Type} (values : List Value)
    (query : Value → List Row) : queryEachInBatches values query = values.flatMap query := by
  rw [queryEachInBatches]
  conv_rhs => rw [← flatten_batches (by decide : 0 < 90) values]
  rw [← List.flatMap_id, List.flatMap_assoc]
  rfl

theorem loadLatestIncidentUpdates_eq (hids : incidentIds.Nodup) (perIncidentLimit globalLimit : ℤ) :
    loadLatestIncidentUpdates store.control incidentIds perIncidentLimit globalLimit =
      if validLimit perIncidentLimit && validLimit globalLimit then
        .ok (rankedUpdatesQuery store.control incidentIds perIncidentLimit.toNat globalLimit.toNat)
      else .error "incident update limits must be positive safe integers" := by
  rw [loadLatestIncidentUpdates, queryEachInBatches_eq]
  refine if_congr Iff.rfl (congrArg Except.ok ?_) rfl
  have hmem : ∀ update, update ∈ incidentIds.flatMap
      (incidentUpdates store.control perIncidentLimit.toNat) ↔
        update ∈ store.control.incidentUpdates ∧ update.incidentId ∈ incidentIds ∧
          rankInIncident store.control update < perIncidentLimit.toNat := by
    intro update
    simp only [List.mem_flatMap, mem_incidentUpdates]
    constructor
    · rintro ⟨_, hid, hstored, rfl, hrank⟩
      exact ⟨hstored, hid, hrank⟩
    · rintro ⟨hstored, hid, hrank⟩
      exact ⟨_, hid, hstored, rfl, hrank⟩
  have hranked : ∀ update, update ∈ (store.control.incidentUpdates.filter fun update ↦
      incidentIds.contains update.incidentId &&
        decide (rankInIncident store.control update < perIncidentLimit.toNat)) ↔
          update ∈ incidentIds.flatMap
            (incidentUpdates store.control perIncidentLimit.toNat) := by
    intro update
    rw [hmem, List.mem_filter, Bool.and_eq_true, List.contains_iff_mem, decide_eq_true_eq]
  rw [rankedUpdatesQuery]
  refine Eq.trans (selectOrdered_congr fun first hfirst second hsecond ↦ ?_)
    (selectOrdered_of_covered ((uniqueKey_updates store).filter _) ?_ ?_ ?_)
  · exact toLex_le_iff (unitText_alike
      (store.basicUpdates first ((hmem first).mp hfirst).1)
      (store.basicUpdates second ((hmem second).mp hsecond).1))
  · refine List.nodup_flatMap.mpr ⟨fun incidentId _ ↦ ?_, hids.imp fun hne ↦ ?_⟩
    · exact List.Nodup.of_map _ (uniqueKey_selectOrdered ((uniqueKey_updates store).filter _))
    · intro update hfirst hsecond
      exact hne (((mem_incidentUpdates store).mp hfirst).2.1.symm.trans
        ((mem_incidentUpdates store).mp hsecond).2.1)
  · exact fun update hupdate ↦ (hranked update).mpr hupdate
  · intro update hupdate
    refine ⟨[update], List.singleton_sublist.mpr hupdate, List.mem_singleton_self _, ?_⟩
    intro other hother
    rw [List.mem_singleton.mp (mem_of_mem_selectOrdered hother)]
    exact (hranked update).mp hupdate

/-- A limit for each incident that is not below the one for all of them changes nothing. -/
theorem rankedUpdatesQuery_eq {perIncidentLimit globalLimit : ℕ}
    (hle : globalLimit ≤ perIncidentLimit) :
    rankedUpdatesQuery store.control incidentIds perIncidentLimit globalLimit =
      updatesQuery store.control incidentIds globalLimit := by
  have hsublist : (store.control.incidentUpdates.filter fun update ↦
      incidentIds.contains update.incidentId &&
        decide (rankInIncident store.control update < perIncidentLimit)).Sublist
      (store.control.incidentUpdates.filter fun update ↦
        incidentIds.contains update.incidentId) := by
    apply List.monotone_filter_right
    intro update h
    exact (Bool.and_eq_true _ _ ▸ h).1
  apply selectOrdered_of_covered ((uniqueKey_updates store).filter _)
  · exact List.Nodup.of_map _ ((uniqueKey_updates store).filter _)
  · exact hsublist.subset
  · intro update hupdate
    obtain ⟨hstored, hid⟩ := List.mem_filter.mp hupdate
    refine ⟨store.control.incidentUpdates.filter fun other ↦
      other.incidentId = update.incidentId, ?_, ?_, ?_⟩
    · apply List.monotone_filter_right
      intro other hother
      rwa [of_decide_eq_true hother]
    · exact List.mem_filter.mpr ⟨hstored, decide_eq_true rfl⟩
    · intro other hother
      obtain ⟨hother, hsame, hrank⟩ := (mem_incidentUpdates store).mp hother
      rw [List.mem_filter, Bool.and_eq_true, decide_eq_true_eq, hsame]
      exact ⟨hother, hid, hrank.trans_le hle⟩

end Updates

/-! ## Split and whole -/

def sharedContainer : Container × Policy :=
  (⟨"container", "workspace", "machine", "container", "image", none⟩,
    ⟨"workspace", .container, "container", .allow, .summary⟩)

def sharedStore : Store where
  control := ⟨[], [], [], [sharedContainer.2], [], [], [sharedContainer.1], [], [], [], [], []⟩
  containers := List.nodup_singleton _
  policies := List.nodup_singleton _
  incidents := List.nodup_nil
  updates := List.nodup_nil
  basicIncidents _ h := absurd h List.not_mem_nil
  basicUpdates _ h := absurd h List.not_mem_nil

end AlphaPing.PublicStatus.BatchedQueries
