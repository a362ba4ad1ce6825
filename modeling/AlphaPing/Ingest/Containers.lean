import AlphaPing.Ingest.Database
import AlphaPing.Library.Tables
import AlphaPing.Protocol.Messages

/-!
# The container catalog of a machine

The control database keeps the catalog as rows of `containers` and its digest in
`machines.container_catalog_digest`. The telemetry database keeps the latest inventory as a JSON
text, whose entries repeat the names from the catalog: a report that leaves the catalog out is
completed from the previous text.

A container key stands for its hexadecimal form, and the inventory for its JSON text. The members
that an entry copies from the metric of the report are kept as that metric.
-/

namespace AlphaPing.Ingest.Containers

open Protocol Library.Tables Database

def runtimeKind : ℕ → String
  | 1 => "docker"
  | 2 => "colima-docker"
  | 3 => "colima-containerd"
  | 4 => "apple-container"
  | _ => "unknown"

/-! ## The catalog in the control database -/

structure ContainerRow where
  id : Bytes
  workspaceId : String
  machineId : String
  runtime : String
  runtimeInstance : String
  runtimeContainerId : String
  name : String
  image : String
  firstSeenAt : ℤ
  lastSeenAt : ℤ
  deletedAt : Option ℤ

/-- What `load_agent_key` reads about the agent, its machine and its workspace; the key itself
and its times are checked before the report is opened. -/
structure AgentKeyRow where
  machineId : String
  workspaceId : String
  machinePk : ℕ
  workspacePk : ℕ
  appliedConfigRevision : ℕ
  desiredConfigRevision : ℕ
  maintenanceUntil : Option ℤ
  containerCatalogDigest : Option Bytes

/-- `machines.container_catalog_digest` of one machine, and `containers`. -/
structure Catalog where
  digest : Option Bytes
  containers : List ContainerRow

/-- The row that the `INSERT` of a catalog entry would create. -/
def containerRow (agent : AgentKeyRow) (entry : ContainerCatalogEntry) (now : ℤ) :
    ContainerRow where
  id := entry.containerKey
  workspaceId := agent.workspaceId
  machineId := agent.machineId
  runtime := runtimeKind entry.runtime
  runtimeInstance := entry.runtimeInstance
  runtimeContainerId := entry.runtimeContainerId
  name := entry.name
  image := entry.image
  firstSeenAt := now
  lastSeenAt := now
  deletedAt := none

/-- `UNIQUE (machine_id, runtime, runtime_instance, runtime_container_id)`, for two rows. -/
def sameContainer (first second : ContainerRow) : Bool :=
  first.machineId == second.machineId && first.runtime == second.runtime &&
    first.runtimeInstance == second.runtimeInstance &&
    first.runtimeContainerId == second.runtimeContainerId

def upsertContainer (agent : AgentKeyRow) (now : ℤ) (containers : List ContainerRow)
    (entry : ContainerCatalogEntry) : Except IngestError (List ContainerRow) :=
  let excluded := containerRow agent entry now
  if containers.any fun row ↦ row.id != excluded.id && sameContainer row excluded then
    .error .internal
  else
    .ok (upsert ContainerRow.id
      (fun row ↦ row.workspaceId == excluded.workspaceId && row.machineId == excluded.machineId)
      (fun row ↦ { excluded with
        id := row.id
        workspaceId := row.workspaceId
        machineId := row.machineId
        firstSeenAt := row.firstSeenAt })
      excluded containers)

/-- The first statement of the batch: every container of the machine is marked as deleted. -/
def markDeleted (agent : AgentKeyRow) (now : ℤ) (containers : List ContainerRow) :
    List ContainerRow :=
  updateWhere
    (fun row ↦ row.workspaceId == agent.workspaceId && row.machineId == agent.machineId &&
      row.deletedAt.isNone)
    (fun row ↦ { row with deletedAt := some now, lastSeenAt := now }) containers

/-- `sync_container_catalog`: one batch, which a failing statement rolls back. -/
def syncContainerCatalog (catalog : Catalog) (agent : AgentKeyRow)
    (inventory : ContainerInventory) (now : ℤ) : Except IngestError Catalog :=
  if inventory.catalogIncluded = false ∨
      agent.containerCatalogDigest = some inventory.catalogDigest then .ok catalog
  else
    (inventory.catalog.foldlM (upsertContainer agent now)
      (markDeleted agent now catalog.containers)).map fun containers ↦
        { digest := some inventory.catalogDigest, containers }

/-- A synchronisation has nothing to do, or it stores the digest of the report. -/
theorem syncContainerCatalog_cases {catalog next : Catalog} {agent : AgentKeyRow}
    {inventory : ContainerInventory} {now : ℤ}
    (h : syncContainerCatalog catalog agent inventory now = .ok next) :
    ((inventory.catalogIncluded = false ∨
        agent.containerCatalogDigest = some inventory.catalogDigest) ∧ next = catalog) ∨
      inventory.catalogIncluded = true ∧ next.digest = some inventory.catalogDigest := by
  unfold syncContainerCatalog at h
  split at h
  · next hidle => exact .inl ⟨hidle, (Except.ok.inj h).symm⟩
  · next hsync =>
    refine .inr ⟨by simpa using fun hfalse ↦ hsync (.inl hfalse), ?_⟩
    generalize inventory.catalog.foldlM (upsertContainer agent now)
      (markDeleted agent now catalog.containers) = rows at h
    cases rows with
    | error error => cases h
    | ok containers => rw [← Except.ok.inj h]

/-! ## The time of a synchronisation -/

/-- The columns that decide whether a synchronisation fails. -/
def ContainerRow.identity (row : ContainerRow) : Bytes × String × String × String × String × String :=
  (row.id, row.workspaceId, row.machineId, row.runtime, row.runtimeInstance,
    row.runtimeContainerId)

def SameContainers : List ContainerRow → List ContainerRow → Prop :=
  List.Forall₂ fun first second ↦ first.identity = second.identity

theorem sameContainers_markDeleted (agent : AgentKeyRow) (first second : ℤ)
    (containers : List ContainerRow) :
    SameContainers (markDeleted agent first containers) (markDeleted agent second containers) := by
  refine List.forall₂_map_left_iff.mpr (List.forall₂_map_right_iff.mpr
    (List.forall₂_same.mpr fun row _ ↦ ?_))
  split <;> rfl

theorem upsertContainer_same (agent : AgentKeyRow) (first second : ℤ)
    {containers containers' : List ContainerRow} (h : SameContainers containers containers')
    (entry : ContainerCatalogEntry) :
    (∃ error error', upsertContainer agent first containers entry = .error error ∧
      upsertContainer agent second containers' entry = .error error') ∨
    ∃ next next', upsertContainer agent first containers entry = .ok next ∧
      upsertContainer agent second containers' entry = .ok next' ∧ SameContainers next next' := by
  have hany : ∀ {containers containers' : List ContainerRow},
      SameContainers containers containers' →
        (containers.any fun row ↦ row.id != (containerRow agent entry first).id &&
          sameContainer row (containerRow agent entry first)) =
        containers'.any fun row ↦ row.id != (containerRow agent entry second).id &&
          sameContainer row (containerRow agent entry second) := by
    intro containers containers' h
    induction h with
    | nil => rfl
    | cons hsame _ ih =>
      simp only [ContainerRow.identity, Prod.mk.injEq] at hsame
      obtain ⟨hid, -, hmachine, hruntime, hinstance, hcontainer⟩ := hsame
      rw [List.any_cons, List.any_cons, ih]
      simp only [sameContainer, hid, hmachine, hruntime, hinstance, hcontainer]
      rfl
  unfold upsertContainer
  dsimp only
  rw [hany h]
  split
  · exact .inl ⟨_, _, rfl, rfl⟩
  · refine .inr ⟨_, _, rfl, rfl, forall₂_upsert h ?_ ?_ ?_ rfl⟩
    · intro row row' hsame
      exact congrArg Prod.fst hsame
    · intro row row' hsame
      simp only [ContainerRow.identity, Prod.mk.injEq] at hsame
      rw [hsame.2.1, hsame.2.2.1]
      rfl
    · intro row row' hsame
      simp only [ContainerRow.identity, Prod.mk.injEq] at hsame ⊢
      exact ⟨hsame.1, hsame.2.1, hsame.2.2.1, rfl, rfl, rfl⟩

theorem isOk_syncContainerCatalog (catalog : Catalog) (agent : AgentKeyRow)
    (inventory : ContainerInventory) (first second : ℤ) :
    (syncContainerCatalog catalog agent inventory first).isOk =
      (syncContainerCatalog catalog agent inventory second).isOk := by
  have hfold : ∀ (entries : List ContainerCatalogEntry)
      {containers containers' : List ContainerRow}, SameContainers containers containers' →
        (entries.foldlM (upsertContainer agent first) containers).isOk =
          (entries.foldlM (upsertContainer agent second) containers').isOk := by
    intro entries
    induction entries with
    | nil => exact fun _ ↦ rfl
    | cons entry rest ih =>
      intro containers containers' h
      rw [List.foldlM_cons, List.foldlM_cons]
      rcases upsertContainer_same agent first second h entry with
        ⟨error, error', hfirst, hsecond⟩ | ⟨next, next', hfirst, hsecond, hnext⟩
      · rw [hfirst, hsecond]
        rfl
      · rw [hfirst, hsecond]
        exact ih hnext
  have hmap : ∀ (result : Except IngestError (List ContainerRow)) (change : List ContainerRow → Catalog),
      (result.map change).isOk = result.isOk := by
    intro result change
    cases result <;> rfl
  unfold syncContainerCatalog
  split
  · rfl
  · rw [hmap, hmap]
    exact hfold _ (sameContainers_markDeleted agent first second catalog.containers)

/-! ## The inventory in the telemetry database -/

structure StoredContainer where
  id : Bytes
  runtime : String
  runtimeInstance : String
  name : String
  image : String
  metric : ContainerMetric
  deriving DecidableEq

/-- What `container_inventory_json` holds. -/
structure StoredInventory where
  observedAt : ℤ
  catalogDigest : Bytes
  runtimes : List RuntimeSnapshot
  containers : List StoredContainer
  deriving DecidableEq

/-- The entry of a hash map that is collected from a list: the last one with the key. -/
def lastWith {Entry : Type} (key : Entry → Bytes) (id : Bytes) (entries : List Entry) :
    Option Entry :=
  entries.reverse.find? fun entry ↦ key entry == id

/-- The stored form of a metric, if the catalog of the report or the previous inventory names its
container. -/
def storedContainer (catalog : List ContainerCatalogEntry) (previous : List StoredContainer)
    (metric : ContainerMetric) : Option StoredContainer :=
  match lastWith ContainerCatalogEntry.containerKey metric.containerKey catalog with
  | some entry => some
    { id := metric.containerKey
      runtime := runtimeKind entry.runtime
      runtimeInstance := entry.runtimeInstance
      name := entry.name
      image := entry.image
      metric := metric }
  | none =>
    (lastWith StoredContainer.id metric.containerKey previous).map fun entry ↦
      { entry with id := metric.containerKey, metric := metric }

def containerInventoryJson (report : MachineReport) (previous : Option StoredInventory) :
    Option StoredInventory :=
  report.containerInventory.map fun inventory ↦
    { observedAt := inventory.observedAtMs
      catalogDigest := inventory.catalogDigest
      runtimes := inventory.runtimes
      containers := inventory.metrics.filterMap
        (storedContainer inventory.catalog ((previous.map StoredInventory.containers).getD [])) }

end AlphaPing.Ingest.Containers
