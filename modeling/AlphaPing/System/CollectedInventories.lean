import AlphaPing.Agent.RuntimeAdapters
import AlphaPing.System.ReportTimes

/-!
# The collected container inventory and the checks of the ingest worker

The agent bounds what the runtimes answer before it puts it into a report: it truncates the lists,
the adapters of the two commands truncate their texts, and the Docker adapter checks the
identifiers. `validate_report` bounds the same inventory and refuses the whole report when a bound
is broken.

The bounds differ. The commands' texts are truncated by characters and checked by bytes, the names
and images of Docker are not truncated at all, and nothing bounds the number of runtimes.
-/

namespace AlphaPing.System.CollectedInventories

open Protocol Agent Agent.Spool Agent.RuntimeAdapters
open Ingest.Validation Library.Distinct

variable (codec : Codec)

/-- The inventory as a report carries it, with its catalog or without. -/
def carried (included : Bool) (inventory : ContainerInventory) : ContainerInventory :=
  { inventory with
    catalogIncluded := included
    catalog := if included then inventory.catalog else [] }

/-- The inventory that the agent appends after a collection. -/
def collected (previous : List NetworkReading) (answers : Answers) (observedAtMs : ℤ) :
    ContainerInventory :=
  toProtocol codec (collect codec previous answers observedAtMs).1

/-- There are few runtimes, and each container that is kept has short texts. The containers that
are kept are the first ones of the 64 least keys. -/
structure Reportable (found : List RuntimeStatus × List ContainerRecord) : Prop where
  runtimes : (found.1.map RuntimeStatus.sortKey).toFinset.card ≤ maxRuntimeCount
  texts : ∀ container, IsFirst ContainerRecord.sortKey found.2 container →
    rank ContainerRecord.sortKey found.2 container < maxContainers →
    container.name.utf8ByteSize ≤ 128 ∧ container.image.utf8ByteSize ≤ 512 ∧
      container.runtimeContainerId.utf8ByteSize ≤ 128

/-! ## What the adapters bound -/

/-- What holds of every record whatever the runtimes answer. -/
structure Bounded (container : ContainerRecord) : Prop where
  key : container.key.length = 16
  runtimeInstance : container.runtimeInstance.utf8ByteSize ≤ 64
  ports : container.ports.length ≤ maxPortsPerContainer

theorem utf8ByteSize_of_validInstance {value : String} (h : validInstance value = true) :
    value.utf8ByteSize ≤ 64 := by
  simp only [validInstance, Bool.and_eq_true, decide_eq_true_eq] at h
  exact h.1.2

variable {endpoint : DockerEndpoint} {container : ContainerRecord}

theorem mem_of_mem_foldl_addEndpoint {endpoints start : List DockerEndpoint}
    (h : endpoint ∈ endpoints.foldl addEndpoint start) :
    endpoint ∈ start ∨ endpoint ∈ endpoints := by
  induction endpoints generalizing start with
  | nil => exact .inl h
  | cons first rest ih =>
    rcases ih h with hmem | hmem
    · unfold addEndpoint at hmem
      split at hmem
      · exact .inl hmem
      · rcases List.mem_append.mp hmem with hmem | hmem
        · exact .inl hmem
        · rw [List.mem_singleton.mp hmem]
          exact .inr List.mem_cons_self
    · exact .inr (List.mem_cons_of_mem _ hmem)

theorem instance_of_mem_discoverEndpoints {surroundings : Surroundings}
    (h : endpoint ∈ discoverEndpoints surroundings) :
    endpoint.instance_.utf8ByteSize ≤ 64 := by
  have henvironment : "environment".utf8ByteSize ≤ 64 := by decide
  have hdefault : "default".utf8ByteSize ≤ 64 := by decide
  rcases mem_of_mem_foldl_addEndpoint h with hnone | hmem
  · exact absurd hnone List.not_mem_nil
  · rcases List.mem_append.mp hmem with hmem | hcolima
    · rcases List.mem_append.mp hmem with hhost | hsocket
      · obtain ⟨transport, -, rfl⟩ := List.mem_map.mp hhost
        exact henvironment
      · obtain ⟨transport, -, rfl⟩ := List.mem_map.mp hsocket
        exact hdefault
    · obtain ⟨⟨profile, transport⟩, hprofile, rfl⟩ := List.mem_map.mp hcolima
      have hvalid := (List.mem_filter.mp hprofile).2
      simp only [Bool.and_eq_true] at hvalid
      exact utf8ByteSize_of_validInstance hvalid.2

theorem bounded_dockerRecord (hinstance : endpoint.instance_.utf8ByteSize ≤ 64)
    (item : ListContainer) (inspect : InspectContainer) (stats : ContainerStats) :
    Bounded (dockerRecord codec endpoint item inspect stats) where
  key := length_stableKey codec _ _ _
  runtimeInstance := hinstance
  ports := by
    rw [dockerRecord, List.length_map, List.length_take]
    exact Nat.min_le_left _ _

theorem bounded_endpointFound (hinstance : endpoint.instance_.utf8ByteSize ≤ 64)
    {answers : DockerAnswers} (h : container ∈ (endpointFound codec endpoint answers).2) :
    Bounded container := by
  unfold endpointFound at h
  split at h
  · next version containers hcollect =>
    unfold collectEndpoint at hcollect
    cases hversion : answers.version with
    | error error => rw [hversion] at hcollect; cases hcollect
    | ok version =>
      cases hlisted : answers.listed with
      | error error =>
        rw [hversion, hlisted] at hcollect
        simp only [bind, Except.bind] at hcollect
        split at hcollect <;> cases hcollect
      | ok listed =>
        rw [hversion, hlisted] at hcollect
        simp only [bind, Except.bind] at hcollect
        split at hcollect
        · cases hcollect
        · obtain ⟨-, rfl⟩ := Prod.mk.inj (Except.ok.inj hcollect)
          obtain ⟨item, -, rfl⟩ := List.mem_map.mp h
          exact bounded_dockerRecord codec hinstance item _ _
  · exact absurd h List.not_mem_nil

theorem bounded_nerdctlRecord {profile : String} (hprofile : validInstance profile = true)
    {item : NerdctlContainer} (h : nerdctlRecord codec profile item = some container) :
    Bounded container := by
  unfold nerdctlRecord at h
  dsimp only at h
  split at h
  · cases h
  · rw [← Option.some.inj h]
    exact ⟨length_stableKey codec _ _ _, utf8ByteSize_of_validInstance hprofile, Nat.zero_le _⟩

theorem bounded_profileFound {answers : ColimaAnswers} {profile : ColimaProfile}
    (h : container ∈ (profileFound codec answers profile).2) :
    Bounded container := by
  unfold profileFound at h
  dsimp only at h
  split at h
  · split at h
    · next containers hcollect =>
      unfold collectProfile at hcollect
      split at hcollect
      · cases hcollect
      · next hvalid =>
        split at hcollect
        · cases hcollect
        · cases hcollect
        · obtain ⟨item, -, hrecord⟩ := List.mem_filterMap.mp (Except.ok.inj hcollect ▸ h)
          exact bounded_nerdctlRecord codec (not_not.mp hvalid) hrecord
    · exact absurd h List.not_mem_nil
  · exact absurd h List.not_mem_nil

theorem bounded_appleRecord {item : AppleContainer} (h : appleRecord codec item = some container) :
    Bounded container := by
  have hdefault : "default".utf8ByteSize ≤ 64 := by decide
  unfold appleRecord at h
  dsimp only at h
  split at h
  · cases h
  · rw [← Option.some.inj h]
    exact ⟨length_stableKey codec _ _ _, hdefault, Nat.zero_le _⟩

theorem bounded_gather {answers : Answers} (h : container ∈ (gather codec answers).2) :
    Bounded container := by
  unfold gather at h
  dsimp only at h
  rcases List.mem_append.mp h with h | happle
  · rcases List.mem_append.mp h with hdocker | hcolima
    · obtain ⟨found, hfound, hmem⟩ := List.mem_flatMap.mp hdocker
      obtain ⟨endpoint, hendpoint, rfl⟩ := List.mem_map.mp hfound
      exact bounded_endpointFound codec (instance_of_mem_discoverEndpoints hendpoint) hmem
    · unfold collectColima at hcolima
      split at hcolima
      · exact absurd hcolima List.not_mem_nil
      · exact absurd hcolima List.not_mem_nil
      · exact absurd hcolima List.not_mem_nil
      · exact absurd hcolima List.not_mem_nil
      · dsimp only at hcolima
        split at hcolima
        · exact absurd hcolima List.not_mem_nil
        · obtain ⟨found, hfound, hmem⟩ := List.mem_flatMap.mp hcolima
          obtain ⟨profile, -, rfl⟩ := List.mem_map.mp hfound
          exact bounded_profileFound codec hmem
  · unfold collectApple at happle
    split at happle
    · exact absurd happle List.not_mem_nil
    · split at happle
      · exact absurd happle List.not_mem_nil
      · split at happle
        · exact absurd happle List.not_mem_nil
        · exact absurd happle List.not_mem_nil
        · obtain ⟨item, -, hrecord⟩ := List.mem_filterMap.mp happle
          exact bounded_appleRecord codec hrecord

/-! ## What is joined -/

variable (previous : List NetworkReading)

theorem withRates_cases (observedAtMs : ℤ) (container : ContainerRecord) :
    ∃ rx tx, withRates previous observedAtMs container =
      { container with networkRxBytesPerSecond := rx, networkTxBytesPerSecond := tx } := by
  unfold withRates
  split
  · exact ⟨_, _, rfl⟩
  · split
    · exact ⟨_, _, rfl⟩
    · exact ⟨_, _, rfl⟩

theorem sortKey_withRates (observedAtMs : ℤ) (container : ContainerRecord) :
    (withRates previous observedAtMs container).sortKey = container.sortKey := by
  obtain ⟨rx, tx, hrates⟩ := withRates_cases previous observedAtMs container
  rw [hrates]
  rfl

def keptContainers (answers : Answers) : List ContainerRecord :=
  (distinct ContainerRecord.sortKey (gather codec answers).2).take maxContainers

theorem containers_collect (answers : Answers) (observedAtMs : ℤ) :
    (collect codec previous answers observedAtMs).1.containers =
      (keptContainers codec answers).map fun container ↦
        { withRates previous observedAtMs container with
          ports := (withRates previous observedAtMs container).ports.take
            maxPortsPerContainer } := by
  simp only [collect, RuntimeInventory.normalize, keptContainers,
    distinct_map (sortKey_withRates previous observedAtMs), ← List.map_take, List.map_map]
  rfl

theorem catalog_collected (answers : Answers) (observedAtMs : ℤ) :
    (collected codec previous answers observedAtMs).catalog =
      (keptContainers codec answers).map catalogEntry := by
  rw [collected, toProtocol]
  dsimp only
  rw [containers_collect, List.map_map]
  apply List.map_congr_left
  intro container _
  obtain ⟨rx, tx, hrates⟩ := withRates_cases previous observedAtMs container
  simp only [Function.comp_apply, hrates]
  rfl

theorem metrics_collected {previous : List NetworkReading} {answers : Answers}
    {observedAtMs : ℤ} {metric : ContainerMetric}
    (h : metric ∈ (collected codec previous answers observedAtMs).metrics) :
    metric.containerKey.length = 16 ∧ metric.ports.length ≤ maxContainerPorts := by
  rw [collected, toProtocol] at h
  dsimp only at h
  rw [containers_collect, List.map_map] at h
  obtain ⟨container, hcontainer, rfl⟩ := List.mem_map.mp h
  have hbounded : Bounded container :=
    bounded_gather codec ((mem_take_distinct_iff _).mp hcontainer).1.mem
  obtain ⟨rx, tx, hrates⟩ := withRates_cases previous observedAtMs container
  simp only [Function.comp_apply, hrates, containerMetric, List.length_map, List.length_take]
  exact ⟨hbounded.key, Nat.min_le_left _ _⟩

theorem catalogEntryValid_iff (h : Bounded container) :
    catalogEntryValid (catalogEntry container) = true ↔
      container.name.utf8ByteSize ≤ 128 ∧ container.image.utf8ByteSize ≤ 512 ∧
        container.runtimeContainerId.utf8ByteSize ≤ 128 := by
  simp only [catalogEntryValid, catalogEntry, Bool.and_eq_true, beq_iff_eq, h.key]
  constructor
  · rintro ⟨⟨⟨-, hid⟩, hname⟩, himage⟩
    exact ⟨of_decide_eq_true hname, of_decide_eq_true himage, of_decide_eq_true hid⟩
  · rintro ⟨hname, himage, hid⟩
    exact ⟨⟨⟨⟨trivial, decide_eq_true h.runtimeInstance⟩, decide_eq_true hid⟩,
      decide_eq_true hname⟩, decide_eq_true himage⟩

theorem catalog_valid_iff (answers : Answers) :
    ((keptContainers codec answers).map catalogEntry).all catalogEntryValid = true ↔
      ∀ container, IsFirst ContainerRecord.sortKey (gather codec answers).2 container →
        rank ContainerRecord.sortKey (gather codec answers).2 container < maxContainers →
        container.name.utf8ByteSize ≤ 128 ∧ container.image.utf8ByteSize ≤ 512 ∧
          container.runtimeContainerId.utf8ByteSize ≤ 128 := by
  rw [List.all_eq_true, List.forall_mem_map]
  constructor
  · intro h container hfirst hrank
    have hbounded : Bounded container := bounded_gather codec hfirst.mem
    exact (catalogEntryValid_iff hbounded).mp
      (h container ((mem_take_distinct_iff _).mpr ⟨hfirst, hrank⟩))
  · intro h container hmem
    obtain ⟨hfirst, hrank⟩ := (mem_take_distinct_iff _).mp hmem
    have hbounded : Bounded container := bounded_gather codec hfirst.mem
    exact (catalogEntryValid_iff hbounded).mpr (h container hfirst hrank)

/-- Whatever the runtimes answer, a report that carries the collected inventory passes the checks
of its containers exactly if there are few runtimes and the containers that are kept have short
texts. -/
theorem collected_inventory_valid_iff (previous : List NetworkReading) (answers : Answers)
    (observedAtMs : ℤ) :
    (∀ included, inventoryValid (floorMinute observedAtMs)
      (carried included (collected codec previous answers observedAtMs)) = true) ↔
      Reportable (gather codec answers) := by
  have hruntimes : (collected codec previous answers observedAtMs).runtimes.length =
      ((gather codec answers).1.map RuntimeStatus.sortKey).toFinset.card := by
    rw [collected, toProtocol, List.length_map]
    exact length_distinct _
  have hminute : floorMinute observedAtMs ≤ observedAtMs ∧
      observedAtMs < floorMinute observedAtMs + 60000 := by
    rw [floorMinute]
    omega
  have hkept : (keptContainers codec answers).length ≤ maxContainerCount := by
    rw [keptContainers, List.length_take]
    exact Nat.min_le_left _ _
  have hdigest : (collected codec previous answers observedAtMs).catalogDigest.length = 32 :=
    codec.length_hash _
  have hmetrics : (collected codec previous answers observedAtMs).metrics.length ≤
      maxContainerCount := by
    rw [collected, toProtocol, List.length_map, containers_collect, List.length_map]
    exact hkept
  have hall : (collected codec previous answers observedAtMs).metrics.all (fun metric ↦
      metric.containerKey.length == 16 && metric.ports.length ≤ maxContainerPorts) = true := by
    refine List.all_eq_true.mpr fun metric hmetric ↦ ?_
    obtain ⟨hkey, hports⟩ := metrics_collected codec hmetric
    rw [hkey, Bool.and_eq_true]
    exact ⟨rfl, decide_eq_true hports⟩
  constructor
  · intro h
    have hincluded := h true
    simp only [inventoryValid, carried, Bool.and_eq_true, decide_eq_true_eq] at hincluded
    refine ⟨hruntimes ▸ hincluded.1.1.1.1.1.2, ?_⟩
    rw [← catalog_valid_iff, ← catalog_collected codec previous answers observedAtMs]
    exact hincluded.1.2
  · intro h included
    have hobserved : (collected codec previous answers observedAtMs).observedAtMs =
        observedAtMs := rfl
    have hcatalog := (catalog_valid_iff codec answers).mpr h.texts
    rw [← catalog_collected codec previous answers observedAtMs] at hcatalog
    have hlength : (collected codec previous answers observedAtMs).catalog.length ≤
        maxContainerCount := by
      rw [catalog_collected, List.length_map]
      exact hkept
    simp only [inventoryValid, carried, Bool.and_eq_true, decide_eq_true_eq, beq_iff_eq,
      hobserved, hruntimes]
    refine ⟨⟨⟨⟨⟨⟨⟨hminute, hdigest⟩, h.runtimes⟩, ?_⟩, ?_⟩, hmetrics⟩, ?_⟩, hall⟩
    · cases included with
      | true => exact hlength
      | false => exact Nat.zero_le _
    · cases included <;> rfl
    · cases included with
      | true => exact hcatalog
      | false => rfl

/-! ### A container with a long name -/

/-- A host with one Docker socket and one container. -/
def longNameAnswers : Answers where
  surroundings := ⟨none, ["unix:/var/run/docker.sock"], []⟩
  docker _ :=
    { version := .ok ⟨"1.47", "27.3.1"⟩
      listed := .ok [⟨"0123456789ab", [String.ofList ('/' :: List.replicate 129 'a')],
        "nginx:latest", "running", []⟩]
      inspect := fun _ ↦ none
      stats := fun _ ↦ none }
  colima := ⟨.error .notFound, fun _ ↦ .error .notFound⟩
  apple := ⟨false, .error .notFound, .error .notFound⟩

/-- Docker takes a name of 129 characters, and every report with the inventory is refused. -/
theorem long_name_refused :
    ¬∀ included, inventoryValid (floorMinute 1752574830000)
      (carried included (collected prefixCodec [] longNameAnswers 1752574830000)) = true := by
  intro h
  exact absurd (h true) (by decide +kernel)

end AlphaPing.System.CollectedInventories
