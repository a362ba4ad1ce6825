import AlphaPing.Ingest.Containers
import AlphaPing.Ingest.Enrollment
import AlphaPing.Ingest.Validation
import AlphaPing.Library.Json
import AlphaPing.Library.Texts
import AlphaPing.Monitoring.Handlers

/-!
# Reading the stored container inventory

The ingest worker writes the inventory of a report as a JSON text, and the web application reads
that text with bounds of its own. The reader gives the whole inventory up at the first member
outside its bounds, and `validate_report` does not look at most of them: not at the sign of a
start time, nor at the size of a counter, nor at the texts of a runtime or of a port.

The theorem says which accepted reports are read back. What a report without its catalog leaves
out is taken from an earlier stored inventory, so the statement ranges over every inventory that
a sequence of accepted reports can have stored.
-/

namespace AlphaPing.System.StoredInventories

open Protocol Ingest.Containers Ingest.Validation
open Library.Json Library.Texts
open Ingest.Enrollment (hexEncode)
open Monitoring.Handlers (utf16Length)

/-! ## The document that the ingest worker writes -/

def runtimeAvailability : ℕ → String
  | 1 => "available"
  | 2 => "absent"
  | 3 => "stopped"
  | 4 => "permission-denied"
  | 5 => "incompatible"
  | 6 => "error"
  | _ => "unknown"

def containerState : ℕ → String
  | 1 => "created"
  | 2 => "running"
  | 3 => "paused"
  | 4 => "restarting"
  | 5 => "exited"
  | 6 => "dead"
  | _ => "unknown"

def containerHealth : ℕ → String
  | 1 => "none"
  | 2 => "starting"
  | 3 => "healthy"
  | 4 => "unhealthy"
  | _ => "unknown"

def portDocument (port : ContainerPort) : Json :=
  .object [("privatePort", .number port.privatePort), ("publicPort", .number port.publicPort),
    ("protocol", .string port.protocol)]

def containerDocument (container : StoredContainer) : Json :=
  .object [("id", .string (hexEncode container.id)), ("runtime", .string container.runtime),
    ("runtimeInstance", .string container.runtimeInstance), ("name", .string container.name),
    ("image", .string container.image),
    ("state", .string (containerState container.metric.state)),
    ("health", .string (containerHealth container.metric.health)),
    ("startedAt", .number container.metric.startedAtMs),
    ("restartCount", .number container.metric.restartCount),
    ("cpuPermille", .number container.metric.cpuPermille),
    ("memoryUsedBytes", .number container.metric.memoryUsedBytes),
    ("memoryLimitBytes", .number container.metric.memoryLimitBytes),
    ("networkRxBps", .number container.metric.networkRxBytesPerSecond),
    ("networkTxBps", .number container.metric.networkTxBytesPerSecond),
    ("ports", .array (container.metric.ports.map portDocument))]

def runtimeDocument (runtime : RuntimeSnapshot) : Json :=
  .object [("kind", .string (runtimeKind runtime.kind)), ("instance", .string runtime.instance_),
    ("availability", .string (runtimeAvailability runtime.availability)),
    ("version", .string runtime.version), ("detailCode", .string runtime.detailCode)]

/-- The text of `container_inventory_json`. -/
def inventoryDocument (inventory : StoredInventory) : Json :=
  .object [("observedAt", .number inventory.observedAt),
    ("catalogDigest", .string (hexEncode inventory.catalogDigest)),
    ("runtimes", .array (inventory.runtimes.map runtimeDocument)),
    ("containers", .array (inventory.containers.map containerDocument))]

/-! ## The reader -/

/-- `Number.MAX_SAFE_INTEGER`. -/
def maxSafeInteger : ℤ := 9007199254740991

structure MachineRuntimeStatus where
  kind : String
  availability : String
  instance_ : String
  version : String
  detailCode : String

structure MachineContainerPort where
  privatePort : ℤ
  publicPort : ℤ
  protocol : String

structure MachineContainer where
  id : String
  runtime : String
  runtimeInstance : String
  name : String
  image : String
  state : String
  health : String
  startedAt : ℤ
  restartCount : ℤ
  cpuPermille : ℤ
  memoryUsedBytes : ℤ
  memoryLimitBytes : ℤ
  networkRxBps : ℤ
  networkTxBps : ℤ
  ports : List MachineContainerPort

structure MachineContainerInventory where
  observedAt : ℤ
  runtimes : List MachineRuntimeStatus
  containers : List MachineContainer

def runtimeKinds : List String :=
  ["docker", "colima-docker", "colima-containerd", "apple-container", "unknown"]

def runtimeAvailabilities : List String :=
  ["available", "absent", "stopped", "permission-denied", "incompatible", "error", "unknown"]

def containerStates : List String :=
  ["created", "running", "paused", "restarting", "exited", "dead", "unknown"]

def containerHealths : List String :=
  ["none", "starting", "healthy", "unhealthy", "unknown"]

def boundedString (value : Option Json) (maximum : ℕ) : Option String :=
  match value with
  | some (.string text) => if utf16Length text ≤ maximum then some text else none
  | _ => none

/-- `safeInteger` with its default minimum. -/
def safeInteger (value : Option Json) : Option ℤ :=
  match value with
  | some (.number number) => if 0 ≤ number ∧ number ≤ maxSafeInteger then some number else none
  | _ => none

/-- A text of a fixed set; no set holds the empty text. -/
def textOf (texts : List String) (value : Option Json) : Option String :=
  (boundedString value 32).filter fun text ↦ text ∈ texts

/-- `/^[a-f0-9]{32}$/`. -/
def containerId (text : String) : Bool :=
  text.toList.length = 32 && text.toList.all fun character ↦
    ('a' ≤ character && character ≤ 'f') || ('0' ≤ character && character ≤ '9')

def parseRuntime (item : Json) : Option MachineRuntimeStatus := do
  let fields ← item.record
  let kind ← textOf runtimeKinds (member "kind" fields)
  let availability ← textOf runtimeAvailabilities (member "availability" fields)
  let instance_ ← boundedString (member "instance" fields) 64
  let version ← boundedString (member "version" fields) 64
  let detailCode ← boundedString (member "detailCode" fields) 64
  some { kind, availability, instance_, version, detailCode }

def parsePort (port : Json) : Option MachineContainerPort := do
  let fields ← port.record
  let privatePort ← safeInteger (member "privatePort" fields)
  let publicPort ← safeInteger (member "publicPort" fields)
  let protocol ← boundedString (member "protocol" fields) 8
  some { privatePort, publicPort, protocol }

/-- The container with the given members. -/
def containerOf (fields : List (String × Json)) : Option MachineContainer := do
  let portItems ← (member "ports" fields).bind Json.items
  if 8 < portItems.length then none else
  let id ← (boundedString (member "id" fields) 32).filter containerId
  let runtime ← textOf runtimeKinds (member "runtime" fields)
  let runtimeInstance ← boundedString (member "runtimeInstance" fields) 64
  let name ← boundedString (member "name" fields) 128
  let image ← boundedString (member "image" fields) 512
  let state ← textOf containerStates (member "state" fields)
  let health ← textOf containerHealths (member "health" fields)
  let startedAt ← safeInteger (member "startedAt" fields)
  let restartCount ← safeInteger (member "restartCount" fields)
  let cpuPermille ← safeInteger (member "cpuPermille" fields)
  let memoryUsedBytes ← safeInteger (member "memoryUsedBytes" fields)
  let memoryLimitBytes ← safeInteger (member "memoryLimitBytes" fields)
  let networkRxBps ← safeInteger (member "networkRxBps" fields)
  let networkTxBps ← safeInteger (member "networkTxBps" fields)
  let ports ← portItems.mapM parsePort
  some { id, runtime, runtimeInstance, name, image, state, health, startedAt, restartCount,
         cpuPermille, memoryUsedBytes, memoryLimitBytes, networkRxBps, networkTxBps, ports }

def parseContainer (item : Json) : Option MachineContainer :=
  item.record.bind containerOf

def parseContainerInventory (value : Option Json) : Option MachineContainerInventory := do
  let document ← value
  if 256 * 1024 < utf16Length (String.ofList document.render) then none else
  let fields ← document.record
  let runtimeItems ← (member "runtimes" fields).bind Json.items
  let containerItems ← (member "containers" fields).bind Json.items
  let observedAt ← safeInteger (member "observedAt" fields)
  if 16 < runtimeItems.length ∨ 64 < containerItems.length then none else
  let runtimes ← runtimeItems.mapM parseRuntime
  let containers ← containerItems.mapM parseContainer
  some { observedAt, runtimes, containers }

/-! ## What the reader makes of a written document -/

/-- An integer that the reader takes. -/
def Safe (number : ℤ) : Prop :=
  0 ≤ number ∧ number ≤ maxSafeInteger

instance (number : ℤ) : Decidable (Safe number) :=
  inferInstanceAs (Decidable (_ ∧ _))

/-- What the reader asks of a port. -/
def PortReadable (port : ContainerPort) : Prop :=
  Safe port.privatePort ∧ Safe port.publicPort ∧ utf16Length port.protocol ≤ 8

instance (port : ContainerPort) : Decidable (PortReadable port) :=
  inferInstanceAs (Decidable (_ ∧ _ ∧ _))

/-- What the reader asks of the numbers of a metric, and of its ports. -/
def MetricReadable (metric : ContainerMetric) : Prop :=
  Safe metric.startedAtMs ∧ Safe metric.restartCount ∧ Safe metric.cpuPermille ∧
    Safe metric.memoryUsedBytes ∧ Safe metric.memoryLimitBytes ∧
    Safe metric.networkRxBytesPerSecond ∧ Safe metric.networkTxBytesPerSecond ∧
    ∀ port ∈ metric.ports, PortReadable port

instance (metric : ContainerMetric) : Decidable (MetricReadable metric) :=
  inferInstanceAs (Decidable (_ ∧ _ ∧ _ ∧ _ ∧ _ ∧ _ ∧ _ ∧ _))

/-- What the reader asks of the texts of a runtime. -/
def RuntimeReadable (runtime : RuntimeSnapshot) : Prop :=
  utf16Length runtime.instance_ ≤ 64 ∧ utf16Length runtime.version ≤ 64 ∧
    utf16Length runtime.detailCode ≤ 64

instance (runtime : RuntimeSnapshot) : Decidable (RuntimeReadable runtime) :=
  inferInstanceAs (Decidable (_ ∧ _ ∧ _))

def shownPort (port : ContainerPort) : MachineContainerPort where
  privatePort := port.privatePort
  publicPort := port.publicPort
  protocol := port.protocol

def shownRuntime (runtime : RuntimeSnapshot) : MachineRuntimeStatus where
  kind := runtimeKind runtime.kind
  availability := runtimeAvailability runtime.availability
  instance_ := runtime.instance_
  version := runtime.version
  detailCode := runtime.detailCode

def shownContainer (container : StoredContainer) : MachineContainer where
  id := hexEncode container.id
  runtime := container.runtime
  runtimeInstance := container.runtimeInstance
  name := container.name
  image := container.image
  state := containerState container.metric.state
  health := containerHealth container.metric.health
  startedAt := container.metric.startedAtMs
  restartCount := container.metric.restartCount
  cpuPermille := container.metric.cpuPermille
  memoryUsedBytes := container.metric.memoryUsedBytes
  memoryLimitBytes := container.metric.memoryLimitBytes
  networkRxBps := container.metric.networkRxBytesPerSecond
  networkTxBps := container.metric.networkTxBytesPerSecond
  ports := container.metric.ports.map shownPort

@[simp] theorem boundedString_string (text : String) (maximum : ℕ) :
    boundedString (some (.string text)) maximum =
      if utf16Length text ≤ maximum then some text else none := rfl

@[simp] theorem safeInteger_number (number : ℤ) :
    safeInteger (some (.number number)) = if Safe number then some number else none := rfl

theorem runtimeKind_mem (kind : ℕ) : runtimeKind kind ∈ runtimeKinds := by
  unfold runtimeKind
  split <;> decide

theorem runtimeAvailability_mem (availability : ℕ) :
    runtimeAvailability availability ∈ runtimeAvailabilities := by
  unfold runtimeAvailability
  split <;> decide

theorem containerState_mem (state : ℕ) : containerState state ∈ containerStates := by
  unfold containerState
  split <;> decide

theorem containerHealth_mem (health : ℕ) : containerHealth health ∈ containerHealths := by
  unfold containerHealth
  split <;> decide

theorem textOf_string {texts : List String} {text : String} (hmem : text ∈ texts)
    (hshort : ∀ text ∈ texts, utf16Length text ≤ 32) :
    textOf texts (some (.string text)) = some text := by
  simp [textOf, hshort text hmem, hmem]

variable {Value Result : Type}

theorem mapM_document {document : Value → Json} {parse : Json → Option Result}
    {readable : Value → Prop} [DecidablePred readable] {shown : Value → Result}
    (hparse : ∀ value, parse (document value) = if readable value then some (shown value) else none)
    (values : List Value) :
    (values.map document).mapM parse =
      if ∀ value ∈ values, readable value then some (values.map shown) else none := by
  induction values with
  | nil => simp
  | cons value rest ih =>
    rw [List.map_cons, List.mapM_cons, hparse, ih]
    by_cases hvalue : readable value
    · by_cases hrest : ∀ value ∈ rest, readable value
      · simp [hvalue, if_pos hrest]
      · simp [hvalue, if_neg hrest]
    · simp [hvalue]

theorem bind_ite {condition : Prop} [Decidable condition] (value : Value)
    (next : Value → Option Result) :
    ((if condition then some value else none) >>= next) =
      if condition then next value else none := by
  split <;> rfl

theorem bind_some (value : Value) (next : Value → Option Result) :
    (some value >>= next) = next value := rfl

theorem parsePort_document (port : ContainerPort) :
    parsePort (portDocument port) =
      if PortReadable port then some (shownPort port) else none := by
  simp only [parsePort, portDocument, Json.record, member, List.reverse_cons, List.reverse_nil,
    List.nil_append, List.cons_append, bind_some]
  simp only [List.lookup_cons, beq_self_eq_true, String.reduceBEq, safeInteger_number,
    boundedString_string, bind_ite, ← ite_and]
  rfl

theorem parseRuntime_document (runtime : RuntimeSnapshot) :
    parseRuntime (runtimeDocument runtime) =
      if RuntimeReadable runtime then some (shownRuntime runtime) else none := by
  simp only [parseRuntime, runtimeDocument, Json.record, member, List.reverse_cons,
    List.reverse_nil, List.nil_append, List.cons_append, bind_some]
  simp only [List.lookup_cons, beq_self_eq_true, String.reduceBEq, boundedString_string, bind_ite,
    textOf_string (runtimeKind_mem _) (by decide),
    textOf_string (runtimeAvailability_mem _) (by decide), bind_some, ← ite_and]
  rfl

/-- What the reader asks of a stored container, besides its numbers and ports. -/
def ContainerReadable (container : StoredContainer) : Prop :=
  container.metric.ports.length ≤ 8 ∧
    (utf16Length (hexEncode container.id) ≤ 32 ∧ containerId (hexEncode container.id) = true) ∧
    container.runtime ∈ runtimeKinds ∧ utf16Length container.runtimeInstance ≤ 64 ∧
    utf16Length container.name ≤ 128 ∧ utf16Length container.image ≤ 512 ∧
    MetricReadable container.metric

instance (container : StoredContainer) : Decidable (ContainerReadable container) :=
  inferInstanceAs (Decidable (_ ∧ (_ ∧ _) ∧ _ ∧ _ ∧ _ ∧ _ ∧ _))

theorem textOf_runtime (runtime : String) :
    textOf runtimeKinds (some (.string runtime)) =
      if runtime ∈ runtimeKinds then some runtime else none := by
  by_cases hmem : runtime ∈ runtimeKinds
  · rw [if_pos hmem, textOf_string hmem (by decide)]
  · rw [if_neg hmem]
    simp only [textOf, boundedString_string, Option.filter_eq_none_iff, decide_eq_true_eq]
    intro text htext
    split at htext
    · rwa [← Option.some.inj htext]
    · cases htext

theorem filter_ite {Value : Type} {condition : Prop} [Decidable condition] (value : Value)
    (accepts : Value → Bool) :
    (if condition then some value else none).filter accepts =
      if condition ∧ accepts value = true then some value else none := by
  by_cases hcondition : condition
  · simp [hcondition, Option.filter]
  · simp [hcondition]

theorem parseContainer_document (container : StoredContainer) :
    parseContainer (containerDocument container) =
      if ContainerReadable container then some (shownContainer container) else none := by
  obtain ⟨fields, hfields⟩ : ∃ fields, containerDocument container = .object fields := ⟨_, rfl⟩
  have hmember : ∀ {name : String} {value : Option Json},
      member name ((containerDocument container).record.getD []) = value →
        member name fields = value := by
    rw [hfields]
    exact id
  have hports : member "ports" fields = some (.array (container.metric.ports.map portDocument)) :=
    hmember rfl
  have hid : member "id" fields = some (.string (hexEncode container.id)) := hmember rfl
  have hruntime : member "runtime" fields = some (.string container.runtime) := hmember rfl
  have hinstance : member "runtimeInstance" fields = some (.string container.runtimeInstance) :=
    hmember rfl
  have hname : member "name" fields = some (.string container.name) := hmember rfl
  have himage : member "image" fields = some (.string container.image) := hmember rfl
  have hstate : member "state" fields =
      some (.string (containerState container.metric.state)) := hmember rfl
  have hhealth : member "health" fields =
      some (.string (containerHealth container.metric.health)) := hmember rfl
  have hstarted : member "startedAt" fields = some (.number container.metric.startedAtMs) :=
    hmember rfl
  have hrestarts : member "restartCount" fields = some (.number container.metric.restartCount) :=
    hmember rfl
  have hcpu : member "cpuPermille" fields = some (.number container.metric.cpuPermille) :=
    hmember rfl
  have hused : member "memoryUsedBytes" fields =
      some (.number container.metric.memoryUsedBytes) := hmember rfl
  have hlimit : member "memoryLimitBytes" fields =
      some (.number container.metric.memoryLimitBytes) := hmember rfl
  have hrx : member "networkRxBps" fields =
      some (.number container.metric.networkRxBytesPerSecond) := hmember rfl
  have htx : member "networkTxBps" fields =
      some (.number container.metric.networkTxBytesPerSecond) := hmember rfl
  rw [hfields]
  change containerOf fields = _
  unfold containerOf
  rw [hports, hid, hruntime, hinstance, hname, himage, hstate, hhealth, hstarted, hrestarts, hcpu,
    hused, hlimit, hrx, htx]
  simp only [Option.bind_some, Json.items]
  rw [bind_some, List.length_map]
  by_cases hcount : container.metric.ports.length ≤ 8
  · rw [if_neg (Nat.not_lt.mpr hcount)]
    rw [boundedString_string, filter_ite, bind_ite, textOf_runtime, bind_ite,
      boundedString_string, bind_ite, boundedString_string, bind_ite, boundedString_string,
      bind_ite, textOf_string (containerState_mem _) (by decide), bind_some,
      textOf_string (containerHealth_mem _) (by decide), bind_some, safeInteger_number, bind_ite,
      safeInteger_number, bind_ite, safeInteger_number, bind_ite, safeInteger_number, bind_ite,
      safeInteger_number, bind_ite, safeInteger_number, bind_ite, safeInteger_number, bind_ite,
      mapM_document parsePort_document, bind_ite]
    simp only [← ite_and]
    refine if_congr ?_ rfl rfl
    simp only [ContainerReadable, MetricReadable, hcount, true_and]
  · rw [if_pos (Nat.not_le.mp hcount), if_neg fun hreadable ↦ hcount hreadable.1]

/-- What the reader asks of a stored inventory. -/
structure InventoryReadable (inventory : StoredInventory) : Prop where
  length : utf16Length (String.ofList (inventoryDocument inventory).render) ≤ 256 * 1024
  observedAt : Safe inventory.observedAt
  runtimeCount : inventory.runtimes.length ≤ 16
  containerCount : inventory.containers.length ≤ 64
  runtimes : ∀ runtime ∈ inventory.runtimes, RuntimeReadable runtime
  containers : ∀ container ∈ inventory.containers, ContainerReadable container

def shownInventory (inventory : StoredInventory) : MachineContainerInventory where
  observedAt := inventory.observedAt
  runtimes := inventory.runtimes.map shownRuntime
  containers := inventory.containers.map shownContainer

theorem parseContainerInventory_eq_some_iff (inventory : StoredInventory)
    (read : MachineContainerInventory) :
    parseContainerInventory (some (inventoryDocument inventory)) = some read ↔
      InventoryReadable inventory ∧ read = shownInventory inventory := by
  obtain ⟨fields, hfields⟩ : ∃ fields, inventoryDocument inventory = .object fields := ⟨_, rfl⟩
  have hmember : ∀ {name : String} {value : Option Json},
      member name ((inventoryDocument inventory).record.getD []) = value →
        member name fields = value := by
    rw [hfields]
    exact id
  have hruntimes : member "runtimes" fields =
      some (.array (inventory.runtimes.map runtimeDocument)) := hmember rfl
  have hcontainers : member "containers" fields =
      some (.array (inventory.containers.map containerDocument)) := hmember rfl
  have hobserved : member "observedAt" fields = some (.number inventory.observedAt) := hmember rfl
  have hparse : parseContainerInventory (some (inventoryDocument inventory)) =
      if 256 * 1024 < utf16Length (String.ofList (inventoryDocument inventory).render) then
        none
      else
      if Safe inventory.observedAt then
        if 16 < inventory.runtimes.length ∨ 64 < inventory.containers.length then none else
        if ∀ runtime ∈ inventory.runtimes, RuntimeReadable runtime then
          if ∀ container ∈ inventory.containers, ContainerReadable container then
            some (shownInventory inventory)
          else none
        else none
      else none := by
    unfold parseContainerInventory
    rw [bind_some]
    refine if_congr Iff.rfl rfl ?_
    rw [hfields]
    simp only [Json.record]
    rw [bind_some, hruntimes, hcontainers, hobserved]
    simp only [Option.bind_some, Json.items]
    rw [bind_some, bind_some, safeInteger_number, bind_ite, List.length_map, List.length_map,
      mapM_document parseRuntime_document, bind_ite, mapM_document parseContainer_document,
      bind_ite]
    rfl
  rw [hparse]
  constructor
  · intro h
    split_ifs at h with hlength hobservedAt hcounts hallRuntimes hallContainers
    exact ⟨⟨by omega, hobservedAt, by omega, by omega, hallRuntimes, hallContainers⟩,
      (Option.some.inj h).symm⟩
  · rintro ⟨hreadable, rfl⟩
    have hlength := hreadable.length
    have hruntimeCount := hreadable.runtimeCount
    have hcontainerCount := hreadable.containerCount
    rw [if_neg (by omega), if_pos hreadable.observedAt, if_neg (by omega),
      if_pos hreadable.runtimes, if_pos hreadable.containers]

/-! ## The length of a written document -/

theorem utf16Length_ofList (characters : List Char) :
    utf16Length (String.ofList characters) = size codeUnits characters := by
  rw [utf16Length, String.toList_ofList]
  rfl

/-- The length of a text between its quotes. -/
def textLength (text : String) : ℕ :=
  escapedSize codeUnits text

def numberLength (number : ℤ) : ℕ :=
  utf16Length (toString number)

def portLength (port : ContainerPort) : ℕ :=
  44 + numberLength port.privatePort + numberLength port.publicPort + textLength port.protocol

def runtimeLength (runtime : RuntimeSnapshot) : ℕ :=
  72 + textLength (runtimeKind runtime.kind) + textLength runtime.instance_ +
    textLength (runtimeAvailability runtime.availability) + textLength runtime.version +
    textLength runtime.detailCode

/-- The part of a container that comes from its metric. -/
def metricLength (metric : ContainerMetric) : ℕ :=
  213 + textLength (hexEncode metric.containerKey) + textLength (containerState metric.state) +
    textLength (containerHealth metric.health) + numberLength metric.startedAtMs +
    numberLength metric.restartCount + numberLength metric.cpuPermille +
    numberLength metric.memoryUsedBytes + numberLength metric.memoryLimitBytes +
    numberLength metric.networkRxBytesPerSecond + numberLength metric.networkTxBytesPerSecond +
    (metric.ports.map portLength).sum + (metric.ports.length - 1)

/-- The part of a container that comes from the catalog. -/
def namesLength (runtime runtimeInstance name image : String) : ℕ :=
  textLength runtime + textLength runtimeInstance + textLength name + textLength image

theorem size_number (number : ℤ) :
    size codeUnits (Json.number number).render = numberLength number := by
  rw [numberLength, utf16Length, Json.render]
  rfl

theorem size_string (text : String) :
    size codeUnits (Json.string text).render = 2 + textLength text := by
  rw [Json.render, size_quote]
  rfl

theorem size_object {members : List (String × Json)} {texts : List String} {names values : ℕ}
    (hnames : (texts.map fun name ↦ size codeUnits (quote name)).sum = names)
    (htexts : members.map Prod.fst = texts)
    (hvalues : ((members.map Prod.snd).map fun value ↦ size codeUnits value.render).sum = values) :
    size codeUnits (Json.object members).render =
      names + values + members.length + (members.length - 1) + 2 := by
  have hcolon : codeUnits ':' = 1 := by decide
  have hcomma : codeUnits ',' = 1 := by decide
  have hbraces : codeUnits (Char.ofNat 0x7B) + codeUnits (Char.ofNat 0x7D) = 2 := by decide
  rw [size_render_object, htexts, hnames, hvalues, hcolon, hcomma, hbraces, Nat.mul_one,
    Nat.mul_one]

theorem size_array {Value : Type} {document : Value → Json} {length : Value → ℕ}
    (hlength : ∀ value, size codeUnits (document value).render = length value)
    (values : List Value) :
    size codeUnits (Json.array (values.map document)).render =
      (values.map length).sum + (values.length - 1) + 2 := by
  have hcomma : codeUnits ',' = 1 := by decide
  have hbrackets : codeUnits '[' + codeUnits ']' = 2 := by decide
  rw [size_render_array, hcomma, hbrackets, Nat.mul_one, List.length_map, List.map_map]
  simp only [Function.comp_def, hlength]

theorem size_portDocument (port : ContainerPort) :
    size codeUnits (portDocument port).render = portLength port := by
  have hnames : ((["privatePort", "publicPort", "protocol"].map fun name ↦
      size codeUnits (quote name)).sum) = 35 := by decide
  refine (size_object hnames rfl rfl).trans ?_
  simp only [List.map_cons, List.map_nil, List.sum_cons, List.sum_nil, size_number, size_string,
    List.length_cons, List.length_nil, portLength]
  omega

theorem size_runtimeDocument (runtime : RuntimeSnapshot) :
    size codeUnits (runtimeDocument runtime).render = runtimeLength runtime := by
  have hnames : ((["kind", "instance", "availability", "version", "detailCode"].map fun name ↦
      size codeUnits (quote name)).sum) = 51 := by decide
  refine (size_object hnames rfl rfl).trans ?_
  simp only [List.map_cons, List.map_nil, List.sum_cons, List.sum_nil, size_string,
    List.length_cons, List.length_nil, runtimeLength]
  omega

theorem size_containerDocument (container : StoredContainer)
    (hid : container.id = container.metric.containerKey) :
    size codeUnits (containerDocument container).render =
      metricLength container.metric + namesLength container.runtime container.runtimeInstance
        container.name container.image := by
  have hnames : ((["id", "runtime", "runtimeInstance", "name", "image", "state", "health",
      "startedAt", "restartCount", "cpuPermille", "memoryUsedBytes", "memoryLimitBytes",
      "networkRxBps", "networkTxBps", "ports"].map fun name ↦
      size codeUnits (quote name)).sum) = 166 := by decide
  refine (size_object hnames rfl rfl).trans ?_
  simp only [List.map_cons, List.map_nil, List.sum_cons, List.sum_nil, size_string, size_number,
    List.length_cons, List.length_nil, metricLength, namesLength, size_array size_portDocument, hid]
  omega

theorem size_inventoryDocument (inventory : StoredInventory) :
    size codeUnits (inventoryDocument inventory).render =
      64 + numberLength inventory.observedAt + textLength (hexEncode inventory.catalogDigest) +
        (inventory.runtimes.map runtimeLength).sum + (inventory.runtimes.length - 1) +
        (inventory.containers.map fun container ↦
          size codeUnits (containerDocument container).render).sum +
        (inventory.containers.length - 1) := by
  have hnames : ((["observedAt", "catalogDigest", "runtimes", "containers"].map fun name ↦
      size codeUnits (quote name)).sum) = 49 := by decide
  refine (size_object hnames rfl rfl).trans ?_
  simp only [List.map_cons, List.map_nil, List.sum_cons, List.sum_nil, size_string, size_number,
    List.length_cons, List.length_nil, size_array size_runtimeDocument, size_array fun _ ↦ rfl]
  omega

/-! ## Container keys -/

def hexDigits (byte : UInt8) : List Char :=
  [Nat.digitChar (byte.toNat / 16), Nat.digitChar (byte.toNat % 16)]

theorem toList_hexEncode (bytes : Bytes) : (hexEncode bytes).toList = bytes.flatMap hexDigits := by
  rw [hexEncode, String.toList_ofList]
  rfl

theorem digitChar_injective : ∀ first < 16, ∀ second < 16,
    Nat.digitChar first = Nat.digitChar second → first = second := by
  decide

theorem hexDigits_injective {first second : UInt8} (h : hexDigits first = hexDigits second) :
    first = second := by
  have hfirst := first.toNat_lt
  have hsecond := second.toNat_lt
  simp only [hexDigits, List.cons.injEq, and_true] at h
  have hhigh := digitChar_injective _ (by omega) _ (by omega) h.1
  have hlow := digitChar_injective _ (by omega) _ (by omega) h.2
  apply UInt8.toNat_inj.mp
  omega

theorem hexEncode_injective {first second : Bytes} (h : hexEncode first = hexEncode second) :
    first = second := by
  have hdigits : first.flatMap hexDigits = second.flatMap hexDigits := by
    rw [← toList_hexEncode, ← toList_hexEncode, h]
  clear h
  induction first generalizing second with
  | nil =>
    cases second with
    | nil => rfl
    | cons => simp [hexDigits] at hdigits
  | cons byte rest ih =>
    cases second with
    | nil => simp [hexDigits] at hdigits
    | cons byte' rest' =>
      rw [List.flatMap_cons, List.flatMap_cons] at hdigits
      obtain ⟨hbyte, hrest⟩ := List.append_inj hdigits rfl
      rw [hexDigits_injective hbyte, ih hrest]

theorem length_hexDigits (bytes : Bytes) : (bytes.flatMap hexDigits).length = 2 * bytes.length := by
  induction bytes with
  | nil => rfl
  | cons byte rest ih =>
    rw [List.flatMap_cons, List.length_append, ih, List.length_cons]
    simp only [hexDigits, List.length_cons, List.length_nil]
    omega

theorem digitChar_hex : ∀ digit < 16,
    (('a' ≤ Nat.digitChar digit ∧ Nat.digitChar digit ≤ 'f') ∨
      ('0' ≤ Nat.digitChar digit ∧ Nat.digitChar digit ≤ '9')) ∧
    codeUnits (Nat.digitChar digit) = 1 := by
  decide

theorem hexDigits_hex {bytes : Bytes} {character : Char} (h : character ∈ bytes.flatMap hexDigits) :
    (('a' ≤ character ∧ character ≤ 'f') ∨ ('0' ≤ character ∧ character ≤ '9')) ∧
      codeUnits character = 1 := by
  obtain ⟨byte, -, hmem⟩ := List.mem_flatMap.mp h
  have hlt := byte.toNat_lt
  simp only [hexDigits, List.mem_cons, List.not_mem_nil, or_false] at hmem
  rcases hmem with rfl | rfl
  · exact digitChar_hex _ (by omega)
  · exact digitChar_hex _ (by omega)

theorem containerId_hexEncode {key : Bytes} (hlength : key.length = 16) :
    utf16Length (hexEncode key) ≤ 32 ∧ containerId (hexEncode key) = true := by
  have hunits : ∀ characters : List Char, (∀ character ∈ characters, codeUnits character = 1) →
      size codeUnits characters = characters.length := by
    intro characters hone
    induction characters with
    | nil => rfl
    | cons character rest ih =>
      rw [size_cons, hone character List.mem_cons_self,
        ih fun other hother ↦ hone other (List.mem_cons_of_mem _ hother), List.length_cons,
        Nat.add_comm]
  constructor
  · have hsize := hunits (key.flatMap hexDigits) fun _ hmem ↦ (hexDigits_hex hmem).2
    rw [hexEncode, utf16Length_ofList]
    change size codeUnits (key.flatMap hexDigits) ≤ 32
    rw [hsize, length_hexDigits, hlength]
  · rw [containerId, toList_hexEncode, length_hexDigits, hlength, Bool.and_eq_true]
    refine ⟨rfl, List.all_eq_true.mpr fun character hmem ↦ ?_⟩
    simpa using (hexDigits_hex hmem).1

theorem utf16Length_le_utf8ByteSize (text : String) : utf16Length text ≤ text.utf8ByteSize :=
  sum_codeUnits_le_utf8ByteSize text

/-! ## What the worker stores for the metrics of a report -/

theorem lastWith_eq_some {Entry : Type} {key : Entry → Bytes} {id : Bytes} {entries : List Entry}
    {entry : Entry} (h : lastWith key id entries = some entry) :
    entry ∈ entries ∧ key entry = id :=
  ⟨List.mem_reverse.mp (List.mem_of_find?_eq_some h), by simpa using List.find?_some h⟩

theorem exists_lastWith {Entry : Type} {key : Entry → Bytes} {id : Bytes} {entries : List Entry}
    (h : id ∈ entries.map key) : ∃ entry, lastWith key id entries = some entry := by
  obtain ⟨entry, hentry, hkey⟩ := List.mem_map.mp h
  cases hlast : lastWith key id entries with
  | some last => exact ⟨last, rfl⟩
  | none =>
    have hnone := List.find?_eq_none.mp hlast entry (List.mem_reverse.mpr hentry)
    simp [hkey] at hnone

/-- The texts that the reader bounds are within its bounds. -/
structure NamesReadable (container : StoredContainer) : Prop where
  runtime : container.runtime ∈ runtimeKinds
  runtimeInstance : utf16Length container.runtimeInstance ≤ 64
  name : utf16Length container.name ≤ 128
  image : utf16Length container.image ≤ 512

/-- The inventories that a sequence of accepted reports can store. -/
inductive Stored : StoredInventory → Prop where
  | write {report : MachineReport} {reportId : Bytes} {machinePk workspacePk : ℕ}
      {agentId : String} {nowMs : ℤ} {previous : Option StoredInventory}
      {stored : StoredInventory}
      (hvalid : validateReport report reportId machinePk workspacePk agentId nowMs = .ok ())
      (hprevious : ∀ earlier ∈ previous, Stored earlier)
      (hstored : containerInventoryJson report previous = some stored) : Stored stored

/-- The entries that the previous inventory completes a catalog with. -/
def previousContainers (previous : Option StoredInventory) : List StoredContainer :=
  (previous.map StoredInventory.containers).getD []

/-- The displayed part of a catalog entry. -/
def SameNames (first second : ContainerCatalogEntry) : Prop :=
  runtimeKind first.runtime = runtimeKind second.runtime ∧
    first.runtimeInstance = second.runtimeInstance ∧ first.name = second.name ∧
    first.image = second.image

section

variable {catalog : List ContainerCatalogEntry} {previous : List StoredContainer}
  {metric : ContainerMetric} {container : StoredContainer}

theorem storedContainer_metric (h : storedContainer catalog previous metric = some container) :
    container.metric = metric ∧ container.id = metric.containerKey := by
  unfold storedContainer at h
  split at h
  · rw [← Option.some.inj h]
    exact ⟨rfl, rfl⟩
  · obtain ⟨entry, -, rfl⟩ := Option.map_eq_some_iff.mp h
    exact ⟨rfl, rfl⟩

theorem storedContainer_of_entry {entry : ContainerCatalogEntry}
    (hentry : lastWith ContainerCatalogEntry.containerKey metric.containerKey catalog = some entry)
    (h : storedContainer catalog previous metric = some container) :
    container.runtime = runtimeKind entry.runtime ∧
      container.runtimeInstance = entry.runtimeInstance ∧ container.name = entry.name ∧
      container.image = entry.image := by
  simp only [storedContainer, hentry, Option.some.injEq] at h
  rw [← h]
  exact ⟨rfl, rfl, rfl, rfl⟩

theorem exists_storedContainer_iff :
    (∃ container, storedContainer catalog previous metric = some container) ↔
      metric.containerKey ∈ catalog.map ContainerCatalogEntry.containerKey ∨
        metric.containerKey ∈ previous.map StoredContainer.id := by
  constructor
  · rintro ⟨container, h⟩
    unfold storedContainer at h
    split at h
    · next entry hentry =>
      obtain ⟨hmem, hkey⟩ := lastWith_eq_some hentry
      exact .inl (List.mem_map.mpr ⟨entry, hmem, hkey⟩)
    · obtain ⟨entry, hentry, -⟩ := Option.map_eq_some_iff.mp h
      obtain ⟨hmem, hkey⟩ := lastWith_eq_some hentry
      exact .inr (List.mem_map.mpr ⟨entry, hmem, hkey⟩)
  · intro h
    unfold storedContainer
    split
    · exact ⟨_, rfl⟩
    · next hnone =>
      rcases h with h | h
      · obtain ⟨entry, hentry⟩ := exists_lastWith h
        rw [hnone] at hentry
        cases hentry
      · obtain ⟨entry, hentry⟩ := exists_lastWith h
        exact ⟨_, Option.map_eq_some_iff.mpr ⟨entry, hentry, rfl⟩⟩

theorem namesReadable_storedContainer (hcatalog : ∀ entry ∈ catalog, catalogEntryValid entry = true)
    (hprevious : ∀ container ∈ previous, NamesReadable container)
    (h : storedContainer catalog previous metric = some container) : NamesReadable container := by
  unfold storedContainer at h
  split at h
  · next entry hentry =>
    have hvalid := hcatalog entry (lastWith_eq_some hentry).1
    simp only [catalogEntryValid, Bool.and_eq_true, decide_eq_true_eq] at hvalid
    rw [← Option.some.inj h]
    exact {
      runtime := runtimeKind_mem _
      runtimeInstance := (utf16Length_le_utf8ByteSize _).trans hvalid.1.1.1.2
      name := (utf16Length_le_utf8ByteSize _).trans hvalid.1.2
      image := (utf16Length_le_utf8ByteSize _).trans hvalid.2 }
  · obtain ⟨entry, hentry, rfl⟩ := Option.map_eq_some_iff.mp h
    have hreadable := hprevious entry (lastWith_eq_some hentry).1
    exact ⟨hreadable.runtime, hreadable.runtimeInstance, hreadable.name, hreadable.image⟩

end

theorem inventoryValid_of_validateReport {report : MachineReport} {reportId : Bytes}
    {machinePk workspacePk : ℕ} {agentId : String} {nowMs : ℤ} {inventory : ContainerInventory}
    (hvalid : validateReport report reportId machinePk workspacePk agentId nowMs = .ok ())
    (hinventory : report.containerInventory = some inventory) :
    inventoryValid report.nominalMinuteMs inventory = true := by
  have hall := (validateReport_eq_ok_iff.mp hvalid).inventory
  rw [hinventory] at hall
  exact hall

variable {stored : StoredInventory}

theorem eq_of_containerInventoryJson {inventory : ContainerInventory} {report : MachineReport}
    (hinventory : report.containerInventory = some inventory) {previous : Option StoredInventory}
    (hstored : containerInventoryJson report previous = some stored) :
    stored = ⟨inventory.observedAtMs, inventory.catalogDigest, inventory.runtimes,
      inventory.metrics.filterMap
        (storedContainer inventory.catalog (previousContainers previous))⟩ := by
  rw [containerInventoryJson, hinventory] at hstored
  exact (Option.some.inj hstored).symm

theorem namesReadable_of_stored (h : Stored stored) :
    ∀ container ∈ stored.containers, NamesReadable container := by
  induction h with
  | write hvalid _ hstored ih =>
    next report reportId machinePk workspacePk agentId nowMs previous stored _ =>
    intro container hmem
    obtain ⟨inventory, hinventory, rfl⟩ := Option.map_eq_some_iff.mp hstored
    obtain ⟨metric, -, hcontainer⟩ := List.mem_filterMap.mp hmem
    have hinventoryValid := inventoryValid_of_validateReport hvalid hinventory
    simp only [inventoryValid, Bool.and_eq_true, List.all_eq_true] at hinventoryValid
    apply namesReadable_storedContainer hinventoryValid.1.2 _ hcontainer
    intro earlier hearlier
    cases previous with
    | none => simp at hearlier
    | some inventory => exact ih inventory rfl earlier hearlier

/-! ## Which accepted reports are read back -/

/-- The length of the texts that name a container. -/
def namesLengthOf (catalog : List ContainerCatalogEntry) (previous : List StoredContainer)
    (key : Bytes) : ℕ :=
  match lastWith ContainerCatalogEntry.containerKey key catalog with
  | some entry =>
    namesLength (runtimeKind entry.runtime) entry.runtimeInstance entry.name entry.image
  | none =>
    match lastWith StoredContainer.id key previous with
    | some entry => namesLength entry.runtime entry.runtimeInstance entry.name entry.image
    | none => 0

/-- The length of the JSON text of an inventory whose metrics all have names. -/
def inventoryLength (inventory : ContainerInventory) (previous : List StoredContainer) : ℕ :=
  64 + numberLength inventory.observedAtMs + textLength (hexEncode inventory.catalogDigest) +
    (inventory.runtimes.map runtimeLength).sum + (inventory.runtimes.length - 1) +
    (inventory.metrics.map fun metric ↦
      metricLength metric + namesLengthOf inventory.catalog previous metric.containerKey).sum +
    (inventory.metrics.length - 1)

/-- The inventory of a report lies within the reader's bounds, every metric has a name, and every
entry of the catalog has a metric and one meaning. -/
structure Legible (inventory : ContainerInventory) (previous : List StoredContainer) : Prop where
  observedAt : Safe inventory.observedAtMs
  runtimes : ∀ runtime ∈ inventory.runtimes, RuntimeReadable runtime
  metrics : ∀ metric ∈ inventory.metrics, MetricReadable metric
  named : ∀ metric ∈ inventory.metrics,
    metric.containerKey ∈ inventory.catalog.map ContainerCatalogEntry.containerKey ∨
      metric.containerKey ∈ previous.map StoredContainer.id
  measured : ∀ entry ∈ inventory.catalog,
    entry.containerKey ∈ inventory.metrics.map ContainerMetric.containerKey
  agreeing : ∀ first ∈ inventory.catalog, ∀ second ∈ inventory.catalog,
    first.containerKey = second.containerKey → SameNames first second
  length : inventoryLength inventory previous ≤ 256 * 1024

/-- A read container has the values of a metric. -/
structure ShowsMetric (container : MachineContainer) (metric : ContainerMetric) : Prop where
  id : container.id = hexEncode metric.containerKey
  state : container.state = containerState metric.state
  health : container.health = containerHealth metric.health
  startedAt : container.startedAt = metric.startedAtMs
  restartCount : container.restartCount = metric.restartCount
  cpuPermille : container.cpuPermille = metric.cpuPermille
  memoryUsedBytes : container.memoryUsedBytes = metric.memoryUsedBytes
  memoryLimitBytes : container.memoryLimitBytes = metric.memoryLimitBytes
  networkRxBps : container.networkRxBps = metric.networkRxBytesPerSecond
  networkTxBps : container.networkTxBps = metric.networkTxBytesPerSecond
  ports : container.ports = metric.ports.map shownPort

structure ShowsEntry (container : MachineContainer) (entry : ContainerCatalogEntry) : Prop where
  id : container.id = hexEncode entry.containerKey
  runtime : container.runtime = runtimeKind entry.runtime
  runtimeInstance : container.runtimeInstance = entry.runtimeInstance
  name : container.name = entry.name
  image : container.image = entry.image

/-- What is read contains every container of the report with the same values. -/
structure Restores (inventory : ContainerInventory) (read : MachineContainerInventory) :
    Prop where
  observedAt : read.observedAt = inventory.observedAtMs
  runtimes : read.runtimes = inventory.runtimes.map shownRuntime
  metrics : ∀ metric ∈ inventory.metrics, ∃ container ∈ read.containers,
    ShowsMetric container metric ∧
      ∀ entry ∈ inventory.catalog, entry.containerKey = metric.containerKey →
        ShowsEntry container entry
  catalog : ∀ entry ∈ inventory.catalog, ∃ container ∈ read.containers,
    ShowsEntry container entry

theorem showsMetric_shownContainer {container : StoredContainer}
    (hid : container.id = container.metric.containerKey) :
    ShowsMetric (shownContainer container) container.metric := by
  constructor
  case id => exact congrArg hexEncode hid
  all_goals rfl

theorem sum_storedContainers {catalog : List ContainerCatalogEntry}
    {previous : List StoredContainer} {metrics : List ContainerMetric}
    (hnamed : ∀ metric ∈ metrics,
      metric.containerKey ∈ catalog.map ContainerCatalogEntry.containerKey ∨
        metric.containerKey ∈ previous.map StoredContainer.id) :
    ((metrics.filterMap (storedContainer catalog previous)).map fun container ↦
        size codeUnits (containerDocument container).render).sum =
      (metrics.map fun metric ↦
        metricLength metric + namesLengthOf catalog previous metric.containerKey).sum ∧
    (metrics.filterMap (storedContainer catalog previous)).length = metrics.length := by
  induction metrics with
  | nil => exact ⟨rfl, rfl⟩
  | cons metric rest ih =>
    obtain ⟨hsum, hlength⟩ := ih fun other hother ↦ hnamed other (List.mem_cons_of_mem _ hother)
    obtain ⟨container, hcontainer⟩ :=
      exists_storedContainer_iff.mpr (hnamed metric List.mem_cons_self)
    obtain ⟨hmetric, hid⟩ := storedContainer_metric hcontainer
    have hnames : namesLength container.runtime container.runtimeInstance container.name
        container.image = namesLengthOf catalog previous metric.containerKey := by
      cases hentry : lastWith ContainerCatalogEntry.containerKey metric.containerKey catalog with
      | some entry =>
        simp only [storedContainer, hentry] at hcontainer
        simp only [namesLengthOf, hentry]
        rw [← Option.some.inj hcontainer]
      | none =>
        simp only [storedContainer, hentry] at hcontainer
        obtain ⟨stored, hstored, rfl⟩ := Option.map_eq_some_iff.mp hcontainer
        simp only [namesLengthOf, hentry, hstored]
    have hsize := size_containerDocument container (hid.trans (by rw [hmetric]))
    rw [hmetric, hnames] at hsize
    rw [List.filterMap_cons_some hcontainer, List.map_cons, List.sum_cons, List.map_cons,
      List.sum_cons, List.length_cons, List.length_cons, hsum, hlength, hsize]
    exact ⟨rfl, rfl⟩

variable {report : MachineReport} {reportId : Bytes} {machinePk workspacePk : ℕ}
  {agentId : String} {nowMs : ℤ} {inventory : ContainerInventory}
  {previous : Option StoredInventory}

/-- The stored form of the metrics of a report. -/
def writtenContainers (inventory : ContainerInventory) (previous : Option StoredInventory) :
    List StoredContainer :=
  inventory.metrics.filterMap (storedContainer inventory.catalog (previousContainers previous))

theorem mem_writtenContainers {container : StoredContainer}
    (h : container ∈ writtenContainers inventory previous) :
    container.metric ∈ inventory.metrics ∧ container.id = container.metric.containerKey ∧
      storedContainer inventory.catalog (previousContainers previous) container.metric =
        some container := by
  obtain ⟨metric, hmem, hcontainer⟩ := List.mem_filterMap.mp h
  obtain ⟨rfl, hid⟩ := storedContainer_metric hcontainer
  exact ⟨hmem, hid, hcontainer⟩

theorem exists_written {container : MachineContainer} {key : Bytes}
    (hmem : container ∈ (writtenContainers inventory previous).map shownContainer)
    (hid : container.id = hexEncode key) :
    ∃ written ∈ writtenContainers inventory previous, shownContainer written = container ∧
      written.metric.containerKey = key := by
  obtain ⟨written, hwritten, rfl⟩ := List.mem_map.mp hmem
  obtain ⟨-, hkey, -⟩ := mem_writtenContainers hwritten
  exact ⟨written, hwritten, rfl, hkey ▸ hexEncode_injective hid⟩

theorem legible_of_restores
    (hstored : stored = ⟨inventory.observedAtMs, inventory.catalogDigest, inventory.runtimes,
      writtenContainers inventory previous⟩) (hreadable : InventoryReadable stored)
    (hrestores : Restores inventory (shownInventory stored)) :
    Legible inventory (previousContainers previous) := by
  subst hstored
  have hnamed : ∀ metric ∈ inventory.metrics,
      metric.containerKey ∈ inventory.catalog.map ContainerCatalogEntry.containerKey ∨
        metric.containerKey ∈ (previousContainers previous).map StoredContainer.id := by
    intro metric hmetric
    obtain ⟨container, hmem, hshows, -⟩ := hrestores.metrics metric hmetric
    obtain ⟨written, hwritten, -, hkey⟩ := exists_written hmem hshows.id
    rw [← hkey]
    exact exists_storedContainer_iff.mp ⟨written, (mem_writtenContainers hwritten).2.2⟩
  have hmeasured : ∀ entry ∈ inventory.catalog,
      entry.containerKey ∈ inventory.metrics.map ContainerMetric.containerKey := by
    intro entry hentry
    obtain ⟨container, hmem, hshows⟩ := hrestores.catalog entry hentry
    obtain ⟨written, hwritten, -, hkey⟩ := exists_written hmem hshows.id
    exact List.mem_map.mpr ⟨written.metric, (mem_writtenContainers hwritten).1, hkey⟩
  refine ⟨hreadable.observedAt, hreadable.runtimes, ?_, hnamed, hmeasured, ?_, ?_⟩
  · intro metric hmetric
    obtain ⟨container, hcontainer⟩ := exists_storedContainer_iff.mpr (hnamed metric hmetric)
    have hmem : container ∈ writtenContainers inventory previous :=
      List.mem_filterMap.mpr ⟨metric, hmetric, hcontainer⟩
    have hcontainerReadable := hreadable.containers container hmem
    rw [← (storedContainer_metric hcontainer).1]
    exact hcontainerReadable.2.2.2.2.2.2
  · intro first hfirst second hsecond hsame
    obtain ⟨metric, hmetric, hkey⟩ := List.mem_map.mp (hmeasured first hfirst)
    obtain ⟨container, -, -, hentries⟩ := hrestores.metrics metric hmetric
    have hshowsFirst := hentries first hfirst hkey.symm
    have hshowsSecond := hentries second hsecond (hsame.symm.trans hkey.symm)
    exact ⟨hshowsFirst.runtime.symm.trans hshowsSecond.runtime,
      hshowsFirst.runtimeInstance.symm.trans hshowsSecond.runtimeInstance,
      hshowsFirst.name.symm.trans hshowsSecond.name,
      hshowsFirst.image.symm.trans hshowsSecond.image⟩
  · obtain ⟨hsum, hlength⟩ := sum_storedContainers hnamed
    have htext := hreadable.length
    rw [utf16Length_ofList, size_inventoryDocument] at htext
    simp only [writtenContainers, hsum, hlength] at htext
    exact htext

theorem readable_of_legible (hvalid : inventoryValid report.nominalMinuteMs inventory = true)
    (hprevious : ∀ container ∈ previousContainers previous, NamesReadable container)
    (hlegible : Legible inventory (previousContainers previous)) :
    InventoryReadable ⟨inventory.observedAtMs, inventory.catalogDigest, inventory.runtimes,
      writtenContainers inventory previous⟩ := by
  obtain ⟨hsum, hlength⟩ := sum_storedContainers hlegible.named
  simp only [inventoryValid, Bool.and_eq_true, decide_eq_true_eq, beq_iff_eq, List.all_eq_true]
    at hvalid
  refine ⟨?_, hlegible.observedAt, hvalid.1.1.1.1.1.2, ?_, hlegible.runtimes, ?_⟩
  · rw [utf16Length_ofList, size_inventoryDocument]
    simp only [writtenContainers, hsum, hlength]
    exact hlegible.length
  · exact hlength.trans_le hvalid.1.1.2
  · intro container hcontainer
    obtain ⟨hmetric, hid, hstored⟩ := mem_writtenContainers hcontainer
    have hnames := namesReadable_storedContainer hvalid.1.2 hprevious hstored
    have hkey := hvalid.2 _ hmetric
    refine ⟨hkey.2, ?_, hnames.runtime, hnames.runtimeInstance, hnames.name, hnames.image,
      hlegible.metrics _ hmetric⟩
    rw [hid]
    exact containerId_hexEncode hkey.1

theorem restores_of_legible (hlegible : Legible inventory (previousContainers previous)) :
    Restores inventory (shownInventory ⟨inventory.observedAtMs, inventory.catalogDigest,
      inventory.runtimes, writtenContainers inventory previous⟩) := by
  have hmetrics : ∀ metric ∈ inventory.metrics,
      ∃ container ∈ (writtenContainers inventory previous).map shownContainer,
        ShowsMetric container metric ∧
          ∀ entry ∈ inventory.catalog, entry.containerKey = metric.containerKey →
            ShowsEntry container entry := by
    intro metric hmetric
    obtain ⟨written, hwritten⟩ := exists_storedContainer_iff.mpr (hlegible.named metric hmetric)
    obtain ⟨rfl, hid⟩ := storedContainer_metric hwritten
    refine ⟨shownContainer written,
      List.mem_map.mpr ⟨written, List.mem_filterMap.mpr ⟨_, hmetric, hwritten⟩, rfl⟩,
      showsMetric_shownContainer hid, ?_⟩
    intro entry hentry hkey
    -- the entry that the worker took is the last of the key, and it has the same names
    obtain ⟨last, hlast⟩ := exists_lastWith (List.mem_map.mpr ⟨entry, hentry, hkey⟩)
    obtain ⟨hlastMem, hlastKey⟩ := lastWith_eq_some hlast
    obtain ⟨hruntime, hinstance, hname, himage⟩ := storedContainer_of_entry hlast hwritten
    have hsame := hlegible.agreeing last hlastMem entry hentry (hlastKey.trans hkey.symm)
    exact {
      id := congrArg hexEncode (hid.trans hkey.symm)
      runtime := hruntime.trans hsame.1
      runtimeInstance := hinstance.trans hsame.2.1
      name := hname.trans hsame.2.2.1
      image := himage.trans hsame.2.2.2 }
  refine ⟨rfl, rfl, hmetrics, ?_⟩
  intro entry hentry
  obtain ⟨metric, hmetric, hkey⟩ := List.mem_map.mp (hlegible.measured entry hentry)
  obtain ⟨container, hcontainer, -, hentries⟩ := hmetrics metric hmetric
  exact ⟨container, hcontainer, hentries entry hentry hkey.symm⟩

/-- The inventory of an accepted report is stored as a text that is read back with every
container, exactly if the inventory is legible. -/
theorem stored_inventory_read_iff
    (hvalid : validateReport report reportId machinePk workspacePk agentId nowMs = .ok ())
    (hinventory : report.containerInventory = some inventory)
    (hprevious : ∀ earlier ∈ previous, Stored earlier) :
    (∃ stored read, containerInventoryJson report previous = some stored ∧
      parseContainerInventory (some (inventoryDocument stored)) = some read ∧
      Restores inventory read) ↔ Legible inventory (previousContainers previous) := by
  constructor
  · rintro ⟨stored, read, hstored, hread, hrestores⟩
    obtain ⟨hreadable, rfl⟩ := (parseContainerInventory_eq_some_iff stored read).mp hread
    exact legible_of_restores (eq_of_containerInventoryJson hinventory hstored) hreadable
      hrestores
  · intro hlegible
    have hnames : ∀ container ∈ previousContainers previous, NamesReadable container := by
      intro container hcontainer
      cases previous with
      | none => simp [previousContainers] at hcontainer
      | some earlier =>
        exact namesReadable_of_stored (hprevious earlier rfl) container hcontainer
    have hreadable := readable_of_legible
      (inventoryValid_of_validateReport hvalid hinventory) hnames hlegible
    refine ⟨_, _, ?_, (parseContainerInventory_eq_some_iff _ _).mpr ⟨hreadable, rfl⟩,
      restores_of_legible hlegible⟩
    rw [containerInventoryJson, hinventory]
    rfl

/-! ### A report with one container -/

def webEntry : ContainerCatalogEntry where
  containerKey := List.replicate 16 161
  runtime := 1
  runtimeInstance := "default"
  runtimeContainerId := "0123456789ab"
  name := "web"
  image := "nginx:latest"

def webMetric (startedAtMs : ℤ) : ContainerMetric where
  containerKey := List.replicate 16 161
  state := 1
  health := 1
  startedAtMs := startedAtMs
  ports := [⟨80, 8080, "tcp"⟩]

def webInventory (startedAtMs : ℤ) : ContainerInventory where
  observedAtMs := 1752574830000
  catalogDigest := List.replicate 32 7
  runtimes := [⟨1, "default", 1, "27.3.1", ""⟩]
  catalog := [webEntry]
  metrics := [webMetric startedAtMs]
  catalogIncluded := true

def webReport (startedAtMs : ℤ) : MachineReport where
  reportId := List.replicate 16 3
  machinePk := 5
  workspacePk := 2
  nominalMinuteMs := 1752574800000
  samples := [{ observedAtMs := 1752574810000 }]
  schemaVersion := 1
  containerInventory := some (webInventory startedAtMs)
  probeResults := []
  appliedConfigRevision := 1
  commandResults := []
  agentVersion := "1.0.0"

theorem web_inventory_read :
    validateReport (webReport 1752574000000) (List.replicate 16 3) 5 2 "agent" 1752574860000 =
      .ok () ∧
    ((∃ stored read, containerInventoryJson (webReport 1752574000000) none = some stored ∧
      parseContainerInventory (some (inventoryDocument stored)) = some read ∧
      Restores (webInventory 1752574000000) read) ↔
        Legible (webInventory 1752574000000) (previousContainers none)) :=
  have hvalid : validateReport (webReport 1752574000000) (List.replicate 16 3) 5 2 "agent"
      1752574860000 = .ok () := by decide +kernel
  ⟨hvalid, stored_inventory_read_iff hvalid rfl (by simp)⟩

def webStored (startedAtMs : ℤ) : StoredInventory where
  observedAt := 1752574830000
  catalogDigest := List.replicate 32 7
  runtimes := [⟨1, "default", 1, "27.3.1", ""⟩]
  containers := [⟨List.replicate 16 161, "docker", "default", "web", "nginx:latest",
    webMetric startedAtMs⟩]

/-- A container that was created and never started has the year 1 as its start. The report is
accepted, and the reader gives up the whole inventory that is stored for it. -/
theorem never_started_container_hides_inventory :
    validateReport (webReport (-62135596800000)) (List.replicate 16 3) 5 2 "agent"
      1752574860000 = .ok () ∧
    containerInventoryJson (webReport (-62135596800000)) none =
      some (webStored (-62135596800000)) ∧
    parseContainerInventory (some (inventoryDocument (webStored (-62135596800000)))) = none := by
  refine ⟨by decide +kernel, rfl, ?_⟩
  cases hread : parseContainerInventory (some (inventoryDocument _)) with
  | none => rfl
  | some read =>
    have hreadable := ((parseContainerInventory_eq_some_iff _ _).mp hread).1
    have hmetric := (hreadable.containers _ List.mem_cons_self).2.2.2.2.2.2
    exact absurd hmetric.1.1 (by decide)

end AlphaPing.System.StoredInventories
