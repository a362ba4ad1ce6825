import AlphaPing.Library.Distinct
import AlphaPing.Protocol.Messages
import Mathlib.Data.Prod.Lex
import Mathlib.Data.String.Basic

/-!
# Collecting the containers of a host

Four runtimes are asked, each through an adapter of its own: the Docker sockets of the host and
of its Colima profiles, the `colima` command for the profiles that run containerd, and the
`container` command of Apple. `RuntimeCollector` joins what they found, computes network rates
against the collection before, sorts, removes repetitions and truncates.

What the sockets and the commands answer is an input: a decoded JSON value, or the error that the
request or the decoding ended with. Unsigned numbers are natural numbers, and sums and products
that saturate at 64 or 128 bits are capped where the code caps them.
-/

namespace AlphaPing.Agent.RuntimeAdapters

open Protocol Library.Distinct

def maxContainers : ℕ := 64

def maxPortsPerContainer : ℕ := 8

def u64Max : ℕ := 2 ^ 64 - 1

def u32Max : ℕ := 2 ^ 32 - 1

/-! ## Records -/

inductive RuntimeKind where
  | docker
  | colimaDocker
  | colimaContainerd
  | appleContainer
  deriving DecidableEq

def RuntimeKind.protocolValue : RuntimeKind → ℕ
  | docker => 1
  | colimaDocker => 2
  | colimaContainerd => 3
  | appleContainer => 4

def RuntimeKind.label : RuntimeKind → String
  | docker => "docker"
  | colimaDocker => "colima-docker"
  | colimaContainerd => "colima-containerd"
  | appleContainer => "apple-container"

inductive RuntimeAvailability where
  | available
  | absent
  | stopped
  | permissionDenied
  | incompatible
  | error
  deriving DecidableEq

def RuntimeAvailability.protocolValue : RuntimeAvailability → ℕ
  | available => 1
  | absent => 2
  | stopped => 3
  | permissionDenied => 4
  | incompatible => 5
  | error => 6

inductive ContainerState where
  | created
  | running
  | paused
  | restarting
  | exited
  | dead
  | unknown
  deriving DecidableEq

def ContainerState.protocolValue : ContainerState → ℕ
  | created => 1
  | running => 2
  | paused => 3
  | restarting => 4
  | exited => 5
  | dead => 6
  | unknown => 7

inductive ContainerHealth where
  | none
  | starting
  | healthy
  | unhealthy
  | unknown
  deriving DecidableEq

def ContainerHealth.protocolValue : ContainerHealth → ℕ
  | none => 1
  | starting => 2
  | healthy => 3
  | unhealthy => 4
  | unknown => 5

structure RuntimeStatus where
  kind : RuntimeKind
  instance_ : String
  availability : RuntimeAvailability
  version : String
  detailCode : String

structure PortBinding where
  privatePort : ℕ
  publicPort : Option ℕ
  protocol : String
  hostIp : String

structure ContainerRecord where
  key : Bytes
  runtime : RuntimeKind
  runtimeInstance : String
  runtimeContainerId : String
  name : String
  image : String
  state : ContainerState
  health : ContainerHealth := .none
  startedAtMs : ℤ := 0
  restartCount : ℕ := 0
  cpuPermille : ℕ := 0
  memoryUsedBytes : ℕ := 0
  memoryLimitBytes : ℕ := 0
  networkRxBytesPerSecond : ℕ := 0
  networkTxBytesPerSecond : ℕ := 0
  networkRxBytesTotal : ℕ := 0
  networkTxBytesTotal : ℕ := 0
  ports : List PortBinding := []
  exitCode : ℤ := 0

variable (codec : Codec)

def utf8 (text : String) : Bytes := text.toUTF8.toList

/-- `ContainerRecord::stable_key`. -/
def stableKey (runtime : RuntimeKind) (runtimeInstance runtimeContainerId : String) : Bytes :=
  (codec.hash (utf8 "alphaping/container/v1" ++ [0] ++ utf8 runtime.label ++ [0] ++
    utf8 runtimeInstance ++ [0] ++ utf8 runtimeContainerId)).take 16

theorem length_stableKey (runtime : RuntimeKind) (runtimeInstance runtimeContainerId : String) :
    (stableKey codec runtime runtimeInstance runtimeContainerId).length = 16 := by
  rw [stableKey, List.length_take, codec.length_hash]
  rfl

/-! ## Timestamps -/

/-- `str::parse::<i64>` of a text of a few characters. -/
def parseInteger (characters : List Char) : Option ℤ :=
  let digits (sign : ℤ) (characters : List Char) : Option ℤ :=
    if characters.isEmpty ∨ ¬characters.all Char.isDigit then none
    else some (sign * characters.foldl
      (fun value character ↦ value * 10 + ((character.toNat : ℤ) - 48)) 0)
  match characters with
  | '-' :: rest => digits (-1) rest
  | '+' :: rest => digits 1 rest
  | rest => digits 1 rest

def isLeapYear (year : ℤ) : Bool :=
  year % 4 == 0 && (year % 100 != 0 || year % 400 == 0)

/-- `days_from_civil`, for a month from 1 to 12. -/
def daysFromCivil (year month day : ℤ) : Option ℤ :=
  let adjustedYear := year - if month ≤ 2 then 1 else 0
  let era := adjustedYear / 400
  let yearOfEra := adjustedYear - era * 400
  let shiftedMonth := month + if 2 < month then -3 else 9
  let dayOfYear := (153 * shiftedMonth + 2) / 5 + day - 1
  let dayOfEra := yearOfEra * 365 + yearOfEra / 4 - yearOfEra / 100 + dayOfYear
  let days := era * 146097 + dayOfEra - 719468
  let monthLength := if month = 2 then (if isLeapYear year then 29 else 28)
    else if month ∈ [4, 6, 9, 11] then 30 else 31
  if monthLength < day then none else some days

/-- The seconds of a time zone. -/
def offsetSeconds (timezone : List Char) : Option ℤ := do
  if timezone = ['Z'] then some 0 else
  let sign ← match timezone.head? with
    | some '+' => some (1 : ℤ)
    | some '-' => some (-1)
    | _ => none
  if timezone.length < 6 ∨ ¬(timezone.take 6).all (·.toNat < 128) then none else
  let hours ← parseInteger ((timezone.drop 1).take 2)
  let minutes ← parseInteger ((timezone.drop 4).take 2)
  some (sign * (hours * 3600 + minutes * 60))

def fractionMillis (digits : List Char) : ℤ :=
  ((digits.take 3).zipIdx.map fun (digit, index) ↦
    ((digit.toNat : ℤ) - 48) * 10 ^ (2 - index)).sum

def parseRfc3339Ms (value : String) : Option ℤ := do
  let text := value.toList
  if text.length < 19 ∨ ¬(text.take 19).all (·.toNat < 128) then none else
  if (text.drop 10).head? ≠ some 'T' then none else
  let year ← parseInteger (text.take 4)
  let month ← parseInteger ((text.drop 5).take 2)
  let day ← parseInteger ((text.drop 8).take 2)
  let hour ← parseInteger ((text.drop 11).take 2)
  let minute ← parseInteger ((text.drop 14).take 2)
  let second ← parseInteger ((text.drop 17).take 2)
  if ¬(1 ≤ month ∧ month ≤ 12) ∨ ¬(1 ≤ day ∧ day ≤ 31) ∨ 23 < hour ∨ 59 < minute ∨
    60 < second then none else
  let rest := text.drop 19
  let fraction := if rest.head? = some '.' then (rest.drop 1).takeWhile Char.isDigit else []
  let timezone := if rest.head? = some '.' then (rest.drop 1).dropWhile Char.isDigit else rest
  let offset ← offsetSeconds timezone
  let days ← daysFromCivil year month day
  some ((days * 86400 + hour * 3600 + minute * 60 + second - offset) * 1000 +
    fractionMillis fraction)

/-- What Docker gives as the start of a container that never started. -/
example : parseRfc3339Ms "0001-01-01T00:00:00Z" = some (-62135596800000) := by decide

/-! ## Docker -/

inductive DockerError where
  | unavailable
  | permissionDenied
  | incompatible
  | io
  deriving DecidableEq

def DockerError.availability : DockerError → RuntimeAvailability
  | unavailable => .stopped
  | permissionDenied => .permissionDenied
  | incompatible => .incompatible
  | io => .error

def DockerError.detailCode : DockerError → String
  | unavailable => "daemon_unavailable"
  | permissionDenied => "permission_denied"
  | incompatible => "api_incompatible"
  | io => "request_failed"

structure DockerVersion where
  apiVersion : String
  version : String

structure DockerPort where
  privatePort : ℕ
  publicPort : Option ℕ
  kind : String
  ip : String

structure ListContainer where
  id : String
  names : List String
  image : String
  state : String
  ports : List DockerPort

structure InspectState where
  status : Option String := none
  startedAt : Option String := none
  exitCode : Option ℤ := none
  /-- The status of the health member, if there is one. -/
  health : Option (Option String) := none

structure InspectContainer where
  name : String := ""
  restartCount : ℕ := 0
  state : InspectState := {}

structure CpuStats where
  totalUsage : ℕ := 0
  systemCpuUsage : ℕ := 0
  onlineCpus : ℕ := 0

structure ContainerStats where
  cpuStats : CpuStats := {}
  precpuStats : CpuStats := {}
  memoryUsage : ℕ := 0
  memoryLimit : ℕ := 0
  /-- The received and sent bytes of each network. -/
  networks : List (ℕ × ℕ) := []

/-- An endpoint; its transport is known by its key. -/
structure DockerEndpoint where
  kind : RuntimeKind
  instance_ : String
  transport : String

/-- What the host has: the transport of an accepted `DOCKER_HOST`, the default sockets that
exist, and the entries of `~/.colima` whose socket exists. -/
structure Surroundings where
  dockerHost : Option String
  sockets : List String
  colimaProfiles : List (String × String)

/-- What the requests to one endpoint are answered with. -/
structure DockerAnswers where
  version : Except DockerError DockerVersion
  listed : Except DockerError (List ListContainer)
  inspect : String → Option InspectContainer
  stats : String → Option ContainerStats

/-- `valid_instance` and `valid_profile`. -/
def validInstance (value : String) : Bool :=
  !value.isEmpty && value.utf8ByteSize ≤ 64 &&
    value.toList.all fun character ↦ character.isAlphanum || character ∈ ['-', '_', '.']

/-- An endpoint is added unless its transport has been seen. -/
def addEndpoint (endpoints : List DockerEndpoint) (endpoint : DockerEndpoint) :
    List DockerEndpoint :=
  if endpoints.any fun other ↦ other.transport == endpoint.transport then endpoints
  else endpoints ++ [endpoint]

def discoverEndpoints (surroundings : Surroundings) : List DockerEndpoint :=
  let profiles := surroundings.colimaProfiles.filter fun (profile, _) ↦
    !profile.startsWith "_" && validInstance profile
  let environment := surroundings.dockerHost.toList.map (DockerEndpoint.mk .docker "environment")
  let defaults := surroundings.sockets.map (DockerEndpoint.mk .docker "default")
  let colima := profiles.map fun (profile, transport) ↦
    DockerEndpoint.mk .colimaDocker profile transport
  (environment ++ defaults ++ colima).foldl addEndpoint []

def validApiVersion (value : String) : Bool :=
  !value.isEmpty && value.utf8ByteSize ≤ 16 &&
    value.toList.all fun character ↦ character.isDigit || character == '.'

def validContainerId (value : String) : Bool :=
  12 ≤ value.utf8ByteSize && value.utf8ByteSize ≤ 128 &&
    value.toList.all fun character ↦ character.isDigit ||
      ('a' ≤ character && character ≤ 'f') || ('A' ≤ character && character ≤ 'F')

def parseDockerState : String → ContainerState
  | "created" => .created
  | "running" => .running
  | "paused" => .paused
  | "restarting" => .restarting
  | "exited" => .exited
  | "dead" => .dead
  | _ => .unknown

def parseDockerHealth : String → ContainerHealth
  | "starting" => .starting
  | "healthy" => .healthy
  | "unhealthy" => .unhealthy
  | _ => .unknown

/-- `cpu_permille`: one core is a thousand, so several cores make more. -/
def cpuPermille (stats : ContainerStats) : ℕ :=
  let cpuDelta := stats.cpuStats.totalUsage - stats.precpuStats.totalUsage
  let systemDelta := stats.cpuStats.systemCpuUsage - stats.precpuStats.systemCpuUsage
  if cpuDelta = 0 ∨ systemDelta = 0 then 0
  else
    let online := max stats.cpuStats.onlineCpus 1
    let product := min (min (cpuDelta * online) (2 ^ 128 - 1) * 1000) (2 ^ 128 - 1)
    min (product / systemDelta) u32Max

/-- `trim_start_matches('/')`. -/
def trimSlashes (name : String) : String :=
  String.ofList (name.toList.dropWhile (· == '/'))

def dockerName (item : ListContainer) (inspect : InspectContainer) : String :=
  ((item.names.head?.map trimSlashes).filter fun name ↦ !name.isEmpty).getD
    (trimSlashes inspect.name)

/-- `to_record` of the Docker adapter. -/
def dockerRecord (endpoint : DockerEndpoint) (item : ListContainer) (inspect : InspectContainer)
    (stats : ContainerStats) : ContainerRecord where
  key := stableKey codec endpoint.kind endpoint.instance_ item.id
  runtime := endpoint.kind
  runtimeInstance := endpoint.instance_
  runtimeContainerId := item.id
  name := dockerName item inspect
  image := item.image
  state := parseDockerState (inspect.state.status.getD item.state)
  health := match inspect.state.health with
    | some (some status) => parseDockerHealth status
    | _ => .none
  startedAtMs := (inspect.state.startedAt.bind parseRfc3339Ms).getD 0
  restartCount := min inspect.restartCount u32Max
  cpuPermille := cpuPermille stats
  memoryUsedBytes := stats.memoryUsage
  memoryLimitBytes := stats.memoryLimit
  networkRxBytesTotal := stats.networks.foldl (fun total network ↦
    min (total + network.1) u64Max) 0
  networkTxBytesTotal := stats.networks.foldl (fun total network ↦
    min (total + network.2) u64Max) 0
  ports := (item.ports.take maxPortsPerContainer).map fun port ↦
    ⟨port.privatePort, port.publicPort, port.kind, port.ip⟩
  exitCode := inspect.state.exitCode.getD 0

def collectEndpoint (endpoint : DockerEndpoint) (answers : DockerAnswers) :
    Except DockerError (String × List ContainerRecord) := do
  let version ← answers.version
  if ¬validApiVersion version.apiVersion then .error .incompatible else
  let listed ← answers.listed
  .ok (version.version, ((listed.take maxContainers).filter fun item ↦
    validContainerId item.id).map fun item ↦
      dockerRecord codec endpoint item ((answers.inspect item.id).getD {})
        ((answers.stats item.id).getD {}))

def endpointFound (endpoint : DockerEndpoint) (answers : DockerAnswers) :
    RuntimeStatus × List ContainerRecord :=
  match collectEndpoint codec endpoint answers with
  | .ok (version, containers) =>
    (⟨endpoint.kind, endpoint.instance_, .available, version, ""⟩, containers)
  | .error error =>
    (⟨endpoint.kind, endpoint.instance_, error.availability, "", error.detailCode⟩, [])

/-- `docker::collect`. -/
def collectDocker (surroundings : Surroundings) (answers : DockerEndpoint → DockerAnswers) :
    List RuntimeStatus × List ContainerRecord :=
  let endpoints := discoverEndpoints surroundings
  let found := endpoints.map fun endpoint ↦ endpointFound codec endpoint (answers endpoint)
  let absentDocker : List RuntimeStatus :=
    if endpoints.any fun endpoint ↦ endpoint.kind == .docker then []
    else [⟨.docker, "default", .absent, "", "socket_absent"⟩]
  let absentColima : List RuntimeStatus :=
    if endpoints.any fun endpoint ↦ endpoint.kind == .colimaDocker then []
    else [⟨.colimaDocker, "profiles", .absent, "", "profile_absent"⟩]
  (found.map Prod.fst ++ absentDocker ++ absentColima, found.flatMap Prod.snd)

/-! ## Commands -/

inductive CommandError where
  | notFound
  | permissionDenied
  | timeout
  | failed
  | outputTooLarge
  | io
  deriving DecidableEq

/-- `bounded`: the first characters of a text. -/
def bounded (value : String) (maximum : ℕ) : String :=
  String.ofList (value.toList.take maximum)

/-- Whether a text contains another. -/
def contains (text part : String) : Bool :=
  text.toList.tails.any fun tail ↦ part.toList.isPrefixOf tail

def toAsciiLowercase (value : String) : String :=
  String.ofList (value.toList.map Char.toLower)

/-! ## Colima with containerd -/

structure ColimaProfile where
  name : String
  status : String
  runtime : String

structure NerdctlContainer where
  id : String
  names : String
  image : String
  state : String
  status : String

/-- What `colima` answers; `none` is an output that does not parse. -/
structure ColimaAnswers where
  list : Except CommandError (Option (List ColimaProfile))
  nerdctl : String → Except CommandError (Option (List NerdctlContainer))

def parseColimaState (state status : String) : ContainerState :=
  let value := toAsciiLowercase (if state.isEmpty then status else state)
  if contains value "running" ∨ value = "up" then .running
  else if contains value "paused" then .paused
  else if contains value "created" then .created
  else if contains value "exited" ∨ contains value "stopped" then .exited
  else .unknown

/-- One line of `parse_nerdctl`. -/
def nerdctlRecord (profile : String) (item : NerdctlContainer) : Option ContainerRecord :=
  let id := bounded item.id 128
  if id.isEmpty then none
  else some
    { key := stableKey codec .colimaContainerd profile id
      runtime := .colimaContainerd
      runtimeInstance := profile
      runtimeContainerId := id
      name := bounded item.names 128
      image := bounded item.image 512
      state := parseColimaState item.state item.status }

def commandAvailability : CommandError → RuntimeAvailability
  | .notFound => .incompatible
  | .permissionDenied => .permissionDenied
  | .timeout => .error
  | .failed | .outputTooLarge | .io => .error

def commandDetail : CommandError → String
  | .notFound => "nerdctl_absent"
  | .permissionDenied => "permission_denied"
  | .timeout => "query_timeout"
  | .outputTooLarge => "response_too_large"
  | .failed | .io => "query_failed"

def collectProfile (answers : ColimaAnswers) (profile : String) :
    Except CommandError (List ContainerRecord) :=
  if ¬validInstance profile then .error .failed
  else match answers.nerdctl profile with
    | .error error => .error error
    | .ok none => .error .failed
    | .ok (some items) => .ok (items.filterMap (nerdctlRecord codec profile))

def profileFound (answers : ColimaAnswers) (profile : ColimaProfile) :
    RuntimeStatus × List ContainerRecord :=
  let instance_ := bounded profile.name 64
  if profile.status = "Running" ∨ profile.status = "running" then
    match collectProfile codec answers instance_ with
    | .ok containers => (⟨.colimaContainerd, instance_, .available, "", ""⟩, containers)
    | .error error =>
      (⟨.colimaContainerd, instance_, commandAvailability error, "", commandDetail error⟩, [])
  else (⟨.colimaContainerd, instance_, .stopped, "", "profile_stopped"⟩, [])

/-- `status` of the Colima adapter. -/
def colimaStatus (availability : RuntimeAvailability) (detail : String) : RuntimeStatus :=
  ⟨.colimaContainerd, "profiles", availability, "", detail⟩

/-- `colima::collect`. -/
def collectColima (answers : ColimaAnswers) : List RuntimeStatus × List ContainerRecord :=
  match answers.list with
  | .error .notFound => ([colimaStatus .absent "cli_absent"], [])
  | .error .permissionDenied => ([colimaStatus .permissionDenied "permission_denied"], [])
  | .error _ => ([colimaStatus .error "list_failed"], [])
  | .ok none => ([colimaStatus .incompatible "list_incompatible"], [])
  | .ok (some profiles) =>
    let found := (profiles.filter fun profile ↦ profile.runtime == "containerd").map
      (profileFound codec answers)
    if found.isEmpty then ([colimaStatus .absent "profile_absent"], [])
    else (found.map Prod.fst, found.flatMap Prod.snd)

/-! ## Apple containers -/

structure AppleContainer where
  id : String
  name : String
  image : String
  state : String
  status : String
  startedAtMs : Option ℤ := none
  restartCount : Option ℕ := none
  cpuPermille : Option ℕ := none
  memoryUsedBytes : Option ℕ := none
  memoryLimitBytes : Option ℕ := none
  networkRxBytes : Option ℕ := none
  networkTxBytes : Option ℕ := none
  exitCode : Option ℤ := none

/-- What the `container` command answers on a platform that has it. -/
structure AppleAnswers where
  supported : Bool
  /-- The trimmed output of `--version`. -/
  version : Except CommandError String
  list : Except CommandError (Option (List AppleContainer))

def parseAppleState (state status : String) : ContainerState :=
  match toAsciiLowercase (if state.isEmpty then status else state) with
  | "created" => .created
  | "running" => .running
  | "paused" => .paused
  | "restarting" => .restarting
  | "exited" | "stopped" => .exited
  | "dead" => .dead
  | _ => .unknown

/-- `to_record` of the Apple adapter. -/
def appleRecord (item : AppleContainer) : Option ContainerRecord :=
  let id := bounded item.id 128
  if id.isEmpty then none
  else some
    { key := stableKey codec .appleContainer "default" id
      runtime := .appleContainer
      runtimeInstance := "default"
      runtimeContainerId := id
      name := bounded item.name 128
      image := bounded item.image 512
      state := parseAppleState item.state item.status
      startedAtMs := item.startedAtMs.getD 0
      restartCount := item.restartCount.getD 0
      cpuPermille := item.cpuPermille.getD 0
      memoryUsedBytes := item.memoryUsedBytes.getD 0
      memoryLimitBytes := item.memoryLimitBytes.getD 0
      networkRxBytesTotal := item.networkRxBytes.getD 0
      networkTxBytesTotal := item.networkTxBytes.getD 0
      exitCode := item.exitCode.getD 0 }

/-- `error_status`. -/
def appleErrorStatus : CommandError → RuntimeStatus
  | .notFound => ⟨.appleContainer, "default", .absent, "", "cli_absent"⟩
  | .permissionDenied => ⟨.appleContainer, "default", .permissionDenied, "", "permission_denied"⟩
  | .failed => ⟨.appleContainer, "default", .stopped, "", "service_stopped"⟩
  | .timeout => ⟨.appleContainer, "default", .error, "", "query_timeout"⟩
  | .outputTooLarge => ⟨.appleContainer, "default", .incompatible, "", "response_too_large"⟩
  | .io => ⟨.appleContainer, "default", .error, "", "query_failed"⟩

/-- `apple_container::collect`. -/
def collectApple (answers : AppleAnswers) : RuntimeStatus × List ContainerRecord :=
  if ¬answers.supported then
    (⟨.appleContainer, "default", .absent, "", "unsupported_platform"⟩, [])
  else match answers.version with
    | .error error => (appleErrorStatus error, [])
    | .ok version =>
      match answers.list with
      | .error error => (appleErrorStatus error, [])
      | .ok none =>
        (⟨.appleContainer, "default", .incompatible, bounded version 64, "list_incompatible"⟩, [])
      | .ok (some items) =>
        (⟨.appleContainer, "default", .available, bounded version 64, ""⟩,
          (items.take maxContainers).filterMap (appleRecord codec))

/-! ## Joining -/

structure RuntimeInventory where
  observedAtMs : ℤ
  runtimes : List RuntimeStatus
  containers : List ContainerRecord

/-- Everything that the host answers in one collection. -/
structure Answers where
  surroundings : Surroundings
  docker : DockerEndpoint → DockerAnswers
  colima : ColimaAnswers
  apple : AppleAnswers

/-- The counters of a container at the collection before: its time, received and sent bytes. -/
structure NetworkReading where
  key : Bytes
  observedAt : ℤ
  rxBytes : ℕ
  txBytes : ℕ

/-- The runtimes and containers that the adapters found, in the order of the adapters. -/
def gather (answers : Answers) : List RuntimeStatus × List ContainerRecord :=
  let docker := collectDocker codec answers.surroundings answers.docker
  let colima := collectColima codec answers.colima
  let apple := collectApple codec answers.apple
  (docker.1 ++ colima.1 ++ [apple.1], docker.2 ++ colima.2 ++ apple.2)

/-- The bytes of a second, if time has passed. -/
def bytesPerSecond (total previous : ℕ) (elapsedMs : ℤ) : ℕ :=
  min ((total - previous) * 1000) u64Max / elapsedMs.toNat

/-- The rates of a container against the collection before. -/
def withRates (previous : List NetworkReading) (observedAtMs : ℤ) (container : ContainerRecord) :
    ContainerRecord :=
  match previous.reverse.find? fun reading ↦ reading.key == container.key with
  | none => container
  | some reading =>
    if 0 < observedAtMs - reading.observedAt then
      { container with
        networkRxBytesPerSecond := bytesPerSecond container.networkRxBytesTotal reading.rxBytes
          (observedAtMs - reading.observedAt)
        networkTxBytesPerSecond := bytesPerSecond container.networkTxBytesTotal reading.txBytes
          (observedAtMs - reading.observedAt) }
    else container

/-- The place of a runtime in the sorted inventory. -/
def RuntimeStatus.sortKey (runtime : RuntimeStatus) : ℕ ×ₗ String :=
  toLex (runtime.kind.protocolValue, runtime.instance_)

/-- The place of a container in the sorted inventory. -/
def ContainerRecord.sortKey (container : ContainerRecord) : List ℕ :=
  container.key.map UInt8.toNat

/-- `RuntimeInventory::normalize`. -/
def RuntimeInventory.normalize (inventory : RuntimeInventory) : RuntimeInventory where
  observedAtMs := inventory.observedAtMs
  runtimes := distinct RuntimeStatus.sortKey inventory.runtimes
  containers := ((distinct ContainerRecord.sortKey inventory.containers).take maxContainers).map
    fun container ↦ { container with ports := container.ports.take maxPortsPerContainer }

/-- `RuntimeCollector::collect`: the inventory, and the readings for the next collection. -/
def collect (previous : List NetworkReading) (answers : Answers) (observedAtMs : ℤ) :
    RuntimeInventory × List NetworkReading :=
  let found := gather codec answers
  let containers := found.2.map (withRates previous observedAtMs)
  (RuntimeInventory.normalize ⟨observedAtMs, found.1, containers⟩,
    containers.map fun container ↦
      ⟨container.key, observedAtMs, container.networkRxBytesTotal, container.networkTxBytesTotal⟩)

def RuntimeInventory.catalogDigest (inventory : RuntimeInventory) : Bytes :=
  codec.hash (utf8 "alphaping/container-catalog/v1" ++ [0] ++
    inventory.containers.flatMap fun container ↦
      container.key ++ utf8 container.runtime.label ++ [0] ++ utf8 container.runtimeInstance ++
        [0] ++ utf8 container.runtimeContainerId ++ [0] ++ utf8 container.name ++ [0] ++
        utf8 container.image ++ [0])

def catalogEntry (container : ContainerRecord) : ContainerCatalogEntry where
  containerKey := container.key
  runtime := container.runtime.protocolValue
  runtimeInstance := container.runtimeInstance
  runtimeContainerId := container.runtimeContainerId
  name := container.name
  image := container.image

def containerMetric (container : ContainerRecord) : ContainerMetric where
  containerKey := container.key
  state := container.state.protocolValue
  health := container.health.protocolValue
  startedAtMs := container.startedAtMs
  restartCount := container.restartCount
  cpuPermille := container.cpuPermille
  memoryUsedBytes := container.memoryUsedBytes
  memoryLimitBytes := container.memoryLimitBytes
  networkRxBytesPerSecond := container.networkRxBytesPerSecond
  networkTxBytesPerSecond := container.networkTxBytesPerSecond
  ports := container.ports.map fun port ↦
    ⟨port.privatePort, port.publicPort.getD 0, port.protocol⟩

def toProtocol (inventory : RuntimeInventory) : ContainerInventory where
  observedAtMs := inventory.observedAtMs
  catalogDigest := inventory.catalogDigest codec
  runtimes := inventory.runtimes.map fun runtime ↦
    ⟨runtime.kind.protocolValue, runtime.instance_, runtime.availability.protocolValue,
      runtime.version, runtime.detailCode⟩
  catalog := inventory.containers.map catalogEntry
  metrics := inventory.containers.map containerMetric
  catalogIncluded := true

end AlphaPing.Agent.RuntimeAdapters
