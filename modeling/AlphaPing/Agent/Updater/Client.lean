import AlphaPing.Agent.Updater.Metadata
import AlphaPing.Library.Programs
import Mathlib.Data.List.Sort
import Mathlib.Data.List.SplitOn

/-!
# Looking for an update

`find_update` fetches the timestamp, the snapshot and the targets in this order, verifies each
under its role, compares the versions with those of the last run, and then fetches one artifact
that the targets list. The answers of the origin are arguments: the origin may be anyone.

The metadata cache is in memory. It returns what the origin sent before, which is verified again.
-/

namespace AlphaPing.Agent.Updater

open Library.Programs Protocol

structure CacheEntry where
  etag : String
  bytes : Bytes

/-- A binary that was written beside the running one. -/
structure Candidate where
  bytes : Bytes
  /-- The clock of the execution that downloaded it. -/
  nowMs : ℤ
  version : String

structure MetadataVersions where
  timestamp : ℕ
  snapshot : ℕ
  targets : ℕ
  deriving DecidableEq

/-- The content of the state file. The JSON text that `save_versions` writes stands for its
value. -/
inductive StateFile where
  | saved (versions : MetadataVersions)
  | other (bytes : Bytes)

/-- The files that an updater touches, and its cache. -/
structure Installation where
  /-- `state_path`. -/
  stateFile : Option StateFile
  /-- `metadata_cache`. -/
  cache : String → Option CacheEntry
  /-- `current_exe`. -/
  binary : Option Bytes
  /-- `alphaping-agent.previous`. -/
  previous : Option Bytes
  /-- Candidates that a Windows helper was started for. -/
  handed : List Candidate
  /-- What was put in the place of the binary; no field of the source. -/
  installed : List Candidate

/-! ## Versions of the metadata -/

instance : Preorder MetadataVersions :=
  Preorder.lift fun versions ↦ (versions.timestamp, versions.snapshot, versions.targets)

theorem versions_le_iff {old new : MetadataVersions} : old ≤ new ↔
    old.timestamp ≤ new.timestamp ∧ old.snapshot ≤ new.snapshot ∧ old.targets ≤ new.targets :=
  Iff.rfl

def versionsOfMembers : List Json → Option MetadataVersions
  | [timestamp, snapshot, targets] => do
    some ⟨← timestamp.asU64, ← snapshot.asU64, ← targets.asU64⟩
  | _ => none

def decodeVersions (value : Json) : Option MetadataVersions :=
  (value.members ["timestamp", "snapshot", "targets"]).bind versionsOfMembers

variable (crates : Crates)

/-- The versions that the state file tells of; without a file they are zero. -/
def persisted : Option StateFile → Except String MetadataVersions
  | none => .ok ⟨0, 0, 0⟩
  | some (.saved versions) => .ok versions
  | some (.other bytes) =>
    if 4 * 1024 < bytes.length then .error "update rollback state is too large"
    else match (crates.parseJson bytes).bind decodeVersions with
      | none => .error "update rollback state is invalid"
      | some versions => .ok versions

def loadVersions : Program Installation MetadataVersions :=
  Program.operation (fun host ↦ (persisted crates host.stateFile, host)) fun _ host ↦ host

/-- `save_versions`: a temporary file takes the place of the state file, or the state file stays. -/
def saveVersions (versions : MetadataVersions) : Program Installation Unit :=
  let saved (host : Installation) : Installation :=
    { host with stateFile := some (.saved versions) }
  Program.operation (fun host ↦ (.ok (), saved host))
    fun progress host ↦ if progress = 0 then host else saved host

/-! ## Downloads -/

def maxMetadataBytes : ℕ := 256 * 1024

def maxArtifactBytes : ℕ := 64 * 1024 * 1024

/-- What the origin answers. -/
inductive Response where
  | notModified
  | status (code : ℕ)
  | ok (etag : Option String) (contentLength : Option ℕ) (chunks : List Bytes)

def validTargetPath (path : String) : Bool :=
  path ≠ "" && path.utf8ByteSize ≤ 160 && path.toList.head? ≠ some '/' &&
    (path.toList.splitOn '/').all (fun segment ↦ segment ≠ [] && segment ≠ ['.', '.']) &&
    path.toList.all fun character ↦
      character.isAlphanum || character ∈ ['/', '.', '_', '-']

/-- The loop over the chunks of a body. -/
def collectChunks (maximum : ℕ) : Bytes → List Bytes → Option Bytes
  | bytes, [] => some bytes
  | bytes, chunk :: rest =>
    if maximum < bytes.length + chunk.length then none
    else collectChunks maximum (bytes ++ chunk) rest

def metadataPaths : List String :=
  ["alphaping-tuf-timestamp.json", "alphaping-tuf-snapshot.json", "alphaping-tuf-targets.json"]

/-- A call whose only effect is that it may fail. -/
def mayFail : Program Installation Unit :=
  Program.operation (fun host ↦ (.ok (), host)) fun _ host ↦ host

/-- The body of a response is kept if it is metadata with an etag. -/
def remember (path : String) (maximum : ℕ) (etag : Option String) (bytes : Bytes) :
    Program Installation Unit :=
  match etag.filter fun value ↦ value.utf8ByteSize ≤ 256 with
  | none => pure ()
  | some etag =>
    if maximum = maxMetadataBytes ∧ path ∈ metadataPaths then
      Program.modify fun host ↦
        { host with cache := Function.update host.cache path (some ⟨etag, bytes⟩) }
    else pure ()

def fetchBounded (path : String) (maximum : ℕ) (response : Response) :
    Program Installation Bytes := do
  if !validTargetPath path ∨ maximum = 0 ∨ maxArtifactBytes < maximum then
    Program.raise "update download path or bound is invalid"
  else
    let host ← Program.read
    let cached :=
      if maximum = maxMetadataBytes ∧ path ∈ metadataPaths then host.cache path else none
    mayFail
    match response with
    | .notModified =>
      match cached with
      | none => Program.raise "metadata origin returned 304 without a cached response"
      | some entry => pure entry.bytes
    | .status _ => Program.raise ioError
    | .ok etag contentLength chunks =>
      if contentLength.any fun length ↦ maximum < length then
        Program.raise "update download exceeded its signed length"
      else match collectChunks maximum [] chunks with
        | none => Program.raise "update download exceeded its signed length"
        | some bytes =>
          remember path maximum etag bytes
          pure bytes

/-! ## Selecting a target -/

/-- `semver::Version`, whose order is that of the crate. -/
structure Semver (Version : Type) where
  parse : String → Option Version
  toText : Version → String

variable {Version : Type} [LinearOrder Version] (semver : Semver Version)

/-- `UpdateClient`, with the fields of `Updater` and the constants of the build. -/
structure UpdateClient (Version : Type) where
  root : TrustedRoot
  agentId : String
  channel : String
  pinnedVersion : Option Version
  /-- `CARGO_PKG_VERSION`. -/
  currentVersion : Version
  /-- `std::env::consts::OS`. -/
  platform : String
  /-- `std::env::consts::ARCH`. -/
  arch : String

variable (client : UpdateClient Version)

/-- The conditions on a target that may be installed. -/
def admissible (path : String) (target : TargetDescription) : Bool :=
  target.platform = client.platform && target.arch = client.arch &&
    target.channel = client.channel && validTargetPath path && 0 < target.length &&
    target.length ≤ maxArtifactBytes && isSha256 target.sha256 && target.rolloutPercent ≤ 100

structure Selection (Version : Type) where
  path : String
  target : TargetDescription
  version : Version

/-- The admissible targets, newest first. -/
def candidates (targets : List (String × TargetDescription)) : List (Selection Version) :=
  (targets.filterMap fun (path, target) ↦
    match semver.parse target.version with
    | none => none
    | some version =>
      if admissible client path target then some ⟨path, target, version⟩ else none).insertionSort
    fun left right ↦ right.version ≤ left.version

def withinRollout (version : Version) (target : TargetDescription) : Bool :=
  target.rolloutPercent = 100 ||
    let digest := crates.blake3 (textBytes "alphaping/update-rollout/v1" ++
      textBytes client.agentId ++ textBytes (semver.toText version))
    let bucket := match digest with
      | high :: low :: _ => high.toNat * 256 + low.toNat
      | _ => 0
    bucket % 100 < target.rolloutPercent

/-- The requested version, or the newest one above the running one. -/
def choose (targets : List (String × TargetDescription)) :
    Option Version → Except String (Option (Selection Version))
  | some requested =>
    match (candidates semver client targets).find? fun selection ↦
        selection.version = requested with
    | none => .error ("requested Agent version " ++ semver.toText requested ++ " is not published")
    | some selection => .ok (some selection)
  | none => .ok ((candidates semver client targets).find? fun selection ↦
      client.currentVersion < selection.version)

/-- The target to download, if there is one and the rollout has reached this agent. -/
def select (requested : Option Version) (bypassRollout : Bool)
    (targets : List (String × TargetDescription)) : Except String (Option (Selection Version)) :=
  (choose semver client targets requested).map fun chosen ↦ chosen.filter fun selection ↦
    bypassRollout || withinRollout crates semver client selection.version selection.target

/-! ## The chain of metadata -/

structure Responses where
  timestamp : Response
  snapshot : Response
  targets : Response
  artifact : Response

structure DownloadedTarget (Version : Type) where
  version : Version
  bytes : Bytes

def timestampAllowed (previous : MetadataVersions) (timestamp : TimestampMetadata) : Bool :=
  previous.timestamp ≤ timestamp.version && previous.snapshot ≤ timestamp.snapshot.version

def snapshotAllowed (previous : MetadataVersions) (timestamp : TimestampMetadata)
    (snapshot : SnapshotMetadata) : Bool :=
  snapshot.version = timestamp.snapshot.version && previous.snapshot ≤ snapshot.version &&
    previous.targets ≤ snapshot.targets.version

def targetsAllowed (previous : MetadataVersions) (snapshot : SnapshotMetadata)
    (targets : TargetsMetadata) : Bool :=
  targets.version = snapshot.targets.version && previous.targets ≤ targets.version

/-- `find_update` up to the selection. -/
def fetchMetadata (previous : MetadataVersions) (nowMs : ℤ) (responses : Responses) :
    Program Installation (TargetsMetadata × MetadataVersions) := do
  let timestampBytes ←
    fetchBounded "alphaping-tuf-timestamp.json" maxMetadataBytes responses.timestamp
  let timestamp ← Program.ofExcept (client.root.verify crates decodeTimestamp timestampBytes
    "timestamp" "timestamp" nowMs)
  if !timestampAllowed previous timestamp then
    Program.raise "update timestamp attempted a metadata rollback"
  else
    let snapshotBytes ←
      fetchBounded "alphaping-tuf-snapshot.json" maxMetadataBytes responses.snapshot
    Program.ofExcept (timestamp.snapshot.verify crates snapshotBytes)
    let snapshot ← Program.ofExcept (client.root.verify crates decodeSnapshot snapshotBytes
      "snapshot" "snapshot" nowMs)
    if !snapshotAllowed previous timestamp snapshot then
      Program.raise "update snapshot metadata version is invalid"
    else
      let targetsBytes ←
        fetchBounded "alphaping-tuf-targets.json" maxMetadataBytes responses.targets
      Program.ofExcept (snapshot.targets.verify crates targetsBytes)
      let targets ← Program.ofExcept (client.root.verify crates decodeTargets targetsBytes
        "targets" "targets" nowMs)
      if !targetsAllowed previous snapshot targets then
        Program.raise "update targets metadata version is invalid"
      else
        pure (targets, ⟨timestamp.version, snapshot.version, targets.version⟩)

def findUpdate (requested : Option Version) (bypassRollout : Bool) (previous : MetadataVersions)
    (nowMs : ℤ) (responses : Responses) :
    Program Installation (Option (DownloadedTarget Version) × MetadataVersions) := do
  let (targets, versions) ← fetchMetadata crates client previous nowMs responses
  let selection ←
    Program.ofExcept (select crates semver client requested bypassRollout targets.targets)
  match selection with
  | none => pure (none, versions)
  | some selected =>
    let bytes ← fetchBounded selected.path selected.target.length responses.artifact
    if !Matches crates selected.target.length selected.target.sha256 bytes then
      Program.raise "Agent update artifact length or hash did not match signed metadata"
    else pure (some ⟨selected.version, bytes⟩, versions)

end AlphaPing.Agent.Updater
