import AlphaPing.Agent.Updater.Client
import AlphaPing.Library.Runs

/-!
# Executing an update

An execution loads the persisted versions, looks for an update, persists the versions that it has
seen, and installs the binary that it has downloaded. Any operation can fail, and the process can
be gone after any of them.

The runtime starts an execution for a command or on a timer, and neither while one of them is in
flight (`alone_run`). An execution is therefore one event, although it awaits the network.
-/

namespace AlphaPing.Agent.Updater

open Library.Programs Library.Runs Protocol

/-! ## Replacing the binary -/

/-- A rename that is done or not done. -/
def renames (change : Installation → Installation) : Program Installation Unit :=
  Program.operation (fun host ↦ (.ok (), change host))
    fun progress host ↦ if progress = 0 then host else change host

def Installation.place (host : Installation) (candidate : Candidate) : Installation :=
  { host with binary := some candidate.bytes, installed := host.installed ++ [candidate] }

/-- The copy of the running binary becomes `alphaping-agent.previous`. -/
def keepPrevious : Program Installation Unit :=
  renames fun host ↦ { host with previous := host.binary }

/-- `fs::rename(&previous, current)`. -/
def restorePrevious : Program Installation Unit :=
  Program.operation
    (fun host ↦ match host.previous with
      | none => (.error "cannot roll back an Agent update", host)
      | some bytes => (.ok (), { host with binary := some bytes, previous := none }))
    fun _ host ↦ host

/-- A step after the binary was replaced; if it fails, the previous one comes back. -/
def orRestore (check : Program Installation Unit) : Program Installation Unit := do
  match ← check.attempt with
  | .ok () => pure ()
  | .error message =>
    restorePrevious
    mayFail
    Program.raise message

/-- The checks of a candidate: it is written, has the expected version and passes `self_test`. -/
def checkCandidate : Program Installation Unit := do
  mayFail
  mayFail
  mayFail

/-- `install_verified_binary_at` on Unix. -/
def installUnix (candidate : Candidate) : Program Installation Unit := do
  checkCandidate
  keepPrevious
  mayFail
  renames fun host ↦ host.place candidate
  orRestore mayFail
  orRestore mayFail

/-- `install_verified_binary_at` on Windows: a helper is started for the candidate. -/
def installWindows (candidate : Candidate) : Program Installation Unit := do
  checkCandidate
  renames fun host ↦ { host with handed := host.handed ++ [candidate] }

/-- The helper puts the candidate in the place of the binary. -/
def replaceByCandidate (candidate : Candidate) : Program Installation Unit := do
  match ← (renames fun host ↦ host.place candidate).attempt with
  | .error message =>
    let _ ← restorePrevious.attempt
    Program.raise message
  | .ok () =>
    match ← checkCandidate.attempt with
    | .ok () => pure ()
    | .error message =>
      let _ ← (renames fun host ↦ { host with binary := none }).attempt
      restorePrevious
      Program.raise message

/-- `apply_windows_update`, in the process of the helper. -/
def applyWindowsUpdate (candidate : Candidate) : Program Installation Unit := do
  let _ ← (renames fun host ↦ { host with previous := none }).attempt
  let _ ← (renames fun host ↦ { host with previous := host.binary, binary := none }).attempt
  let host ← Program.read
  if host.previous = none then
    Program.raise "timed out waiting for the Windows Agent service to stop"
  else replaceByCandidate candidate

/-! ## Executions -/

section Execution

variable {Version : Type} [LinearOrder Version] (crates : Crates) (semver : Semver Version)
  (client : UpdateClient Version)

inductive UpdateRequest (Version : Type) where
  | check (bypassRollout : Bool)
  | install (version : Version) (bypassRollout : Bool)

structure UpdateOutcome where
  resultCode : String
  installedVersion : String
  restartRequired : Bool

def UpdateRequest.requested : UpdateRequest Version → Option Version
  | .check _ => client.pinnedVersion
  | .install version _ => some version

def UpdateRequest.bypassRollout : UpdateRequest Version → Bool
  | .check bypassRollout => bypassRollout
  | .install _ bypassRollout => bypassRollout

def installVerifiedBinary (candidate : Candidate) : Program Installation Unit :=
  if client.platform = "windows" then installWindows candidate else installUnix candidate

/-- `Updater::execute`. -/
def execute (request : UpdateRequest Version) (nowMs : ℤ) (responses : Responses) :
    Program Installation UpdateOutcome := do
  let currentText := semver.toText client.currentVersion
  if request.requested client = some client.currentVersion then
    pure ⟨"up_to_date", currentText, false⟩
  else
    let previous ← loadVersions crates
    let (target, versions) ← findUpdate crates semver client (request.requested client)
      request.bypassRollout previous nowMs responses
    saveVersions versions
    match target with
    | none => pure ⟨"up_to_date_or_not_selected", currentText, false⟩
    | some target =>
      installVerifiedBinary client ⟨target.bytes, nowMs, semver.toText target.version⟩
      pure ⟨"installed_restart_pending", semver.toText target.version, true⟩

/-! ## The runtime -/

/-- A task that the loop has spawned; `finished` until the loop has received its result. -/
inductive Task (Version : Type) where
  | idle
  | running (request : UpdateRequest Version) (nowMs : ℤ)
  | finished

def Task.isIdle : Task Version → Bool
  | .idle => true
  | _ => false

/-- The agent on its machine. `command_in_flight` and `automatic_update_in_flight` are whether a
task is not idle. -/
structure Runtime (Version : Type) where
  host : Installation
  command : Task Version
  automatic : Task Version

inductive Event (Version : Type) where
  | commandTick (request : UpdateRequest Version) (nowMs : ℤ)
  | automaticUpdateTick (nowMs : ℤ)
  /-- A spawned task runs; its fates say which operations fail or are its last. -/
  | ran (automatic : Bool) (responses : Responses) (fates : List Fate)
  | received (automatic : Bool)
  | helper (index : ℕ) (fates : List Fate)
  | restart

/-- The process is gone; the files stay. -/
def Runtime.restart (host : Installation) : Runtime Version :=
  ⟨{ host with cache := fun _ ↦ none }, .idle, .idle⟩

/-- The state after a task was performed. -/
def perform (runtime : Runtime Version) (finish : Installation → Runtime Version)
    (request : UpdateRequest Version) (nowMs : ℤ) (responses : Responses) (fates : List Fate) :
    Runtime Version :=
  match execute crates semver client request nowMs responses runtime.host fates with
  | (.interrupted, host, _) => .restart host
  | (_, host, _) => finish host

def step (runtime : Runtime Version) : Event Version → Runtime Version
  | .commandTick request nowMs =>
    if runtime.command.isIdle && runtime.automatic.isIdle then
      { runtime with command := .running request nowMs }
    else runtime
  | .automaticUpdateTick nowMs =>
    if runtime.automatic.isIdle && runtime.command.isIdle then
      { runtime with automatic := .running (.check false) nowMs }
    else runtime
  | .ran automatic responses fates =>
    match automatic, runtime.automatic, runtime.command with
    | true, .running request nowMs, _ =>
      perform crates semver client runtime
        (fun host ↦ { runtime with host := host, automatic := .finished })
        request nowMs responses fates
    | false, _, .running request nowMs =>
      perform crates semver client runtime
        (fun host ↦ { runtime with host := host, command := .finished })
        request nowMs responses fates
    | _, _, _ => runtime
  | .received automatic =>
    match automatic, runtime.automatic, runtime.command with
    | true, .finished, _ => { runtime with automatic := .idle }
    | false, _, .finished => { runtime with command := .idle }
    | _, _, _ => runtime
  | .helper index fates =>
    match runtime.host.handed[index]? with
    | none => runtime
    | some candidate =>
      { runtime with host := (applyWindowsUpdate candidate runtime.host fates).2.1 }
  | .restart => .restart runtime.host

/-- The files of an agent, and a process that has just been started. -/
def Runtime.boot (stateFile : Option StateFile) (binary previous : Option Bytes) :
    Runtime Version :=
  .restart ⟨stateFile, fun _ ↦ none, binary, previous, [], []⟩

/-- At most one execution is in flight. -/
def Runtime.Alone (runtime : Runtime Version) : Prop :=
  runtime.command.isIdle = true ∨ runtime.automatic.isIdle = true

variable {crates semver client}

theorem alone_perform {runtime : Runtime Version} {finish : Installation → Runtime Version}
    {request : UpdateRequest Version} {nowMs : ℤ} {responses : Responses} {fates : List Fate}
    (hfinish : ∀ host, (finish host).Alone) :
    (perform crates semver client runtime finish request nowMs responses fates).Alone := by
  unfold perform
  split
  · exact .inl rfl
  · exact hfinish _

theorem alone_step (runtime : Runtime Version) (event : Event Version) (h : runtime.Alone) :
    (step crates semver client runtime event).Alone := by
  cases event with
  | commandTick request nowMs =>
    rw [step]
    split_ifs with hidle
    · exact .inr (Bool.and_eq_true _ _ ▸ hidle).2
    · exact h
  | automaticUpdateTick nowMs =>
    rw [step]
    split_ifs with hidle
    · exact .inl (Bool.and_eq_true _ _ ▸ hidle).2
    · exact h
  | ran automatic responses fates =>
    unfold step
    dsimp only
    split
    · rename_i request nowMs hautomatic
      have hcommand : runtime.command.isIdle = true :=
        h.resolve_right (by rw [hautomatic]; exact Bool.false_ne_true)
      exact alone_perform fun _ ↦ .inl hcommand
    · rename_i request nowMs hcommand
      have hautomatic : runtime.automatic.isIdle = true :=
        h.resolve_left (by rw [hcommand]; exact Bool.false_ne_true)
      exact alone_perform fun _ ↦ .inr hautomatic
    · exact h
  | received automatic =>
    unfold step
    dsimp only
    split
    · exact .inr rfl
    · exact .inl rfl
    · exact h
  | helper index fates =>
    unfold step
    dsimp only
    split <;> exact h
  | restart => exact .inl rfl

end Execution

end AlphaPing.Agent.Updater
