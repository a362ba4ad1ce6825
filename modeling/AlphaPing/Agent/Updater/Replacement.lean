import AlphaPing.Library.Directories
import AlphaPing.Protocol.Messages

/-!
# Replacing the binary of the agent

`install_verified_binary_at` works in the directory of the running binary. On Unix it keeps a
copy of the binary as `alphaping-agent.previous`, renames the candidate over it, and renames the
copy back if a later step fails. On Windows a helper is started that replaces the binary when the
agent has stopped, so the call itself leaves the binary alone.
-/

namespace AlphaPing.Agent.Updater.Replacement

open Library.Programs Library.Directories Protocol

abbrev Files := Directory String UInt8

inductive Platform where
  | unix
  | windows
  deriving DecidableEq

/-- What a call that returns `Ok(())` has done. -/
inductive Installed where
  | replaced
  /-- A helper runs with this candidate. -/
  | launched (candidate : String)

def previousName : String := "alphaping-agent.previous"

def helperName : String := "alphaping-updater-helper.exe"

def temporaryName (uuid : String) : String := ".alphaping-agent-" ++ uuid ++ ".new"

def previousTemporaryName (uuid : String) : String := ".alphaping-agent-" ++ uuid ++ ".previous"

/-- The error of a program gets a context, which is what is shown of it. -/
def context (message : String) (program : Program Files Unit) : Program Files Unit := do
  match ← program.attempt with
  | .ok () => pure ()
  | .error _ => Program.raise message

/-- A check of the candidate, which is removed if it fails. -/
def checkCandidate (temporary : String) : Program Files Unit := do
  match ← call.attempt with
  | .ok () => pure ()
  | .error message =>
    let _ ← (removeFile temporary).attempt
    Program.raise message

/-- A step after the binary was replaced; if it fails, the previous one comes back. -/
def orRollBack (current message : String) (check : Program Files Unit) : Program Files Unit := do
  match ← check.attempt with
  | .ok () => pure ()
  | .error error =>
    context message (renameFile previousName current)
    -- `sync_directory`
    call
    Program.raise error

/-- The messages of a call whose rollback has failed. -/
def rollbackFailures : List String :=
  ["cannot roll back an Agent update after directory sync failed",
    "updated Agent failed health check and rollback failed"]

/-- The part of `install_verified_binary_at` for Unix, up to the directory sync before the
candidate is installed. -/
def preservePrevious (current previousTemporary : String) : Program Files Unit := do
  context "cannot copy the current Agent binary for rollback" (copyFile current previousTemporary)
  -- `File::open` and `sync_all`
  call
  context "cannot preserve the current Agent binary for rollback"
    (renameFile previousTemporary previousName)
  call

/-- The rest of the part for Unix. -/
def replaceBinary (current temporary : String) : Program Files Installed := do
  context "cannot atomically install the Agent update" (renameFile temporary current)
  orRollBack current "cannot roll back an Agent update after directory sync failed" call
  orRollBack current "updated Agent failed health check and rollback failed" call
  pure .replaced

/-- A helper of an earlier update goes. Windows does not remove the file of a running process. -/
def removeHelper (current : String) : Program Files Unit := do
  let files ← Program.read
  if (files helperName).isSome then
    if current = helperName then Program.raise "cannot replace the Windows updater helper"
    else context "cannot replace the Windows updater helper" (removeFile helperName)
  else pure ()

/-- The part for Windows. -/
def launchWindows (current temporary : String) : Program Files Installed := do
  removeHelper current
  context "cannot create the Windows updater helper" (copyFile current helperName)
  context "cannot launch the Windows updater helper" call
  pure (.launched temporary)

/-- `install_verified_binary_at`. Paths are names in the directory of the binary, and the two
identifiers are those of `Uuid::now_v7`. -/
def installVerifiedBinaryAt (platform : Platform) (current : String) (bytes : Bytes)
    (uuid previousUuid : String) : Program Files Installed := do
  -- `current.parent()`
  call
  createFile (temporaryName uuid) bytes
  checkCandidate (temporaryName uuid)
  checkCandidate (temporaryName uuid)
  match platform with
  | .unix =>
    preservePrevious current (previousTemporaryName previousUuid)
    replaceBinary current (temporaryName uuid)
  | .windows => launchWindows current (temporaryName uuid)

/-! ## Rules -/

section Rules

variable {files : Files} {returned : Unit → Files → Prop} {raised : String → Files → Prop}
  {interrupted : Files → Prop} {program : Program Files Unit} {message : String}

theorem ensures_context (h : Ensures program files returned (fun _ ↦ raised message) interrupted) :
    Ensures (context message program) files returned raised interrupted := by
  apply ensures_bind
  apply ensures_attempt
  apply ensures_mono h
  · intro value after hafter
    exact ensures_pure hafter
  · intro error after hafter
    exact ensures_raise hafter
  · exact fun _ ↦ id

/-- A check of the candidate touches no other file, and none at all if it succeeds. -/
theorem ensures_checkCandidate {temporary : String} (hdone : returned () files)
    (hraised : ∀ message after, OnlyAt temporary files after → raised message after)
    (hgone : ∀ after, OnlyAt temporary files after → interrupted after) :
    Ensures (checkCandidate temporary) files returned raised interrupted := by
  apply ensures_bind
  apply ensures_attempt
  apply ensures_call
  · exact ensures_pure hdone
  · apply ensures_bind
    apply ensures_attempt
    apply ensures_removeFile
    · intro after hafter
      exact ensures_raise (hraised _ after hafter)
    · intro error after hafter
      exact ensures_raise (hraised _ after hafter)
    · exact hgone
  · exact hgone files (onlyAt_refl temporary files)

/-- A step after the replacement: it is done, or the previous binary is back unless the rename
that brings it back has failed. -/
theorem ensures_orRollBack {current : String} (hdone : returned () files)
    (hfailed : raised message files)
    (hback : ∀ error, raised error (renamed previousName current files))
    (hgone : interrupted files) (hgoneBack : interrupted (renamed previousName current files)) :
    Ensures (orRollBack current message call) files returned raised interrupted := by
  apply ensures_bind
  apply ensures_attempt
  apply ensures_call
  · exact ensures_pure hdone
  · apply ensures_bind
    apply ensures_context
    apply ensures_renameFile
    · intro _
      apply ensures_bind
      apply ensures_call
      · exact ensures_raise (hback _)
      · exact hback _
      · exact hgoneBack
    · intro _
      exact hfailed
    · exact hgone
    · intro _
      exact hgoneBack
  · exact hgone

end Rules

/-! ## Names -/

theorem temporary_ne_previousTemporary (uuid previousUuid : String) :
    temporaryName uuid ≠ previousTemporaryName previousUuid := by
  unfold temporaryName previousTemporaryName
  intro h
  have hlast := congrArg (fun name : String ↦ name.toList.getLast?) h
  have hnew : ".new".toList = ['.', 'n', 'e'] ++ ['w'] := by decide
  have hprevious : ".previous".toList = ['.', 'p', 'r', 'e', 'v', 'i', 'o', 'u'] ++ ['s'] := by
    decide
  simp only [String.toList_append, hnew, hprevious, ← List.append_assoc, List.getLast?_concat]
    at hlast
  revert hlast
  decide

theorem hidden_ne_previous (rest : String) : ".alphaping-agent-" ++ rest ≠ previousName := by
  unfold previousName
  intro h
  have hhead := congrArg (fun name : String ↦ name.toList.head?) h
  have hhidden : ".alphaping-agent-".toList = '.' :: "alphaping-agent-".toList := by decide
  have hprevious : "alphaping-agent.previous".toList = 'a' :: "lphaping-agent.previous".toList := by
    decide
  simp only [String.toList_append, hhidden, hprevious, List.cons_append, List.head?_cons] at hhead
  revert hhead
  decide

theorem hidden_ne_helper (rest : String) : ".alphaping-agent-" ++ rest ≠ helperName := by
  unfold helperName
  intro h
  have hhead := congrArg (fun name : String ↦ name.toList.head?) h
  have hhidden : ".alphaping-agent-".toList = '.' :: "alphaping-agent-".toList := by decide
  have hhelper : "alphaping-updater-helper.exe".toList =
      'a' :: "lphaping-updater-helper.exe".toList := by decide
  simp only [String.toList_append, hhidden, hhelper, List.cons_append, List.head?_cons] at hhead
  revert hhead
  decide

theorem temporary_ne_helper (uuid : String) : temporaryName uuid ≠ helperName := by
  unfold temporaryName
  intro h
  exact hidden_ne_helper (uuid ++ ".new") (String.append_assoc.symm.trans h)

theorem temporary_ne_previous (uuid : String) : temporaryName uuid ≠ previousName := by
  unfold temporaryName
  intro h
  exact hidden_ne_previous (uuid ++ ".new") (String.append_assoc.symm.trans h)

theorem previousTemporary_ne_previous (uuid : String) :
    previousTemporaryName uuid ≠ previousName := by
  unfold previousTemporaryName
  intro h
  exact hidden_ne_previous (uuid ++ ".previous") (String.append_assoc.symm.trans h)

/-! ## The replacement -/

variable {current : String} {previous candidate : Bytes} {files : Files}

/-- Before the candidate is installed, the binary stays as it is, and in the end its copy is there. -/
theorem ensures_preservePrevious {temporary previousTemporary : String}
    {returned : Unit → Files → Prop} {raised : String → Files → Prop} {interrupted : Files → Prop}
    (hcurrent : files current = some previous) (hcandidate : files temporary = some candidate)
    (hprevious : current ≠ previousName) (hcopy : current ≠ previousTemporary)
    (hdistinct : temporary ≠ previousTemporary) (hkept : temporary ≠ previousName)
    (hrenamed : previousTemporary ≠ previousName)
    (hdone : ∀ after : Files, after current = some previous → after temporary = some candidate →
      after previousName = some previous → returned () after)
    (hraised : ∀ message, ∀ after : Files, after current = some previous → raised message after)
    (hgone : ∀ after : Files, after current = some previous → interrupted after) :
    Ensures (preservePrevious current previousTemporary) files returned raised interrupted := by
  apply ensures_bind
  apply ensures_context
  apply ensures_copyFile
  case hraised =>
    intro _ after hafter
    exact hraised _ after ((hafter current hcopy).trans hcurrent)
  case hgone =>
    intro after hafter
    exact hgone after ((hafter current hcopy).trans hcurrent)
  intro bytes hbytes
  obtain rfl : previous = bytes := Option.some.inj (hcurrent.symm.trans hbytes)
  have hcopied : Function.update files previousTemporary (some previous) current = some previous :=
    (Function.update_of_ne hcopy _ _).trans hcurrent
  have hwaiting :
      Function.update files previousTemporary (some previous) temporary = some candidate :=
    (Function.update_of_ne hdistinct _ _).trans hcandidate
  have hsource : Function.update files previousTemporary (some previous) previousTemporary =
      some previous := Function.update_self _ _ _
  generalize Function.update files previousTemporary (some previous) = copied at *
  apply ensures_bind
  apply ensures_call
  case hraised => exact hraised _ _ hcopied
  case hgone => exact hgone _ hcopied
  have hstays : renamed previousTemporary previousName copied current = some previous :=
    (renamed_other hcopy hprevious copied).trans hcopied
  have hwaits : renamed previousTemporary previousName copied temporary = some candidate :=
    (renamed_other hdistinct hkept copied).trans hwaiting
  have hpreserved : renamed previousTemporary previousName copied previousName = some previous :=
    (renamed_target hrenamed copied).trans hsource
  apply ensures_bind
  apply ensures_context
  apply ensures_renameFile
  case hraised => exact fun _ ↦ hraised _ _ hcopied
  case hbefore => exact hgone _ hcopied
  case hafter => exact fun _ ↦ hgone _ hstays
  intro _
  apply ensures_call
  · exact hdone _ hstays hwaits hpreserved
  · exact hraised _ _ hstays
  · exact hgone _ hstays

/-- With the copy in place, the candidate is installed or the binary comes back. -/
theorem ensures_replaceBinary {temporary : String}
    (hcurrent : files current = some previous) (hcandidate : files temporary = some candidate)
    (hkept : files previousName = some previous) (htemporary : current ≠ temporary)
    (hprevious : current ≠ previousName) (hdistinct : temporary ≠ previousName) :
    Ensures (replaceBinary current temporary) files
      (fun installed after ↦ installed = .replaced ∧ after current = some candidate)
      (fun message after ↦ message ∉ rollbackFailures → after current = some previous)
      (fun after ↦ after current = some previous ∨ after current = some candidate) := by
  have hinstalled : renamed temporary current files current = some candidate :=
    (renamed_target htemporary.symm files).trans hcandidate
  have hback : renamed temporary current files previousName = some previous :=
    (renamed_other hdistinct.symm hprevious.symm files).trans hkept
  apply ensures_bind
  apply ensures_context
  apply ensures_renameFile
  case hraised => exact fun _ _ ↦ hcurrent
  case hbefore => exact .inl hcurrent
  case hafter => exact fun _ ↦ .inr hinstalled
  intro _
  generalize renamed temporary current files = after at *
  have hrestored : renamed previousName current after current = some previous :=
    (renamed_target hprevious.symm after).trans hback
  apply ensures_bind
  apply ensures_orRollBack
  case hfailed => exact fun hother ↦ absurd (List.mem_cons_self) hother
  case hback => exact fun _ _ ↦ hrestored
  case hgone => exact .inr hinstalled
  case hgoneBack => exact .inl hrestored
  apply ensures_bind
  apply ensures_orRollBack
  case hfailed => exact fun hother ↦ absurd (List.mem_cons_of_mem _ List.mem_cons_self) hother
  case hback => exact fun _ _ ↦ hrestored
  case hgone => exact .inr hinstalled
  case hgoneBack => exact .inl hrestored
  exact ensures_pure ⟨rfl, hinstalled⟩

theorem ensures_launchWindows {temporary : String}
    (hcurrent : files current = some previous) (hcandidate : files temporary = some candidate)
    (hdistinct : temporary ≠ helperName) :
    Ensures (launchWindows current temporary) files
      (fun installed after ↦ installed = .launched temporary ∧ after current = some previous ∧
        after temporary = some candidate)
      (fun _ after ↦ after current = some previous) (fun after ↦ after current = some previous) := by
  -- From here on only the helper is touched, which is not the binary.
  have hcopies : current ≠ helperName → ∀ before : Files, OnlyAt helperName files before →
      Ensures (do
        context "cannot create the Windows updater helper" (copyFile current helperName)
        context "cannot launch the Windows updater helper" call
        pure (Installed.launched temporary)) before
        (fun installed after ↦ installed = .launched temporary ∧ after current = some previous ∧
          after temporary = some candidate)
        (fun _ after ↦ after current = some previous)
        (fun after ↦ after current = some previous) := by
    intro hhelper before hbefore
    have hstays : ∀ after, OnlyAt helperName before after → after current = some previous :=
      fun after hafter ↦ ((hafter current hhelper).trans (hbefore current hhelper)).trans hcurrent
    apply ensures_bind
    apply ensures_context
    apply ensures_copyFile
    case hraised => exact fun _ after hafter ↦ hstays after hafter
    case hgone => exact hstays
    intro bytes _
    have hcopied := onlyAt_update helperName before (some bytes)
    apply ensures_bind
    apply ensures_context
    apply ensures_call
    · apply ensures_pure
      apply And.intro rfl
      apply And.intro (hstays _ hcopied)
      exact ((hcopied temporary hdistinct).trans (hbefore temporary hdistinct)).trans hcandidate
    · exact hstays _ hcopied
    · exact hstays _ hcopied
  apply ensures_bind
  apply ensures_bind
  apply ensures_read
  apply ensures_ite
  · intro _
    apply ensures_ite
    · intro _
      exact ensures_raise hcurrent
    · intro hhelper
      have hstays : ∀ after, OnlyAt helperName files after → after current = some previous :=
        fun after hafter ↦ (hafter current hhelper).trans hcurrent
      apply ensures_context
      apply ensures_removeFile
      · exact hcopies hhelper
      · exact fun _ after hafter ↦ hstays after hafter
      · exact hstays
  · intro hnone
    have hhelper : current ≠ helperName := by
      intro h
      rw [h] at hcurrent
      exact hnone (hcurrent ▸ rfl)
    exact ensures_pure (hcopies hhelper files (onlyAt_refl helperName files))

/-! ## The whole call -/

/-- What a call that returns has done. -/
def Done (current : String) (previous candidate : Bytes) (platform : Platform)
    (temporary : String) (installed : Installed) (after : Files) : Prop :=
  match platform with
  | .unix => installed = .replaced ∧ after current = some candidate
  | .windows => installed = .launched temporary ∧ after current = some previous ∧
      after temporary = some candidate

theorem ensures_installVerifiedBinaryAt {platform : Platform} {uuid previousUuid : String}
    (hcurrent : files current = some previous)
    (hfresh : files (previousTemporaryName previousUuid) = none)
    (hname : platform = .unix → current ≠ previousName) :
    Ensures (installVerifiedBinaryAt platform current candidate uuid previousUuid) files
      (Done current previous candidate platform (temporaryName uuid))
      (fun message after ↦ message ∉ rollbackFailures → after current = some previous)
      (fun after ↦ after current = some previous ∨ after current = some candidate) := by
  apply ensures_bind
  apply ensures_call
  case hraised => exact fun _ ↦ hcurrent
  case hgone => exact .inl hcurrent
  apply ensures_bind
  apply ensures_createFile
  case hraised => exact fun _ after hafter _ ↦ hafter current previous hcurrent
  case hgone => exact fun after hafter ↦ .inl (hafter current previous hcurrent)
  intro hfree
  have htemporary : current ≠ temporaryName uuid := by
    intro h
    rw [← h, hcurrent] at hfree
    cases hfree
  have hcopy : current ≠ previousTemporaryName previousUuid := by
    intro h
    rw [← h, hcurrent] at hfresh
    cases hfresh
  have hstays : Function.update files (temporaryName uuid) (some candidate) current =
      some previous := (Function.update_of_ne htemporary _ _).trans hcurrent
  have hcandidate : Function.update files (temporaryName uuid) (some candidate)
      (temporaryName uuid) = some candidate := Function.update_self _ _ _
  generalize Function.update files (temporaryName uuid) (some candidate) = written at *
  have hcheck : ∀ after, OnlyAt (temporaryName uuid) written after →
      after current = some previous :=
    fun after hafter ↦ (hafter current htemporary).trans hstays
  apply ensures_bind
  apply ensures_checkCandidate
  case hraised => exact fun _ after hafter _ ↦ hcheck after hafter
  case hgone => exact fun after hafter ↦ .inl (hcheck after hafter)
  apply ensures_bind
  apply ensures_checkCandidate
  case hraised => exact fun _ after hafter _ ↦ hcheck after hafter
  case hgone => exact fun after hafter ↦ .inl (hcheck after hafter)
  cases platform with
  | unix =>
    apply ensures_bind
    apply ensures_preservePrevious hstays hcandidate (hname rfl) hcopy
      (temporary_ne_previousTemporary uuid previousUuid) (temporary_ne_previous uuid)
      (previousTemporary_ne_previous previousUuid)
    case hraised => exact fun _ _ hafter _ ↦ hafter
    case hgone => exact fun _ hafter ↦ .inl hafter
    intro after hcurrent hcandidate hkept
    exact ensures_replaceBinary hcurrent hcandidate hkept htemporary (hname rfl)
      (temporary_ne_previous uuid)
  | windows =>
    apply ensures_mono (ensures_launchWindows hstays hcandidate (temporary_ne_helper uuid))
    · exact fun _ _ ↦ id
    · exact fun _ _ hafter _ ↦ hafter
    · exact fun _ hafter ↦ .inl hafter

/-- Whatever fails, an error other than that of a failed rollback leaves the binary as it was, and
a call that returns has done what its platform does: on Unix the candidate is the binary, on
Windows the binary is the previous one and a helper has the candidate. -/
theorem installVerifiedBinaryAt_atomic {platform : Platform} {previousUuid : String}
    (candidate : Bytes) (uuid : String) (fates : List Fate) (hcurrent : files current = some previous)
    (hfresh : files (previousTemporaryName previousUuid) = none)
    (hname : platform = .unix → current ≠ previousName) :
    match installVerifiedBinaryAt platform current candidate uuid previousUuid files fates with
    | (.returned installed, after, _) =>
      Done current previous candidate platform (temporaryName uuid) installed after
    | (.raised message, after, _) => message ∉ rollbackFailures → after current = some previous
    | (.interrupted, after, _) => after current = some previous ∨ after current = some candidate := by
  have hensures :
      Ensures (installVerifiedBinaryAt platform current candidate uuid previousUuid) files _ _ _ :=
    ensures_installVerifiedBinaryAt hcurrent hfresh hname
  have hends := hensures fates
  generalize installVerifiedBinaryAt platform current candidate uuid previousUuid files fates =
    outcome at hends ⊢
  obtain ⟨ending, after, left⟩ := outcome
  cases ending with
  | returned installed => exact hends
  | raised message => exact hends
  | interrupted => exact hends

/-- A directory with nothing but the running binary. -/
def only (current : String) : Files := fun name ↦ if name = current then some [0] else none

/-- The check of the installed candidate fails. -/
def unhealthy : List Fate := List.replicate 10 .performed ++ [.failed 0]

/-- A call on Unix whose last check fails. -/
theorem installVerifiedBinaryAt_atomic_unhealthy :
    match installVerifiedBinaryAt .unix "alphaping-agent" [1] "a" "b" (only "alphaping-agent")
      unhealthy with
    | (.returned installed, after, _) =>
      Done "alphaping-agent" [0] [1] .unix (temporaryName "a") installed after
    | (.raised message, after, _) =>
      message ∉ rollbackFailures → after "alphaping-agent" = some [0]
    | (.interrupted, after, _) =>
      after "alphaping-agent" = some [0] ∨ after "alphaping-agent" = some [1] := by
  have hcurrent : only "alphaping-agent" "alphaping-agent" = some [0] := rfl
  have hfresh : only "alphaping-agent" (previousTemporaryName "b") = none := by decide
  have hname : Platform.unix = .unix → "alphaping-agent" ≠ previousName := by decide
  exact installVerifiedBinaryAt_atomic [1] "a" unhealthy hcurrent hfresh hname

/-- On Windows a call returns while the binary is still the previous one. On Unix an agent that
runs from `alphaping-agent.previous` renames the candidate to itself when it rolls back. -/
theorem previous_binary_after_success :
    (installVerifiedBinaryAt .windows "alphaping-agent.exe" [1] "a" "b"
        (only "alphaping-agent.exe") []).1 = .returned (.launched (temporaryName "a")) ∧
      (installVerifiedBinaryAt .windows "alphaping-agent.exe" [1] "a" "b"
        (only "alphaping-agent.exe") []).2.1 "alphaping-agent.exe" = some [0] ∧
      (installVerifiedBinaryAt .unix previousName [1] "a" "b" (only previousName) unhealthy).1 =
        .raised ioError ∧
      (installVerifiedBinaryAt .unix previousName [1] "a" "b" (only previousName)
        unhealthy).2.1 previousName = some [1] := by
  refine ⟨rfl, ?_, rfl, ?_⟩ <;> decide +kernel

end AlphaPing.Agent.Updater.Replacement
