import AlphaPing.Library.Programs

/-!
# Files of a directory

A directory gives names their contents. The operations on it can fail, and the process can be
gone while one of them is under way. A file that is being written can be left with a beginning of
its contents; a rename is done or not done, and one that fails has no effect.
-/

namespace AlphaPing.Library.Directories

open Programs

variable {Name Byte : Type} [DecidableEq Name]

abbrev Directory (Name Byte : Type) := Name → Option (List Byte)

/-- A call that leaves the directory alone. -/
def call : Program (Directory Name Byte) Unit :=
  Program.operation (fun files ↦ (.ok (), files)) fun _ files ↦ files

/-- A new file is opened, written and synchronized. -/
def createFile (name : Name) (bytes : List Byte) : Program (Directory Name Byte) Unit :=
  Program.operation
    (fun files ↦ match files name with
      | some _ => (.error "file exists", files)
      | none => (.ok (), Function.update files name (some bytes)))
    fun progress files ↦ match files name, progress with
      | none, count + 1 => Function.update files name (some (bytes.take count))
      | _, _ => files

def removeFile (name : Name) : Program (Directory Name Byte) Unit :=
  Program.operation
    (fun files ↦ match files name with
      | some _ => (.ok (), Function.update files name none)
      | none => (.error "no such file", files))
    fun progress files ↦ if progress = 0 then files else Function.update files name none

def copyFile (source target : Name) : Program (Directory Name Byte) Unit :=
  Program.operation
    (fun files ↦ match files source with
      | some bytes => (.ok (), Function.update files target (some bytes))
      | none => (.error "no such file", files))
    fun progress files ↦ match files source, progress with
      | some bytes, count + 1 => Function.update files target (some (bytes.take count))
      | _, _ => files

/-- The directory after a rename. A file that is renamed to itself stays. -/
def renamed (source target : Name) (files : Directory Name Byte) : Directory Name Byte :=
  if source = target then files
  else Function.update (Function.update files target (files source)) source none

def renameFile (source target : Name) : Program (Directory Name Byte) Unit := fun files fates ↦
  match fates.headD .performed with
  | .performed =>
    if (files source).isSome then (.returned (), renamed source target files, fates.tail)
    else (.raised "no such file", files, fates.tail)
  | .failed _ => (.raised ioError, files, fates.tail)
  | .interrupted count =>
    (.interrupted,
      if count = 0 ∨ (files source).isNone then files else renamed source target files, fates.tail)

section Rules

variable {files : Directory Name Byte} {name source target : Name} {bytes : List Byte}
  {returned : Unit → Directory Name Byte → Prop} {raised : String → Directory Name Byte → Prop}
  {interrupted : Directory Name Byte → Prop}

/-- Only the file of one name is touched. -/
def OnlyAt (name : Name) (files after : Directory Name Byte) : Prop :=
  ∀ other, other ≠ name → after other = files other

omit [DecidableEq Name] in
theorem onlyAt_refl (name : Name) (files : Directory Name Byte) : OnlyAt name files files :=
  fun _ _ ↦ rfl

theorem onlyAt_update (name : Name) (files : Directory Name Byte) (content : Option (List Byte)) :
    OnlyAt name files (Function.update files name content) :=
  fun _ hother ↦ Function.update_of_ne hother content files

omit [DecidableEq Name] in
theorem ensures_call (h : returned () files) (hraised : raised ioError files)
    (hgone : interrupted files) : Ensures call files returned raised interrupted :=
  ensures_operation h (fun _ ↦ hraised) fun _ ↦ hgone

/-- Every file that exists stays as it is. -/
def Keeps (files after : Directory Name Byte) : Prop :=
  ∀ name bytes, files name = some bytes → after name = some bytes

omit [DecidableEq Name] in
theorem keeps_refl (files : Directory Name Byte) : Keeps files files := fun _ _ ↦ id

theorem keeps_update (hname : files name = none) (content : Option (List Byte)) :
    Keeps files (Function.update files name content) := by
  intro other bytes hother
  rw [Function.update_of_ne, hother]
  intro h
  rw [h, hname] at hother
  cases hother

theorem ensures_createFile
    (hdone : files name = none → returned () (Function.update files name (some bytes)))
    (hraised : ∀ message after, Keeps files after → raised message after)
    (hgone : ∀ after, Keeps files after → interrupted after) :
    Ensures (createFile name bytes) files returned raised interrupted := by
  have hprogress (count : ℕ) : Keeps files
      (match files name, count with
        | none, count + 1 => Function.update files name (some (bytes.take count))
        | _, _ => files) := by
    split
    next hname => exact keeps_update hname _
    next => exact keeps_refl files
  apply ensures_operation
  · cases hname : files name with
    | some _ => exact hraised _ _ (keeps_refl files)
    | none => exact hdone hname
  · intro count
    exact hraised _ _ (hprogress count)
  · intro count
    exact hgone _ (hprogress count)

theorem ensures_removeFile (hdone : ∀ after, OnlyAt name files after → returned () after)
    (hraised : ∀ message after, OnlyAt name files after → raised message after)
    (hgone : ∀ after, OnlyAt name files after → interrupted after) :
    Ensures (removeFile name) files returned raised interrupted := by
  have hprogress (count : ℕ) : OnlyAt name files
      (if count = 0 then files else Function.update files name none) := by
    split
    · exact onlyAt_refl name files
    · exact onlyAt_update name files _
  apply ensures_operation
  · cases hname : files name with
    | some _ => exact hdone _ (onlyAt_update name files _)
    | none => exact hraised _ _ (onlyAt_refl name files)
  · intro count
    exact hraised _ _ (hprogress count)
  · intro count
    exact hgone _ (hprogress count)

theorem ensures_copyFile
    (hdone : ∀ bytes, files source = some bytes →
      returned () (Function.update files target (some bytes)))
    (hraised : ∀ message after, OnlyAt target files after → raised message after)
    (hgone : ∀ after, OnlyAt target files after → interrupted after) :
    Ensures (copyFile source target) files returned raised interrupted := by
  have hprogress (count : ℕ) : OnlyAt target files
      (match files source, count with
        | some bytes, count + 1 => Function.update files target (some (bytes.take count))
        | _, _ => files) := by
    split
    · exact onlyAt_update target files _
    · exact onlyAt_refl target files
  apply ensures_operation
  · cases hsource : files source with
    | some bytes => exact hdone bytes hsource
    | none => exact hraised _ _ (onlyAt_refl target files)
  · intro count
    exact hraised _ _ (hprogress count)
  · intro count
    exact hgone _ (hprogress count)

theorem ensures_renameFile
    (hdone : (files source).isSome → returned () (renamed source target files))
    (hraised : ∀ message, raised message files) (hbefore : interrupted files)
    (hafter : (files source).isSome → interrupted (renamed source target files)) :
    Ensures (renameFile source target) files returned raised interrupted := by
  intro fates
  unfold renameFile
  cases fates.headD .performed with
  | performed =>
    by_cases hsource : (files source).isSome = true
    · simp only [hsource, if_true]
      exact hdone hsource
    · rw [if_neg hsource]
      exact hraised _
  | failed _ => exact hraised _
  | interrupted count =>
    dsimp only
    by_cases hnot : count = 0 ∨ (files source).isNone = true
    · rw [if_pos hnot]
      exact hbefore
    · rw [if_neg hnot]
      have hsome := (not_or.mp hnot).2
      apply hafter
      cases hsource : files source with
      | some _ => rfl
      | none => exact absurd (hsource ▸ rfl) hsome

theorem renamed_target (h : source ≠ target) (files : Directory Name Byte) :
    renamed source target files target = files source := by
  rw [renamed, if_neg h, Function.update_of_ne h.symm, Function.update_self]

theorem renamed_other {other : Name} (hsource : other ≠ source) (htarget : other ≠ target)
    (files : Directory Name Byte) : renamed source target files other = files other := by
  unfold renamed
  split
  · rfl
  · rw [Function.update_of_ne hsource, Function.update_of_ne htarget]

end Rules

end AlphaPing.Library.Directories
