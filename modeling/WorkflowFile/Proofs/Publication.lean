import WorkflowFile.Proofs.Directories
import WorkflowFile.Proofs.Rendering

/-!
# What a publication leaves of the files

Directories are made first, then the file is opened, which empties it, and then the text is written.
Each of these can fail, and what was done before stays done.

* `Overwritten` says that a text was written to a file and that nothing else was changed but for
  directories that were made.
* `LeftByRefusal` says what may have changed when `publishOn` gives a fault, and `LeftByPublication`
  what has when it gives a path.
* `publishOn_leaves`: one of the two always holds, on every disk.
-/

namespace WorkflowFile

open FileSystem (Disk)

/-- The walk to the workflows directory below a root. -/
def wayToWorkflows (session : Session) (root : Path) : List Component :=
  session.cwd.origin (workflowsDirectory root) ++ (workflowsDirectory root).components

/-- A text was written to the file at `l`, which the path leads to and where no directory was. The
file holds what the disk has kept of the text, and elsewhere at most directories have been made on
the way to the workflows directory. -/
structure Overwritten (disk : Disk) (session : Session) (root path : Path) (text : String)
    (files : FileSystem) (l : Location) : Prop where
  located : files.locate session.cwd path = .ok l
  entry : files.entry? l = some (.file (disk l text).held)
  free : session.files.isDirectory l = false
  others : ∀ a ≠ l, session.files.KeptOrMade files (wayToWorkflows session root) a

variable (disk : Disk) (session : Session) (o : Options) (w : Workflow)

/-- What a refused publication leaves of the files, by what it reports: nothing is changed unless
something could not be accessed. Then at most directories have been made, or the file at the
reported path was opened and writing the generated text to it has failed. -/
def LeftByRefusal (files : FileSystem) : Report → Prop
  | .configuration _ | .validation _ | .serialization _ => files = session.files
  | .access path cause => ∃ root, o.rootFor session w = some root ∧
      ((∀ a, session.files.KeptOrMade files (wayToWorkflows session root) a) ∨
        ∃ r l e, Rendering.assemble session.cwd (some root) .regenerate o w = .ok r ∧
          Overwritten disk session root path r.text files l ∧
          (disk l r.text).failure? = some e ∧ e.message = cause)

/-- What a publication leaves of the files: the generated text was written to the file at the path,
as far as the disk keeps it. -/
def LeftByPublication (path : Path) (files : FileSystem) : Prop :=
  ∃ root r l, o.rootFor session w = some root ∧
    Rendering.assemble session.cwd (some root) .regenerate o w = .ok r ∧
    Overwritten disk session root path r.text files l ∧ (disk l r.text).failure? = none ∧
    files.read? session.cwd path = some (disk l r.text).held

variable {disk session}

/-- A file that was opened after directories were made is overwritten, and nothing else is. -/
lemma overwritten_of_openFile {root path : Path} {text : String} {made : FileSystem} {l : Location}
    (done : session.files.makeDirectories session.cwd (workflowsDirectory root) = (.ok (), made))
    (opened : made.openFile session.cwd path = .ok l) :
    Overwritten disk session root path text (made.put l (.file (disk l text).held)) l := by
  have kept := FileSystem.keptOrMade_of_makeDirectories done
  obtain ⟨located, -, free⟩ := FileSystem.openFile_eq_ok opened
  refine ⟨FileSystem.locate_put_file free located, FileSystem.entry?_put_file free, ?_,
    fun a other => (kept a).put_file free (Ne.symm other)⟩
  -- a directory would have stayed where it was
  rw [Bool.eq_false_iff, Ne, FileSystem.isDirectory_iff] at free ⊢
  exact fun dir => free ((kept l).directory dir)

variable (disk session)

/-- **What a publication leaves of the files.** A refused one leaves them as they were, but for
added directories and a file that could not be written to its end; any other one overwrites one
file. -/
theorem publishOn_leaves :
    match publishOn disk session o w with
    | (.error fault, files) => LeftByRefusal disk session o w files fault.report
    | (.ok path, files) => LeftByPublication disk session o w path files := by
  generalize published : publishOn disk session o w = outcome
  obtain ⟨result, files⟩ := outcome
  rcases publishOn_cases published with ⟨what, rfl, rfl⟩ | ⟨root, target, found, named, made⟩
  · rfl
  rcases made with ⟨fault, refused, rfl, rfl⟩ | ⟨r, assembled, stored⟩
  · -- nothing was touched, whatever the fault
    show LeftByRefusal disk session o w session.files fault.report
    cases fault.report with
    | access => exact ⟨root, found, .inl fun a => .inl rfl⟩
    | configuration | validation | serialization => rfl
  rcases storeOn_cases stored with ⟨path, cause, outcome, rfl, made⟩ |
    ⟨path, made, l, -, done, opened, rfl, outcome⟩
  · exact ⟨root, found, .inl (FileSystem.keptOrMade_of_makeDirectories made)⟩
  · have overwritten : Overwritten disk session root path r.text _ l :=
      overwritten_of_openFile done opened
    rcases outcome with ⟨kept, rfl⟩ | ⟨cause, failed, rfl⟩
    · obtain ⟨-, slash, -⟩ := FileSystem.openFile_eq_ok opened
      exact ⟨root, r, l, found, assembled, overwritten, kept,
        FileSystem.read?_of_locate overwritten.located slash overwritten.entry⟩
    · exact ⟨root, found, .inr ⟨r, l, cause, assembled, overwritten, failed, rfl⟩⟩

/-- A session in a repository with a workflow file, on a system with a device that keeps nothing. -/
def depot : Session where
  files := ⟨.ofList [(["dev"], .directory), (["dev", "null"], .file ""), (["depot"], .directory),
    (["depot", ".github"], .directory), (["depot", ".github", "workflows"], .directory),
    (["depot", ".github", "workflows", "ship.yml"], .file "on: {}\n")]⟩
  cwd := ⟨"/depot"⟩

/-- A workflow that is published to a target in that repository. -/
def consignment (target : String) : Workflow where
  triggers := [.push {}]
  target := some target

/-- On a full disk, a file is emptied or created although its publication fails, and on a device
that keeps nothing, there is nothing to be read although the publication succeeds. -/
theorem consignment_not_atomic :
    let full : Disk := fun _ _ => { held := "", failure? := some .noSpace }
    let o : Options := { root := some ⟨"/depot"⟩ }
    let old : Path := ⟨"/depot/.github/workflows/ship.yml"⟩
    let new : Path := ⟨"/depot/.github/workflows/new.yml"⟩
    (∃ files, publishOn full depot o (consignment "ship.yml")
        = (.error (.inaccessible old .noSpace), files) ∧
      depot.files.read? depot.cwd old = some "on: {}\n" ∧
      files.read? depot.cwd old = some "") ∧
    (∃ files, publishOn full depot o (consignment "new.yml")
        = (.error (.inaccessible new .noSpace), files) ∧
      depot.files.read? depot.cwd new = none ∧ files.read? depot.cwd new = some "") ∧
    ∃ files, publishOn .withDevices depot o (consignment "/dev/null")
        = (.ok ⟨"/dev/null"⟩, files) ∧
      files.read? depot.cwd ⟨"/dev/null"⟩ = some "" ∧
      render depot o (consignment "/dev/null") = .ok
        ("# This file was generated using a typed workflow definition.\n"
          ++ "# If you want to modify the workflow, please change the definition source and "
          ++ "regenerate this YAML file.\n# Generated with actionsmith\n\n"
          ++ "on:\n  push: {}\njobs: {}\n") := by
  intro full o old new
  refine ⟨⟨_, Prod.ext (by decide) rfl, by decide, by decide⟩,
    ⟨_, Prod.ext (by decide) rfl, by decide, by decide⟩,
    ⟨_, Prod.ext (by decide) rfl, by decide, by decide +kernel⟩⟩

end WorkflowFile
