import WorkflowFile.OrderedMap
import WorkflowFile.Path

/-!
# File systems

Directories and text files by location. There are no links, so a location is the same as
the names on the way to it. Nobody else changes the files, and there are no permissions: what
is there can be read, and every directory can be written to.

* `FileSystem.walk` follows a path step by step, as far as there are directories, and
  `FileSystem.locate` does so for a path seen from a directory.
* `FileSystem.makeDirectories` creates a directory and the missing ones on the way to it.
* `FileSystem.openFile` finds the place of a file that is to be written, and `FileSystem.write`
  creates or overwrites the file.
* A `Disk` says what becomes of a text once its file is open, since writing can still fail then.
  `FileSystem.writeOn` writes to such a disk.
* A `Session` is a file system together with the current directory.
-/

namespace WorkflowFile

/-- What a location holds. -/
inductive Entry where
  | directory
  | file (content : String)
  deriving DecidableEq

/-- The entries below the root, which is always a directory. -/
structure FileSystem where
  entries : OrderedMap Location Entry := ∅

namespace FileSystem

/-- Why a file system refuses an operation. -/
inductive Error where
  | absent
  | present
  | notDirectory
  | isDirectory
  | nameTooLong
  | emptyPath
  | nulInPath
  | inputOutput
  | fileTooLarge
  | noSpace
  | quotaExceeded
  deriving DecidableEq

/-- The text of a refusal. -/
def Error.message : Error → String
  | absent => "No such file or directory (os error 2)"
  | present => "File exists (os error 17)"
  | notDirectory => "Not a directory (os error 20)"
  | isDirectory => "Is a directory (os error 21)"
  | nameTooLong => "File name too long (os error 36)"
  | emptyPath => "cannot make an empty path absolute"
  | nulInPath => "file name contained an unexpected NUL byte"
  | inputOutput => "Input/output error (os error 5)"
  | fileTooLarge => "File too large (os error 27)"
  | noSpace => "No space left on device (os error 28)"
  | quotaExceeded => "Disk quota exceeded (os error 122)"

/-! ## Looking -/

/-- What a location holds, if anything. -/
def entry? (fs : FileSystem) (l : Location) : Option Entry :=
  if l.isEmpty then some .directory else fs.entries.get? l

/-- Whether a location holds a directory. -/
def isDirectory (fs : FileSystem) (l : Location) : Bool := fs.entry? l == some .directory

/-- Whether a location holds a file. -/
def isFile (fs : FileSystem) (l : Location) : Bool :=
  match fs.entry? l with
  | some (.file _) => true
  | _ => false

/-- The longest name of an entry, in bytes. -/
def maxNameBytes : Nat := 255

/-- The longest path, in bytes. -/
def maxPathBytes : Nat := 4095

/-- The location one step further, which exists if the step does not lead to a name. Steps
are taken from directories only. -/
def advance (fs : FileSystem) (l : Location) : Component → Except Error Location
  | .root => .ok []
  | step =>
    match fs.entry? l with
    | none => .error .absent
    | some (.file _) => .error .notDirectory
    | some .directory =>
      match step with
      | .name text =>
        if text.utf8ByteSize > maxNameBytes then .error .nameTooLong else .ok (l ++ [text])
      | .up => .ok l.dropLast
      | _ => .ok l

/-- The location that a walk leads to. Everything but the last step has to lead to a
directory. -/
def walk (fs : FileSystem) (steps : List Component) : Except Error Location :=
  steps.foldlM fs.advance []

/-- Whether a walk leads to a directory. -/
def leadsToDirectory (fs : FileSystem) (steps : List Component) : Bool :=
  match fs.walk steps with
  | .ok l => fs.isDirectory l
  | .error _ => false

/-- Refuses a path that no operation accepts, whatever the file system holds. -/
def checkPath (p : Path) : Except Error Unit :=
  if p.text.toList.contains '\x00' then .error .nulInPath
  else if p.text.isEmpty then .error .absent
  else if p.text.utf8ByteSize > maxPathBytes then .error .nameTooLong
  else .ok ()

/-- The location that a path leads to from the directory `cwd`. -/
def locate (fs : FileSystem) (cwd p : Path) : Except Error Location := do
  checkPath p
  fs.walk (cwd.origin p ++ p.steps)

/-- The content of the file that a path leads to from the directory `cwd`. -/
def read? (fs : FileSystem) (cwd p : Path) : Option String :=
  match (fs.locate cwd p).toOption.bind fs.entry? with
  | some (.file content) => if p.endsWithSlash then none else some content
  | _ => none

/-! ## Changing -/

/-- The file system with an entry at a location. -/
def put (fs : FileSystem) (l : Location) (e : Entry) : FileSystem := ⟨fs.entries.insert l e⟩

/-- Creates the directory that a walk leads to. -/
def makeDirectory (fs : FileSystem) (steps : List Component) : Except Error FileSystem := do
  let l ← fs.walk steps
  match fs.entry? l with
  | some _ => .error .present
  | none => .ok (fs.put l .directory)

/-- Creates a directory unless it is there already. Gives the file system afterwards. -/
def ensureDirectory (fs : FileSystem) (steps : List Component) : Except Error FileSystem :=
  match fs.makeDirectory steps with
  | .ok made => .ok made
  | .error e => if fs.leadsToDirectory steps then .ok fs else .error e

/-- Creates the directory that a walk leads to from the end of the walk `start`, and if it
cannot be created because a directory on the way is missing, creates that one first. The
walk is given backwards. Gives the file system afterwards in any case, since a refusal does
not undo what was created. -/
def makeDirectoriesBack (fs : FileSystem) (start : List Component) :
    List Component → Except Error Unit × FileSystem
  | [] => (.ok (), fs)
  | step :: outer =>
    let steps := start ++ (step :: outer).reverse
    match fs.makeDirectory steps with
    | .ok made => (.ok (), made)
    | .error .absent =>
      match fs.makeDirectoriesBack start outer with
      | (.error e, made) => (.error e, made)
      | (.ok (), made) =>
        match made.ensureDirectory steps with
        | .ok all => (.ok (), all)
        | .error e => (.error e, made)
    | .error e => (if fs.leadsToDirectory steps then .ok () else .error e, fs)

/-- Creates the directory that a path leads to from the directory `cwd`, and the missing ones
on the way. -/
def makeDirectories (fs : FileSystem) (cwd p : Path) : Except Error Unit × FileSystem :=
  match checkPath p with
  | .error e => (.error e, fs)
  | .ok () => fs.makeDirectoriesBack (cwd.origin p) p.components.reverse

/-- The location of the file at the end of a path from the directory `cwd`, if the file can be
opened to be written. A path that ends with a slash is for directories only. -/
def openFile (fs : FileSystem) (cwd p : Path) : Except Error Location := do
  checkPath p
  -- an idle step at the end asks for a directory to hold the file
  let _ ← fs.walk (cwd.origin p ++ p.steps.dropLast ++ [.here])
  if p.endsWithSlash then .error .isDirectory
  else
    let l ← fs.walk (cwd.origin p ++ p.steps)
    if fs.isDirectory l then .error .isDirectory else .ok l

/-- Writes a file at the end of a path from the directory `cwd`, over the old content if it
exists. -/
def write (fs : FileSystem) (cwd p : Path) (content : String) : Except Error FileSystem := do
  let l ← fs.openFile cwd p
  return fs.put l (.file content)

/-! ## Disks -/

/-- What comes of writing a text to an open file: what the file holds afterwards, and why
writing has failed if it has. -/
structure Writing where
  held : String
  failure? : Option Error := none

/-- What comes of writing texts to the files at all locations. -/
def Disk := Location → String → Writing

/-- A disk with room for everything. -/
def Disk.ample : Disk := fun _ content => { held := content }

/-- A disk with room for everything, and two devices: one takes what is written and keeps
nothing of it, the other one takes nothing. -/
def Disk.withDevices : Disk
  | ["dev", "null"], _ => { held := "" }
  | ["dev", "full"], _ => { held := "", failure? := some .noSpace }
  | _, content => { held := content }

/-- Writes a file to a disk, as `write` does. Opening a file empties it. Gives the file system
afterwards in any case, since a failure after the file was opened does not bring the old content
back. -/
def writeOn (disk : Disk) (fs : FileSystem) (cwd p : Path) (content : String) :
    Except Error Unit × FileSystem :=
  match fs.openFile cwd p with
  | .error e => (.error e, fs)
  | .ok l =>
    let writing := disk l content
    (match writing.failure? with | some e => .error e | none => .ok (),
      fs.put l (.file writing.held))

end FileSystem

/-- A file system and the current directory, which relative paths start from. -/
structure Session where
  files : FileSystem := {}
  cwd : Path := ⟨"/"⟩

end WorkflowFile
