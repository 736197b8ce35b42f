import WorkflowFile.ConsistencyCheck
import WorkflowFile.Preamble
import WorkflowFile.Repository
import WorkflowFile.Workflow.Document
import WorkflowFile.Yaml.Block

/-!
# Rendering

* `Rendering` is a generated file: its preamble and its document.
* `Rendering.assemble` makes one from a sound workflow, with the consistency check if it is
  wanted.
* `render` is the text of the file, `publishOn` writes it into the repository on a disk that can
  fail, and `publish` where there is room for it.
-/

namespace WorkflowFile

/-! ## Options -/

/-- What can be chosen for a rendering. -/
structure Options where
  /-- Whether to add the consistency check; a workflow with a source has one by default. -/
  check : Option Bool := none
  /-- The root of the repository; by default that of the repository around the source. -/
  root : Option Path := none
  preamble : Preamble := .generated
  deriving DecidableEq

namespace Options

/-- Whether the rendering of a workflow has a consistency check. -/
def wantsCheck (o : Options) (w : Workflow) : Bool := o.check.getD w.source.isSome

/-- The root of the repository of a workflow, if one is given or found. -/
def rootFor (o : Options) (session : Session) (w : Workflow) : Option Path :=
  match o.root with
  | some root => some root
  | none => w.source.bind fun source => (Repository.find session source).toOption

end Options

/-! ## Assembling -/

/-- A generated file. -/
structure Rendering where
  preamble : String
  document : Node

namespace Rendering

/-- The text of a generated file. -/
def text (r : Rendering) : String := r.preamble ++ r.document.yaml

/-- The locator that the preamble names: that of the source, if it has one. -/
def locator? (cwd : Path) (root : Option Path) (w : Workflow) : Option String :=
  match w.source, root with
  | some source, some root => (Locator.locate cwd root source).toOption
  | _, _ => none

/-- The generated file of a workflow whose repository has the given root. -/
def assemble (cwd : Path) (root : Option Path) (comparison : ConsistencyCheck.Comparison)
    (o : Options) (w : Workflow) : Except Fault Rendering :=
  match w.defect? with
  | some defect => .error (.unsound defect)
  | none => do
    let checked ←
      if o.wantsCheck w then ConsistencyCheck.install cwd root comparison w else .ok w
    return { preamble := o.preamble.compose (locator? cwd root w), document := checked.document }

end Rendering

/-- The text of the generated file of a workflow. Its check compares directly. -/
def render (session : Session) (o : Options) (w : Workflow) : Except Fault String :=
  (Rendering.assemble session.cwd (o.rootFor session w) .direct o w).map Rendering.text

/-! ## Publishing -/

/-- The directory of the workflow files below a root. -/
def workflowsDirectory (root : Path) : Path := root.join ⟨ConsistencyCheck.directory⟩

/-- Writes a text to a file of the workflows directory, which is created if it is missing.
Gives the path of the file, and the file system afterwards in any case. -/
def storeOn (disk : FileSystem.Disk) (session : Session) (root : Path) (target : String)
    (text : String) : Except Fault Path × FileSystem :=
  let directory := workflowsDirectory root
  match session.files.makeDirectories session.cwd directory with
  | (.error e, files) => (.error (.inaccessible directory e), files)
  | (.ok (), files) =>
    let path := directory.join ⟨target⟩
    match files.writeOn disk session.cwd path text with
    | (.error e, files) => (.error (.inaccessible path e), files)
    | (.ok (), files) => (.ok path, files)

/-- Writes the generated file of a workflow into its repository on a disk. Its check compares by
changes. Gives the path of the file, and the file system afterwards in any case. -/
def publishOn (disk : FileSystem.Disk) (session : Session) (o : Options) (w : Workflow) :
    Except Fault Path × FileSystem :=
  match o.rootFor session w, w.target with
  | none, _ => (.error (.misconfigured .publishingNeedsRoot), session.files)
  | some _, none => (.error (.misconfigured .publishingNeedsTarget), session.files)
  | some root, some target =>
    match Rendering.assemble session.cwd (some root) .regenerate o w with
    | .error fault => (.error fault, session.files)
    | .ok r => storeOn disk session root target r.text

/-- `storeOn` for a disk with room for everything. -/
def store (session : Session) (root : Path) (target : String) (text : String) :
    Except Fault Path × FileSystem :=
  storeOn .ample session root target text

/-- `publishOn` for a disk with room for everything. -/
def publish (session : Session) (o : Options) (w : Workflow) : Except Fault Path × FileSystem :=
  publishOn .ample session o w

end WorkflowFile
