import WorkflowFile.FileSystem
import WorkflowFile.Workflow.Soundness

/-!
# Faults

* `Fault` lists the causes for which no file is generated.
* `Report` is what a fault tells the user: a message, a code and possibly a hint.
-/

namespace WorkflowFile

/-! ## Reports -/

/-- What the user is told. -/
inductive Report where
  /-- A precondition of the operation is not met. -/
  | configuration (text : String)
  /-- The workflow itself is malformed. -/
  | validation (text : String)
  /-- The document has no YAML text. -/
  | serialization (text : String)
  /-- A file or directory could not be read or written. -/
  | access (path : Path) (cause : String)
  deriving DecidableEq

namespace Report

/-- The message of a report. -/
def message : Report → String
  | configuration text => "Configuration error: " ++ text
  | validation text => "Validation failed: " ++ text
  | serialization text => "Serialization failed: " ++ text
  | access path cause => "I/O error at " ++ path.text ++ ": " ++ cause

/-- The code under which a report is documented. -/
def code : Report → String
  | configuration _ => "actionsmith::configuration"
  | validation _ => "actionsmith::validation"
  | serialization _ => "actionsmith::serialization"
  | access .. => "actionsmith::io"

/-- The hint that goes with a report. -/
def hint? : Report → Option String
  | configuration _ =>
    some "Set the missing workflow field or pass it explicitly in the render options"
  | access .. => some "Check that the repository root exists and is writable"
  | _ => none

/-- Whether a report passes on the cause given by another system. -/
def hasCause : Report → Bool
  | access .. => true
  | _ => false

end Report

/-! ## Causes -/

/-- A precondition that is not met. -/
inductive Misconfiguration where
  | reservedJob (id : String)
  | checkNeedsSource
  | checkNeedsTarget
  | outsideRoot (path root : Path)
  | publishingNeedsRoot
  | publishingNeedsTarget
  | noRepository
  | noWorkTree
  deriving DecidableEq

/-- The text of a precondition that is not met. -/
def Misconfiguration.message : Misconfiguration → String
  | reservedJob id => "job id '" ++ id ++ "' is reserved for the consistency check"
  | checkNeedsSource => "consistency check requires a valid source_file and git root directory"
  | checkNeedsTarget => "consistency check requires a target_file_name"
  | outsideRoot path root => path.text ++ " is outside the repository root " ++ root.text
  | publishingNeedsRoot =>
    "writing a workflow requires a git root directory; set git_root or a source_file inside " ++
      "a repository"
  | publishingNeedsTarget => "writing a workflow requires a target_file_name"
  | noRepository => "Not in a git repository"
  | noWorkTree => "Cannot operate in a bare repository"

/-- Why no file is generated. -/
inductive Fault where
  | misconfigured (what : Misconfiguration)
  | unsound (defect : Workflow.Defect)
  | inaccessible (path : Path) (cause : FileSystem.Error)
  deriving DecidableEq

/-- What a fault tells the user. -/
def Fault.report : Fault → Report
  | misconfigured what => .configuration what.message
  | unsound defect => .validation defect.message
  | inaccessible path cause => .access path cause.message

end WorkflowFile
