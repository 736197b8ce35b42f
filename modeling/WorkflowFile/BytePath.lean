import WorkflowFile.Path
import WorkflowFile.Text.Bytes

/-!
# Paths of bytes

To the system, a path is a sequence of bytes, which need not be those of a text. Its slashes and
dots are bytes of their own, so that it is taken apart as a text is: as the text whose characters
have the numbers of the bytes.

* `BytePath.spread` is the path of that text, and `BytePath.shown` the one that is shown.
* `BytePath.ofPath` are the bytes of a path that is given by its text.
* `Component.spread` and `Component.shown` do the same with the name of one step.
-/

namespace WorkflowFile

namespace Component

/-- The step with another name, if it has one. -/
def rename (f : List Char → List Char) : Component → Component
  | .name text => .name (String.ofList (f text.toList))
  | step => step

/-- The step with the bytes of its name, each as the character with its number. -/
def spread : Component → Component := rename Text.bytes

/-- The step with its name as it is shown, where that is given by its bytes. -/
def shown : Component → Component := rename fun text => Text.shown (Text.gather text)

end Component

/-- A path, given by its bytes. -/
structure BytePath where
  bytes : List UInt8
  deriving DecidableEq

namespace BytePath

/-- The path whose characters have the numbers of the bytes. -/
def spread (p : BytePath) : Path := ⟨String.ofList (Text.spread p.bytes)⟩

/-- The path as it is shown. -/
def shown (p : BytePath) : Path := ⟨String.ofList (Text.shown p.bytes)⟩

/-- The bytes of a path that is given by its text. -/
def ofPath (p : Path) : BytePath := ⟨Text.encode p.text.toList⟩

end BytePath

end WorkflowFile
