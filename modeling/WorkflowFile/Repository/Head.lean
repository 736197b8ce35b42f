import WorkflowFile.FileSystem
import WorkflowFile.Text.Lines

/-!
# The head of a repository

The head of a repository names the branch that is checked out.

* `Head.isReferenceName` is the rule for names of references.
* `Head.branch?` is the branch that the head of a repository names.
-/

namespace WorkflowFile

namespace Repository

namespace Head

/-- A character that no name of a reference has. -/
def isForbidden (c : Char) : Bool :=
  c ≤ ' ' || c == '\x7f' || "~^:?*[\\".toList.contains c

/-- Two characters stand side by side in a text. -/
def hasPair (first second : Char) : List Char → Bool
  | c :: d :: cs => c == first && d == second || hasPair first second (d :: cs)
  | _ => false

/-- What stands between the slashes of the name of a reference is not empty and is no name of a
hidden or a lock file. -/
def isReferencePart (part : List Char) : Bool :=
  !part.isEmpty && part.head? != some '.' && !".lock".toList.isSuffixOf part

/-- The rule for names of references. -/
def isReferenceName (name : List Char) : Bool :=
  !name.any isForbidden && (Text.split '/' name).all isReferencePart &&
    !hasPair '.' '.' name && !hasPair '@' '{' name && name.getLast? != some '.'

/-- The name of the reference that the text of a head names. -/
def reference? (text : List Char) : Option (List Char) := do
  let name ← "ref: ".toList.isPrefixOf? text
  let line := (name.dropWhile (· == ' ')).takeWhile fun c => c != '\n' && c != '\r'
  if isReferenceName line then some line else none

/-- The branch that the head of the repository in a directory names. -/
def branch? (fs : FileSystem) (directory : Location) : Option String := do
  let .file text ← fs.entry? (directory ++ ["HEAD"]) | none
  ("refs/heads/".toList.isPrefixOf? (← reference? text.toList)).map String.ofList

end Head

end Repository

end WorkflowFile
