import WorkflowFile.BytePath
import WorkflowFile.Fault

/-!
# Locators

The locator of a file is its path seen from the root of the repository, written with single
slashes. It is the same in every checkout.

* `Locator.write` writes a walk as a locator.
* `Locator.route?` finds the walk that a path is located by. A relative path outside the root is
  taken as seen from the root already.
* `Locator.locate` finds the locator of a path, `Locator.locateBytes` that of a path of bytes.
-/

namespace WorkflowFile

namespace Locator

/-- The segments of a walk with slashes between them. -/
def write (walk : List Component) : String := "/".intercalate (walk.filterMap Component.segment?)

/-- The walk from a root to a path, for the current directory `cwd`. An absolute path outside the
root has none. -/
def route? (cwd root p : Path) : Option (List Component) :=
  match (cwd.absolute? p).bind root.components.isPrefixOf? with
  | some rest => some rest
  | none => if p.isAbsolute then none else some p.components

/-- The locator of a path below a root, for the current directory `cwd`. -/
def locate (cwd root p : Path) : Except Fault String :=
  match route? cwd root p with
  | some walk => .ok (write walk)
  | none => .error (.misconfigured (.outsideRoot p root))

/-- The locator of a path of bytes. It is a text, in which names are written as they are shown. -/
def locateBytes (cwd root p : BytePath) : Except Fault String :=
  match route? cwd.spread root.spread p.spread with
  | some walk => .ok (write (walk.map Component.shown))
  | none => .error (.misconfigured (.outsideRoot p.shown root.shown))

end Locator

end WorkflowFile
