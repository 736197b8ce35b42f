import WorkflowFile.Text.Lines

/-!
# Paths

A path is its text; slashes separate its segments. A path whose bytes are no text is none of these,
but a `BytePath`.

* `Path.segments` are the non-empty segments, `Path.steps` the walk they describe and
  `Path.components` that walk without idle steps.
* `Path.join` appends one path to another, `Path.absolute?` makes the walk of a path start
  where that of the current directory starts, `Path.ofSegments` writes a walk from the root.
* `Path.around` is the directory in front of the file at the end of a path.
* A `Location` is a place in a file system, named by the directories on the way to it.
-/

namespace WorkflowFile

/-- One step of a path. -/
inductive Component where
  /-- To the root of the file system. -/
  | root
  /-- Nowhere. -/
  | here
  /-- To the parent directory. -/
  | up
  /-- To an entry of the directory. -/
  | name (text : String)
  deriving DecidableEq

namespace Component

/-- The step a segment of a path stands for. -/
def ofSegment (segment : List Char) : Component :=
  if segment = ['.'] then .here
  else if segment = ['.', '.'] then .up
  else .name (String.ofList segment)

/-- The segment a step is written as, where idle steps and the root have none. -/
def segment? : Component → Option String
  | .root => none
  | .here => none
  | .up => some ".."
  | .name text => some text

end Component

/-- The names of the directories from the root to a place and the name of the place. -/
abbrev Location := List String

/-- A path, given by its text. -/
structure Path where
  text : String
  deriving DecidableEq

namespace Path

/-! ## Taking apart -/

/-- Whether the path starts at the root. -/
def isAbsolute (p : Path) : Bool := p.text.toList.head? == some '/'

/-- Whether the path ends with a slash. -/
def endsWithSlash (p : Path) : Bool := p.text.toList.getLast? == some '/'

/-- The segments between the slashes, empty ones left out. -/
def segments (p : Path) : List Component :=
  ((Text.split '/' p.text.toList).filter (· ≠ [])).map Component.ofSegment

/-- The walk that a path describes. -/
def steps (p : Path) : List Component :=
  if p.isAbsolute then .root :: p.segments else p.segments

/-- The walk without idle steps after the first one. -/
def components (p : Path) : List Component :=
  match p.steps with
  | [] => []
  | step :: rest => step :: rest.filter (· ≠ .here)

/-! ## Putting together -/

/-- The directory that an absolute path to a file names in front of the file. -/
def around (p : Path) : Path :=
  let outer := (Text.split '/' p.text.toList).dropLast.reverse.dropWhile fun segment =>
    segment == [] || segment == ['.']
  if outer.isEmpty then ⟨"/"⟩ else ⟨String.ofList (Text.join '/' outer.reverse)⟩

/-- The path `q` seen from `p`; an absolute path is the same from everywhere. -/
def join (p q : Path) : Path :=
  if q.isAbsolute || p.text.isEmpty then q
  else if p.endsWithSlash then ⟨p.text ++ q.text⟩
  else ⟨p.text ++ "/" ++ q.text⟩

/-- The walk to where a path seen from the directory `cwd` begins: to that directory, unless
the path starts at the root. -/
def origin (cwd p : Path) : List Component := if p.isAbsolute then [] else cwd.steps

/-- The walk of a path seen from the directory `cwd`, without idle steps. The empty path has
none. -/
def absolute? (cwd p : Path) : Option (List Component) :=
  if p.text.isEmpty then none
  else if p.isAbsolute then some p.components
  else some (cwd.components ++ p.components.filter (· ≠ .here))

/-- The slashes that a path from the root starts with when it is made absolute: just one, but
two if the path starts with exactly two, which some systems set apart. -/
def rootSlashes (p : Path) : String :=
  match p.text.toList with
  | '/' :: '/' :: '/' :: _ => "/"
  | '/' :: '/' :: _ => "//"
  | _ => "/"

/-- The path that starts with the given slashes and goes on with the given segments. -/
def ofSegments (slashes : String) (names : List String) : Path :=
  ⟨slashes ++ "/".intercalate names⟩

/-- The absolute path of a location. -/
def ofLocation (l : Location) : Path := ofSegments "/" l

end Path

namespace Location

/-- The location one step further, where a step up undoes the last step down. There is none
above the root. -/
def next? (l : Location) : Component → Option Location
  | .root => some []
  | .here => some l
  | .up => if l.isEmpty then none else some l.dropLast
  | .name text => some (l ++ [text])

/-- The location a walk from the root leads to, whatever the file system holds. -/
def resolve? (walk : List Component) : Option Location := walk.foldlM next? []

end Location

namespace Path

/-- An absolute path without steps up; there is none above the root. A path that has none to
begin with is left as it is. -/
def straighten? (p : Path) : Option Path :=
  if p.steps.contains .up then (Location.resolve? p.steps).map ofLocation else some p

end Path

end WorkflowFile
