import WorkflowFile.FileSystem
import WorkflowFile.Repository.Settings.Reader
import WorkflowFile.Text.Wildcard

/-!
# Inclusion of settings

A section of settings can name further files, whose settings count from there on, possibly on a
condition. A file that is not there is left out, but one that cannot be read spoils the whole.

* `Settings.load?` reads the settings in a file.
* `Inclusion.Part` is a section together with where it comes from.
* `Inclusion.Context` is what conditions are about.
* `Inclusion.expand?` adds the settings that some settings include.
-/

namespace WorkflowFile

namespace Repository

/-- The settings in a file; without the file there are none. -/
def Settings.load? (fs : FileSystem) (l : Location) : Option Settings :=
  match fs.entry? l with
  | some (.file text) => read? text
  | _ => some {}

namespace Inclusion

/-- A section together with where it comes from. -/
structure Part where
  content : Section
  /-- The path of the file it stands in. -/
  file : Path
  /-- Whether it comes from settings that the repository does not share with others. -/
  isOwn : Bool
  deriving DecidableEq

/-- The sections of a file. -/
def parts (s : Settings) (file : Path) (isOwn : Bool) : List Part :=
  s.sections.map fun content => { content, file, isOwn }

/-- The settings in some sections. -/
def settings (ps : List Part) : Settings := ⟨ps.map (·.content)⟩

/-! ## Conditions -/

/-- What conditions are about. -/
structure Context where
  /-- The paths that the directory of the repository goes by. -/
  directories : List Path
  /-- The branch that the head of the repository names. -/
  branch? : Option String
  deriving DecidableEq

/-- The pattern for the directory of a repository that a condition in a file of the directory
`dir` describes: a relative one may start anywhere. -/
def directoryPattern (dir : Path) (text : List Char) : List Char :=
  let placed :=
    match text with
    | '.' :: '/' :: rest => dir.text.toList ++ '/' :: rest
    | _ => text
  let anchored := if placed.head? == some '/' then placed else "**/".toList ++ placed
  if anchored.getLast? == some '/' then anchored ++ "**".toList else anchored

/-- A pattern for the directory of a repository accepts it. -/
def acceptsDirectory (ignoreCase : Bool) (context : Context) (dir : Path) (text : List Char) :
    Bool :=
  (Value.pathText? text).any fun path =>
    context.directories.any fun directory =>
      Text.Wildcard.accepts ignoreCase (directoryPattern dir path) directory.text.toList

/-- A pattern for branches accepts the one that the head names. -/
def acceptsBranch (context : Context) (text : List Char) : Bool :=
  let pattern := if text.getLast? == some '/' then text ++ "**".toList else text
  context.branch?.any fun branch => Text.Wildcard.accepts false pattern branch.toList

/-- A pattern for addresses accepts one of a remote repository. -/
def acceptsRemote (known : List Part) (pattern : List Char) : Bool :=
  known.any fun part =>
    part.content.heading.startsWith "remote" && (part.content.values "url").any fun v =>
      v.text?.any fun url => Text.Wildcard.accepts false pattern url.toList

/-- A keyword and what follows the colon behind it. -/
def keyword? (text : List Char) : Option (String × List Char) :=
  match text.dropWhile (· != ':') with
  | ':' :: rest => some (String.ofList (text.takeWhile (· != ':')), rest)
  | _ => none

/-- A condition in a file of the directory `dir` holds, where `known` are the sections that can
tell of remote repositories. It consists of a keyword, a colon and a pattern. -/
def holds (context : Context) (known : List Part) (dir : Path) (condition : String) : Bool :=
  match keyword? condition.toList with
  | some ("gitdir", pattern) => acceptsDirectory false context dir pattern
  | some ("gitdir/i", pattern) => acceptsDirectory true context dir pattern
  | some ("onbranch", pattern) => acceptsBranch context pattern
  | some ("hasconfig", text) =>
    match keyword? text with
    | some ("remote.*.url", pattern) => acceptsRemote known pattern
    | _ => false
  | _ => false

/-! ## Expansion -/

/-- How deep files can include one another. -/
def maxDepth : Nat := 10

/-- A section includes the files it names. -/
def isActive (context : Context) (known : List Part) (part : Part) : Bool :=
  match part.content.heading.subject? with
  | none => part.content.heading.name == "include"
  | some condition =>
    part.content.heading.name == "includeIf" && holds context known part.file.around condition

/-- The paths of the files that a section includes. Files that are not there are left out. -/
def targets (fs : FileSystem) (context : Context) (known : List Part) (part : Part) :
    List (Path × Location) :=
  if isActive context known part then
    (part.content.values "path").filterMap fun v => do
      let file := part.file.around.join (← v.path?)
      let l ← (fs.locate (.ofLocation []) file).toOption
      if fs.isFile l && !file.endsWithSlash then some (file, l) else none
  else []

/-- Sections with those that each of them brings in right behind it. What one brings in is given
by the sections before it, with those they have brought in, and the ones behind it. -/
def grow? (bring? : List Part → Part → List Part → Option (List Part)) (done : List Part) :
    List Part → Option (List Part)
  | [] => some done
  | part :: rest => do
    let brought ← bring? done part rest
    grow? bring? (done ++ part :: brought) rest

/-- Sections of a file with those that it includes, unless files include one another to the
given depth. Each file comes right behind the section that includes it, so that of several the
first one comes last. Conditions on remote repositories look at the file that includes the one
they stand in, where there is one. -/
def expandTo? (fs : FileSystem) (context : Context) (depth : Nat) (outer? : Option (List Part))
    (ps : List Part) : Option (List Part) :=
  match depth with
  | 0 => none
  | depth + 1 =>
    let bring? (done : List Part) (part : Part) (rest : List Part) : Option (List Part) :=
      let known := outer?.getD (done ++ part :: rest)
      (targets fs context known part).foldlM (fun brought (file, l) => do
        let found ← Settings.load? fs l
        let now := done ++ part :: (brought ++ rest)
        let more ← expandTo? fs context depth (some now) (parts found file part.isOwn)
        return more ++ brought) []
    grow? bring? [] ps

/-- Sections with those that they include. -/
def expand? (fs : FileSystem) (context : Context) (ps : List Part) : Option (List Part) :=
  expandTo? fs context maxDepth none ps

end Inclusion

end Repository

end WorkflowFile
