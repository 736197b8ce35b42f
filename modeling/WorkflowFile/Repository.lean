import WorkflowFile.Fault
import WorkflowFile.Repository.Head
import WorkflowFile.Repository.Inclusion
import WorkflowFile.Repository.Objects
import WorkflowFile.Text.Whitespace

/-!
# Repositories

* `Repository.at?` is the repository in a directory or where a link leads.
* `Repository.searchBack` looks for the nearest one around a directory.
* `Repository.Setup.of?` is what the settings of a repository say about its work tree.
* `Repository.workTree` is the work tree of a repository, which also depends on its settings.
* `Repository.find` is the root of the work tree around a path.
-/

namespace WorkflowFile

/-- How the place of a work tree is known. -/
inductive Repository.Tree where
  /-- By the directories around the place where the search found a repository. -/
  | surrounding (l : Location)
  /-- By a path in a file of the repository. -/
  | named (p : Path)
  deriving DecidableEq

/-- A repository that a search came upon. -/
structure Repository where
  /-- The directory that holds the repository. -/
  directory : Location
  /-- The work tree, if the way the repository was found tells one. -/
  tree? : Option Repository.Tree
  deriving DecidableEq

namespace Repository

/-- The name of the directory that holds a repository inside its work tree. -/
def directoryName : String := ".git"

/-- Whether a location has the name of a directory that holds a repository. -/
def isNamedAsRepository (l : Location) : Bool := l.getLast? == some directoryName

/-! ## Files that hold a path -/

/-- What a file that may hold a path says. -/
inductive Pointer where
  | absent
  | unreadable
  | path (p : Path)
  deriving DecidableEq

/-- The largest file that is read for a path, in bytes. -/
def maxPointerBytes : Nat := 65536

/-- The text of a file that may hold a path, without the white space at its end. -/
def pointerText? (content : String) : Option (List Char) :=
  if content.utf8ByteSize > maxPointerBytes then none
  else some (Text.trimEnd content.toList)

/-- What the file at a location says that may hold a path. -/
def pointer (fs : FileSystem) (l : Location) : Pointer :=
  match fs.entry? l with
  | none => .absent
  | some .directory => .unreadable
  | some (.file content) =>
    match pointerText? content with
    | some text => .path ⟨String.ofList text⟩
    | none => .unreadable

/-- The path that a link names. -/
def linkTarget? (content : String) : Option Path := do
  let target ← "gitdir: ".toList.isPrefixOf? (← pointerText? content)
  if target.isEmpty then none else some ⟨String.ofList target⟩

/-- The location a path leads to from a directory, or that directory for the empty path. -/
def follow? (fs : FileSystem) (dir : Location) (p : Path) : Option Location :=
  (fs.locate (.ofLocation []) ((Path.ofLocation dir).join p)).toOption

/-- The path of the directory in which a repository keeps what it shares with others: its own
unless a file names another. -/
def sharedPath? (fs : FileSystem) (directory : Location) : Option Path :=
  match pointer fs (directory ++ ["commondir"]) with
  | .absent => some (.ofLocation directory)
  | .unreadable => none
  | .path p => some ((Path.ofLocation directory).join p)

/-- The directory in which a repository keeps what it shares with others. -/
def shared? (fs : FileSystem) (directory : Location) : Option Location := do
  (fs.locate (.ofLocation []) (← sharedPath? fs directory)).toOption

/-! ## Recognition -/

/-- Whether a directory holds objects and references. -/
def isStore (fs : FileSystem) (l : Location) : Bool :=
  fs.isDirectory (l ++ ["objects"]) && fs.isDirectory (l ++ ["refs"])

/-- The work tree whose link is at the given path. -/
def treeOfLink (p : Path) : Path :=
  let text := p.text.toList
  if ("/" ++ directoryName).toList.isSuffixOf text then
    let around := text.take (text.length - directoryName.length - 1)
    if around.isEmpty then ⟨"/"⟩ else ⟨String.ofList around⟩
  else if p.text == directoryName then ⟨""⟩
  else p

/-- The repository that a directory holds. One that shares a store and says where the link to it
is belongs to that link's work tree; otherwise the directory around one with the usual name is
the work tree. -/
def held? (fs : FileSystem) (l : Location) : Option Repository :=
  if !fs.isFile (l ++ ["HEAD"]) then none
  else
    match pointer fs (l ++ ["commondir"]), pointer fs (l ++ ["gitdir"]) with
    | .path common, .path link =>
      if (follow? fs l common).any (isStore fs) then some ⟨l, some (.named (treeOfLink link))⟩
      else none
    | _, _ =>
      if !isStore fs l then none
      else some ⟨l, if isNamedAsRepository l then some (.surrounding l.dropLast) else none⟩

/-- The repository that a link in the directory `dir` leads to. -/
def linked? (fs : FileSystem) (dir : Location) (content : String) : Option Repository := do
  let l ← follow? fs dir (← linkTarget? content)
  if fs.isFile (l ++ ["HEAD"]) && (shared? fs l).any (isStore fs) then
    some ⟨l, some (.surrounding dir)⟩
  else none

/-- The repository at a location: in the directory there, or where the link there leads. -/
def at? (fs : FileSystem) (l : Location) : Option Repository :=
  match fs.entry? l with
  | some .directory => held? fs l
  | some (.file content) => linked? fs l.dropLast content
  | none => none

/-! ## Searching -/

/-- The nearest repository around a directory, which is given backwards. In each directory the
repository of its work tree is looked for before the one the directory holds itself. After a
directory with the name of a repository, and the directory around it, one directory is passed
over. -/
def searchBack (fs : FileSystem) : List String → Option Repository
  | [] => at? fs [directoryName] <|> at? fs []
  | name :: outer =>
    if name = directoryName then
      at? fs (name :: outer).reverse <|> at? fs outer.reverse <|>
        match outer with
        | _ :: _ :: rest => searchBack fs rest
        | _ => none
    else
      let l := (name :: outer).reverse
      at? fs (l ++ [directoryName]) <|> at? fs l <|> searchBack fs outer

/-! ## What the settings say -/

/-- What the settings of a repository say about its work tree. -/
inductive Setup where
  /-- That there is none. -/
  | bare
  /-- Nothing. -/
  | silent
  /-- That it is at a path. -/
  | named (p : Path)
  deriving DecidableEq

namespace Setup

/-- The format of a repository is a number that is not negative, and in the first format the
names of its objects are the usual ones. -/
def isSupported (s : Settings) : Bool :=
  match s.value? "core" "repositoryformatversion" with
  | none => true
  | some v =>
    match v.number? with
    | none => false
    | some n =>
      n ≥ 0 && (n != 1 || (s.value? "extensions" "objectformat").all (·.word? == some "sha1"))

/-- The settings that a repository does not share with others. There are none unless the main
settings announce them. -/
def ownSettings? (fs : FileSystem) (r : Repository) (main : Settings) : Option Settings :=
  if main.flag "extensions" "worktreeconfig" false then
    Settings.load? fs (r.directory ++ ["config.worktree"])
  else some {}

/-- All settings of a repository, where the directory of the main ones is given by its path and
its place. -/
def parts? (fs : FileSystem) (r : Repository) (path : Path) (common : Location)
    (main : Settings) : Option (List Inclusion.Part) := do
  let own ← ownSettings? fs r main
  let context : Inclusion.Context := ⟨[path, .ofLocation common], Head.branch? fs r.directory⟩
  Inclusion.expand? fs context
    (Inclusion.parts main (path.join ⟨"config"⟩) false ++
      Inclusion.parts own ((Path.ofLocation r.directory).join ⟨"config.worktree"⟩) true)

/-- What the settings of a repository say about its work tree, unless the repository is of no
use. Where the main ones deny that it is bare, they and its own can name a path. Otherwise it is
bare as soon as the main ones, with those they include, have a flag for it, whichever way it is
set. -/
def of? (fs : FileSystem) (r : Repository) : Option Setup := do
  let path ← sharedPath? fs r.directory
  let common ← shared? fs r.directory
  let main ← Settings.load? fs (common ++ ["config"])
  let isUsable := isSupported main && fs.isDirectory (common ++ ["objects"]) &&
    Objects.isReadable fs (path.join ⟨"objects"⟩)
  if !isUsable then none
  else
    let parts ← parts? fs r path common main
    if main.flag "core" "bare" true then
      let shared := Inclusion.settings (parts.filter (!·.isOwn))
      return if (shared.flag? "core" "bare").isSome then .bare else .silent
    else
      match (Inclusion.settings parts).value? "core" "worktree" with
      | some v => return .named (← v.path?)
      | none => return .silent

end Setup

/-! ## Work trees -/

/-- The path of a place in the file system, for a search along a path that starts with the given
slashes. -/
def Tree.path (slashes : String) : Tree → Path
  | surrounding l => .ofSegments slashes l
  | named p => p

/-- The work tree of a repository. Its settings can name one, seen from its directory. One with
the usual name has a work tree, named or found, unless it is said to be bare. -/
def treeUnder? (slashes : String) (r : Repository) (setup : Setup) : Option Path :=
  let usual := isNamedAsRepository r.directory
  let found? := r.tree?.map (Tree.path slashes)
  match setup with
  | .bare => if usual then none else found?
  | .silent => found?
  | .named p =>
    let around? := if usual then some (Path.ofSegments slashes r.directory.dropLast) else none
    ((Path.ofSegments slashes r.directory).join p).straighten? <|> around?

/-- The work tree of a repository. One whose settings are of no use is as good as none. -/
def workTree (fs : FileSystem) (slashes : String) (r : Repository) : Except Fault Path :=
  match Setup.of? fs r with
  | none => .error (.misconfigured .noRepository)
  | some setup =>
    match treeUnder? slashes r setup with
    | some tree => .ok tree
    | none => .error (.misconfigured .noWorkTree)

/-- The work tree around a directory, for a path that starts with the given slashes. -/
def around (fs : FileSystem) (slashes : String) (l : Location) : Except Fault Path :=
  match if fs.isDirectory l then searchBack fs l.reverse else none with
  | some r => r.workTree fs slashes
  | none => .error (.misconfigured .noRepository)

/-! ## Paths -/

/-- The directory in which the search for a path begins: the path itself if it leads to a
directory, else the directory around it. The path is given by the slashes it starts with and
its walk from the root. -/
def startingWalk (fs : FileSystem) (slashes : String) (walk : List Component) : List Component :=
  match FileSystem.checkPath (.ofSegments slashes (walk.filterMap Component.segment?)) with
  | .ok () => if fs.leadsToDirectory walk then walk else walk.dropLast
  | .error _ => walk.dropLast

/-- The root of the work tree around a path. It starts with the same slashes as the path unless
there are steps up in the path, which are undone first. -/
def find (session : Session) (p : Path) : Except Fault Path :=
  match session.cwd.absolute? p with
  | none => .error (.inaccessible p .emptyPath)
  | some walk =>
    let start := startingWalk session.files p.rootSlashes walk
    let slashes := if start.contains .up then "/" else p.rootSlashes
    match Location.resolve? start with
    | some l => around session.files slashes l
    | none => .error (.misconfigured .noRepository)

end Repository

end WorkflowFile
