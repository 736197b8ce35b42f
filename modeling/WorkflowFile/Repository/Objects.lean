import WorkflowFile.FileSystem
import WorkflowFile.Text.Digits
import WorkflowFile.Text.Lines

/-!
# Stores of objects

A store of objects can name further stores to take objects from, which can name others in turn.
A repository is of no use if a store cannot be listed or if a store is named twice.

* `Objects.unquote?` is the path that a quoted line names.
* `Objects.lenders?` are the stores that a store takes objects from.
* `Objects.isReadable` tells whether a store is of use together with its lenders.
-/

namespace WorkflowFile

namespace Repository

namespace Objects

/-! ## Lines that name a store -/

/-- The byte that a letter behind a backslash stands for. -/
def escaped? (c : Char) : Option UInt8 :=
  [('n', 10), ('r', 13), ('t', 9), ('a', 7), ('b', 8), ('v', 11), ('f', 12), ('"', 34),
    ('\\', 92)].lookup c

/-- The bytes that a quoted text stands for behind its opening quote. What follows the closing
quote does not count, and that one can be missing. -/
def unquotedBytes? : List Char → Option (List UInt8)
  | [] => some []
  | '"' :: _ => some []
  | ['\\'] => none
  | '\\' :: c :: cs =>
    match escaped? c with
    | some byte => (unquotedBytes? cs).map (byte :: ·)
    | none =>
      match cs with
      | d :: e :: rest =>
        if '0' ≤ c && c ≤ '3' then do
          let n ← Text.natOfText? 8 [c, d, e]
          return UInt8.ofNat n :: (← unquotedBytes? rest)
        else none
      | _ => none
  | c :: cs => (unquotedBytes? cs).map (String.utf8EncodeChar c ++ ·)

/-- The text that a quoted text stands for behind its opening quote. -/
def unquote? (cs : List Char) : Option String :=
  if cs.isEmpty then none
  else (unquotedBytes? cs).bind fun bytes => String.fromUTF8? ⟨bytes.toArray⟩

/-- The path that a line names, which may be quoted. -/
def named? : List Char → Option Path
  | '"' :: cs => (unquote? cs).map Path.mk
  | cs => some ⟨String.ofList cs⟩

/-- The paths that the lines of a text name. Empty lines and comments name none. -/
def namedIn? (text : String) : Option (List Path) :=
  ((Text.split '\n' text.toList).filter fun line =>
    !line.isEmpty && line.head? != some '#').mapM named?

/-! ## Lenders -/

/-- What is at the end of a path, if anything. It is not known if the way there is blocked. -/
def look? (fs : FileSystem) (p : Path) : Option (Option Entry) :=
  match fs.locate (.ofLocation []) p with
  | .ok l => some (fs.entry? l)
  | .error .absent => some none
  | .error _ => none

/-- The stores that a store names. Their paths are seen from the store `first`. -/
def named (fs : FileSystem) (first store : Path) : Option (List Path) := do
  match ← look? fs (store.join ⟨"info/alternates"⟩) with
  | none => some []
  | some (.file text) => return (← namedIn? text).map first.join
  | some .directory => none

/-- The place of a store, whether it is there or not. -/
def place? (p : Path) : Option Location := Location.resolve? p.steps

/-- All stores that some stores take objects from, with themselves. They take objects from one
another to the given depth at most. The places in `seen` are those of the stores that are known
already. -/
def lendersTo? (fs : FileSystem) (first : Path) (depth : Nat) (seen : List Location)
    (stores : List Path) : Option (List Path) :=
  match depth with
  | 0 => none
  | depth + 1 => do
    let more := (← stores.mapM (named fs first)).flatten
    if more.isEmpty then some stores
    else
      let seen := (← more.mapM place?) ++ seen
      if seen.Nodup then return stores ++ (← lendersTo? fs first depth seen more) else none

/-- The stores that a store takes objects from, with itself. As none is named twice, there are
not more of them than there are files. -/
def lenders? (fs : FileSystem) (store : Path) : Option (List Path) := do
  lendersTo? fs store (fs.entries.size + 1) [← place? store] [store]

/-- The packs of a store can be listed. -/
def isListable (fs : FileSystem) (store : Path) : Bool :=
  match look? fs (store.join ⟨"pack"⟩) with
  | some none | some (some .directory) => true
  | _ => false

/-- A store is of use together with the stores it takes objects from. -/
def isReadable (fs : FileSystem) (store : Path) : Bool :=
  (lenders? fs store).any (·.all (isListable fs))

end Objects

end Repository

end WorkflowFile
