import WorkflowFile.Arguments

/-!
# Document trees

The value that is written as a workflow file: scalars, sequences and mappings. A mapping
lists its entries in the order they are written.

* `Node.record` is the mapping of an ordered map, `Node.arguments` that of text arguments and
  `Node.texts` a sequence of strings.
* `Node.get?` and `Node.at?` look into a tree.
* `Node.same` compares trees, where the order of the entries of a mapping does not count.
-/

namespace WorkflowFile

/-- A value of a document. -/
inductive Node where
  | string (text : String)
  | bool (value : Bool)
  | integer (value : Int)
  | sequence (items : List Node)
  | mapping (entries : List (String × Node))
  deriving Inhabited

namespace Node

/-! ## Building -/

/-- The mapping with the entries of an ordered map. -/
def record (m : OrderedMap String Node) : Node := .mapping m.entries

/-- Text arguments as the entries of a mapping. -/
def entriesOf (m : Arguments) : List (String × Node) := (m.map .string).entries

/-- The mapping of text arguments. -/
def arguments (m : Arguments) : Node := .mapping (entriesOf m)

/-- The mapping of text arguments, or nothing if there are none. -/
def arguments? (m : Arguments) : Option Node := m.nonEmpty?.map arguments

/-- The sequence of the given strings. -/
def texts (items : List String) : Node := .sequence (items.map .string)

/-- The sequence of the given strings, or nothing if there are none. -/
def texts? (items : List String) : Option Node := (nonEmptyList? items).map texts

/-! ## Looking inside -/

/-- The text of a string. -/
def text? : Node → Option String
  | .string text => some text
  | _ => none

/-- The entries of a mapping. -/
def entries? : Node → Option (List (String × Node))
  | .mapping entries => some entries
  | _ => none

/-- The items of a sequence. -/
def items? : Node → Option (List Node)
  | .sequence items => some items
  | _ => none

/-- The value under a key of a mapping. -/
def get? (node : Node) (key : String) : Option Node := node.entries?.bind (valueUnder? key)

/-- The item of a sequence at a position. -/
def item? (node : Node) (i : Nat) : Option Node := node.items?.bind (·[i]?)

/-- What to select in a tree: a key or a position. -/
inductive Selector where
  | key (key : String)
  | position (i : Nat)

/-- The node that a chain of selectors leads to. -/
def at? (node : Node) : List Selector → Option Node
  | [] => some node
  | .key k :: rest => (node.get? k).bind (·.at? rest)
  | .position i :: rest => (node.item? i).bind (·.at? rest)

/-! ## Comparing -/

mutual

/-- Whether two trees are equal up to the order of the entries of their mappings. -/
def same : Node → Node → Bool
  | .string a, .string b => a == b
  | .bool a, .bool b => a == b
  | .integer a, .integer b => a == b
  | .sequence xs, .sequence ys => sameItems xs ys
  | .mapping es, .mapping fs => es.length == fs.length && sameEntries es fs
  | _, _ => false

/-- Whether two lists of items are the same one by one. -/
def sameItems : List Node → List Node → Bool
  | [], [] => true
  | x :: xs, y :: ys => x.same y && sameItems xs ys
  | _, _ => false

/-- Whether every entry of the first list has its like in the second. -/
def sameEntries : List (String × Node) → List (String × Node) → Bool
  | [], _ => true
  | (k, v) :: es, fs => (valueUnder? k fs).any (fun w => v.same w) && sameEntries es fs

end

end Node

end WorkflowFile
