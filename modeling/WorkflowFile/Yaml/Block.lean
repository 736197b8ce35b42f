import WorkflowFile.Node
import WorkflowFile.Yaml.Scalar

/-!
# Document trees as YAML text

Sequences and mappings are written in block style, one item or entry a line. The text of
every node ends its last line, so what follows always begins in the first column.

* `Yaml.Place` says where a node stands; it fixes what leads over to the node and how far
  its lines are indented.
* `Node.lines` is the text of a node at a place.
* `Node.yaml` is the text of a document.
-/

namespace WorkflowFile

namespace Yaml

/-! ## Places -/

/-- Where a node stands. The block around it is indented to the given column. -/
inductive Place where
  /-- The whole document. -/
  | top
  /-- On the line of a key, after its colon. -/
  | afterKey (column : Nat)
  /-- On the line of a lone dash or colon. -/
  | afterMark (column : Nat)

namespace Place

/-- The indentation of the lines that continue a scalar. -/
def scalarColumn : Place → Nat
  | .top => 2
  | .afterKey column => column + 2
  | .afterMark column => column + 2

/-- The indentation of a mapping. -/
def mappingColumn : Place → Nat
  | .top => 0
  | .afterKey column => column + 2
  | .afterMark column => column + 2

/-- The indentation of a sequence, which stays in the column of the key it belongs to. -/
def sequenceColumn : Place → Nat
  | .top => 0
  | .afterKey column => column
  | .afterMark column => column + 2

/-- What leads over to a node on the same line. -/
def gap : Place → List Char
  | .top => []
  | _ => [' ']

/-- What leads over to the first line of a block in a column: a block begins on a line of
its own after a key and on the same line after a mark. -/
def lead (column : Nat) : Place → List Char
  | .top => []
  | .afterKey _ => '\n' :: pad column
  | .afterMark _ => [' ']

end Place

/-! ## Keys -/

/-- Whether a key is short enough for the line of its value and has no break. -/
def isSimpleKey (key : String) : Bool :=
  key.utf8ByteSize ≤ 128 && !key.toList.any isBreak

/-- A key with its colon: on the line of its value if it is simple, otherwise on lines of
its own after a question mark. -/
def keyText (column : Nat) (key : String) : List Char :=
  if isSimpleKey key then scalarText (column + 2) key.toList ++ [':']
  else '?' :: ' ' :: scalarLine (column + 2) key.toList ++ pad column ++ [':']

/-- The place of the value under a key. -/
def valuePlace (column : Nat) (key : String) : Place :=
  if isSimpleKey key then .afterKey column else .afterMark column

end Yaml

/-! ## Nodes -/

namespace Node

open Yaml

mutual

/-- The text of a node at a place. -/
def lines (place : Place) : Node → List Char
  | .string text => place.gap ++ scalarLine place.scalarColumn text.toList
  | .bool value => place.gap ++ (flagText value).toList ++ ['\n']
  | .integer value => place.gap ++ (toString value).toList ++ ['\n']
  | .sequence items =>
    if items.isEmpty then place.gap ++ ['[', ']', '\n']
    else itemLines place.sequenceColumn (place.lead place.sequenceColumn) items
  | .mapping entries =>
    if entries.isEmpty then place.gap ++ ['{', '}', '\n']
    else entryLines place.mappingColumn (place.lead place.mappingColumn) entries

/-- The items of a sequence in a column, each after a dash. -/
def itemLines (column : Nat) (lead : List Char) : List Node → List Char
  | [] => []
  | item :: items =>
    lead ++ '-' :: item.lines (.afterMark column) ++ itemLines column (pad column) items

/-- The entries of a mapping in a column. -/
def entryLines (column : Nat) (lead : List Char) : List (String × Node) → List Char
  | [] => []
  | (key, value) :: entries =>
    lead ++ keyText column key ++ value.lines (valuePlace column key) ++
      entryLines column (pad column) entries

end

/-- The YAML text of a document. -/
def yaml (node : Node) : String := String.ofList (node.lines .top)

end Node

end WorkflowFile
