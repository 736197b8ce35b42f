import WorkflowFile.OrderedMap

/-!
# Arguments

Mappings of a workflow file are assembled from declared pairs, whose value may be absent,
and from extra entries that the typed model does not know.

* `present` keeps the pairs that carry a value.
* `OrderedMap.merge` writes the present pairs and then the extra entries, so an extra
  entry overrides a declared one in place and otherwise follows all of them.
-/

namespace WorkflowFile

/-- Text arguments under text keys. -/
abbrev Arguments := OrderedMap String String

/-- The text of a flag. -/
def flagText (b : Bool) : String := if b then "true" else "false"

/-- The pairs that carry a value, in order. -/
def present {κ α : Type} (pairs : List (κ × Option α)) : List (κ × α) :=
  pairs.filterMap fun pair => pair.2.map fun value => (pair.1, value)

/-- The list itself, or nothing if it is empty. -/
def nonEmptyList? {α : Type} (as : List α) : Option (List α) :=
  if as.isEmpty then none else some as

namespace OrderedMap

variable {κ α : Type} [DecidableEq κ]

/-- The map of the pairs that carry a value. -/
def ofPresent (pairs : List (κ × Option α)) : OrderedMap κ α := ofList (present pairs)

/-- The map of the declared pairs that carry a value, overridden and continued by the
extra entries. -/
def merge (declared : List (κ × Option α)) (extra : List (κ × α)) : OrderedMap κ α :=
  (ofPresent declared).insertAll extra

/-- Writing two lists in turn is writing their concatenation. -/
theorem insertAll_append (m : OrderedMap κ α) (es fs : List (κ × α)) :
    m.insertAll (es ++ fs) = (m.insertAll es).insertAll fs := List.foldl_append

end OrderedMap

end WorkflowFile
