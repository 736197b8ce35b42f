import WorkflowFile.Node
import WorkflowFile.Trigger

/-!
# Triggers as document trees

* `Trigger.record` is what stands under the event of a trigger: its filters or inputs
  without the empty ones, or the sequence of its cron expressions.
* `Trigger.table` lists triggers under their events.
-/

namespace WorkflowFile

/-- The keys of an input. -/
def Input.typedEntries (i : Input) : List (String × Option Node) :=
  [("description", some (.string i.description)), ("type", some (.string i.kind.word)),
    ("required", some (.bool i.required)), ("default", i.default.map .string),
    ("options", Node.texts? i.options)]

/-- The record of an input. -/
def Input.record (i : Input) : Node := .record (.ofPresent i.typedEntries)

/-- The typed keys of a push filter. -/
def PushFilter.typedEntries (f : PushFilter) : List (String × Option Node) :=
  [("branches", Node.texts? f.branches), ("branches-ignore", Node.texts? f.branchesIgnore),
    ("tags", Node.texts? f.tags), ("tags-ignore", Node.texts? f.tagsIgnore),
    ("paths", Node.texts? f.paths), ("paths-ignore", Node.texts? f.pathsIgnore)]

/-- The typed keys of a pull request filter. -/
def PullRequestFilter.typedEntries (f : PullRequestFilter) : List (String × Option Node) :=
  [("types", Node.texts? f.types), ("branches", Node.texts? f.branches),
    ("branches-ignore", Node.texts? f.branchesIgnore), ("paths", Node.texts? f.paths),
    ("paths-ignore", Node.texts? f.pathsIgnore)]

namespace Trigger

/-- The typed keys of a trigger; a schedule has none. -/
def typedEntries : Trigger → List (String × Option Node)
  | push filter => filter.typedEntries
  | pullRequest filter => filter.typedEntries
  | pullRequestTarget filter => filter.typedEntries
  | release types _ => [("types", Node.texts? types)]
  | schedule _ => []
  | workflowDispatch inputs _ =>
    [("inputs", (inputs.map Input.record).nonEmpty?.map .record)]

/-- The keys of a trigger without a field of their own; a schedule has none. -/
def extra : Trigger → Arguments
  | push filter => filter.extra
  | pullRequest filter => filter.extra
  | pullRequestTarget filter => filter.extra
  | release _ extra => extra
  | schedule _ => ∅
  | workflowDispatch _ extra => extra

/-- What stands under the event of a trigger. -/
def record : Trigger → Node
  | schedule crons => .sequence (crons.map fun cron => .mapping [("cron", .string cron)])
  | trigger => .record (.merge trigger.typedEntries (Node.entriesOf trigger.extra))

/-- The records of triggers under their events. -/
def table (triggers : List Trigger) : Node :=
  .record (.ofList (triggers.map fun t => (t.event.key, t.record)))

end Trigger

end WorkflowFile
