import WorkflowFile.Job.Record
import WorkflowFile.Workflow

/-!
# Workflows as document trees

* `Workflow.document` is the tree of a workflow file: the typed keys that are set, the free
  keys, and the jobs, which no free key overrides.
-/

namespace WorkflowFile

/-- The record of a concurrency setting. -/
def Concurrency.record (c : Concurrency) : Node :=
  .mapping [("group", .string c.group), ("cancel-in-progress", .bool c.cancelInProgress)]

namespace Workflow

/-- The typed keys of a workflow, the jobs excepted. -/
def typedEntries (w : Workflow) : List (String × Option Node) :=
  [("name", w.name.map .string), ("on", some (Trigger.table w.triggers)),
    ("concurrency", w.concurrency.map Concurrency.record), ("env", Node.arguments? w.env)]

/-- The document of a workflow. -/
def document (w : Workflow) : Node :=
  .record <| (OrderedMap.merge w.typedEntries (Node.entriesOf w.extra)).insert "jobs"
    (Job.table w.jobs)

end Workflow

end WorkflowFile
