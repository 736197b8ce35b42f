import WorkflowFile.Job
import WorkflowFile.Trigger.Record

/-!
# Steps and jobs as document trees

A record lists the typed keys that are set in a fixed order and then the free keys. A free
key overrides a typed one in place, except for the steps of a job.

* `Step.record` and `Job.record` are the records.
* `Job.table` lists jobs under their ids.
-/

namespace WorkflowFile

/-! ## Steps -/

namespace Step

/-- The keys that say what a step does. -/
def taskEntries : Task → List (String × Option Node)
  | .action reference arguments =>
    [("uses", some (.string reference)), ("with", Node.arguments? arguments)]
  | .command script shell directory =>
    [("run", some (.string script)), ("shell", shell.map .string),
      ("working-directory", directory.map .string)]

/-- The typed keys of a step. -/
def typedEntries (s : Step) : List (String × Option Node) :=
  [("id", s.id.map .string), ("name", s.name.map .string)] ++ taskEntries s.task ++
    [("env", Node.arguments? s.env), ("if", s.condition.map .string),
      ("continue-on-error", s.continueOnError.map .bool),
      ("timeout-minutes", s.timeoutMinutes.map fun minutes : Nat => .integer minutes)]

/-- The record of a step. -/
def record (s : Step) : Node := .record (.merge s.typedEntries (Node.entriesOf s.extra))

end Step

/-! ## Jobs -/

/-- The labels of a runner: a text for a single one, a sequence for a list of them. -/
def Runner.node : Runner → Node
  | labels texts => Node.texts texts
  | runner => .string runner.display

namespace Job

/-- The typed keys of a job, the steps excepted. -/
def typedEntries (j : Job) : List (String × Option Node) :=
  [("name", j.name.map .string), ("runs-on", some j.runner.node), ("if", j.condition.map .string),
    ("needs", Node.texts? j.needs.members), ("env", Node.arguments? j.env),
    ("timeout-minutes", j.timeoutMinutes.map fun minutes : Nat => .integer minutes),
    ("continue-on-error", j.continueOnError.map .bool)]

/-- The record of a job. The steps come last and no free key overrides them. -/
def record (j : Job) : Node :=
  .record <| (OrderedMap.merge j.typedEntries (Node.entriesOf j.extra)).insert "steps"
    (.sequence (j.steps.map Step.record))

/-- The records of jobs under their ids. -/
def table (jobs : List Job) : Node := .record (.ofList (jobs.map fun j => (j.id, j.record)))

end Job

end WorkflowFile
