import WorkflowFile.Job
import WorkflowFile.Path
import WorkflowFile.Trigger

/-!
# Workflows

* `Workflow` is a definition: triggers, jobs and settings, where it comes from and where it
  goes.
* `Workflow.Edit` lists the changes a workflow can undergo and `Workflow.edit` makes one.
-/

namespace WorkflowFile

/-- Runs of one group exclude each other. -/
structure Concurrency where
  group : String
  /-- Whether a new run cancels the one in progress. -/
  cancelInProgress : Bool := false
  deriving DecidableEq

/-- The definition of a workflow. -/
structure Workflow where
  name : Option String := none
  /-- What starts the workflow. -/
  triggers : List Trigger := []
  env : Arguments := ∅
  /-- The file that holds this definition. -/
  source : Option Path := none
  /-- The name of the file that is generated from it. -/
  target : Option String := none
  concurrency : Option Concurrency := none
  /-- The expression that decides whether the consistency check runs. -/
  checkCondition : Option String := none
  jobs : List Job := []
  /-- Keys without a field of their own. -/
  extra : Arguments := ∅
  deriving DecidableEq

namespace Workflow

/-- A change of a workflow. -/
inductive Edit where
  | name (text : String)
  | trigger (trigger : Trigger)
  | env (key value : String)
  | source (path : Path)
  | target (name : String)
  | concurrency (settings : Concurrency)
  | checkCondition (expression : String)
  | job (job : Job)
  | extra (key value : String)

/-- A workflow after a change. -/
def edit (w : Workflow) : Edit → Workflow
  | .name text => { w with name := some text }
  | .trigger trigger => { w with triggers := w.triggers ++ [trigger] }
  | .env key value => { w with env := w.env.insert key value }
  | .source path => { w with source := some path }
  | .target name => { w with target := some name }
  | .concurrency settings => { w with concurrency := some settings }
  | .checkCondition expression => { w with checkCondition := some expression }
  | .job job => { w with jobs := w.jobs ++ [job] }
  | .extra key value => { w with extra := w.extra.insert key value }

/-- The first job with an id. -/
def job? (w : Workflow) (id : String) : Option Job := w.jobs.find? (·.id == id)

/-- The events of the triggers. -/
def events (w : Workflow) : List Event := w.triggers.map Trigger.event

/-- The ids of the jobs. -/
def jobIds (w : Workflow) : List String := w.jobs.map Job.id

/-- Whether two workflows are equal up to the order of map entries and needs. Sources are equal if
their paths have the same components. -/
def same (v w : Workflow) : Bool :=
  v.name == w.name && v.triggers.length == w.triggers.length &&
    (v.triggers.zip w.triggers).all (fun (s, t) => s.same t) && v.env.agree (· == ·) w.env &&
    v.source.map Path.components == w.source.map Path.components && v.target == w.target &&
    v.concurrency == w.concurrency && v.checkCondition == w.checkCondition &&
    v.jobs.length == w.jobs.length &&
    (v.jobs.zip w.jobs).all (fun (j, k) => j.same k) && v.extra.agree (· == ·) w.extra

end Workflow

end WorkflowFile
