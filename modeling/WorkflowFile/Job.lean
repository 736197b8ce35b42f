import WorkflowFile.OrderedSet
import WorkflowFile.Step

/-!
# Jobs

* `Runner` says where a job runs.
* `Job.Edit` lists the changes a job can undergo and `Job.edit` makes one. A step added by
  name is numbered by its position.
* `Job.waitFor` derives the job that first waits for another one.
-/

namespace WorkflowFile

/-! ## Runners -/

/-- Where a job runs. -/
inductive Runner where
  | ubuntuLatest
  | windowsLatest
  | macOsLatest
  /-- Any runner with the label. -/
  | label (text : String)
  /-- Any runner with all of the labels. -/
  | labels (texts : List String)
  deriving DecidableEq

namespace Runner

/-- The labels that select the runner. -/
def selection : Runner → List String
  | ubuntuLatest => ["ubuntu-latest"]
  | windowsLatest => ["windows-latest"]
  | macOsLatest => ["macos-latest"]
  | label text => [text]
  | labels texts => texts

/-- The labels on one line. -/
def display (r : Runner) : String := ", ".intercalate r.selection

end Runner

/-! ## Jobs -/

/-- A job of a workflow. -/
structure Job where
  /-- The key of the job in the workflow. -/
  id : String
  runner : Runner := .ubuntuLatest
  name : Option String := none
  /-- The jobs that have to be done before. -/
  needs : OrderedSet String := ∅
  /-- The expression that decides whether the job runs. -/
  condition : Option String := none
  env : Arguments := ∅
  timeoutMinutes : Option Nat := none
  continueOnError : Option Bool := none
  /-- Keys without a field of their own. -/
  extra : Arguments := ∅
  steps : List Step := []
  deriving DecidableEq

namespace Job

/-- A change of a job. -/
inductive Edit where
  | name (text : String)
  | need (id : String)
  | condition (expression : String)
  | env (key value : String)
  | timeoutMinutes (minutes : Nat)
  | continueOnError
  | extra (key value : String)
  /-- Appends a step as it is. -/
  | step (step : Step)
  /-- Appends a numbered step that uses an action. -/
  | uses (name : String) (action : Action)
  /-- Appends a numbered step that runs a command. -/
  | run (name script : String)
  deriving DecidableEq

/-- The id of the step at a position. -/
def stepId (position : Nat) : String := "step-" ++ toString position

/-- The job with a step appended. -/
def append (j : Job) (step : Step) : Job := { j with steps := j.steps ++ [step] }

/-- The job with a step appended under a name, its id numbered by its position. -/
def appendNumbered (j : Job) (name : String) (step : Step) : Job :=
  j.append (step.edits [.name name, .id (stepId j.steps.length)])

/-- A job after a change. -/
def edit (j : Job) : Edit → Job
  | .name text => { j with name := some text }
  | .need id => { j with needs := j.needs.insert id }
  | .condition expression => { j with condition := some expression }
  | .env key value => { j with env := j.env.insert key value }
  | .timeoutMinutes minutes => { j with timeoutMinutes := some minutes }
  | .continueOnError => { j with continueOnError := some true }
  | .extra key value => { j with extra := j.extra.insert key value }
  | .step step => j.append step
  | .uses name action => j.appendNumbered name (.uses action)
  | .run name script => j.appendNumbered name (.run script)

/-- A job after several changes. -/
def edits (j : Job) (changes : List Edit) : Job := changes.foldl edit j

/-- The job that needs the job `id` first, and then all that it needed before. -/
def waitFor (j : Job) (id : String) : Job := { j with needs := j.needs.promote id }

/-- Whether two jobs are equal up to the order of map entries and needs. -/
def same (j k : Job) : Bool :=
  j.id == k.id && j.runner == k.runner && j.name == k.name && j.needs.agree k.needs &&
    j.condition == k.condition && j.env.agree (· == ·) k.env &&
    j.timeoutMinutes == k.timeoutMinutes && j.continueOnError == k.continueOnError &&
    j.extra.agree (· == ·) k.extra && j.steps.length == k.steps.length &&
    (j.steps.zip k.steps).all fun (s, t) => s.same t

end Job

end WorkflowFile
