import WorkflowFile.Workflow

/-!
# Soundness of workflows

A workflow is sound if something starts it, no event and no job id occurs twice, and every
need of a job is a job of the workflow.

* `Workflow.Defect` lists what can be wrong.
* `Workflow.defect?` finds the first defect, in the order of the constructors.
-/

namespace WorkflowFile

/-- The first member of a list that occurs before in it or in `seen`. -/
def firstRepeat? {α : Type} [DecidableEq α] (seen : List α) : List α → Option α
  | [] => none
  | a :: as => if a ∈ seen then some a else firstRepeat? (a :: seen) as

namespace Workflow

/-- What can be wrong with a workflow. -/
inductive Defect where
  | noTrigger
  | repeatedEvent (event : Event)
  | repeatedJob (id : String)
  | undefinedNeed (job need : String)
  deriving DecidableEq

/-- The text of a defect. -/
def Defect.message : Defect → String
  | noTrigger => "workflow must have at least one trigger"
  | repeatedEvent event => "duplicate trigger for event '" ++ event.key ++ "'"
  | repeatedJob id => "duplicate job id '" ++ id ++ "'"
  | undefinedNeed job need => "job '" ++ job ++ "' depends on non-existent job '" ++ need ++ "'"

/-- The first need of a job that is not among the given ids. -/
def undefinedNeed? (ids : List String) (j : Job) : Option String :=
  j.needs.members.find? (· ∉ ids)

/-- The first defect of a workflow. -/
def defect? (w : Workflow) : Option Defect :=
  if w.triggers.isEmpty then some .noTrigger
  else
    match firstRepeat? [] w.events with
    | some event => some (.repeatedEvent event)
    | none =>
      match firstRepeat? [] w.jobIds with
      | some id => some (.repeatedJob id)
      | none =>
        w.jobs.findSome? fun j => (undefinedNeed? w.jobIds j).map (.undefinedNeed j.id)

end Workflow

end WorkflowFile
