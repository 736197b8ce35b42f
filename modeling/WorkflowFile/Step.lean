import WorkflowFile.Action

/-!
# Steps

* `Step.uses` and `Step.run` make a step from an action or a command.
* `Step.Edit` lists the changes a step can undergo and `Step.edit` makes one. No change
  touches what the step does, apart from the shell and the directory of a command.
-/

namespace WorkflowFile

/-- What a step does. -/
inductive Task where
  /-- Invokes an action with resolved inputs. -/
  | action (reference : String) (arguments : Arguments)
  /-- Runs a command, possibly in another shell or directory. -/
  | command (script : String) (shell directory : Option String)
  deriving DecidableEq

/-- Whether two tasks are equal up to the order of the inputs. -/
def Task.same : Task → Task → Bool
  | action r as, action q bs => r == q && as.agree (· == ·) bs
  | command a s d, command b t e => a == b && s == t && d == e
  | _, _ => false

/-- One step of a job. -/
structure Step where
  id : Option String := none
  name : Option String := none
  task : Task
  /-- The expression that decides whether the step runs. -/
  condition : Option String := none
  env : Arguments := ∅
  continueOnError : Option Bool := none
  timeoutMinutes : Option Nat := none
  /-- Keys without a field of their own. -/
  extra : Arguments := ∅
  deriving DecidableEq

namespace Step

/-- The step that uses an action, with its inputs resolved. -/
def uses (action : Action) : Step := { task := .action action.reference action.arguments }

/-- The step that runs a command. -/
def run (script : String) : Step := { task := .command script none none }

/-- A change of a step. -/
inductive Edit where
  | name (text : String)
  | id (text : String)
  | condition (expression : String)
  | env (key value : String)
  | timeoutMinutes (minutes : Nat)
  | continueOnError
  | shell (text : String)
  | directory (text : String)
  | extra (key value : String)
  deriving DecidableEq

/-- A step after a change. A shell or directory is for commands only. -/
def edit (s : Step) : Edit → Step
  | .name text => { s with name := some text }
  | .id text => { s with id := some text }
  | .condition expression => { s with condition := some expression }
  | .env key value => { s with env := s.env.insert key value }
  | .timeoutMinutes minutes => { s with timeoutMinutes := some minutes }
  | .continueOnError => { s with continueOnError := some true }
  | .shell text =>
    match s.task with
    | .command script _ directory => { s with task := .command script (some text) directory }
    | .action .. => s
  | .directory text =>
    match s.task with
    | .command script shell _ => { s with task := .command script shell (some text) }
    | .action .. => s
  | .extra key value => { s with extra := s.extra.insert key value }

/-- A step after several changes. -/
def edits (s : Step) (changes : List Edit) : Step := changes.foldl edit s

/-- Whether two steps are equal up to the order of map entries. -/
def same (s t : Step) : Bool :=
  s.id == t.id && s.name == t.name && s.task.same t.task && s.condition == t.condition &&
    s.env.agree (· == ·) t.env && s.continueOnError == t.continueOnError &&
    s.timeoutMinutes == t.timeoutMinutes && s.extra.agree (· == ·) t.extra

end Step

end WorkflowFile
