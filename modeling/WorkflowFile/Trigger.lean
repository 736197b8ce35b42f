import WorkflowFile.Arguments

/-!
# Triggers

* `Event` names the events that start a workflow.
* `Trigger` is an event with its filters, schedule or inputs.
* `Input` is a parameter of a manual start.
-/

namespace WorkflowFile

/-! ## Inputs of a manual start -/

/-- The kind of value an input takes. -/
inductive InputKind where
  | string
  | boolean
  | number
  | choice
  | environment
  deriving DecidableEq

/-- The word for a kind of input. -/
def InputKind.word : InputKind → String
  | string => "string"
  | boolean => "boolean"
  | number => "number"
  | choice => "choice"
  | environment => "environment"

/-- A parameter of a manual start. -/
structure Input where
  description : String
  kind : InputKind := .string
  required : Bool := false
  default : Option String := none
  /-- The values to choose from. -/
  options : List String := []
  deriving DecidableEq

namespace Input

/-- An optional text. -/
def text (description : String) : Input := { description }

/-- A required choice between options. -/
def choice (description : String) (options : List String) : Input :=
  { description, kind := .choice, required := true, options }

/-- The input that has to be given. -/
def require (i : Input) : Input := { i with required := true }

/-- The input with a default value. -/
def withDefault (i : Input) (value : String) : Input := { i with default := some value }

end Input

/-! ## Events -/

/-- The events that start a workflow. -/
inductive Event where
  | push
  | pullRequest
  | pullRequestTarget
  | release
  | schedule
  | workflowDispatch
  deriving DecidableEq

/-- The key of an event in the workflow file. -/
def Event.key : Event → String
  | push => "push"
  | pullRequest => "pull_request"
  | pullRequestTarget => "pull_request_target"
  | release => "release"
  | schedule => "schedule"
  | workflowDispatch => "workflow_dispatch"

/-! ## Filters -/

/-- The pushes that start a workflow. -/
structure PushFilter where
  branches : List String := []
  branchesIgnore : List String := []
  tags : List String := []
  tagsIgnore : List String := []
  paths : List String := []
  pathsIgnore : List String := []
  /-- Keys without a field of their own. -/
  extra : Arguments := ∅
  deriving DecidableEq

/-- Whether two filters are equal up to the order of map entries. -/
def PushFilter.same (f g : PushFilter) : Bool :=
  { f with extra := ∅ } == { g with extra := ∅ } && f.extra.agree (· == ·) g.extra

/-- The pull request activities that start a workflow. -/
structure PullRequestFilter where
  types : List String := []
  branches : List String := []
  branchesIgnore : List String := []
  paths : List String := []
  pathsIgnore : List String := []
  /-- Keys without a field of their own. -/
  extra : Arguments := ∅
  deriving DecidableEq

/-- Whether two filters are equal up to the order of map entries. -/
def PullRequestFilter.same (f g : PullRequestFilter) : Bool :=
  { f with extra := ∅ } == { g with extra := ∅ } && f.extra.agree (· == ·) g.extra

/-! ## Triggers -/

/-- What starts a workflow. -/
inductive Trigger where
  | push (filter : PushFilter)
  | pullRequest (filter : PullRequestFilter)
  | pullRequestTarget (filter : PullRequestFilter)
  | release (types : List String) (extra : Arguments)
  | schedule (crons : List String)
  | workflowDispatch (inputs : OrderedMap String Input) (extra : Arguments)
  deriving DecidableEq

namespace Trigger

/-- The event of a trigger. -/
def event : Trigger → Event
  | push _ => .push
  | pullRequest _ => .pullRequest
  | pullRequestTarget _ => .pullRequestTarget
  | release .. => .release
  | schedule _ => .schedule
  | workflowDispatch .. => .workflowDispatch

/-- Whether two triggers are equal up to the order of map entries. -/
def same : Trigger → Trigger → Bool
  | push f, push g => f.same g
  | pullRequest f, pullRequest g => f.same g
  | pullRequestTarget f, pullRequestTarget g => f.same g
  | release ts m, release us n => ts == us && m.agree (· == ·) n
  | schedule cs, schedule ds => cs == ds
  | workflowDispatch is m, workflowDispatch js n => is.agree (· == ·) js && m.agree (· == ·) n
  | _, _ => false

end Trigger

end WorkflowFile
