import WorkflowFile.Locator

/-!
# The consistency check

A workflow can carry a job that regenerates its own file and fails if the result differs
from the committed one. All other jobs wait for it.

* `ConsistencyCheck.job` is that job.
* `ConsistencyCheck.install` puts it in front of the jobs of a workflow.
-/

namespace WorkflowFile

namespace ConsistencyCheck

/-- The id of the job, which no other job may have. -/
def jobId : String := "check_yaml_consistency"

/-- How the committed file is compared with a fresh one. -/
inductive Comparison where
  /-- Against the output of the definition. -/
  | direct
  /-- By generating the file again in place and asking for changes. -/
  | regenerate
  deriving DecidableEq

/-- The comparison by changes if that is asked for, else the direct one. -/
def Comparison.ofChanges (byChanges : Bool) : Comparison :=
  if byChanges then regenerate else direct

/-- The directory of the workflow files, seen from the root of a repository. -/
def directory : String := ".github/workflows"

/-- The path of the generated file in the commands of the job. -/
def targetText (target : String) : String := directory ++ "/" ++ target

/-- The commands of the job and their names, for a target and the locator of the source. -/
def commands (comparison : Comparison) (target locator : String) : List (String × String) :=
  match comparison with
  | .direct =>
    [("Consistency check", "diff -u '" ++ targetText target ++ "' <('" ++ locator ++ "')")]
  | .regenerate =>
    [("Execute script", "rm '" ++ targetText target ++ "' && '" ++ locator ++ "'"),
      ("Consistency check", "git diff --exit-code '" ++ targetText target ++ "'")]

/-- The job without the commands that compare. -/
def base (condition : Option String) : Job :=
  { id := jobId, name := some "Check YAML consistency", condition : Job }.edit
    (.uses "Check out" (.checkout {}))

/-- The job of a workflow whose repository has the given root. -/
def job (cwd : Path) (root : Option Path) (comparison : Comparison) (w : Workflow) :
    Except Fault Job :=
  match root, w.source with
  | some root, some source =>
    match w.target with
    | some target => do
      let locator ← Locator.locate cwd root source
      let runs := (commands comparison target locator).map fun c => Job.Edit.run c.1 c.2
      return (base w.checkCondition).edits runs
    | none => .error (.misconfigured .checkNeedsTarget)
  | _, _ => .error (.misconfigured .checkNeedsSource)

/-- The workflow with the job in front of its own, which all wait for it. -/
def install (cwd : Path) (root : Option Path) (comparison : Comparison) (w : Workflow) :
    Except Fault Workflow :=
  if (w.job? jobId).isSome then .error (.misconfigured (.reservedJob jobId))
  else do
    let check ← job cwd root comparison w
    return { w with jobs := check :: w.jobs.map (·.waitFor jobId) }

end ConsistencyCheck

end WorkflowFile
