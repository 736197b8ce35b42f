import WorkflowFile.Proofs.CheckEffect

/-!
# A check does not make a workflow unsound

With an installed check, a workflow has one job more and every other job has one need more. That
matters only to jobs that need the check already, when there is none yet.

* `Workflow.withoutNeed` is a workflow in which no job has a certain need.
* `Workflow.defect?_congr`: which defect is found depends on the triggers, the repeated ids and the
  undefined needs.
* `ConsistencyCheck.defect?_of_install`: the defect that is found with an installed check is that
  of the workflow without the need of the check.
-/

namespace WorkflowFile

namespace Job

/-- The job without one of its needs. -/
def withoutNeed (j : Job) (id : String) : Job := { j with needs := j.needs.erase id }

/-- A job without a need that it does not have is the job itself. -/
lemma withoutNeed_of_notMem {j : Job} {id : String} (new : id ∉ j.needs.members) :
    j.withoutNeed id = j := by
  rw [withoutNeed, OrderedSet.erase_of_notMem new]

end Job

namespace Workflow

/-- The workflow without one need of its jobs. -/
def withoutNeed (w : Workflow) (id : String) : Workflow :=
  { w with jobs := w.jobs.map (·.withoutNeed id) }

/-- A workflow without a need that no job has is the workflow itself. -/
lemma withoutNeed_of_notMem {w : Workflow} {id : String}
    (new : ∀ j ∈ w.jobs, id ∉ j.needs.members) : w.withoutNeed id = w := by
  have jobs_eq : w.jobs.map (·.withoutNeed id) = w.jobs := by
    have same : ∀ j ∈ w.jobs, j.withoutNeed id = j := fun j hj =>
      Job.withoutNeed_of_notMem (new j hj)
    simpa using List.map_congr_left same
  rw [withoutNeed, jobs_eq]

/-- The defect for the first undefined need of some jobs, where jobs with the given ids are
defined. -/
def undefinedDefect? (ids : List String) (jobs : List Job) : Option Defect :=
  jobs.findSome? fun j => (undefinedNeed? ids j).map (.undefinedNeed j.id)

/-- The same defect is found in two workflows with the same triggers, repeated ids and undefined
needs. -/
lemma defect?_congr {v w : Workflow} (triggers : v.triggers = w.triggers)
    (ids : firstRepeat? [] v.jobIds = firstRepeat? [] w.jobIds)
    (needs : undefinedDefect? v.jobIds v.jobs = undefinedDefect? w.jobIds w.jobs) :
    v.defect? = w.defect? := by
  unfold undefinedDefect? at needs
  unfold defect? events
  rw [triggers, ids, needs]

/-- What is undefined for a job that needs a new job is what was undefined for it without that
need. -/
lemma undefinedNeed?_waitFor (ids : List String) (id : String) (j : Job) :
    undefinedNeed? (id :: ids) (j.waitFor id) = undefinedNeed? ids (j.withoutNeed id) := by
  have others : (j.needs.members.filter (· ≠ id)).find? (· ∉ id :: ids)
      = (j.needs.members.filter (· ≠ id)).find? (· ∉ ids) := by
    rw [List.find?_filter, List.find?_filter]
    congr 1
    funext need
    by_cases same : need = id <;> simp [same]
  -- the new need comes first, and it is defined
  show (id :: j.needs.members.filter (· ≠ id)).find? (· ∉ id :: ids) = _
  rw [List.find?_cons_of_neg (by simp), others]
  rfl

end Workflow

namespace ConsistencyCheck

variable {cwd : Path} {root : Option Path} {comparison : Comparison} {w v : Workflow}

/-- A check that no job has the id of repeats no id. -/
lemma firstRepeat?_jobId_cons (unreserved : w.job? jobId = none) :
    firstRepeat? [] (jobId :: w.jobIds) = firstRepeat? [] w.jobIds := by
  show firstRepeat? [jobId] w.jobIds = _
  apply firstRepeat?_congr
  intro id listed
  obtain ⟨j, hj, rfl⟩ := List.mem_map.1 listed
  have other : j.id ≠ jobId := id_ne_of_unreserved unreserved hj
  simp [other]

/-- A check makes no need undefined and defines no need but that of itself. -/
lemma undefinedDefect?_install {check : Job} (needs_nothing : check.needs = ∅) :
    Workflow.undefinedDefect? (jobId :: w.jobIds) (check :: w.jobs.map (·.waitFor jobId))
      = Workflow.undefinedDefect? w.jobIds (w.withoutNeed jobId).jobs := by
  have check_defined : Workflow.undefinedNeed? (jobId :: w.jobIds) check = none := by
    rw [Workflow.undefinedNeed?, needs_nothing]
    rfl
  unfold Workflow.undefinedDefect? Workflow.withoutNeed
  rw [List.findSome?_cons, check_defined, List.findSome?_map, List.findSome?_map]
  simp only [Function.comp_def, Workflow.undefinedNeed?_waitFor]
  rfl

/-- The ids with an installed check. -/
lemma jobIds_install {check : Job} (check_id : check.id = jobId) :
    Workflow.jobIds { w with jobs := check :: w.jobs.map (·.waitFor jobId) }
      = jobId :: w.jobIds := by
  rw [Workflow.jobIds, List.map_cons, check_id, map_id_waitFor]
  rfl

/-- With an installed check, the defect is that of the workflow without the need of the check. -/
lemma defect?_install_eq (unreserved : w.job? jobId = none) {check : Job}
    (check_id : check.id = jobId) (needs_nothing : check.needs = ∅) :
    Workflow.defect? { w with jobs := check :: w.jobs.map (·.waitFor jobId) }
      = (w.withoutNeed jobId).defect? := by
  have ids := jobIds_install (w := w) check_id
  have ids' : (w.withoutNeed jobId).jobIds = w.jobIds := by
    simp [Workflow.jobIds, Workflow.withoutNeed, Function.comp_def, Job.withoutNeed]
  apply Workflow.defect?_congr
  · rfl
  · rw [ids, ids', firstRepeat?_jobId_cons unreserved]
  · rw [ids, ids', undefinedDefect?_install needs_nothing]

/-- **A check does not make a workflow unsound.** The defect of a workflow with an installed check
is that of the workflow without the need of the check. A sound workflow stays sound: its ids are
distinct and its needs are defined. -/
theorem defect?_of_install (installed : install cwd root comparison w = .ok v) :
    v = { w with jobs := v.jobs } ∧ v.defect? = (w.withoutNeed jobId).defect? ∧
      (w.defect? = none → v.defect? = none ∧ v.jobIds.Nodup ∧
        ∀ j ∈ v.jobs, ∀ id ∈ j.needs.members, id ∈ v.jobIds) := by
  obtain ⟨unreserved, check, made, rfl⟩ := install_eq_ok installed
  have check_id : check.id = jobId := (get?_needs_job made).1
  have needs_nothing : check.needs = ∅ := congrArg Job.needs (job_eq_ok made)
  have same := defect?_install_eq unreserved check_id needs_nothing
  refine ⟨rfl, same, fun sound => ?_⟩
  -- no job of a sound workflow needs the check
  have kept : w.withoutNeed jobId = w :=
    Workflow.withoutNeed_of_notMem fun j hj => notMem_needs_of_unreserved sound unreserved hj
  rw [kept, sound] at same
  exact ⟨same, (Workflow.distinct_of_sound same).2,
    fun j hj id needed => Workflow.defined_of_sound same hj needed⟩

/-- A workflow with two jobs, the second of which has a need. -/
def handover (need : String) : Workflow where
  triggers := [.push {}]
  source := some ⟨"ci.rs"⟩
  target := some "ci.yml"
  jobs := [{ id := "build" }, { id := "ship", needs := .ofList [need] }]

/-- With a check, the workflow stays sound if the need is the other job, and becomes sound if it is
the check itself. -/
theorem handover_sound :
    (∃ v, install ⟨"/"⟩ (some ⟨"/repo"⟩) .direct (handover "build") = .ok v ∧
      (handover "build").defect? = none ∧ v.defect? = none ∧ v.jobIds.Nodup) ∧
    ∃ v, install ⟨"/"⟩ (some ⟨"/repo"⟩) .direct (handover "check_yaml_consistency") = .ok v ∧
      (handover "check_yaml_consistency").defect?
        = some (.undefinedNeed "ship" "check_yaml_consistency") ∧ v.defect? = none := by
  have installed (need : String) :
      ∃ v, install ⟨"/"⟩ (some ⟨"/repo"⟩) .direct (handover need) = .ok v := ⟨_, rfl⟩
  obtain ⟨v, with_build⟩ := installed "build"
  obtain ⟨u, with_check⟩ := installed "check_yaml_consistency"
  have sound : (handover "build").defect? = none := by decide
  obtain ⟨stays, distinct, -⟩ := (defect?_of_install with_build).2.2 sound
  refine ⟨⟨v, with_build, sound, stays, distinct⟩, u, with_check, by decide, ?_⟩
  rw [(defect?_of_install with_check).2.1]
  decide

end ConsistencyCheck

end WorkflowFile
