import WorkflowFile.Proofs.ConsistencyCheck

/-!
# What a generated file lists

The triggers and the jobs of a workflow are written as mappings, in which an entry under a key
that occurs before would take the place of the first one. In a generated file that never happens.

* `Rendering.JobsFor` are the jobs of a file: those of the workflow and possibly the check.
* `Workflow.WellListed` says of a document that it lists triggers and jobs one by one, and that
  the jobs need nothing but jobs that are listed.
* `Rendering.JobsFor.distinct` and `Rendering.JobsFor.defined`: a check in front of the jobs, which
  all wait for it, leaves the ids distinct and the needs defined.
* `Rendering.wellListed_of_output`: every file that is rendered or published is well listed.
-/

namespace WorkflowFile

/-! ## Listing jobs and triggers -/

namespace Workflow

/-- In a document for `w`, the given jobs and the triggers are listed one by one. -/
structure WellListed (w : Workflow) (jobs : List Job) (document : Node) : Prop where
  /-- Under its id, each job has its own record. -/
  records : document.get? "jobs" = some (.mapping (jobs.map fun j => (j.id, j.record)))
  ids : (jobs.map Job.id).Nodup
  /-- Under its event, each trigger has its own record, unless a free key takes the place of all
  triggers. -/
  triggers : w.extra.get? "on" = none →
    document.get? "on" = some (.mapping (w.triggers.map fun t => (t.event.key, t.record)))
  events : (w.triggers.map fun t => t.event.key).Nodup
  /-- A record names no needs but ids of listed jobs, unless a free key takes their place. -/
  needs : ∀ j ∈ jobs, j.extra.get? "needs" = none →
    ∃ needed, j.record.get? "needs" = Node.texts? needed ∧ ∀ id ∈ needed, id ∈ jobs.map Job.id

/-- A document lists jobs one by one if their ids are distinct and their needs are defined. -/
lemma wellListed_document {w : Workflow} {jobs : List Job} (events : w.events.Nodup)
    (ids : (jobs.map Job.id).Nodup)
    (defined : ∀ j ∈ jobs, ∀ id ∈ j.needs.members, id ∈ jobs.map Job.id) :
    WellListed w jobs (document { w with jobs }) where
  records := by
    rw [get?_document, if_pos rfl, Job.table_eq ids]
  ids := ids
  triggers := by
    intro free
    rw [get?_document, if_neg (by decide), free, ← Trigger.table_eq events]
    rfl
  events := by
    have keys_distinct := events.map Event.key_injective
    rwa [Workflow.events, List.map_map] at keys_distinct
  needs := by
    intro j hj free
    refine ⟨j.needs.members, ?_, defined j hj⟩
    rw [Job.get?_record, if_neg (by decide), free]
    rfl

end Workflow

/-! ## The jobs of a file -/

namespace Rendering

open ConsistencyCheck (jobId)

variable {session : Session} {o : Options} {w : Workflow} {r : Rendering} {jobs : List Job}

/-- The jobs of a file for `w`: without a check those of the workflow, and with one the check and
then those of the workflow, which all wait for it. -/
def JobsFor (session : Session) (o : Options) (w : Workflow) (jobs : List Job) : Prop :=
  if o.wantsCheck w then
    ∃ comparison check,
      ConsistencyCheck.job session.cwd (o.rootFor session w) comparison w = .ok check ∧
      check.id = jobId ∧ w.job? jobId = none ∧ jobs = check :: w.jobs.map (·.waitFor jobId)
  else jobs = w.jobs

/-- The document of an emitted file is that of the workflow with other jobs. -/
lemma exists_jobsFor_of_emitted (emitted : r.Emitted session o w) :
    w.defect? = none ∧
      ∃ jobs, JobsFor session o w jobs ∧ r.document = Workflow.document { w with jobs } := by
  obtain ⟨comparison, assembled⟩ := emitted.assembled
  obtain ⟨sound, -, v, made, document_eq⟩ := assemble_eq_ok assembled
  refine ⟨sound, v.jobs, ?_⟩
  unfold JobsFor
  split at made
  · next checked =>
    obtain ⟨unreserved, check, check_made, rfl⟩ := ConsistencyCheck.install_eq_ok made
    have check_id := (ConsistencyCheck.get?_needs_job check_made).1
    rw [if_pos checked]
    exact ⟨⟨comparison, check, check_made, check_id, unreserved, rfl⟩, document_eq⟩
  · next unchecked =>
    cases made
    rw [if_neg unchecked]
    exact ⟨rfl, document_eq⟩

/-- The jobs of a file have distinct ids, since no job of the workflow has that of the check. -/
lemma JobsFor.distinct (sound : w.defect? = none) (h : JobsFor session o w jobs) :
    (jobs.map Job.id).Nodup := by
  have ids := (Workflow.distinct_of_sound sound).2
  unfold JobsFor at h
  split at h
  · obtain ⟨-, check, -, check_id, unreserved, rfl⟩ := h
    rw [List.map_cons, ConsistencyCheck.map_id_waitFor, check_id, List.nodup_cons]
    refine ⟨fun listed => ?_, ids⟩
    obtain ⟨j, hj, same⟩ := List.mem_map.1 listed
    exact ConsistencyCheck.id_ne_of_unreserved unreserved hj same
  · rw [h]
    exact ids

/-- The jobs of a file need nothing but jobs of the file. -/
lemma JobsFor.defined (sound : w.defect? = none) (h : JobsFor session o w jobs) {j : Job}
    (hj : j ∈ jobs) {id : String} (needed : id ∈ j.needs.members) : id ∈ jobs.map Job.id := by
  unfold JobsFor at h
  split at h
  · obtain ⟨_, check, made, check_id, -, rfl⟩ := h
    rw [List.map_cons, ConsistencyCheck.map_id_waitFor, check_id]
    rcases List.mem_cons.1 hj with rfl | hj
    · -- the check needs nothing
      have no_needs : j.needs = ∅ := congrArg Job.needs (ConsistencyCheck.job_eq_ok made)
      rw [no_needs] at needed
      cases needed
    · obtain ⟨k, hk, rfl⟩ := List.mem_map.1 hj
      rcases List.mem_cons.1 needed with rfl | needed
      · exact List.mem_cons_self
      · have needed_before : id ∈ k.needs.members := (List.mem_filter.1 needed).1
        exact List.mem_cons_of_mem _ (Workflow.defined_of_sound sound hk needed_before)
  · subst h
    exact Workflow.defined_of_sound sound hj needed

lemma wellListed_of_emitted (emitted : r.Emitted session o w) :
    ∃ jobs, JobsFor session o w jobs ∧ w.WellListed jobs r.document := by
  obtain ⟨sound, jobs, jobs_for, document_eq⟩ := exists_jobsFor_of_emitted emitted
  refine ⟨jobs, jobs_for, ?_⟩
  rw [document_eq]
  have events := (Workflow.distinct_of_sound sound).1
  exact Workflow.wellListed_document events (jobs_for.distinct sound) fun _ hj _ =>
    jobs_for.defined sound hj

/-- **Nothing is lost from a generated file.** A file that is rendered or published lists the
jobs, behind the check if there is one, and the triggers one by one, and its jobs need nothing but
jobs that it lists. -/
theorem wellListed_of_output (session : Session) (o : Options) (w : Workflow) :
    (∀ text, render session o w = .ok text →
      ∃ (r : Rendering) (jobs : List Job), r.Emitted session o w ∧ text = r.text ∧
        JobsFor session o w jobs ∧ w.WellListed jobs r.document) ∧
    (∀ path files, publish session o w = (.ok path, files) →
      ∃ (r : Rendering) (jobs : List Job), r.Emitted session o w ∧
        files.read? session.cwd path = some r.text ∧
        JobsFor session o w jobs ∧ w.WellListed jobs r.document) := by
  constructor
  · intro text rendered
    obtain ⟨r, emitted, rfl⟩ := emitted_of_render rendered
    obtain ⟨jobs, jobs_for, listed⟩ := wellListed_of_emitted emitted
    exact ⟨r, jobs, emitted, rfl, jobs_for, listed⟩
  · intro path files published
    obtain ⟨r, emitted, read⟩ := emitted_of_publish published
    obtain ⟨jobs, jobs_for, listed⟩ := wellListed_of_emitted emitted
    exact ⟨r, jobs, emitted, read, jobs_for, listed⟩

/-- A workflow with a manual start, a schedule and two jobs, one of which needs the other. -/
def pipeline : Workflow where
  triggers := [.schedule ["0 3 * * *"], .workflowDispatch ∅ ∅]
  source := some ⟨"ci.rs"⟩
  target := some "ci.yml"
  jobs := [{ id := "build" }, { id := "test", needs := .ofList ["build"] }]

/-- The check, both jobs and both triggers of the workflow are listed. -/
theorem pipeline_wellListed :
    let o : Options := { root := some ⟨"/repo"⟩ }
    ∃ (r : Rendering) (jobs : List Job), render {} o pipeline = .ok r.text ∧
      pipeline.WellListed jobs r.document ∧
      jobs.map (·.id) = ["check_yaml_consistency", "build", "test"] ∧
      r.document.get? "on" = some (.mapping [
        ("schedule", .sequence [.mapping [("cron", .string "0 3 * * *")]]),
        ("workflow_dispatch", .mapping [])]) := by
  intro o
  have rendered : ∃ text, render {} o pipeline = .ok text := ⟨_, rfl⟩
  obtain ⟨text, rendered⟩ := rendered
  obtain ⟨r, jobs, -, rfl, jobs_for, listed⟩ := (wellListed_of_output {} o pipeline).1 text rendered
  refine ⟨r, jobs, rendered, listed, ?_, listed.triggers rfl⟩
  obtain ⟨_, check, -, check_id, -, rfl⟩ := jobs_for
  rw [List.map_cons, check_id]
  rfl

end Rendering

end WorkflowFile
