import WorkflowFile.Proofs.Records
import WorkflowFile.Proofs.Rendering

/-!
# All jobs wait for the consistency check

* `ConsistencyCheck.WaitsForCheck`: what the record of a job has to say so that it runs after
  the check and after everything the job needs itself.
* `ConsistencyCheck.AllWait`: every job of a document but the check waits for the check, and
  the check waits for nothing.
* `ConsistencyCheck.get?_needs_waitFor` and `ConsistencyCheck.waitsForCheck_iff`: a job that is
  made to wait does so in its record, unless a free key `needs` takes the place.
* `ConsistencyCheck.waitUnlessOverridden_of_install`: the same for whole documents.
-/

namespace WorkflowFile

namespace ConsistencyCheck

/-- The record of a job says that it waits for the check and for all that the job needs. -/
def WaitsForCheck (j : Job) (record : Node) : Prop :=
  ∃ rest, record.get? "needs" = some (Node.texts (jobId :: rest)) ∧
    ∀ id ∈ j.needs.members, id ∈ jobId :: rest

/-- In a document made for `w`, every job but the check waits for the check, and the check
waits for nothing. -/
def AllWait (w : Workflow) (document : Node) : Prop :=
  ∃ entries, document.get? "jobs" = some (.mapping entries) ∧
    (∀ e ∈ entries, e.1 ≠ jobId → ∃ j ∈ w.jobs, j.id = e.1 ∧ WaitsForCheck j e.2) ∧
    ∀ e ∈ entries, e.1 = jobId → e.2.get? "needs" = none

/-- In a document, the job `j` waits for the check. -/
def Waits (j : Job) (document : Node) : Prop :=
  ∃ record, document.at? [.key "jobs", .key j.id] = some record ∧ WaitsForCheck j record

/-- In a document made for `w`, the check waits for nothing, and exactly those jobs wait for
the check that have no free key `needs`; so all do exactly if none has one. -/
structure WaitUnlessOverridden (w : Workflow) (document : Node) : Prop where
  check : ∃ record, document.at? [.key "jobs", .key jobId] = some record ∧
    record.get? "needs" = none
  each : ∀ j ∈ w.jobs, Waits j document ↔ j.extra.get? "needs" = none
  all : AllWait w document ↔ ∀ j ∈ w.jobs, j.extra.get? "needs" = none

/-! ## One job -/

/-- The needs in the record of a job that was made to wait: a free key `needs` takes the place
of the sequence. -/
lemma get?_needs_waitFor (j : Job) :
    (j.waitFor jobId).record.get? "needs"
      = ((j.extra.get? "needs").map .string).or
          (some (Node.texts (jobId :: j.needs.members.filter (· ≠ jobId)))) := by
  rw [Job.get?_record, if_neg (by decide)]
  rfl

/-- A job that was made to wait does so exactly if it has no free key `needs`. -/
lemma waitsForCheck_iff (j : Job) :
    WaitsForCheck j (j.waitFor jobId).record ↔ j.extra.get? "needs" = none := by
  unfold WaitsForCheck
  rw [get?_needs_waitFor]
  cases h : j.extra.get? "needs" with
  | none =>
    simp only [Option.map_none, Option.none_or, iff_true]
    refine ⟨_, rfl, fun id hid => ?_⟩
    by_cases same : id = jobId
    · simp [same]
    · simp [hid, same]
  | some text =>
    -- a string is no sequence
    simp [Node.texts]

/-- The check itself has no needs. -/
lemma get?_needs_job {cwd : Path} {root : Option Path} {comparison : Comparison} {w : Workflow}
    {check : Job} (h : job cwd root comparison w = .ok check) :
    check.id = jobId ∧ check.record.get? "needs" = none := by
  have known := job_eq_ok h
  have id_eq : check.id = jobId := congrArg Job.id known
  have needs_eq : check.needs = ∅ := congrArg Job.needs known
  have extra_eq : check.extra = ∅ := congrArg Job.extra known
  refine ⟨id_eq, ?_⟩
  rw [Job.get?_record, if_neg (by decide), extra_eq]
  simp only [Job.typedEntries, needs_eq]
  rfl

/-! ## Whole documents -/

variable {cwd : Path} {root : Option Path} {comparison : Comparison} {w v : Workflow}

/-- No job of a workflow has the id of a check that can be installed. -/
lemma id_ne_of_unreserved (unreserved : w.job? jobId = none) {j : Job} (hj : j ∈ w.jobs) :
    j.id ≠ jobId := by
  intro same
  have := List.find?_eq_none.1 unreserved j hj
  simp [same] at this

lemma map_id_waitFor (jobs : List Job) :
    (jobs.map (·.waitFor jobId)).map Job.id = jobs.map Job.id := by
  rw [List.map_map]
  rfl

/-- The table of the jobs behind a check: one entry for the check and one for each job. -/
lemma table_install (sound : w.defect? = none) (unreserved : w.job? jobId = none) {check : Job}
    (check_id : check.id = jobId) :
    Job.table (check :: w.jobs.map (·.waitFor jobId))
      = .mapping ((jobId, check.record) ::
          w.jobs.map fun j => (j.id, (j.waitFor jobId).record)) := by
  rw [Job.table_eq]
  · simp [check_id, Job.waitFor]
  · rw [List.map_cons, map_id_waitFor, check_id, List.nodup_cons]
    refine ⟨fun h => ?_, (Workflow.distinct_of_sound sound).2⟩
    obtain ⟨j, hj, same⟩ := List.mem_map.1 h
    exact id_ne_of_unreserved unreserved hj same

/-- A document with an installed check lists the check and then the jobs, which wait for it. -/
lemma get?_jobs_install (sound : w.defect? = none) (unreserved : w.job? jobId = none)
    {check : Job} (check_id : check.id = jobId) :
    Node.get? (Workflow.document { w with jobs := check :: w.jobs.map (·.waitFor jobId) }) "jobs"
      = some (.mapping ((jobId, check.record) ::
          w.jobs.map fun j => (j.id, (j.waitFor jobId).record))) := by
  rw [Workflow.get?_document, if_pos rfl, table_install sound unreserved check_id]

/-- The record of an installed check in a document. -/
lemma at?_document_check (sound : w.defect? = none) (unreserved : w.job? jobId = none)
    {check : Job} (check_id : check.id = jobId) :
    Node.at? (Workflow.document { w with jobs := check :: w.jobs.map (·.waitFor jobId) })
      [.key "jobs", .key jobId] = some check.record := by
  simp only [Node.at?]
  rw [get?_jobs_install sound unreserved check_id]
  simp [Node.get?, Node.entries?, valueUnder?]

/-- The record of a job in a document with an installed check. -/
lemma at?_document_install (sound : w.defect? = none) (unreserved : w.job? jobId = none)
    {check : Job} (check_id : check.id = jobId) {j : Job} (hj : j ∈ w.jobs) :
    Node.at? (Workflow.document { w with jobs := check :: w.jobs.map (·.waitFor jobId) })
      [.key "jobs", .key j.id] = some (j.waitFor jobId).record := by
  have distinct : ((w.jobs.map fun j => (j.id, (j.waitFor jobId).record)).map Prod.fst).Nodup := by
    rw [List.map_map]
    exact (Workflow.distinct_of_sound sound).2
  have found : valueUnder? j.id (w.jobs.map fun j => (j.id, (j.waitFor jobId).record))
      = some (j.waitFor jobId).record :=
    (valueUnder?_eq_some_iff distinct).2 (List.mem_map.2 ⟨j, hj, rfl⟩)
  have other : jobId ≠ j.id := (id_ne_of_unreserved unreserved hj).symm
  simp only [Node.at?]
  rw [get?_jobs_install sound unreserved check_id]
  simp [Node.get?, Node.entries?, valueUnder?, other, found]

/-- All jobs behind an installed check wait for it exactly if none has a free key `needs`. -/
lemma allWait_document_install_iff (sound : w.defect? = none)
    (unreserved : w.job? jobId = none) {check : Job} (check_id : check.id = jobId)
    (check_needs : check.record.get? "needs" = none) :
    AllWait w (Workflow.document { w with jobs := check :: w.jobs.map (·.waitFor jobId) })
      ↔ ∀ j ∈ w.jobs, j.extra.get? "needs" = none := by
  unfold AllWait
  rw [get?_jobs_install sound unreserved check_id]
  constructor
  · rintro ⟨entries, same, wait, -⟩ j hj
    cases same
    have listed : (j.id, (j.waitFor jobId).record) ∈
        w.jobs.map fun j => (j.id, (j.waitFor jobId).record) := List.mem_map.2 ⟨j, hj, rfl⟩
    obtain ⟨k, hk, same_id, waits⟩ :=
      wait _ (List.mem_cons_of_mem _ listed) (id_ne_of_unreserved unreserved hj)
    -- ids are distinct, so the entry is that of the job itself
    obtain rfl : k = j :=
      List.inj_on_of_nodup_map (Workflow.distinct_of_sound sound).2 hk hj same_id
    exact (waitsForCheck_iff k).1 waits
  · intro free
    refine ⟨_, rfl, fun e he other => ?_, fun e he same => ?_⟩
    · rcases List.mem_cons.1 he with rfl | he
      · exact absurd rfl other
      · obtain ⟨j, hj, rfl⟩ := List.mem_map.1 he
        exact ⟨j, hj, rfl, (waitsForCheck_iff j).2 (free j hj)⟩
    · rcases List.mem_cons.1 he with rfl | he
      · exact check_needs
      · obtain ⟨j, hj, rfl⟩ := List.mem_map.1 he
        exact absurd same (id_ne_of_unreserved unreserved hj)

/-- All jobs of a sound workflow with an installed check wait for it unless a free key `needs`
keeps them from it. -/
theorem waitUnlessOverridden_of_install (sound : w.defect? = none)
    (installed : install cwd root comparison w = .ok v) :
    WaitUnlessOverridden w v.document := by
  obtain ⟨unreserved, check, made, rfl⟩ := install_eq_ok installed
  obtain ⟨check_id, check_needs⟩ := get?_needs_job made
  refine ⟨⟨check.record, at?_document_check sound unreserved check_id, check_needs⟩,
    fun j hj => ?_, allWait_document_install_iff sound unreserved check_id check_needs⟩
  rw [← waitsForCheck_iff]
  unfold Waits
  rw [at?_document_install sound unreserved check_id hj]
  simp

/-! ## Generated files -/

variable {session : Session} {o : Options} {r : Rendering}

lemma waitUnlessOverridden_of_emitted (checked : o.wantsCheck w = true)
    (emitted : r.Emitted session o w) : WaitUnlessOverridden w r.document := by
  obtain ⟨comparison, assembled⟩ := emitted.assembled
  obtain ⟨sound, -, v, installed, document_eq⟩ := Rendering.assemble_eq_ok assembled
  rw [if_pos checked] at installed
  rw [document_eq]
  exact waitUnlessOverridden_of_install sound installed

/-- **All jobs wait.** In a file that is rendered or published with a check, the jobs wait for
the check, and the check for nothing, unless a free key `needs` takes the place of the needs. -/
theorem waitUnlessOverridden_of_output (checked : o.wantsCheck w = true) :
    (∀ text, render session o w = .ok text →
      ∃ r : Rendering, r.Emitted session o w ∧ text = r.text ∧
        WaitUnlessOverridden w r.document) ∧
    (∀ path files, publish session o w = (.ok path, files) →
      ∃ r : Rendering, r.Emitted session o w ∧ files.read? session.cwd path = some r.text ∧
        WaitUnlessOverridden w r.document) := by
  refine ⟨fun text rendered => ?_, fun path files published => ?_⟩
  · obtain ⟨r, emitted, rfl⟩ := Rendering.emitted_of_render rendered
    exact ⟨r, emitted, rfl, waitUnlessOverridden_of_emitted checked emitted⟩
  · obtain ⟨r, emitted, read⟩ := Rendering.emitted_of_publish published
    exact ⟨r, emitted, read, waitUnlessOverridden_of_emitted checked emitted⟩

/-- A workflow with one job that has no needs of its own and one that names them under a free
key. -/
def deployment : Workflow where
  triggers := [.push {}]
  source := some ⟨"ci.rs"⟩
  target := some "ci.yml"
  jobs := [{ id := "build" }, { id := "deploy", extra := .ofList [("needs", "build")] }]

/-- The job without a free key waits for the check. -/
theorem build_waits_in_deployment :
    ({ root := some ⟨"/repo"⟩ } : Options).wantsCheck deployment = true ∧
      ∃ r : Rendering, render {} { root := some ⟨"/repo"⟩ } deployment = .ok r.text ∧
        Waits { id := "build" } r.document := by
  have rendered : ∃ text, render {} { root := some ⟨"/repo"⟩ } deployment = .ok text := ⟨_, rfl⟩
  obtain ⟨text, rendered⟩ := rendered
  obtain ⟨r, -, rfl, wait⟩ := (waitUnlessOverridden_of_output rfl).1 text rendered
  exact ⟨rfl, r, rendered, (wait.each _ (by decide)).2 rfl⟩

/-- The job with a free key `needs` does not wait, although the file is rendered with a check. -/
theorem deployment_not_allWait :
    ∃ r : Rendering, render {} { root := some ⟨"/repo"⟩ } deployment = .ok r.text ∧
      r.Emitted {} { root := some ⟨"/repo"⟩ } deployment ∧
      ({ root := some ⟨"/repo"⟩ } : Options).wantsCheck deployment = true ∧
      ¬ AllWait deployment r.document := by
  have rendered : ∃ text, render {} { root := some ⟨"/repo"⟩ } deployment = .ok text := ⟨_, rfl⟩
  obtain ⟨text, rendered⟩ := rendered
  obtain ⟨r, emitted, rfl⟩ := Rendering.emitted_of_render rendered
  have wait := waitUnlessOverridden_of_emitted (w := deployment) rfl emitted
  refine ⟨r, rendered, emitted, rfl, fun all => ?_⟩
  have free := wait.all.1 all { id := "deploy", extra := .ofList [("needs", "build")] } (by decide)
  exact absurd free (by decide)

end ConsistencyCheck

end WorkflowFile
