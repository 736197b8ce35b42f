import WorkflowFile.Proofs.Listing

/-!
# What a check changes in a file

A workflow can be rendered with a check and without one. The two files differ in the check itself
and in the needs of the jobs, and in nothing else.

* `ConsistencyCheck.OnlyWaits` compares the records of one job, `ConsistencyCheck.Adds` whole files.
* `ConsistencyCheck.without_record_waitFor`: a job that is made to wait has the record it had, but
  for the needs, whatever its free keys are.
* `ConsistencyCheck.adds_of_install`: an installed check changes nothing else in the document.
* `ConsistencyCheck.adds_of_output`: what is rendered or published with a check is so without one.
-/

namespace WorkflowFile

/-! ## Keys of a mapping -/

namespace Node

/-- The keys of a mapping in order. -/
def keys (node : Node) : List String := (node.entries?.getD []).map Prod.fst

/-- A mapping without the entry under a key. -/
def without (k : String) : Node → Node
  | .mapping entries => .mapping (entries.filter (·.1 ≠ k))
  | node => node

lemma keys_record (m : OrderedMap String Node) : (record m).keys = m.keys := rfl

lemma without_record (m : OrderedMap String Node) (k : String) :
    (record m).without k = record (m.erase k) := rfl

end Node

/-- The same options without a check. -/
def Options.unchecked (o : Options) : Options := { o with check := some false }

namespace ConsistencyCheck

/-! ## The record of a job -/

/-- What stands for a job in a file without a check and in one with it: but for the needs, it is
the same mapping. The needs are the same behind the check, unless a free key takes their place. -/
structure OnlyWaits (j : Job) (plain checked : Node) : Prop where
  others : checked.without "needs" = plain.without "needs"
  needs : j.extra.get? "needs" = none →
    ∃ needed, plain.get? "needs" = Node.texts? needed ∧
      checked.get? "needs" = some (Node.texts (jobId :: needed))

/-- The record of a job that is made to wait is that of the job, but for the needs. -/
lemma without_record_waitFor (j : Job) (id : String) :
    (j.waitFor id).record.without "needs" = j.record.without "needs" := by
  have declared : (j.waitFor id).typedEntries.filter (·.1 ≠ "needs")
      = j.typedEntries.filter (·.1 ≠ "needs") := by
    simp [Job.typedEntries, Job.waitFor]
  have steps : "steps" ≠ "needs" := by decide
  -- the key can be left out of what is merged, and there it is all that differs
  unfold Job.record
  rw [Node.without_record, Node.without_record, OrderedMap.erase_insert_of_ne _ steps,
    OrderedMap.erase_insert_of_ne _ steps, OrderedMap.erase_merge, OrderedMap.erase_merge, declared]
  rfl

/-- A job that does not need the check yet only waits for it. -/
lemma onlyWaits_waitFor {j : Job} (new : jobId ∉ j.needs.members) :
    OnlyWaits j j.record (j.waitFor jobId).record where
  others := without_record_waitFor j jobId
  needs := by
    intro free
    refine ⟨j.needs.members, ?_, ?_⟩
    · rw [Job.get?_record, if_neg (by decide), free]
      rfl
    · have kept : j.needs.members.filter (· ≠ jobId) = j.needs.members :=
        congrArg OrderedSet.members (OrderedSet.erase_of_notMem new)
      rw [get?_needs_waitFor, free, kept]
      rfl

/-! ## The document -/

/-- A file without a check and one with it: preambles and documents are the same, but that the
jobs come after the check and wait for it. -/
structure Adds (w : Workflow) (plain checked : Rendering) : Prop where
  preamble : checked.preamble = plain.preamble
  keys : checked.document.keys = plain.document.keys
  values : ∀ k ≠ "jobs", checked.document.get? k = plain.document.get? k
  jobs : ∃ (check : Node) (before after : Job → Node),
    plain.document.get? "jobs" = some (.mapping (w.jobs.map fun j => (j.id, before j))) ∧
    checked.document.get? "jobs"
      = some (.mapping ((jobId, check) :: w.jobs.map fun j => (j.id, after j))) ∧
    ∀ j ∈ w.jobs, OnlyWaits j (before j) (after j)

variable {cwd : Path} {root : Option Path} {comparison : Comparison} {w v : Workflow}

/-- No job of a sound workflow can need a check that is still to be installed. -/
lemma notMem_needs_of_unreserved (sound : w.defect? = none) (unreserved : w.job? jobId = none)
    {j : Job} (hj : j ∈ w.jobs) : jobId ∉ j.needs.members := by
  intro needed
  obtain ⟨k, hk, same⟩ := List.mem_map.1 (Workflow.defined_of_sound sound hj needed)
  exact id_ne_of_unreserved unreserved hk same

/-- The documents of a workflow with different jobs have the same keys. -/
lemma keys_document_congr (w : Workflow) (js ks : List Job) :
    (Workflow.document { w with jobs := js }).keys
      = (Workflow.document { w with jobs := ks }).keys := by
  unfold Workflow.document
  rw [Node.keys_record, Node.keys_record, OrderedMap.keys_insert, OrderedMap.keys_insert]
  rfl

/-- The documents of a workflow with different jobs have the same values under all keys but that of
the jobs. -/
lemma get?_document_congr (w : Workflow) (js ks : List Job) {k : String} (other : k ≠ "jobs") :
    (Workflow.document { w with jobs := js }).get? k
      = (Workflow.document { w with jobs := ks }).get? k := by
  rw [Workflow.get?_document, Workflow.get?_document, if_neg (Ne.symm other),
    if_neg (Ne.symm other)]
  rfl

/-- An installed check changes nothing in the document but what it has to. -/
theorem adds_of_install (preamble : String) (sound : w.defect? = none)
    (installed : install cwd root comparison w = .ok v) :
    Adds w ⟨preamble, w.document⟩ ⟨preamble, v.document⟩ := by
  obtain ⟨unreserved, check, made, rfl⟩ := install_eq_ok installed
  have check_id := (get?_needs_job made).1
  refine ⟨rfl, keys_document_congr w _ w.jobs, fun k other => get?_document_congr w _ w.jobs other,
    check.record, Job.record, fun j => (j.waitFor jobId).record, ?_, ?_, ?_⟩
  · rw [Workflow.get?_document, if_pos rfl, Job.table_eq (Workflow.distinct_of_sound sound).2]
  · exact get?_jobs_install sound unreserved check_id
  · intro j hj
    exact onlyWaits_waitFor (notMem_needs_of_unreserved sound unreserved hj)

/-! ## Generated files -/

variable {session : Session} {o : Options} {r : Rendering}

/-- What is assembled with a check is assembled without one as well. -/
lemma exists_adds_of_assemble (checked : o.wantsCheck w = true) (comparison' : Comparison)
    (assembled : Rendering.assemble cwd root comparison o w = .ok r) :
    ∃ plain, Rendering.assemble cwd root comparison' o.unchecked w = .ok plain ∧
      Adds w plain r := by
  obtain ⟨sound, preamble_eq, v, installed, document_eq⟩ := Rendering.assemble_eq_ok assembled
  rw [if_pos checked] at installed
  refine ⟨⟨r.preamble, w.document⟩, ?_, ?_⟩
  · unfold Rendering.assemble
    rw [sound, preamble_eq]
    rfl
  · have adds := adds_of_install r.preamble sound installed
    rwa [← document_eq] at adds

/-- **A check changes nothing else.** What is rendered or published with a check can be rendered
or published without one, and the two files differ in the check and in the needs of jobs alone. -/
theorem adds_of_output (checked : o.wantsCheck w = true) :
    (∀ text, render session o w = .ok text →
      ∃ r plain : Rendering, r.Emitted session o w ∧ text = r.text ∧
        render session o.unchecked w = .ok plain.text ∧ plain.Emitted session o.unchecked w ∧
        Adds w plain r) ∧
    (∀ path files, publish session o w = (.ok path, files) →
      ∃ (r plain : Rendering) (files' : FileSystem), r.Emitted session o w ∧
        files.read? session.cwd path = some r.text ∧
        publish session o.unchecked w = (.ok path, files') ∧
        files'.read? session.cwd path = some plain.text ∧ plain.Emitted session o.unchecked w ∧
        Adds w plain r) := by
  constructor
  · intro text rendered
    obtain ⟨r, assembled, rfl⟩ := map_eq_ok_iff.1 rendered
    obtain ⟨plain, assembled', adds⟩ := exists_adds_of_assemble checked .direct assembled
    refine ⟨r, plain, Or.inl assembled, rfl, ?_, Or.inl assembled', adds⟩
    exact map_eq_ok_iff.2 ⟨plain, assembled', rfl⟩
  · intro path files published
    obtain ⟨p, target, r, found, named, assembled, stored⟩ := publish_eq_ok published
    obtain ⟨plain, assembled', adds⟩ := exists_adds_of_assemble checked .regenerate assembled
    obtain ⟨files', stored'⟩ := exists_store_eq_ok stored plain.text
    have found' : o.unchecked.rootFor session w = some p := found
    have emitted : r.Emitted session o w := Or.inr ⟨p, found, assembled⟩
    have emitted' : plain.Emitted session o.unchecked w := Or.inr ⟨p, found', assembled'⟩
    refine ⟨r, plain, files', emitted, read?_of_store stored, ?_, read?_of_store stored', emitted',
      adds⟩
    exact (publish_eq_store found' named assembled').trans stored'

/-- A workflow with a job that has its needs written under a free key and a job that has some of
its own, in front of other typed keys. -/
def shipment : Workflow where
  name := some "Ship"
  triggers := [.push {}]
  source := some ⟨"ci.rs"⟩
  target := some "ship.yml"
  jobs := [{ id := "build", extra := .ofList [("permissions", "none"), ("needs", "setup")] },
    { id := "ship", needs := .ofList ["build"], timeoutMinutes := some 5 }]

/-- Rendered with a check, the workflow differs in nothing else from what it is without one. -/
theorem shipment_adds :
    let o : Options := { root := some ⟨"/repo"⟩ }
    o.wantsCheck shipment = true ∧
    ∃ r plain : Rendering, render {} o shipment = .ok r.text ∧
      render {} o.unchecked shipment = .ok plain.text ∧ Adds shipment plain r := by
  intro o
  have rendered : ∃ text, render {} o shipment = .ok text := ⟨_, rfl⟩
  obtain ⟨text, rendered⟩ := rendered
  obtain ⟨r, plain, -, rfl, unchecked, -, adds⟩ := (adds_of_output rfl).1 text rendered
  exact ⟨rfl, r, plain, rendered, unchecked, adds⟩

end ConsistencyCheck

end WorkflowFile
