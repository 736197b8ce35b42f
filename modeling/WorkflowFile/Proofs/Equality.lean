import WorkflowFile.Proofs.CheckEffect
import WorkflowFile.Proofs.Content
import WorkflowFile.Proofs.Path
import WorkflowFile.Proofs.Sorted

/-!
# Equal workflows are rendered alike

Two workflows are equal if they differ in nothing but the order of map entries and of needs. The
order decides where keys stand in the document, but not which values they have.

* `Step.Same`, `Job.Same` and `Workflow.Same` say what equality means, field by field.
* `Step.sorted_record`, `Trigger.sorted_record`, `Job.sorted_record` and
  `Workflow.unordered_document` follow this up to the whole document.
* `Workflow.sound_iff_of_same` and `ConsistencyCheck.install_of_same`: equal workflows are sound
  alike, and a check can be installed in both and leaves them equal, or in neither.
-/

namespace WorkflowFile

/-- Lists that are related one by one are the same under functions that agree on what is related. -/
lemma map_eq_map_of_forall₂ {α β : Type} {R : α → α → Prop} {f : α → β} {as bs : List α}
    (agree : ∀ a b, R a b → f a = f b) (h : List.Forall₂ R as bs) : as.map f = bs.map f := by
  induction h with
  | nil => rfl
  | cons related _ ih => rw [List.map_cons, List.map_cons, agree _ _ related, ih]

/-- Where a property holds of one of two related members if it holds of the other, it holds of all
members of both lists or of neither. -/
lemma forall_mem_congr_of_forall₂ {α β : Type} {R : α → β → Prop} {P : α → Prop} {Q : β → Prop}
    {as : List α} {bs : List β} (agree : ∀ a b, R a b → (P a ↔ Q b)) (h : List.Forall₂ R as bs) :
    (∀ a ∈ as, P a) ↔ ∀ b ∈ bs, Q b := by
  induction h with
  | nil => simp
  | cons related _ ih => rw [List.forall_mem_cons, List.forall_mem_cons, agree _ _ related, ih]

/-- Lists are compared item by item exactly if they are related one by one. -/
lemma forall₂_iff_all_zip {α : Type} {same : α → α → Bool} {as bs : List α} :
    List.Forall₂ (fun a b => same a b = true) as bs
      ↔ as.length = bs.length ∧ ((as.zip bs).all fun (a, b) => same a b) = true := by
  rw [List.forall₂_iff_zip, List.all_eq_true]
  constructor
  · intro h
    exact ⟨h.1, fun _ listed => h.2 listed⟩
  · intro h
    exact ⟨h.1, fun {a b} listed => h.2 (a, b) listed⟩

/-! ## Steps -/

namespace Step

variable {s t : Step}

/-- What it means for two steps to be equal. -/
structure Same (s t : Step) : Prop where
  id : s.id = t.id
  name : s.name = t.name
  task : s.task.same t.task = true
  condition : s.condition = t.condition
  env : s.env.agree (· == ·) t.env = true
  continueOnError : s.continueOnError = t.continueOnError
  timeoutMinutes : s.timeoutMinutes = t.timeoutMinutes
  extra : s.extra.agree (· == ·) t.extra = true

lemma same_iff : s.same t = true ↔ s.Same t := by
  simp only [same, Bool.and_eq_true, beq_iff_eq, and_assoc]
  constructor
  · rintro ⟨id, name, task, condition, env, coe, minutes, extra⟩
    exact ⟨id, name, task, condition, env, coe, minutes, extra⟩
  · intro h
    exact ⟨h.id, h.name, h.task, h.condition, h.env, h.continueOnError, h.timeoutMinutes, h.extra⟩

lemma same_refl (s : Step) : s.same s = true := by
  have task : s.task.same s.task = true := by
    cases s.task with
    | action reference arguments => simp [Task.same, OrderedMap.agree_refl]
    | command script shell directory => simp [Task.same]
  exact same_iff.2
    ⟨rfl, rfl, task, rfl, OrderedMap.agree_refl _, rfl, rfl, OrderedMap.agree_refl _⟩

/-- The entries of equal tasks are the same once they are sorted. -/
lemma sorted_taskEntries {a b : Task} (h : a.same b = true) :
    ((taskEntries a).map fun e => (e.1, e.2.map Node.sorted))
      = (taskEntries b).map fun e => (e.1, e.2.map Node.sorted) := by
  cases a <;> cases b
  case action.action r as q bs =>
    simp only [Task.same, Bool.and_eq_true, beq_iff_eq] at h
    simp only [taskEntries, List.map_cons, List.map_nil, h.1, Node.sorted_arguments? h.2]
  case command.command a shell d b shell' e =>
    simp only [Task.same, Bool.and_eq_true, beq_iff_eq] at h
    rw [h.1.1, h.1.2, h.2]
  all_goals cases h

/-- Equal steps have the same record once it is sorted. -/
theorem sorted_record (h : s.same t = true) : s.record.sorted = t.record.sorted := by
  have h := same_iff.1 h
  refine Node.sorted_merge_congr s.nodup_keys_typedEntries ?_ (OrderedMap.get?_eq_of_agree h.extra)
  simp only [typedEntries, List.map_append, sorted_taskEntries h.task, List.map_cons, List.map_nil,
    h.id, h.name, h.condition, h.continueOnError, h.timeoutMinutes, Node.sorted_arguments? h.env]

end Step

/-! ## Jobs -/

namespace Job

variable {j k : Job}

/-- What it means for two jobs to be equal. -/
structure Same (j k : Job) : Prop where
  id : j.id = k.id
  runner : j.runner = k.runner
  name : j.name = k.name
  needs : j.needs.members.Perm k.needs.members
  condition : j.condition = k.condition
  env : j.env.agree (· == ·) k.env = true
  timeoutMinutes : j.timeoutMinutes = k.timeoutMinutes
  continueOnError : j.continueOnError = k.continueOnError
  extra : j.extra.agree (· == ·) k.extra = true
  steps : List.Forall₂ (fun s t => s.same t = true) j.steps k.steps

lemma same_iff : j.same k = true ↔ j.Same k := by
  simp only [same, Bool.and_eq_true, beq_iff_eq, and_assoc]
  constructor
  · rintro ⟨id, runner, name, needs, condition, env, minutes, coe, extra, steps⟩
    exact ⟨id, runner, name, OrderedSet.perm_of_agree needs, condition, env, minutes, coe, extra,
      forall₂_iff_all_zip.2 steps⟩
  · intro h
    exact ⟨h.id, h.runner, h.name, OrderedSet.agree_of_perm h.needs, h.condition, h.env,
      h.timeoutMinutes, h.continueOnError, h.extra, forall₂_iff_all_zip.1 h.steps⟩

lemma same_refl (j : Job) : j.same j = true :=
  same_iff.2 ⟨rfl, rfl, rfl, .refl _, rfl, OrderedMap.agree_refl _, rfl, rfl,
    OrderedMap.agree_refl _, List.forall₂_same.2 fun s _ => s.same_refl⟩

/-- Equal jobs stay equal if both wait for another one. -/
lemma same_waitFor (id : String) (h : j.same k = true) :
    (j.waitFor id).same (k.waitFor id) = true := by
  have h := same_iff.1 h
  exact same_iff.2 { h with needs := (h.needs.filter _).cons id }

/-- Equal jobs have the same record once it and its needs are sorted. -/
theorem sorted_record (h : j.same k = true) :
    (j.record.modify Node.sortedTexts ["needs"]).sorted
      = (k.record.modify Node.sortedTexts ["needs"]).sorted := by
  have h := same_iff.1 h
  have needs_eq := Node.settled_texts? "needs" h.needs
  have steps_eq : (j.steps.map fun s => s.record.sorted) = k.steps.map fun s => s.record.sorted :=
    map_eq_map_of_forall₂ (fun _ _ => Step.sorted_record) h.steps
  refine Node.sorted_modify_insert_congr Node.sortedTexts "needs" j.nodup_keys_typedEntries ?_
    (OrderedMap.get?_eq_of_agree h.extra) ?_
  · -- the needs are the one key that is changed before it is sorted
    have other : Node.settled Node.sortedTexts "needs" "env" = Node.sorted :=
      Node.settled_of_ne (by decide)
    simp only [typedEntries, List.map_cons, List.map_nil, h.runner, h.name, h.condition,
      h.timeoutMinutes, h.continueOnError, needs_eq, other, Node.sorted_arguments? h.env]
  · rw [Node.settled_of_ne (by decide), Node.sorted, Node.sorted, Node.sortedItems_eq,
      Node.sortedItems_eq, List.map_map, List.map_map]
    exact congrArg Node.sequence steps_eq

end Job

/-! ## Triggers -/

namespace Trigger

variable {t u : Trigger}

/-- Equal triggers are for the same event. -/
lemma event_eq_of_same (h : t.same u = true) : t.event = u.event := by
  cases t <;> cases u <;> first | rfl | cases h

/-- Equal triggers have the same record once it is sorted. -/
theorem sorted_record (h : t.same u = true) : t.record.sorted = u.record.sorted := by
  cases t <;> cases u
  case push.push f g =>
    simp only [same, PushFilter.same, Bool.and_eq_true, beq_iff_eq] at h
    have typed : f.typedEntries = g.typedEntries := (congrArg PushFilter.typedEntries h.1 :)
    exact Node.sorted_merge_congr (push f).nodup_keys_typedEntries
      (congrArg (List.map _) typed) (OrderedMap.get?_eq_of_agree h.2)
  case pullRequest.pullRequest f g | pullRequestTarget.pullRequestTarget f g =>
    simp only [same, PullRequestFilter.same, Bool.and_eq_true, beq_iff_eq] at h
    have typed : f.typedEntries = g.typedEntries := (congrArg PullRequestFilter.typedEntries h.1 :)
    exact Node.sorted_merge_congr (pullRequest f).nodup_keys_typedEntries
      (congrArg (List.map _) typed) (OrderedMap.get?_eq_of_agree h.2)
  case release.release ts m us n =>
    simp only [same, Bool.and_eq_true, beq_iff_eq] at h
    exact Node.sorted_merge_congr (release ts m).nodup_keys_typedEntries
      (by rw [typedEntries, h.1, typedEntries]) (OrderedMap.get?_eq_of_agree h.2)
  case schedule.schedule cs ds =>
    simp only [same, beq_iff_eq] at h
    rw [h]
  case workflowDispatch.workflowDispatch is m js n =>
    simp only [same, Bool.and_eq_true] at h
    refine Node.sorted_merge_congr (workflowDispatch is m).nodup_keys_typedEntries ?_
      (OrderedMap.get?_eq_of_agree h.2)
    simp only [typedEntries, List.map_cons, List.map_nil, Node.sorted_map_of_agree Input.record h.1]
  all_goals cases h

end Trigger

/-! ## Workflows -/

namespace Workflow

variable {v w : Workflow}

/-- What it means for two workflows to be equal. -/
structure Same (v w : Workflow) : Prop where
  name : v.name = w.name
  triggers : List.Forall₂ (fun t u => t.same u = true) v.triggers w.triggers
  env : v.env.agree (· == ·) w.env = true
  source : v.source.map Path.components = w.source.map Path.components
  target : v.target = w.target
  concurrency : v.concurrency = w.concurrency
  checkCondition : v.checkCondition = w.checkCondition
  jobs : List.Forall₂ (fun j k => j.same k = true) v.jobs w.jobs
  extra : v.extra.agree (· == ·) w.extra = true

lemma same_iff : v.same w = true ↔ v.Same w := by
  simp only [same, Bool.and_eq_true, beq_iff_eq, and_assoc]
  constructor
  · rintro ⟨name, trigger_count, triggers, env, source, target, concurrency, condition, job_count,
      jobs, extra⟩
    exact ⟨name, forall₂_iff_all_zip.2 ⟨trigger_count, triggers⟩, env, source, target, concurrency,
      condition, forall₂_iff_all_zip.2 ⟨job_count, jobs⟩, extra⟩
  · intro h
    have triggers := forall₂_iff_all_zip.1 h.triggers
    have jobs := forall₂_iff_all_zip.1 h.jobs
    exact ⟨h.name, triggers.1, triggers.2, h.env, h.source, h.target, h.concurrency,
      h.checkCondition, jobs.1, jobs.2, h.extra⟩

/-- The jobs of equal workflows have the same ids. -/
lemma jobIds_of_same (h : v.same w = true) : v.jobIds = w.jobIds :=
  map_eq_map_of_forall₂ (fun _ _ same => (Job.same_iff.1 same).id) (same_iff.1 h).jobs

/-- The tables of equal triggers are the same once they are sorted. -/
lemma sorted_triggers (h : v.same w = true) :
    (Trigger.table v.triggers).sorted = (Trigger.table w.triggers).sorted := by
  unfold Trigger.table
  rw [← OrderedMap.map_id (.ofList (v.triggers.map _)),
    ← OrderedMap.map_id (.ofList (w.triggers.map _))]
  refine Node.sorted_map_ofList_congr id ?_
  rw [List.map_map, List.map_map]
  refine map_eq_map_of_forall₂ (fun t u same => ?_) (same_iff.1 h).triggers
  simp only [Function.comp_apply, id_eq, Trigger.event_eq_of_same same, Trigger.sorted_record same]

/-- The tables of equal jobs are sorted alike once their needs are sorted. -/
lemma sorted_jobs (h : v.same w = true) :
    (Node.eachValue (Node.modify Node.sortedTexts ["needs"]) (Job.table v.jobs)).sorted
      = (Node.eachValue (Node.modify Node.sortedTexts ["needs"]) (Job.table w.jobs)).sorted := by
  refine Node.sorted_map_ofList_congr (Node.modify Node.sortedTexts ["needs"]) ?_
  rw [List.map_map, List.map_map]
  refine map_eq_map_of_forall₂ (fun j k same => ?_) (same_iff.1 h).jobs
  simp only [Function.comp_apply, (Job.same_iff.1 same).id, Job.sorted_record same]

/-- The documents of equal workflows are the same once the entries of all mappings and the needs of
all jobs are sorted. -/
theorem unordered_document (h : v.same w = true) :
    v.document.unordered = w.document.unordered := by
  have on_eq := sorted_triggers h
  have jobs_eq := sorted_jobs h
  have h := same_iff.1 h
  refine Node.sorted_modify_insert_congr _ "jobs" v.nodup_keys_typedEntries ?_
    (OrderedMap.get?_eq_of_agree h.extra) ?_
  · -- the jobs are the one key that is changed before it is sorted
    have other (k : String) (hk : k ≠ "jobs") := Node.settled_of_ne
      (g := Node.eachValue (Node.modify Node.sortedTexts ["needs"])) hk
    simp only [typedEntries, List.map_cons, List.map_nil, Option.map_some, h.name, h.concurrency,
      other "on" (by decide), other "env" (by decide), on_eq, Node.sorted_arguments? h.env]
  · rw [Node.settled, if_pos rfl, Node.settled, if_pos rfl, jobs_eq]

/-- Equal workflows are sound alike. -/
theorem sound_iff_of_same (h : v.same w = true) : v.defect? = none ↔ w.defect? = none := by
  have ids_eq := jobIds_of_same h
  have h := same_iff.1 h
  have started : v.triggers ≠ [] ↔ w.triggers ≠ [] := by
    rw [← List.length_pos_iff, ← List.length_pos_iff, h.triggers.length_eq]
  have events_eq : v.events = w.events :=
    map_eq_map_of_forall₂ (fun _ _ => Trigger.event_eq_of_same) h.triggers
  have needs : (∀ j ∈ v.jobs, ∀ id ∈ j.needs.members, id ∈ w.jobIds)
      ↔ ∀ k ∈ w.jobs, ∀ id ∈ k.needs.members, id ∈ w.jobIds := by
    refine forall_mem_congr_of_forall₂ (fun j k same => ?_) h.jobs
    simp only [(Job.same_iff.1 same).needs.mem_iff]
  rw [defect?_eq_none_iff, defect?_eq_none_iff, started, events_eq, ids_eq, needs]

end Workflow

/-! ## The consistency check -/

namespace ConsistencyCheck

variable {cwd : Path} {root : Option Path} {comparison : Comparison} {v w : Workflow}

/-- The check of equal workflows is the same, or it can be made for neither. -/
lemma job_of_same (cwd : Path) (root : Option Path) (comparison : Comparison)
    (h : v.same w = true) :
    (∃ check, job cwd root comparison v = .ok check ∧ job cwd root comparison w = .ok check) ∨
    ∃ f g, job cwd root comparison v = .error f ∧ job cwd root comparison w = .error g := by
  have h := Workflow.same_iff.1 h
  have source := h.source
  unfold job
  rw [h.target, h.checkCondition]
  cases root with
  | none => exact .inr ⟨_, _, rfl, rfl⟩
  | some root =>
    cases hv : v.source <;> cases hw : w.source <;> rw [hv, hw] at source
    · exact .inr ⟨_, _, rfl, rfl⟩
    · cases source
    · cases source
    · next p q =>
      cases w.target with
      | none => exact .inr ⟨_, _, rfl, rfl⟩
      | some target =>
        have located := @Locator.locate_congr cwd root p q (Option.some.inj source)
        rcases located with ⟨s, hp, hq⟩ | ⟨hp, hq⟩
        · simp only [hp, hq]
          exact .inl ⟨_, rfl, rfl⟩
        · simp only [hp, hq]
          exact .inr ⟨_, _, rfl, rfl⟩

/-- A check can be installed in equal workflows and leaves them equal, or in neither of them. -/
theorem install_of_same (cwd : Path) (root : Option Path) (comparison : Comparison)
    (h : v.same w = true) :
    (∃ v' w', install cwd root comparison v = .ok v' ∧ install cwd root comparison w = .ok w' ∧
      v'.same w' = true) ∨
    ∃ f g, install cwd root comparison v = .error f ∧
      install cwd root comparison w = .error g := by
  have reserved : (v.job? jobId).isSome = (w.job? jobId).isSome := by
    rw [Bool.eq_iff_iff, Workflow.isSome_job?_iff, Workflow.isSome_job?_iff,
      Workflow.jobIds_of_same h]
  unfold install
  rw [reserved]
  split
  · exact .inr ⟨_, _, rfl, rfl⟩
  · rcases job_of_same cwd root comparison h with ⟨check, hv, hw⟩ | ⟨f, g, hv, hw⟩
    · refine .inl ⟨_, _, by rw [hv]; rfl, by rw [hw]; rfl, ?_⟩
      have h := Workflow.same_iff.1 h
      refine Workflow.same_iff.2 { h with jobs := .cons (Job.same_refl check) ?_ }
      rw [List.forall₂_map_left_iff, List.forall₂_map_right_iff]
      exact h.jobs.imp fun j k same => Job.same_waitFor jobId same
    · exact .inr ⟨f, g, by rw [hv]; rfl, by rw [hw]; rfl⟩

/-- **Equality is respected.** Of equal workflows, both are sound or neither is, and a check can be
installed in both or in neither. Their jobs are equal then, too, and with these jobs their
documents are the same but for the order of map entries and of the needs of jobs. -/
theorem alike_of_same (h : v.same w = true) :
    (v.defect? = none ↔ w.defect? = none) ∧
    ((∃ v', install cwd root comparison v = .ok v') ↔
      ∃ w', install cwd root comparison w = .ok w') ∧
    ∀ v' w', install cwd root comparison v = .ok v' → install cwd root comparison w = .ok w' →
      List.Forall₂ (fun j k => j.same k = true) v'.jobs w'.jobs ∧
      (Workflow.document { v with jobs := v'.jobs }).unordered
        = (Workflow.document { w with jobs := w'.jobs }).unordered := by
  refine ⟨Workflow.sound_iff_of_same h, ?_, ?_⟩
  · rcases install_of_same cwd root comparison h with ⟨v', w', hv, hw, -⟩ | ⟨f, g, hv, hw⟩
    · exact iff_of_true ⟨v', hv⟩ ⟨w', hw⟩
    · refine iff_of_false ?_ ?_
      · rintro ⟨v', installed⟩
        cases hv.symm.trans installed
      · rintro ⟨w', installed⟩
        cases hw.symm.trans installed
  · intro v' w' hv hw
    rcases install_of_same cwd root comparison h with ⟨a, b, ha, hb, same⟩ | ⟨f, g, refused, -⟩
    · obtain rfl : a = v' := Except.ok.inj (ha.symm.trans hv)
      obtain rfl : b = w' := Except.ok.inj (hb.symm.trans hw)
      have jobs := (Workflow.same_iff.1 same).jobs
      have same_jobs : Workflow.Same { v with jobs := a.jobs } { w with jobs := b.jobs } :=
        { Workflow.same_iff.1 h with jobs }
      exact ⟨jobs, Workflow.unordered_document (Workflow.same_iff.2 same_jobs)⟩
    · cases refused.symm.trans hv

/-- A workflow that is started by hand and has a job whose runner is overridden. -/
def exhibition : Workflow where
  triggers := [.workflowDispatch (.ofList [("tag", .text "Tag"), ("dry", .text "Dry run")]) ∅]
  env := .ofList [("LANG", "C"), ("TZ", "UTC")]
  source := some ⟨"ci//exhibition.rs"⟩
  target := some "exhibition.yml"
  jobs := [{ id := "build" }, { id := "test" },
    { id := "hang", needs := .ofList ["build", "test"],
      extra := .ofList [("runs-on", "self-hosted"), ("permissions", "none")] }]

/-- The same workflow with everything in another order whose order does not count. -/
def rehanging : Workflow where
  triggers := [.workflowDispatch (.ofList [("dry", .text "Dry run"), ("tag", .text "Tag")]) ∅]
  env := .ofList [("TZ", "UTC"), ("LANG", "C")]
  source := some ⟨"ci/./exhibition.rs"⟩
  target := some "exhibition.yml"
  jobs := [{ id := "build" }, { id := "test" },
    { id := "hang", needs := .ofList ["test", "build"],
      extra := .ofList [("permissions", "none"), ("runs-on", "self-hosted")] }]

/-- The two orders of the exhibition are sound, take the check, and have the same document then but
for the order. -/
theorem exhibition_alike :
    let installed (w : Workflow) := install ⟨"/"⟩ (some ⟨"/repo"⟩) .direct w
    exhibition ≠ rehanging ∧ exhibition.same rehanging = true ∧ rehanging.defect? = none ∧
    ∃ v w, installed exhibition = .ok v ∧ installed rehanging = .ok w ∧
      v.jobs ≠ w.jobs ∧ List.Forall₂ (fun j k => j.same k = true) v.jobs w.jobs ∧
      (Workflow.document { exhibition with jobs := v.jobs }).unordered
        = (Workflow.document { rehanging with jobs := w.jobs }).unordered := by
  intro installed
  have same : exhibition.same rehanging = true := by decide
  have alike := @alike_of_same ⟨"/"⟩ (some ⟨"/repo"⟩) .direct exhibition rehanging same
  have sound : exhibition.defect? = none := by decide
  obtain ⟨v, hv⟩ : ∃ v, installed exhibition = .ok v := ⟨_, rfl⟩
  obtain ⟨w, hw⟩ := alike.2.1.1 ⟨v, hv⟩
  refine ⟨by decide, same, alike.1.1 sound, v, w, hv, hw, ?_, alike.2.2 v w hv hw⟩
  obtain ⟨-, check, made, rfl⟩ := install_eq_ok hv
  obtain ⟨-, check', made', rfl⟩ := install_eq_ok hw
  intro jobs
  have waiting := (List.cons.inj jobs).2
  revert waiting
  decide

end ConsistencyCheck

end WorkflowFile
