import WorkflowFile.Proofs.Records

/-!
# The document determines the workflow

What a document leaves out is empty, and what it writes under typed keys can be told from the
free keys, as long as these have other names.

* `Workflow.Separable`: all free keys of a workflow are apart, and events and jobs are distinct.
* `Workflow.SameContent`: two workflows say the same, whatever way the runners are chosen in.
* `Step.record_inj`, `Job.generic_inj`, `Trigger.record_inj`: one record after the other is taken
  apart, up to the whole document (`Workflow.sameContent_of_document_eq`).
-/

namespace WorkflowFile

/-- Lists are told apart by a function that tells their elements apart. -/
lemma map_eq_map_of_inj {α β γ : Type} {P : α → Prop} {f : α → β} {g : α → γ}
    (inj : ∀ a b, P a → P b → f a = f b → g a = g b) {as bs : List α} (has : ∀ a ∈ as, P a)
    (hbs : ∀ b ∈ bs, P b) (h : as.map f = bs.map f) : as.map g = bs.map g := by
  induction as generalizing bs with
  | nil =>
    obtain rfl : bs = [] := by simpa using h.symm
    rfl
  | cons a as ih =>
    obtain _ | ⟨b, bs⟩ := bs
    · cases h
    simp only [List.map_cons, List.cons.injEq, List.forall_mem_cons] at h has hbs ⊢
    exact ⟨inj a b has.1 hbs.1 h.1, ih has.2 hbs.2 h.2⟩

lemma eq_of_map_eq {α β : Type} {P : α → Prop} {f : α → β}
    (inj : ∀ a b, P a → P b → f a = f b → a = b) {as bs : List α} (has : ∀ a ∈ as, P a)
    (hbs : ∀ b ∈ bs, P b) (h : as.map f = bs.map f) : as = bs := by
  have := map_eq_map_of_inj inj has hbs h
  rwa [List.map_id', List.map_id'] at this

/-! ## Steps -/

namespace Step

/-- The free keys of a step are apart from its typed ones. -/
def Separable (s : Step) : Prop := Node.Apart s.typedEntries s.extra

instance (s : Step) : Decidable s.Separable :=
  inferInstanceAs (Decidable (Node.Apart s.typedEntries s.extra))

/-- The typed keys of steps with tasks of the same kind determine their fields. -/
lemma eq_of_typedEntries_eq {s t : Step} (h : s.typedEntries = t.typedEntries)
    (extra_eq : s.extra = t.extra) : s = t := by
  obtain ⟨id, name, task, condition, env, coe, minutes, extra⟩ := s
  obtain ⟨id', name', task', condition', env', coe', minutes', extra'⟩ := t
  cases task <;> cases task' <;> simp_all [typedEntries, taskEntries]

/-- Behind the id and the name of a step stands what it does. -/
lemma find?_task (s : Step) (es : List (String × Node)) :
    ((present s.typedEntries ++ es).find? fun e => e.1 ∉ ["id", "name"])
      = match s.task with
        | .action reference _ => some ("uses", .string reference)
        | .command script _ _ => some ("run", .string script) := by
  obtain ⟨id, name, task, condition, env, coe, minutes, extra⟩ := s
  cases id <;> cases name <;> cases task <;> rfl

/-- The record of a step determines the step. -/
theorem record_inj {s t : Step} (hs : s.Separable) (ht : t.Separable)
    (h : s.record = t.record) : s = t := by
  have same_keys : s.typedEntries.map Prod.fst = t.typedEntries.map Prod.fst := by
    have entries_eq := congrArg OrderedMap.entries (Node.record_injective h)
    rw [Node.entries_merge s.nodup_keys_typedEntries hs,
      Node.entries_merge t.nodup_keys_typedEntries ht] at entries_eq
    have tasks := find?_task s (Node.entriesOf s.extra)
    rw [entries_eq, find?_task t (Node.entriesOf t.extra)] at tasks
    -- a task of the other kind would have another first key
    unfold typedEntries
    cases hst : s.task <;> cases htt : t.task <;> simp_all [taskEntries]
  obtain ⟨typed_eq, extra_eq⟩ := Node.record_merge_inj same_keys s.nodup_keys_typedEntries hs ht h
  exact eq_of_typedEntries_eq typed_eq extra_eq

end Step

/-! ## Jobs -/

/-- A runner up to the way it is chosen: a preset is the label of the same text. -/
def Runner.generic : Runner → Runner
  | labels texts => labels texts
  | runner => label runner.display

/-- The labels in a record are those of the runner. -/
@[simp] lemma Runner.node_inj {r q : Runner} : r.node = q.node ↔ r.generic = q.generic := by
  cases r <;> cases q <;> simp [Runner.node, Runner.generic]

namespace Job

/-- The free keys of a job are apart from its typed ones, and so are those of its steps. -/
structure Separable (j : Job) : Prop where
  typed : Node.Apart j.typedEntries j.extra
  steps : "steps" ∉ j.extra.keys
  each : ∀ s ∈ j.steps, s.Separable

instance (j : Job) : Decidable j.Separable :=
  decidable_of_iff (Node.Apart j.typedEntries j.extra ∧ "steps" ∉ j.extra.keys ∧
      ∀ s ∈ j.steps, s.Separable)
    ⟨fun ⟨typed, steps, each⟩ => ⟨typed, steps, each⟩, fun h => ⟨h.typed, h.steps, h.each⟩⟩

/-- A job up to the way its runner is chosen. -/
def generic (j : Job) : Job := { j with runner := j.runner.generic }

/-- The typed keys of a job determine its fields. -/
lemma generic_eq_of_typedEntries_eq {j k : Job} (id_eq : j.id = k.id)
    (h : j.typedEntries = k.typedEntries) (extra_eq : j.extra = k.extra)
    (steps_eq : j.steps = k.steps) : j.generic = k.generic := by
  obtain ⟨id, runner, name, needs, condition, env, minutes, coe, extra, steps⟩ := j
  obtain ⟨id', runner', name', needs', condition', env', minutes', coe', extra', steps'⟩ := k
  obtain rfl : id = id' := id_eq
  obtain rfl : extra = extra' := extra_eq
  obtain rfl : steps = steps' := steps_eq
  simp only [typedEntries, List.cons.injEq, Prod.mk.injEq, Option.some.injEq, true_and, and_true,
    Node.map_string_inj, Runner.node_inj, Node.texts?_inj, Node.arguments?_inj,
    Node.map_minutes_inj, Node.map_bool_inj] at h
  obtain ⟨rfl, runner_eq, rfl, needs_eq, rfl, rfl, rfl⟩ := h
  obtain rfl : needs = needs' := OrderedSet.ext needs_eq
  simp only [generic, runner_eq]

/-- A record does not say in which way the runner was chosen. -/
lemma record_generic (j : Job) : j.generic.record = j.record := by
  have runner_eq : j.runner.generic.node = j.runner.node := by
    rw [Runner.node_inj]
    cases j.runner <;> simp [Runner.generic, Runner.display, Runner.selection]
  simp only [record, typedEntries, generic, runner_eq]

/-- The record of a job determines the job, up to the way its runner is chosen. -/
theorem generic_inj {j k : Job} (hj : j.Separable) (hk : k.Separable) (id_eq : j.id = k.id)
    (h : j.record = k.record) : j.generic = k.generic := by
  have same_keys : j.typedEntries.map Prod.fst = k.typedEntries.map Prod.fst := rfl
  have undeclared : "steps" ∉ j.typedEntries.map Prod.fst := by simp [typedEntries]
  obtain ⟨typed_eq, extra_eq, records_eq⟩ := Node.record_insert_inj same_keys
    j.nodup_keys_typedEntries undeclared hj.typed hj.steps hk.typed hk.steps h
  have steps_eq : j.steps = k.steps :=
    eq_of_map_eq (fun _ _ => Step.record_inj) hj.each hk.each (Node.sequence.inj records_eq)
  exact generic_eq_of_typedEntries_eq id_eq typed_eq extra_eq steps_eq

/-- The table of jobs with distinct ids determines the jobs, up to the way their runners are
chosen. -/
theorem table_inj {js ks : List Job} (distinct : (js.map id).Nodup)
    (distinct' : (ks.map id).Nodup) (hjs : ∀ j ∈ js, j.Separable) (hks : ∀ k ∈ ks, k.Separable)
    (h : table js = table ks) : js.map generic = ks.map generic := by
  rw [table_eq distinct, table_eq distinct'] at h
  refine map_eq_map_of_inj (fun j k hj hk entry_eq => ?_) hjs hks (Node.mapping.inj h)
  obtain ⟨id_eq, record_eq⟩ := Prod.mk.inj entry_eq
  exact generic_inj hj hk id_eq record_eq

/-- The table does not say in which way the runners were chosen. -/
lemma table_generic (js : List Job) : table (js.map generic) = table js := by
  have entry_eq :
      (fun j : Job => (j.generic.id, j.generic.record)) = fun j => (j.id, j.record) := by
    funext j
    rw [record_generic]
    rfl
  rw [table, table, List.map_map]
  exact congrArg (fun f => Node.record (.ofList (js.map f))) entry_eq

end Job

/-! ## Triggers -/

lemma InputKind.word_injective : InputKind.word.Injective := by
  intro a b h
  cases a <;> cases b <;> first | rfl | exact absurd h (by decide)

/-- The record of an input determines the input. -/
lemma Input.record_injective : Input.record.Injective := by
  intro i j h
  have entries_record (i : Input) : (OrderedMap.ofPresent i.typedEntries).entries
      = present i.typedEntries ++ [] := by
    rw [List.append_nil]
    exact OrderedMap.entries_ofList_of_nodup _
      (List.Nodup.sublist (keys_present_sublist _) (by simp [typedEntries]))
  have entries_eq := congrArg OrderedMap.entries (Node.record_injective h)
  rw [entries_record, entries_record] at entries_eq
  have same_keys : i.typedEntries.map Prod.fst = j.typedEntries.map Prod.fst := rfl
  obtain ⟨typed_eq, -⟩ := present_append_inj same_keys (by simp [typedEntries]) (by simp)
    (by simp) entries_eq
  obtain ⟨description, kind, required, default, options⟩ := i
  obtain ⟨description', kind', required', default', options'⟩ := j
  simp only [typedEntries, List.cons.injEq, Prod.mk.injEq, Option.some.injEq, true_and, and_true,
    Node.string.injEq, Node.bool.injEq, Node.map_string_inj, Node.texts?_inj] at typed_eq
  obtain ⟨rfl, kind_eq, rfl, rfl, rfl⟩ := typed_eq
  obtain rfl : kind = kind' := InputKind.word_injective kind_eq
  rfl

namespace Trigger

/-- The free keys of a trigger are apart from its typed ones. -/
def Separable (t : Trigger) : Prop := Node.Apart t.typedEntries t.extra

instance (t : Trigger) : Decidable t.Separable :=
  inferInstanceAs (Decidable (Node.Apart t.typedEntries t.extra))

lemma nodup_keys_typedEntries (t : Trigger) : (t.typedEntries.map Prod.fst).Nodup := by
  cases t <;> simp [typedEntries, PushFilter.typedEntries, PullRequestFilter.typedEntries]

/-- The inputs of a manual start can be told from their table. -/
lemma inputs_inj {m n : OrderedMap String Input}
    (h : (m.map Input.record).nonEmpty?.map Node.record
      = (n.map Input.record).nonEmpty?.map Node.record) : m = n :=
  OrderedMap.map_injective Input.record_injective
    (OrderedMap.nonEmpty?_injective (Option.map_injective Node.record_injective h))

/-- The typed keys of triggers of the same event determine their fields, except for schedules,
which have no keys. -/
lemma eq_of_typedEntries_eq {t u : Trigger} (event_eq : t.event = u.event)
    (keyed : t.event ≠ .schedule) (typed_eq : t.typedEntries = u.typedEntries)
    (extra_eq : t.extra = u.extra) : t = u := by
  cases t <;> cases u <;> try cases event_eq
  case push.push f g =>
    cases f
    cases g
    simp_all [typedEntries, PushFilter.typedEntries, extra]
  case pullRequest.pullRequest f g =>
    cases f
    cases g
    simp_all [typedEntries, PullRequestFilter.typedEntries, extra]
  case pullRequestTarget.pullRequestTarget f g =>
    cases f
    cases g
    simp_all [typedEntries, PullRequestFilter.typedEntries, extra]
  case release.release types extra types' extra' => simp_all [typedEntries, Trigger.extra]
  case schedule.schedule crons crons' => exact absurd rfl keyed
  case workflowDispatch.workflowDispatch inputs extra inputs' extra' =>
    have inputs_eq : inputs = inputs' := inputs_inj (by simpa [typedEntries] using typed_eq)
    simp_all [Trigger.extra]

/-- Under the same event, the record of a trigger determines the trigger. -/
theorem record_inj {t u : Trigger} (ht : t.Separable) (hu : u.Separable)
    (event_eq : t.event = u.event) (h : t.record = u.record) : t = u := by
  by_cases keyed : t.event = .schedule
  · cases t <;> cases keyed
    cases u <;> cases event_eq
    next crons crons' =>
    have crons_eq := List.map_injective_iff.2 (fun a b h => by simpa using h) (Node.sequence.inj h)
    rw [crons_eq]
  · have record_eq (t : Trigger) (keyed : t.event ≠ .schedule) :
        t.record = .record (.merge t.typedEntries (Node.entriesOf t.extra)) := by
      cases t <;> first | rfl | exact absurd rfl keyed
    have same_keys : t.typedEntries.map Prod.fst = u.typedEntries.map Prod.fst := by
      cases t <;> cases u <;> first | rfl | cases event_eq
    rw [record_eq t keyed, record_eq u (event_eq ▸ keyed)] at h
    obtain ⟨typed_eq, extra_eq⟩ :=
      Node.record_merge_inj same_keys t.nodup_keys_typedEntries ht hu h
    exact eq_of_typedEntries_eq event_eq keyed typed_eq extra_eq

/-- The table of triggers with distinct events determines the triggers. -/
theorem table_inj {ts us : List Trigger} (distinct : (ts.map event).Nodup)
    (distinct' : (us.map event).Nodup) (hts : ∀ t ∈ ts, t.Separable)
    (hus : ∀ u ∈ us, u.Separable) (h : table ts = table us) : ts = us := by
  rw [table_eq distinct, table_eq distinct'] at h
  refine eq_of_map_eq (fun t u ht hu entry_eq => ?_) hts hus (Node.mapping.inj h)
  obtain ⟨key_eq, record_eq⟩ := Prod.mk.inj entry_eq
  exact record_inj ht hu (Event.key_injective key_eq) record_eq

end Trigger

/-! ## Workflows -/

lemma Concurrency.record_injective : Concurrency.record.Injective := by
  intro c d h
  obtain ⟨group, cancel⟩ := c
  obtain ⟨group', cancel'⟩ := d
  simpa [record] using h

namespace Workflow

/-- The events and the jobs of a workflow are distinct, and no free key at any level has the
name of a typed one beside it. -/
structure Separable (w : Workflow) : Prop where
  events : w.events.Nodup
  ids : w.jobIds.Nodup
  typed : Node.Apart w.typedEntries w.extra
  jobs : "jobs" ∉ w.extra.keys
  triggers : ∀ t ∈ w.triggers, t.Separable
  each : ∀ j ∈ w.jobs, j.Separable

instance (w : Workflow) : Decidable w.Separable :=
  decidable_of_iff (w.events.Nodup ∧ w.jobIds.Nodup ∧ Node.Apart w.typedEntries w.extra ∧
      "jobs" ∉ w.extra.keys ∧ (∀ t ∈ w.triggers, t.Separable) ∧ ∀ j ∈ w.jobs, j.Separable)
    ⟨fun ⟨events, ids, typed, jobs, triggers, each⟩ => ⟨events, ids, typed, jobs, triggers, each⟩,
      fun h => ⟨h.events, h.ids, h.typed, h.jobs, h.triggers, h.each⟩⟩

/-- Two workflows say the same: all that is written agrees in every field and in its order, up
to the way the runners are chosen. -/
structure SameContent (v w : Workflow) : Prop where
  name : v.name = w.name
  triggers : v.triggers = w.triggers
  concurrency : v.concurrency = w.concurrency
  env : v.env = w.env
  extra : v.extra = w.extra
  jobs : v.jobs.map Job.generic = w.jobs.map Job.generic

/-- The document shows what a workflow says and nothing else. -/
lemma SameContent.document_eq {v w : Workflow} (h : SameContent v w) :
    v.document = w.document := by
  have tables : Job.table v.jobs = Job.table w.jobs := by
    rw [← Job.table_generic, h.jobs, Job.table_generic]
  simp only [document, typedEntries, h.name, h.triggers, h.concurrency, h.env, h.extra, tables]

/-- Separable workflows with the same document say the same. -/
lemma sameContent_of_document_eq {v w : Workflow} (hv : v.Separable) (hw : w.Separable)
    (h : v.document = w.document) : SameContent v w := by
  have same_keys : v.typedEntries.map Prod.fst = w.typedEntries.map Prod.fst := rfl
  have undeclared : "jobs" ∉ v.typedEntries.map Prod.fst := by simp [typedEntries]
  obtain ⟨typed_eq, extra_eq, jobs_eq⟩ := Node.record_insert_inj same_keys
    v.nodup_keys_typedEntries undeclared hv.typed hv.jobs hw.typed hw.jobs h
  simp only [typedEntries, List.cons.injEq, Prod.mk.injEq, Option.some.injEq, true_and, and_true,
    Node.map_string_inj, Node.arguments?_inj] at typed_eq
  obtain ⟨name_eq, table_eq, concurrency_eq, env_eq⟩ := typed_eq
  exact {
    name := name_eq
    triggers := Trigger.table_inj hv.events hw.events hv.triggers hw.triggers table_eq
    concurrency := Option.map_injective Concurrency.record_injective concurrency_eq
    env := env_eq
    extra := extra_eq
    jobs := Job.table_inj hv.ids hw.ids hv.each hw.each jobs_eq }

/-- **The document loses nothing.** Whatever jobs are listed for two workflows: if their free
keys are apart, the documents are the same tree exactly if the workflows say the same. -/
theorem document_eq_iff (v w : Workflow) (js ks : List Job)
    (hv : Separable { v with jobs := js }) (hw : Separable { w with jobs := ks }) :
    document { v with jobs := js } = document { w with jobs := ks }
      ↔ SameContent { v with jobs := js } { w with jobs := ks } :=
  ⟨sameContent_of_document_eq hv hw, SameContent.document_eq⟩

/-- A workflow with a manual start and a free key. -/
def nightly : Workflow where
  name := some "Nightly"
  triggers := [.schedule ["0 3 * * *"],
    .workflowDispatch (.ofList [("level", .choice "How much to test" ["all", "few"])]) ∅]
  extra := .ofList [("run-name", "nightly")]

/-- The job of the workflow on a runner, with a free key of its own. -/
def nightlyJob (runner : Runner) : Job :=
  { id := "test", runner, extra := .ofList [("container", "alpine")], steps := [.run "make test"] }

/-- A preset runner and the label of the same text are written in the same way. -/
theorem nightly_sameContent :
    let preset : Workflow := { nightly with jobs := [nightlyJob .ubuntuLatest] }
    let labelled : Workflow := { nightly with jobs := [nightlyJob (.label "ubuntu-latest")] }
    preset.Separable ∧ labelled.Separable ∧ preset.document = labelled.document ∧
      SameContent preset labelled := by
  intro preset labelled
  have hp : preset.Separable := by decide
  have hl : labelled.Separable := by decide
  have document_eq : preset.document = labelled.document := rfl
  exact ⟨hp, hl, document_eq, (document_eq_iff nightly nightly _ _ hp hl).1 document_eq⟩

end Workflow

end WorkflowFile
