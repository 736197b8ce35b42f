import WorkflowFile.Proofs.Content

/-!
# One rule of precedence

A record holds typed fields and free keys, and a free key can have the name of a typed one. Then
the free key has the value and the typed one the place. The jobs of a workflow and the steps of a
job are the exception: nothing overrides them, and a free key of that name only says where they
stand.

* `Node.Precedence` is the rule, for a record with such an exception or without one.
* `Node.precedence_merge` and `Node.precedence_insert`: the two ways in which records are written
  follow it.
* `Node.PrecedenceEverywhere` says for each kind of record what its fields, free keys and exception
  are, and `Node.precedence_everywhere` that it follows the rule.
-/

namespace WorkflowFile

/-! ## Values of fields -/

/-- Several texts as a value, which is left out if there are none. -/
def Node.listed? : List String → Option Node
  | [] => none
  | items => some (.sequence (items.map .string))

/-- Several texts under keys as a value, which is left out if there are none. -/
def Node.paired? (m : Arguments) : Option Node :=
  match m.entries with
  | [] => none
  | entries => some (.mapping (entries.map fun e => (e.1, .string e.2)))

/-- A runner is known by its label, or by a list of labels. -/
def Runner.value : Runner → Node
  | ubuntuLatest => .string "ubuntu-latest"
  | windowsLatest => .string "windows-latest"
  | macOsLatest => .string "macos-latest"
  | label text => .string text
  | labels texts => .sequence (texts.map .string)

/-- An input holds its description, its kind, whether it is required, and the default and the
options if it has them. -/
def Input.value (i : Input) : Node :=
  .mapping ([("description", .string i.description), ("type", .string i.kind.word),
    ("required", .bool i.required)]
      ++ (i.default.map fun text => ("default", .string text)).toList
      ++ ((Node.listed? i.options).map fun options => ("options", options)).toList)

lemma Node.texts?_eq_listed? (items : List String) : texts? items = listed? items := by
  cases items <;> rfl

lemma Node.arguments?_eq_paired? (m : Arguments) : arguments? m = paired? m := by
  unfold arguments? paired? OrderedMap.nonEmpty? OrderedMap.isEmpty
  cases entries_eq : m.entries with
  | nil => rfl
  | cons e es => simp [arguments, entriesOf, OrderedMap.map, entries_eq]

lemma Runner.node_eq_value (r : Runner) : r.node = r.value := by
  cases r <;> rfl

lemma Input.record_eq_value (i : Input) : i.record = i.value := by
  have distinct : ((present i.typedEntries).map Prod.fst).Nodup :=
    (by simp [typedEntries] : (i.typedEntries.map Prod.fst).Nodup).sublist
      (keys_present_sublist _)
  unfold record value OrderedMap.ofPresent Node.record
  rw [OrderedMap.entries_ofList_of_nodup _ distinct, ← Node.texts?_eq_listed?]
  unfold typedEntries
  cases i.default <;> cases Node.texts? i.options <;> rfl

namespace Node

/-! ## The rule -/

/-- The keys of the typed fields that are set. -/
def setKeys (fields : List (String × Option Node)) : List String := (present fields).map Prod.fst

/-- How typed fields, given in the order of their keys, and free keys make up a record. There can be
a key with a fixed value. -/
structure Precedence (fields : List (String × Option Node)) (free : Arguments)
    (fixed : Option (String × Node)) (record : Node) : Prop where
  keys : ∃ entries, record = .mapping entries ∧ entries.map Prod.fst
    = setKeys fields ++ free.keys.filter (· ∉ setKeys fields)
      ++ (fixed.map Prod.fst).toList.filter (· ∉ free.keys)
  kept : ∀ k v, fixed = some (k, v) → record.get? k = some v
  overridden : ∀ k text, fixed.map Prod.fst ≠ some k → free.get? k = some text →
    record.get? k = some (.string text)
  typed : ∀ k, fixed.map Prod.fst ≠ some k → free.get? k = none →
    record.get? k = (valueUnder? k fields).join

variable {fields : List (String × Option Node)} {free : Arguments}

lemma keys_merge_entriesOf (distinct : (fields.map Prod.fst).Nodup) :
    (OrderedMap.merge fields (entriesOf free)).keys
      = setKeys fields ++ free.keys.filter (· ∉ setKeys fields) := by
  rw [OrderedMap.keys_merge distinct (nodup_keys_entriesOf free), keys_entriesOf]
  rfl

/-- A record that is merged follows the rule. -/
lemma precedence_merge (distinct : (fields.map Prod.fst).Nodup) :
    Precedence fields free none (.record (.merge fields (entriesOf free))) where
  keys := ⟨_, rfl, (keys_merge_entriesOf distinct).trans (List.append_nil _).symm⟩
  kept := nofun
  overridden k text _ given := by
    rw [get?_record, get?_merge_entriesOf distinct, given]
    rfl
  typed k _ absent := by
    rw [get?_record, get?_merge_entriesOf distinct, absent]
    rfl

/-- A record with a last entry that is put in afterwards follows the rule. -/
lemma precedence_insert {k : String} {v : Node} (distinct : (fields.map Prod.fst).Nodup)
    (untyped : k ∉ fields.map Prod.fst) :
    Precedence fields free (some (k, v))
      (.record ((OrderedMap.merge fields (entriesOf free)).insert k v)) where
  keys := by
    refine ⟨_, rfl, ?_⟩
    have unset : k ∉ setKeys fields := fun set => untyped ((keys_present_sublist fields).subset set)
    show ((OrderedMap.merge fields (entriesOf free)).insert k v).keys = _
    rw [OrderedMap.keys_insert, keys_merge_entriesOf distinct]
    -- the key is there already exactly if it is a free one
    by_cases there : k ∈ free.keys <;> simp [there, unset]
  kept := by
    rintro _ _ ⟨⟩
    rw [get?_record, OrderedMap.get?_insert, if_pos rfl]
  overridden a text other given := by
    have ne : k ≠ a := fun same => other (congrArg some same)
    rw [get?_record, OrderedMap.get?_insert, if_neg ne]
    exact (precedence_merge distinct).overridden a text nofun given
  typed a other absent := by
    have ne : k ≠ a := fun same => other (congrArg some same)
    rw [get?_record, OrderedMap.get?_insert, if_neg ne]
    exact (precedence_merge distinct).typed a nofun absent

/-! ## Every level -/

/-- Every kind of record follows the rule. A field without a value is not set. A schedule is no
record and has no free keys. -/
structure PrecedenceEverywhere : Prop where
  workflow (w : Workflow) : Precedence
    [("name", w.name.map .string),
      ("on", some (.record (.ofList (w.triggers.map fun t => (t.event.key, t.record))))),
      ("concurrency", w.concurrency.map fun c =>
        .mapping [("group", .string c.group), ("cancel-in-progress", .bool c.cancelInProgress)]),
      ("env", paired? w.env)]
    w.extra (some ("jobs", .record (.ofList (w.jobs.map fun j => (j.id, j.record))))) w.document
  job (j : Job) : Precedence
    [("name", j.name.map .string), ("runs-on", some j.runner.value),
      ("if", j.condition.map .string),
      ("needs", listed? j.needs.members), ("env", paired? j.env),
      ("timeout-minutes", j.timeoutMinutes.map fun minutes : Nat => .integer minutes),
      ("continue-on-error", j.continueOnError.map .bool)]
    j.extra (some ("steps", .sequence (j.steps.map Step.record))) j.record
  action (s : Step) (reference : String) (arguments : Arguments) : Precedence
    [("id", s.id.map .string), ("name", s.name.map .string), ("uses", some (.string reference)),
      ("with", paired? arguments), ("env", paired? s.env), ("if", s.condition.map .string),
      ("continue-on-error", s.continueOnError.map .bool),
      ("timeout-minutes", s.timeoutMinutes.map fun minutes : Nat => .integer minutes)]
    s.extra none { s with task := .action reference arguments }.record
  command (s : Step) (script : String) (shell directory : Option String) : Precedence
    [("id", s.id.map .string), ("name", s.name.map .string), ("run", some (.string script)),
      ("shell", shell.map .string), ("working-directory", directory.map .string),
      ("env", paired? s.env), ("if", s.condition.map .string),
      ("continue-on-error", s.continueOnError.map .bool),
      ("timeout-minutes", s.timeoutMinutes.map fun minutes : Nat => .integer minutes)]
    s.extra none { s with task := .command script shell directory }.record
  push (f : PushFilter) : Precedence
    [("branches", listed? f.branches), ("branches-ignore", listed? f.branchesIgnore),
      ("tags", listed? f.tags), ("tags-ignore", listed? f.tagsIgnore),
      ("paths", listed? f.paths), ("paths-ignore", listed? f.pathsIgnore)]
    f.extra none (Trigger.push f).record
  pullRequest (f : PullRequestFilter) : Precedence
    [("types", listed? f.types), ("branches", listed? f.branches),
      ("branches-ignore", listed? f.branchesIgnore), ("paths", listed? f.paths),
      ("paths-ignore", listed? f.pathsIgnore)]
    f.extra none (Trigger.pullRequest f).record
  pullRequestTarget (f : PullRequestFilter) : Precedence
    [("types", listed? f.types), ("branches", listed? f.branches),
      ("branches-ignore", listed? f.branchesIgnore), ("paths", listed? f.paths),
      ("paths-ignore", listed? f.pathsIgnore)]
    f.extra none (Trigger.pullRequestTarget f).record
  release (types : List String) (free : Arguments) : Precedence [("types", listed? types)]
    free none (Trigger.release types free).record
  workflowDispatch (inputs : OrderedMap String Input) (free : Arguments) : Precedence
    [("inputs", if inputs.entries = [] then none
      else some (.mapping (inputs.entries.map fun e => (e.1, e.2.value))))]
    free none (Trigger.workflowDispatch inputs free).record
  schedule (crons : List String) : (Trigger.schedule crons).record
    = .sequence (crons.map fun cron => .mapping [("cron", .string cron)])

/-- The inputs of a manual start are the values of its inputs under their names. -/
lemma inputs?_eq (inputs : OrderedMap String Input) :
    (inputs.map Input.record).nonEmpty?.map record = if inputs.entries = [] then none
      else some (.mapping (inputs.entries.map fun e => (e.1, e.2.value))) := by
  simp only [OrderedMap.nonEmpty?, OrderedMap.isEmpty, OrderedMap.map, Input.record_eq_value,
    List.isEmpty_map, List.isEmpty_iff]
  split <;> rfl

/-- The filters of a pull request as they are declared are the values of their fields. -/
lemma precedence_pullRequest (f : PullRequestFilter) : Precedence
    [("types", listed? f.types), ("branches", listed? f.branches),
      ("branches-ignore", listed? f.branchesIgnore), ("paths", listed? f.paths),
      ("paths-ignore", listed? f.pathsIgnore)]
    f.extra none (.record (.merge f.typedEntries (entriesOf f.extra))) := by
  simp only [← texts?_eq_listed?]
  exact precedence_merge (Trigger.pullRequest f).nodup_keys_typedEntries

/-- **Free keys have one precedence everywhere.** Workflows, jobs, steps and triggers follow the
rule with the values of their fields, where the jobs and the steps are fixed. -/
theorem precedence_everywhere : PrecedenceEverywhere where
  workflow w := by
    rw [← arguments?_eq_paired?]
    exact precedence_insert w.nodup_keys_typedEntries (by simp)
  job j := by
    rw [← arguments?_eq_paired?, ← texts?_eq_listed?, ← Runner.node_eq_value]
    exact precedence_insert j.nodup_keys_typedEntries (by simp)
  action s reference arguments := by
    simp only [← arguments?_eq_paired?]
    exact precedence_merge
      (Step.nodup_keys_typedEntries { s with task := .action reference arguments })
  command s script shell directory := by
    rw [← arguments?_eq_paired?]
    exact precedence_merge
      (Step.nodup_keys_typedEntries { s with task := .command script shell directory })
  push f := by
    simp only [← texts?_eq_listed?]
    exact precedence_merge (Trigger.push f).nodup_keys_typedEntries
  pullRequest := precedence_pullRequest
  pullRequestTarget := precedence_pullRequest
  release types free := by
    rw [← texts?_eq_listed?]
    exact precedence_merge (Trigger.release types free).nodup_keys_typedEntries
  workflowDispatch inputs free := by
    rw [← inputs?_eq]
    exact precedence_merge (Trigger.workflowDispatch inputs free).nodup_keys_typedEntries
  schedule crons := rfl

/-- A workflow with free keys that have the names of a typed field and of the jobs. -/
def regatta : Workflow where
  name := some "Regatta"
  triggers := [.push {}]
  env := .ofList [("WIND", "west")]
  jobs := [{ id := "row" }]
  extra := .ofList [("jobs", "none"), ("name", "Cup"), ("run-name", "Heat")]

/-- A job with free keys that have the names of a typed field that is set, of one that is not, and
of the steps. -/
def parade : Job where
  id := "parade"
  name := some "Parade"
  needs := .ofList ["build"]
  timeoutMinutes := some 5
  extra := .ofList [("permissions", "read-all"), ("steps", "none"), ("if", "always()"),
    ("needs", "setup")]
  steps := [.run "make parade"]

/-- A step with a free key that has the name of a typed field. -/
def launch : Step where
  name := some "Launch"
  task := .command "make launch" (some "bash") none
  env := .ofList [("TIDE", "high")]
  extra := .ofList [("env", "none")]

/-- A trigger with a free key that has the name of a filter. -/
def tide : Trigger :=
  .push { branches := ["main"], tags := ["v*"]
          extra := .ofList [("paths", "src"), ("branches", "release")] }

/-- Typed fields are overridden where they stand, the jobs and the steps are kept and stand where
the free key does, and what no free key names has the value of its field. -/
theorem regatta_precedence :
    (∃ entries, regatta.document = .mapping entries ∧ entries.map Prod.fst
      = ["name", "on", "env", "jobs", "run-name"]) ∧
    regatta.document.get? "name" = some (.string "Cup") ∧
    regatta.document.get? "env" = some (.mapping [("WIND", .string "west")]) ∧
    regatta.document.get? "jobs" = some (.mapping [("row", Job.record { id := "row" })]) ∧
    (∃ entries, parade.record = .mapping entries ∧ entries.map Prod.fst
      = ["name", "runs-on", "needs", "timeout-minutes", "permissions", "steps", "if"]) ∧
    parade.record.get? "needs" = some (.string "setup") ∧
    parade.record.get? "runs-on" = some (.string "ubuntu-latest") ∧
    parade.record.get? "steps" = some (.sequence [(Step.run "make parade").record]) ∧
    (∃ entries, launch.record = .mapping entries ∧ entries.map Prod.fst
      = ["name", "run", "shell", "env"]) ∧
    launch.record.get? "env" = some (.string "none") ∧
    launch.record.get? "shell" = some (.string "bash") ∧
    (∃ entries, tide.record = .mapping entries ∧ entries.map Prod.fst
      = ["branches", "tags", "paths"]) ∧
    tide.record.get? "branches" = some (.string "release") ∧
    tide.record.get? "tags" = some (.sequence [.string "v*"]) := by
  have rule := precedence_everywhere
  have step := rule.command launch "make launch" (some "bash") none
  obtain ⟨document, document_eq, document_keys⟩ := (rule.workflow regatta).keys
  obtain ⟨job, job_eq, job_keys⟩ := (rule.job parade).keys
  obtain ⟨entries, step_eq, step_keys⟩ := step.keys
  obtain ⟨filter, filter_eq, filter_keys⟩ := (rule.push _ : Precedence _ _ _ tide.record).keys
  refine ⟨⟨document, document_eq, document_keys.trans (by decide)⟩, ?_, ?_, ?_,
    ⟨job, job_eq, job_keys.trans (by decide)⟩, ?_, ?_, ?_,
    ⟨entries, step_eq, step_keys.trans (by decide)⟩, ?_, ?_,
    ⟨filter, filter_eq, filter_keys.trans (by decide)⟩, ?_, ?_⟩
  · exact (rule.workflow regatta).overridden "name" "Cup" (by decide) (by decide)
  · exact (rule.workflow regatta).typed "env" (by decide) (by decide)
  · exact (rule.workflow regatta).kept "jobs" _ rfl
  · exact (rule.job parade).overridden "needs" "setup" (by decide) (by decide)
  · exact (rule.job parade).typed "runs-on" (by decide) (by decide)
  · exact (rule.job parade).kept "steps" _ rfl
  · exact step.overridden "env" "none" (by decide) (by decide)
  · exact step.typed "shell" (by decide) (by decide)
  · exact (rule.push _ : Precedence _ _ _ tide.record).overridden "branches" "release" (by decide)
      (by decide)
  · exact (rule.push _ : Precedence _ _ _ tide.record).typed "tags" (by decide) (by decide)

end Node

end WorkflowFile
