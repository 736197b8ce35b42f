import WorkflowFile.Proofs.Precedence

/-!
# What is empty is left out

A document has a key for a list or a map of the workflow only if there is something in it, with
few exceptions. So almost all mappings and sequences in it hold something, at every depth.

* `Node.Leads` are the chains of selectors that lead to the nodes of a tree, `Node.Full` is a tree
  in which no mapping and no sequence is empty.
* `Workflow.Vacant` lists the places of a document where one may be empty.
* `Step.full_record`, `Trigger.hollow_record`, `Job.hollow_record`: what is empty in one record.
* `Workflow.vacant_of_leads`: what is empty in a document stands at one of those places.
-/

namespace WorkflowFile

namespace Node

/-! ## Places in a tree -/

/-- A chain of selectors leads to a node of a tree. -/
inductive Leads : Node → List Selector → Node → Prop where
  | here {node : Node} : Leads node [] node
  | entry {entries : List (String × Node)} {k : String} {v found : Node} {path : List Selector}
      (listed : (k, v) ∈ entries) (inside : Leads v path found) :
      Leads (.mapping entries) (.key k :: path) found
  | item {items : List Node} {i : Nat} {v found : Node} {path : List Selector}
      (listed : items[i]? = some v) (inside : Leads v path found) :
      Leads (.sequence items) (.position i :: path) found

/-- What is selected by a chain is where it leads. -/
lemma leads_of_at? {node found : Node} {path : List Selector} (h : node.at? path = some found) :
    Leads node path found := by
  induction path generalizing node with
  | nil =>
    cases h
    exact .here
  | cons selector path ih =>
    cases selector with
    | key k =>
      obtain ⟨v, selected, inside⟩ := Option.bind_eq_some_iff.1 h
      cases node with
      | mapping entries => exact .entry (mem_of_valueUnder?_eq_some selected) (ih inside)
      | _ => cases selected
    | position i =>
      obtain ⟨v, selected, inside⟩ := Option.bind_eq_some_iff.1 h
      cases node with
      | sequence items => exact .item selected (ih inside)
      | _ => cases selected

/-- Whether a node is a mapping or a sequence with nothing in it. -/
def isHollow : Node → Bool
  | .sequence items => items.isEmpty
  | .mapping entries => entries.isEmpty
  | _ => false

/-- Nothing in a tree is empty. -/
def Full (node : Node) : Prop := ∀ path found, Leads node path found → found.isHollow = false

variable {path : List Selector} {found : Node}

/-- What is empty in a mapping that has entries is inside one of them. -/
lemma Leads.exists_entry {entries : List (String × Node)} (some_entry : entries ≠ [])
    (h : Leads (.mapping entries) path found) (hollow : found.isHollow = true) :
    ∃ k v rest, (k, v) ∈ entries ∧ path = .key k :: rest ∧ Leads v rest found := by
  cases h with
  | here => exact absurd (List.isEmpty_iff.1 hollow) some_entry
  | entry listed inside => exact ⟨_, _, _, listed, rfl, inside⟩

/-- What is empty in a sequence that has items is inside one of them. -/
lemma Leads.exists_item {items : List Node} (some_item : items ≠ [])
    (h : Leads (.sequence items) path found) (hollow : found.isHollow = true) :
    ∃ v rest, v ∈ items ∧ Leads v rest found := by
  cases h with
  | here => exact absurd (List.isEmpty_iff.1 hollow) some_item
  | item listed inside => exact ⟨_, _, List.mem_of_getElem? listed, inside⟩

/-- Nothing is inside what is empty. -/
lemma Leads.of_isHollow {node : Node} (empty : node.isHollow = true) (h : Leads node path found) :
    path = [] ∧ found = node := by
  cases h with
  | here => exact ⟨rfl, rfl⟩
  | entry listed inside => simp [List.isEmpty_iff.1 empty] at listed
  | item listed inside => simp [List.isEmpty_iff.1 empty] at listed

/-! ## Full trees -/

lemma Full.not_leads {node : Node} (full : node.Full) (hollow : found.isHollow = true) :
    ¬ Leads node path found := by
  intro leads
  cases (full path found leads).symm.trans hollow

@[simp] lemma full_string (text : String) : Full (.string text) := by
  intro path found h
  cases h
  rfl

@[simp] lemma full_bool (value : Bool) : Full (.bool value) := by
  intro path found h
  cases h
  rfl

@[simp] lemma full_integer (value : Int) : Full (.integer value) := by
  intro path found h
  cases h
  rfl

lemma full_mapping {entries : List (String × Node)} (some_entry : entries ≠ [])
    (full : ∀ e ∈ entries, e.2.Full) : Full (.mapping entries) := by
  intro path found h
  by_contra hollow
  rw [Bool.not_eq_false] at hollow
  obtain ⟨k, v, rest, listed, -, inside⟩ := h.exists_entry some_entry hollow
  exact (full _ listed).not_leads hollow inside

lemma full_sequence {items : List Node} (some_item : items ≠ []) (full : ∀ v ∈ items, v.Full) :
    Full (.sequence items) := by
  intro path found h
  by_contra hollow
  rw [Bool.not_eq_false] at hollow
  obtain ⟨v, rest, listed, inside⟩ := h.exists_item some_item hollow
  exact (full v listed).not_leads hollow inside

lemma full_texts {items : List String} (some_item : items ≠ []) : Full (texts items) := by
  refine full_sequence (by simpa using some_item) fun v listed => ?_
  obtain ⟨text, -, rfl⟩ := List.mem_map.1 listed
  exact full_string text

lemma full_of_mem_entriesOf {m : Arguments} {e : String × Node} (h : e ∈ entriesOf m) :
    e.2.Full := by
  obtain ⟨_, -, rfl⟩ := List.mem_map.1 h
  exact full_string _

/-- The value of a field has nothing empty in it if the field is set. -/
def FullIfSet (value : Option Node) : Prop := ∀ v, value = some v → v.Full

@[simp] lemma fullIfSet_some (v : Node) : FullIfSet (some v) ↔ v.Full := by simp [FullIfSet]

@[simp] lemma fullIfSet_string (text : Option String) : FullIfSet (text.map .string) := by
  cases text <;> simp [FullIfSet]

@[simp] lemma fullIfSet_bool (value : Option Bool) : FullIfSet (value.map .bool) := by
  cases value <;> simp [FullIfSet]

@[simp] lemma fullIfSet_minutes (minutes : Option Nat) :
    FullIfSet (minutes.map fun minutes : Nat => .integer minutes) := by
  cases minutes <;> simp [FullIfSet]

@[simp] lemma texts?_eq_none_iff {items : List String} : texts? items = none ↔ items = [] := by
  simp [texts?, nonEmptyList?]

@[simp] lemma fullIfSet_texts? (items : List String) : FullIfSet (texts? items) := by
  cases items with
  | nil => simp [FullIfSet, texts?, nonEmptyList?]
  | cons item items => exact (fullIfSet_some _).2 (full_texts (List.cons_ne_nil item items))

/-- A field for a map that is set if the map holds anything. -/
lemma fullIfSet_nonEmpty? {α : Type} {m : OrderedMap String α} {f : OrderedMap String α → Node}
    (full : m.entries ≠ [] → (f m).Full) : FullIfSet (m.nonEmpty?.map f) := by
  unfold OrderedMap.nonEmpty?
  split
  · simp [FullIfSet]
  · next some_entry =>
    refine (fullIfSet_some _).2 (full fun nothing => ?_)
    exact some_entry (List.isEmpty_iff.2 nothing)

@[simp] lemma fullIfSet_arguments? (m : Arguments) : FullIfSet (arguments? m) := by
  refine fullIfSet_nonEmpty? fun some_entry => full_mapping ?_ fun e => full_of_mem_entriesOf
  simpa [entriesOf, OrderedMap.map] using some_entry

/-! ## Records -/

section Merge

variable {fields : List (String × Option Node)} {free : Arguments}

/-- The free keys of a record have nothing empty under them, and the typed ones only if a field
does. -/
lemma full_of_mem_merge {e : String × Node} (full : ∀ field ∈ fields, FullIfSet field.2)
    (h : e ∈ (OrderedMap.merge fields (entriesOf free)).entries) : e.2.Full := by
  rcases OrderedMap.mem_entries_merge h with typed | extra
  · exact full _ typed e.2 rfl
  · exact full_of_mem_entriesOf extra

/-- A record is empty only if no field is set and there is no free key. -/
lemma entries_merge_eq_nil_iff : (OrderedMap.merge fields (entriesOf free)).entries = [] ↔
    (∀ field ∈ fields, field.2 = none) ∧ free = ∅ := by
  have free_iff : entriesOf free = [] ↔ free = ∅ :=
    List.map_eq_nil_iff.trans OrderedMap.eq_empty_iff.symm
  rw [← OrderedMap.eq_empty_iff, OrderedMap.merge_eq_empty_iff, free_iff]

end Merge

/-- What is empty in a table of records is inside one of them, unless nothing is listed. -/
lemma hollow_table {α : Type} {as : List α} {key : α → String} {value : α → Node}
    (leads : Leads (record (.ofList (as.map fun a => (key a, value a)))) path found)
    (hollow : found.isHollow = true) :
    path = [] ∧ found = .mapping [] ∧ as = [] ∨
      ∃ a ∈ as, ∃ rest, path = .key (key a) :: rest ∧ Leads (value a) rest found := by
  by_cases listed : as = []
  · subst listed
    obtain ⟨path_eq, found_eq⟩ := leads.of_isHollow rfl
    exact .inl ⟨path_eq, found_eq, rfl⟩
  · have some_entry := OrderedMap.entries_ofList_ne_nil
      (fun nothing => listed (List.map_eq_nil_iff.1 nothing) :
        (as.map fun a => (key a, value a)) ≠ [])
    obtain ⟨k, v, rest, there, rfl, inside⟩ := leads.exists_entry some_entry hollow
    obtain ⟨a, ha, same⟩ := List.mem_map.1 (OrderedMap.mem_of_mem_entries_ofList there)
    obtain ⟨rfl, rfl⟩ := Prod.mk.inj same
    exact .inr ⟨a, ha, rest, rfl, inside⟩

end Node

/-! ## Steps -/

lemma Step.fullIfSet_of_mem_typedEntries {s : Step} {field : String × Option Node}
    (h : field ∈ s.typedEntries) : Node.FullIfSet field.2 := by
  revert h field
  unfold typedEntries taskEntries
  cases s.task <;> simp

/-- The record of a step says at least what the step does. -/
lemma Step.full_record (s : Step) : s.record.Full := by
  refine Node.full_mapping (fun nothing => ?_) fun e =>
    Node.full_of_mem_merge fun field => s.fullIfSet_of_mem_typedEntries
  have unset := (Node.entries_merge_eq_nil_iff.1 nothing).1
  unfold typedEntries taskEntries at unset
  cases task : s.task <;> simp [task] at unset

/-! ## Triggers -/

/-- The record of an input says at least what the input is for. -/
lemma Input.full_record (i : Input) : i.record.Full := by
  show (Node.record (.merge i.typedEntries (Node.entriesOf ∅))).Full
  refine Node.full_mapping (fun nothing => ?_) fun e => Node.full_of_mem_merge ?_
  · have unset := (Node.entries_merge_eq_nil_iff.1 nothing).1
    simp [typedEntries] at unset
  · simp [typedEntries]

namespace Trigger

/-- A trigger without fields: no filter, no input and no free key, or a schedule without times. -/
def Blank : Trigger → Prop
  | push filter => filter = {}
  | pullRequest filter => filter = {}
  | pullRequestTarget filter => filter = {}
  | release types extra => types = [] ∧ extra = ∅
  | schedule crons => crons = []
  | workflowDispatch inputs extra => inputs = ∅ ∧ extra = ∅

lemma fullIfSet_of_mem_typedEntries {t : Trigger} {field : String × Option Node}
    (h : field ∈ t.typedEntries) : Node.FullIfSet field.2 := by
  cases t with
  | workflowDispatch inputs extra =>
    obtain rfl := List.mem_singleton.1 h
    refine Node.fullIfSet_nonEmpty? fun some_entry => Node.full_mapping some_entry ?_
    intro e listed
    obtain ⟨_, -, rfl⟩ := List.mem_map.1 listed
    exact Input.full_record _
  | _ =>
    revert h field
    simp [typedEntries, PushFilter.typedEntries, PullRequestFilter.typedEntries]

/-- A trigger is without fields if none is set. -/
lemma blank_of_unset {t : Trigger} (unscheduled : t.event ≠ .schedule)
    (unset : ∀ field ∈ t.typedEntries, field.2 = none) (free : t.extra = ∅) : t.Blank := by
  cases t with
  | schedule crons => exact absurd rfl unscheduled
  | push filter | pullRequest filter | pullRequestTarget filter =>
    cases filter
    simp_all [typedEntries, PushFilter.typedEntries, PullRequestFilter.typedEntries, extra, Blank]
  | release types extra | workflowDispatch inputs extra =>
    simp_all [typedEntries, Trigger.extra, Blank]

/-- What stands under the event of a trigger is empty if the trigger has no fields. -/
lemma isHollow_record {t : Trigger} (blank : t.Blank) : t.record.isHollow = true := by
  cases t with
  | schedule crons =>
    obtain rfl : crons = [] := blank
    rfl
  | push filter | pullRequest filter | pullRequestTarget filter =>
    obtain rfl : filter = {} := blank
    rfl
  | release types extra | workflowDispatch inputs extra =>
    obtain ⟨rfl, rfl⟩ := blank
    rfl

/-- In the record of a trigger with fields, nothing is empty. -/
lemma full_record {t : Trigger} (fields : ¬ t.Blank) : t.record.Full := by
  have merged (unscheduled : t.event ≠ .schedule) :
      (Node.record (.merge t.typedEntries (Node.entriesOf t.extra))).Full := by
    refine Node.full_mapping (fun nothing => fields ?_) fun e =>
      Node.full_of_mem_merge fun field => t.fullIfSet_of_mem_typedEntries
    obtain ⟨unset, free⟩ := Node.entries_merge_eq_nil_iff.1 nothing
    exact blank_of_unset unscheduled unset free
  cases t with
  | schedule crons =>
    refine Node.full_sequence (fun nothing => fields (List.map_eq_nil_iff.1 nothing)) ?_
    intro v listed
    obtain ⟨cron, -, rfl⟩ := List.mem_map.1 listed
    exact Node.full_mapping (by simp) (by simp)
  | _ => exact merged nofun

/-- What is empty in the record of a trigger is the record, of a trigger without fields. -/
lemma hollow_record {t : Trigger} {path : List Node.Selector} {found : Node}
    (leads : Node.Leads t.record path found) (hollow : found.isHollow = true) :
    path = [] ∧ found = t.record ∧ t.Blank := by
  by_cases blank : t.Blank
  · obtain ⟨path_eq, found_eq⟩ := leads.of_isHollow (isHollow_record blank)
    exact ⟨path_eq, found_eq, blank⟩
  · exact absurd leads ((full_record blank).not_leads hollow)

end Trigger

/-! ## Jobs -/

/-- Only an empty list of labels selects a runner by nothing. -/
lemma Runner.full_node {r : Runner} (labelled : r ≠ .labels []) : r.node.Full := by
  cases r with
  | labels texts => exact Node.full_texts fun nothing => labelled (congrArg labels nothing)
  | _ => exact Node.full_string _

namespace Job

variable {j : Job} {path : List Node.Selector} {found : Node}

/-- A typed key of a job has nothing empty under it, unless it is that of the runner. -/
lemma full_or_runner_of_mem_typedEntries {k : String} {v : Node}
    (h : (k, some v) ∈ j.typedEntries) : v.Full ∨ k = "runs-on" ∧ v = j.runner.node := by
  by_cases runner : k = "runs-on"
  · subst runner
    simp [typedEntries] at h
    exact .inr ⟨rfl, h⟩
  · have others : ∀ field ∈ j.typedEntries, field.1 ≠ "runs-on" → Node.FullIfSet field.2 := by
      simp [typedEntries]
    exact .inl (others _ h runner v rfl)

/-- What is empty in the record of a job stands for the steps or for the labels of the runner. -/
lemma hollow_record (leads : Node.Leads j.record path found) (hollow : found.isHollow = true) :
    path = [.key "steps"] ∧ found = .sequence [] ∧ j.steps = [] ∨
      path = [.key "runs-on"] ∧ found = .sequence [] ∧ j.runner = .labels [] := by
  obtain ⟨k, v, rest, listed, rfl, inside⟩ :=
    leads.exists_entry OrderedMap.entries_insert_ne_nil hollow
  rcases OrderedMap.mem_entries_insert listed with merged | last
  · rcases OrderedMap.mem_entries_merge merged with typed | free
    · rcases full_or_runner_of_mem_typedEntries typed with full | ⟨rfl, rfl⟩
      · exact absurd inside (full.not_leads hollow)
      · by_cases labelled : j.runner = .labels []
        · rw [labelled] at inside
          obtain ⟨rfl, rfl⟩ := inside.of_isHollow rfl
          exact .inr ⟨rfl, rfl, labelled⟩
        · exact absurd inside ((Runner.full_node labelled).not_leads hollow)
    · exact absurd inside ((Node.full_of_mem_entriesOf free).not_leads hollow)
  · obtain ⟨rfl, rfl⟩ := Prod.mk.inj last
    cases steps : j.steps with
    | nil =>
      rw [steps] at inside
      obtain ⟨rfl, rfl⟩ := inside.of_isHollow rfl
      exact .inl ⟨rfl, rfl, rfl⟩
    | cons s ss =>
      have full : (Node.sequence (j.steps.map Step.record)).Full := by
        refine Node.full_sequence (by simp [steps]) fun v listed => ?_
        obtain ⟨s, -, rfl⟩ := List.mem_map.1 listed
        exact s.full_record
      exact absurd inside (full.not_leads hollow)

end Job

/-! ## Workflows -/

namespace Workflow

/-- The places of a document where a mapping or a sequence may be empty, and which one. -/
inductive Vacant (w : Workflow) : List Node.Selector → Node → Prop where
  | jobs (none_given : w.jobs = []) : Vacant w [.key "jobs"] (.mapping [])
  | triggers (none_given : w.triggers = []) : Vacant w [.key "on"] (.mapping [])
  | trigger {t : Trigger} (listed : t ∈ w.triggers) (blank : t.Blank) :
      Vacant w [.key "on", .key t.event.key] t.record
  | steps {j : Job} (listed : j ∈ w.jobs) (none_given : j.steps = []) :
      Vacant w [.key "jobs", .key j.id, .key "steps"] (.sequence [])
  | runner {j : Job} (listed : j ∈ w.jobs) (unlabelled : j.runner = .labels []) :
      Vacant w [.key "jobs", .key j.id, .key "runs-on"] (.sequence [])

variable {w : Workflow} {path : List Node.Selector} {found : Node}

/-- A typed key of a workflow has nothing empty under it, unless it is that of the triggers. -/
lemma full_or_triggers_of_mem_typedEntries {k : String} {v : Node}
    (h : (k, some v) ∈ w.typedEntries) : v.Full ∨ k = "on" ∧ v = Trigger.table w.triggers := by
  by_cases triggers : k = "on"
  · subst triggers
    simp [typedEntries] at h
    exact .inr ⟨rfl, h⟩
  · have concurrency : Node.FullIfSet (w.concurrency.map Concurrency.record) := by
      cases w.concurrency with
      | none => simp [Node.FullIfSet]
      | some c => exact (Node.fullIfSet_some _).2 (Node.full_mapping (by simp) (by simp))
    have others : ∀ field ∈ w.typedEntries, field.1 ≠ "on" → Node.FullIfSet field.2 := by
      simp [typedEntries, concurrency]
    exact .inl (others _ h triggers v rfl)

/-- **What is empty in a document** stands where there are no jobs or no triggers, where a trigger
has no fields, or where a job has no steps or no labels of its runner. All else is left out. -/
theorem vacant_of_leads (leads : Node.Leads w.document path found)
    (hollow : found.isHollow = true) : w.Vacant path found := by
  obtain ⟨k, v, rest, listed, rfl, inside⟩ :=
    leads.exists_entry OrderedMap.entries_insert_ne_nil hollow
  rcases OrderedMap.mem_entries_insert listed with merged | last
  · rcases OrderedMap.mem_entries_merge merged with typed | free
    · rcases full_or_triggers_of_mem_typedEntries typed with full | ⟨rfl, rfl⟩
      · exact absurd inside (full.not_leads hollow)
      · rcases Node.hollow_table inside hollow with ⟨rfl, rfl, none_given⟩ | ⟨t, ht, _, rfl, within⟩
        · exact .triggers none_given
        · obtain ⟨rfl, rfl, blank⟩ := Trigger.hollow_record within hollow
          exact .trigger ht blank
    · exact absurd inside ((Node.full_of_mem_entriesOf free).not_leads hollow)
  · obtain ⟨rfl, rfl⟩ := Prod.mk.inj last
    rcases Node.hollow_table inside hollow with ⟨rfl, rfl, none_given⟩ | ⟨j, hj, _, rfl, within⟩
    · exact .jobs none_given
    · rcases Job.hollow_record within hollow with ⟨rfl, rfl, none_given⟩ | ⟨rfl, rfl, unlabelled⟩
      · exact .steps hj none_given
      · exact .runner hj unlabelled

/-- A workflow with settings that are empty. -/
def drill : Workflow where
  triggers := [.release [] ∅, .schedule [], .push { branches := ["main"] }]
  env := ∅
  jobs := [{ id := "drill", runner := .labels [], needs := ∅, extra := .ofList [("with", "")] }]

/-- Two settings of the drill have a key although they are empty, at the listed places. -/
theorem drill_vacant :
    Node.Leads drill.document [.key "on", .key "schedule"] (.sequence []) ∧
    drill.Vacant [.key "on", .key "schedule"] (.sequence []) ∧
    Node.Leads drill.document [.key "jobs", .key "drill", .key "runs-on"] (.sequence []) ∧
    drill.Vacant [.key "jobs", .key "drill", .key "runs-on"] (.sequence []) := by
  have times : Node.Leads drill.document [.key "on", .key "schedule"] (.sequence []) :=
    Node.leads_of_at? rfl
  have labels : Node.Leads drill.document [.key "jobs", .key "drill", .key "runs-on"]
      (.sequence []) := Node.leads_of_at? rfl
  exact ⟨times, vacant_of_leads times rfl, labels, vacant_of_leads labels rfl⟩

end Workflow

end WorkflowFile
