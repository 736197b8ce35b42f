import WorkflowFile.Job.Record
import WorkflowFile.Proofs.OrderedMap

/-!
# Changes of a step

A change writes one field of a step, and what it writes does not depend on the others. So every
field depends only on the changes that write it, and what a step does is never changed.

* `Step.Field` are the fields, `Step.Edit.field` and `Step.Edit.value` say what a change writes, and
  `Step.given` is what a series of changes writes to a field.
* `Step.written` writes each field by itself. `Step.edits_eq_written`: a series of changes does the
  same.
* `Step.Rearranged` is another order of a series that keeps the changes of each field in theirs.
* `Step.edits_independent`: what a series of changes leaves as it is, and that its order matters
  within a field only.
-/

namespace WorkflowFile

namespace Step

/-! ## Fields -/

/-- The fields that a change can write. The shell and the directory are those of a command. -/
inductive Field where
  | name
  | id
  | condition
  | env
  | timeoutMinutes
  | continueOnError
  | shell
  | directory
  | extra
  deriving DecidableEq

/-- What can be written to a field: a value, or one entry of a map. -/
abbrev Field.Value : Field → Type
  | env | extra => String × String
  | timeoutMinutes => Nat
  | continueOnError => Bool
  | _ => String

/-- The field that a change writes. -/
def Edit.field : Edit → Field
  | .name _ => .name
  | .id _ => .id
  | .condition _ => .condition
  | .env _ _ => .env
  | .timeoutMinutes _ => .timeoutMinutes
  | .continueOnError => .continueOnError
  | .shell _ => .shell
  | .directory _ => .directory
  | .extra _ _ => .extra

/-- What a change writes. -/
def Edit.value : (change : Edit) → change.field.Value
  | .name text => text
  | .id text => text
  | .condition expression => expression
  | .env key value => (key, value)
  | .timeoutMinutes minutes => minutes
  | .continueOnError => true
  | .shell text => text
  | .directory text => text
  | .extra key value => (key, value)

/-- What a series of changes writes to a field, in its order. -/
def given (f : Field) (changes : List Edit) : List f.Value :=
  changes.filterMap fun change => if h : change.field = f then some (h ▸ change.value) else none

/-- Only the changes of a field count for it. -/
lemma given_filter (f : Field) (changes : List Edit) :
    given f (changes.filter (·.field = f)) = given f changes := by
  rw [given, List.filterMap_filter]
  refine List.filterMap_congr fun change _ => ?_
  by_cases h : change.field = f <;> simp [h]

/-! ## Fields written one by one -/

/-- The last of the values, or the old one if there are none. -/
def latest {α : Type} : Option α → List α → Option α
  | old, [] => old
  | _, value :: values => latest (some value) values

lemma latest_eq {α : Type} (old : Option α) (values : List α) :
    latest old values = values.getLast?.or old := by
  induction values generalizing old with
  | nil => rfl
  | cons value values ih => rw [latest, ih, List.getLast?_cons, Option.or_some, Option.some_or]

lemma latest_none {α : Type} (values : List α) : latest none values = values.getLast? := by
  rw [latest_eq, Option.or_none]

/-- The task with the shell and the directory that are given last, where it has them. -/
def writtenTask (changes : List Edit) : Task → Task
  | .action reference arguments => .action reference arguments
  | .command script shell directory => .command script (latest shell (given .shell changes))
    (latest directory (given .directory changes))

/-- The step in which each field has been written by the changes of that field alone. -/
def written (s : Step) (changes : List Edit) : Step where
  id := latest s.id (given .id changes)
  name := latest s.name (given .name changes)
  task := writtenTask changes s.task
  condition := latest s.condition (given .condition changes)
  env := s.env.insertAll (given .env changes)
  continueOnError := latest s.continueOnError (given .continueOnError changes)
  timeoutMinutes := latest s.timeoutMinutes (given .timeoutMinutes changes)
  extra := s.extra.insertAll (given .extra changes)

lemma written_nil (s : Step) : s.written [] = s := by
  obtain ⟨_, _, task, _, _, _, _, _⟩ := s
  cases task <;> rfl

/-- A change writes its field, and the changes behind it write theirs as before. -/
lemma written_edit (s : Step) (change : Edit) (changes : List Edit) :
    (s.edit change).written changes = s.written (change :: changes) := by
  cases change with
  | shell | directory =>
    -- they are written to a command only
    obtain ⟨_, _, task, _, _, _, _, _⟩ := s
    cases task <;> rfl
  | _ => rfl

/-- **Each field is written by itself.** After a series of changes, every field holds what the
changes of that field alone make of it. -/
theorem edits_eq_written (s : Step) (changes : List Edit) :
    s.edits changes = s.written changes := by
  induction changes generalizing s with
  | nil => exact s.written_nil.symm
  | cons change changes ih => exact (ih (s.edit change)).trans (s.written_edit change changes)

/-! ## What changes leave as it is -/

lemma task_edits (s : Step) (changes : List Edit) :
    (s.edits changes).task = writtenTask changes s.task :=
  congrArg task (s.edits_eq_written changes)

/-- A shell and a directory do nothing to a step that uses an action. -/
lemma edit_of_action {s : Step} {reference : String} {arguments : Arguments}
    (task_eq : s.task = .action reference arguments) (text : String) :
    s.edit (.shell text) = s ∧ s.edit (.directory text) = s := by
  simp only [edit, task_eq, and_self]

/-- A command is not changed, only its shell and its directory are. -/
lemma task_edits_run (script : String) (changes : List Edit) :
    ((run script).edits changes).task
      = .command script (given .shell changes).getLast? (given .directory changes).getLast? := by
  rw [task_edits, ← latest_none, ← latest_none]
  rfl

/-! ## Order -/

/-- Whether a step has a field. Only a command has a shell and a directory. -/
def hasField (s : Step) : Field → Bool
  | .shell | .directory =>
    match s.task with
    | .command .. => true
    | .action .. => false
  | _ => true

/-- Another order of changes, in which those of each field of the step come as before. -/
structure Rearranged (s : Step) (changes changes' : List Edit) : Prop where
  perm : changes'.Perm changes
  in_order : ∀ f : Field, s.hasField f = true →
    changes'.filter (·.field = f) = changes.filter (·.field = f)

namespace Rearranged

variable {s : Step} {changes changes' : List Edit}

/-- Rearranged changes write the same values to each field, in the same order. -/
lemma given_eq (h : Rearranged s changes changes') (f : Field) (there : s.hasField f = true) :
    given f changes' = given f changes := by
  rw [← given_filter, h.in_order f there, given_filter]

lemma writtenTask_eq (h : Rearranged s changes changes') :
    writtenTask changes' s.task = writtenTask changes s.task := by
  cases task_eq : s.task with
  | action => rfl
  | command script shell directory =>
    have has (f : Field) : s.hasField f = true := by cases f <;> simp only [hasField, task_eq]
    rw [writtenTask, h.given_eq .shell (has _), h.given_eq .directory (has _), writtenTask]

/-- Rearranged changes lead to the same step. -/
theorem edits_eq (h : Rearranged s changes changes') : s.edits changes' = s.edits changes := by
  rw [edits_eq_written, edits_eq_written, written, written, h.writtenTask_eq, h.given_eq .id rfl,
    h.given_eq .name rfl, h.given_eq .condition rfl, h.given_eq .env rfl,
    h.given_eq .continueOnError rfl, h.given_eq .timeoutMinutes rfl, h.given_eq .extra rfl]

end Rearranged

/-- **Changes of a step are independent.** Each field is written by the changes of that field alone.
What the step does is not changed: an action keeps its reference and its inputs, and a shell or a
directory does nothing to the step that uses it; a command stays the same, in the shell and in the
directory that are given last. Another order, in which the changes of each field come as before,
makes the same step, with the same record. -/
theorem edits_independent :
    (∀ (s : Step) (changes : List Edit), s.edits changes = s.written changes) ∧
    (∀ (a : Action) (changes : List Edit),
      ((uses a).edits changes).task = .action a.reference a.arguments ∧
      ∀ text, ((uses a).edits changes).edit (.shell text) = (uses a).edits changes ∧
        ((uses a).edits changes).edit (.directory text) = (uses a).edits changes) ∧
    (∀ (script : String) (changes : List Edit), ((run script).edits changes).task
      = .command script (given .shell changes).getLast? (given .directory changes).getLast?) ∧
    ∀ (s : Step) (changes changes' : List Edit), Rearranged s changes changes' →
      s.edits changes' = s.edits changes ∧
      (s.edits changes').record = (s.edits changes).record := by
  refine ⟨edits_eq_written, fun a changes => ?_, task_edits_run, fun s changes changes' h => ?_⟩
  · have kept : ((uses a).edits changes).task = .action a.reference a.arguments := task_edits ..
    exact ⟨kept, edit_of_action kept⟩
  · exact ⟨h.edits_eq, congrArg record h.edits_eq⟩

/-- The entries of a map and the shells of a command stay in their order, all else can be moved.
Shells for a step that uses an action do not count, so they can be moved as well. -/
theorem packing_independent :
    let changes : List Edit := [.env "LANG" "C", .shell "bash", .name "Pack", .env "CI" "1",
      .env "LANG" "de", .shell "pwsh", .extra "retries" "3"]
    let changes' : List Edit := [.shell "bash", .extra "retries" "3", .env "LANG" "C",
      .env "CI" "1", .shell "pwsh", .name "Pack", .env "LANG" "de"]
    let shells : List Edit := [.shell "bash", .shell "pwsh"]
    let pack := run "make dist"
    let upload := uses (.published "actions" "upload-artifact" "v4" ∅)
    Rearranged pack changes changes' ∧ Rearranged upload shells shells.reverse ∧
      (pack.edits changes').record = (pack.edits changes).record ∧
      (pack.edits changes).env = .ofList [("LANG", "de"), ("CI", "1")] ∧
      (pack.edits changes).task = .command "make dist" (some "pwsh") none ∧
      upload.edits shells.reverse = upload.edits shells ∧
      (upload.edits shells).task = .action "actions/upload-artifact@v4" ∅ := by
  intro changes changes' shells pack upload
  obtain ⟨-, uses_action, runs, same⟩ := edits_independent
  have moved : Rearranged pack changes changes' := ⟨by decide, fun f _ => by cases f <;> rfl⟩
  have reversed : Rearranged upload shells shells.reverse := by
    refine ⟨List.reverse_perm _, fun f there => ?_⟩
    cases f with
    | shell => cases there
    | _ => rfl
  exact ⟨moved, reversed, (same pack changes changes' moved).2, by decide, runs "make dist" changes,
    (same upload shells shells.reverse reversed).1, (uses_action _ shells).1⟩

end Step

end WorkflowFile
