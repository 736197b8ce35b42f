import Mathlib.Tactic.Lemma
import WorkflowFile.Workflow.Soundness

/-!
# What a sound workflow guarantees

* `firstRepeat?_eq_none_iff`: no repetition is found exactly if nothing occurs twice.
* `firstRepeat?_congr`: which one is found depends on the members of the list alone.
* `Workflow.defect?_eq_none_iff` says what a workflow without a defect is.
* `Workflow.distinct_of_sound`: a workflow without a defect names every event and every job
  once.
* `Workflow.defined_of_sound`: its jobs need nothing but jobs of the workflow.
-/

namespace WorkflowFile

/-- No repetition is found exactly if no member occurs twice or was seen before. -/
lemma firstRepeat?_eq_none_iff {α : Type} [DecidableEq α] {seen as : List α} :
    firstRepeat? seen as = none ↔ as.Nodup ∧ ∀ a ∈ as, a ∉ seen := by
  induction as generalizing seen with
  | nil => simp [firstRepeat?]
  | cons a as ih =>
    simp only [firstRepeat?, List.nodup_cons, List.forall_mem_cons]
    split
    · next h => simp [h]
    · next h =>
      rw [ih]
      constructor
      · rintro ⟨distinct, unseen⟩
        refine ⟨⟨fun ha => ?_, distinct⟩, h, fun b hb hs => ?_⟩
        · exact unseen a ha List.mem_cons_self
        · exact unseen b hb (List.mem_cons_of_mem _ hs)
      · rintro ⟨⟨fresh, distinct⟩, -, unseen⟩
        refine ⟨distinct, fun b hb hs => ?_⟩
        rcases List.mem_cons.1 hs with rfl | hs
        · exact fresh hb
        · exact unseen b hb hs

/-- If nothing was seen before, it is the list alone that counts. -/
lemma firstRepeat?_nil_eq_none_iff {α : Type} [DecidableEq α] {as : List α} :
    firstRepeat? [] as = none ↔ as.Nodup := by
  simp [firstRepeat?_eq_none_iff]

/-- It does not matter what else was seen besides the members of the list. -/
lemma firstRepeat?_congr {α : Type} [DecidableEq α] {seen seen' as : List α}
    (same : ∀ a ∈ as, a ∈ seen ↔ a ∈ seen') : firstRepeat? seen as = firstRepeat? seen' as := by
  induction as generalizing seen seen' with
  | nil => rfl
  | cons a as ih =>
    have first : a ∈ seen ↔ a ∈ seen' := same a List.mem_cons_self
    have rest : firstRepeat? (a :: seen) as = firstRepeat? (a :: seen') as := by
      apply ih
      intro b hb
      simp only [List.mem_cons, same b (List.mem_cons_of_mem a hb)]
    simp only [firstRepeat?, first, rest]

namespace Workflow

variable {w : Workflow}

/-- A job is found exactly if its id is that of a job. -/
lemma isSome_job?_iff {id : String} : (w.job? id).isSome ↔ id ∈ w.jobIds := by
  unfold job? jobIds
  rw [List.find?_isSome, List.mem_map]
  simp only [beq_iff_eq]

/-- A workflow has no defect exactly if something starts it, it names every event and every job
once, and its jobs need nothing but jobs of the workflow. -/
theorem defect?_eq_none_iff : w.defect? = none ↔ w.triggers ≠ [] ∧ w.events.Nodup ∧
    w.jobIds.Nodup ∧ ∀ j ∈ w.jobs, ∀ id ∈ j.needs.members, id ∈ w.jobIds := by
  have needs_iff :
      (w.jobs.findSome? fun j => (undefinedNeed? w.jobIds j).map (Defect.undefinedNeed j.id)) = none
        ↔ ∀ j ∈ w.jobs, ∀ id ∈ j.needs.members, id ∈ w.jobIds := by
    simp [undefinedNeed?]
  unfold defect?
  rw [← firstRepeat?_nil_eq_none_iff, ← firstRepeat?_nil_eq_none_iff, ← needs_iff,
    ← List.isEmpty_eq_false_iff]
  -- the four searches are made one after the other
  cases w.triggers.isEmpty
  · cases firstRepeat? [] w.events
    · cases firstRepeat? [] w.jobIds <;> simp
    · simp
  · simp

/-- A workflow without a defect names every event and every job once. -/
theorem distinct_of_sound (sound : w.defect? = none) : w.events.Nodup ∧ w.jobIds.Nodup := by
  obtain ⟨-, events, ids, -⟩ := defect?_eq_none_iff.1 sound
  exact ⟨events, ids⟩

/-- The jobs of a workflow without a defect need nothing but jobs of the workflow. -/
theorem defined_of_sound (sound : w.defect? = none) {j : Job} (hj : j ∈ w.jobs) {id : String}
    (needed : id ∈ j.needs.members) : id ∈ w.jobIds := by
  obtain ⟨-, -, -, defined⟩ := defect?_eq_none_iff.1 sound
  exact defined j hj id needed

end Workflow

end WorkflowFile
