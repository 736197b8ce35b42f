import WorkflowFile.Fault
import WorkflowFile.Proofs.Soundness

/-!
# Which defect is found

A workflow is sound, or it is blamed for one defect: the first kind there is, in a fixed order of
the kinds, and the first place where there is a defect of this kind.

* `IsFirst` and `FirstRepeat` say which place that is, for one member of a list on its own and for
  a member that was there before.
* `Workflow.Sound` and `Workflow.Blamed` say what a workflow is like. Each way to be blamed says
  that there is no defect of the kinds before.
* `firstRepeat?_map_eq_some_iff` and `Workflow.undefined_eq_some_iff`: what the searches find.
* `Workflow.sound_or_blamed`: a defect is found exactly if the workflow is to be blamed for it.
-/

namespace WorkflowFile

/-! ## First places -/

/-- `a` is the first member of a list with a property. -/
def IsFirst {α : Type} (P : α → Prop) (as : List α) (a : α) : Prop :=
  ∃ before after, as = before ++ a :: after ∧ P a ∧ ∀ b ∈ before, ¬ P b

/-- `a` is the first member of a list with the same image under `f` as one in front of it. -/
def FirstRepeat {α β : Type} (f : α → β) (as : List α) (a : α) : Prop :=
  ∃ before after, as = before ++ a :: after ∧ f a ∈ before.map f ∧ (before.map f).Nodup

lemma IsFirst.mem {α : Type} {P : α → Prop} {as : List α} {a : α} (h : IsFirst P as a) :
    a ∈ as := by
  obtain ⟨before, after, rfl, -, -⟩ := h
  simp

lemma IsFirst.holds {α : Type} {P : α → Prop} {as : List α} {a : α} (h : IsFirst P as a) :
    P a := by
  obtain ⟨_, _, -, holds, -⟩ := h
  exact holds

lemma find?_eq_some_iff_isFirst {α : Type} {p : α → Bool} {as : List α} {a : α} :
    as.find? p = some a ↔ IsFirst (fun a => p a = true) as a := by
  rw [List.find?_eq_some_iff_append]
  simp only [IsFirst, Bool.not_eq_true', Bool.not_eq_true]
  constructor
  · rintro ⟨holds, before, after, split, fails⟩
    exact ⟨before, after, split, holds, fails⟩
  · rintro ⟨before, after, split, holds, fails⟩
    exact ⟨holds, before, after, split, fails⟩

/-- Where nothing is repeated, a search goes on behind, with more that was seen. -/
lemma firstRepeat?_append {α : Type} [DecidableEq α] {seen as : List α}
    (distinct : firstRepeat? seen as = none) (bs : List α) :
    firstRepeat? seen (as ++ bs) = firstRepeat? (as.reverse ++ seen) bs := by
  induction as generalizing seen with
  | nil => rfl
  | cons a as ih =>
    rw [firstRepeat?] at distinct
    split at distinct
    · cases distinct
    · next new =>
      rw [List.cons_append, firstRepeat?, if_neg new, ih distinct, List.reverse_cons,
        List.append_assoc, List.singleton_append]

/-- What is found was seen before, and in front of it nothing is repeated. -/
lemma exists_of_firstRepeat? {α : Type} [DecidableEq α] {seen as : List α} {a : α}
    (found : firstRepeat? seen as = some a) : ∃ before after, as = before ++ a :: after ∧
      a ∈ before.reverse ++ seen ∧ firstRepeat? seen before = none := by
  induction as generalizing seen with
  | nil => cases found
  | cons c cs ih =>
    rw [firstRepeat?] at found
    split at found
    · next repeated =>
      cases found
      exact ⟨[], cs, rfl, repeated, rfl⟩
    · next new =>
      obtain ⟨before, after, rfl, again, distinct⟩ := ih found
      refine ⟨c :: before, after, rfl, ?_, ?_⟩
      · rwa [List.reverse_cons, List.append_assoc, List.singleton_append]
      · rw [firstRepeat?, if_neg new, distinct]

/-- A repeated image is found exactly at the first member that repeats one. -/
lemma firstRepeat?_map_eq_some_iff {α β : Type} [DecidableEq β] {f : α → β} {as : List α}
    {b : β} : firstRepeat? [] (as.map f) = some b ↔ ∃ a, FirstRepeat f as a ∧ b = f a := by
  constructor
  · intro found
    obtain ⟨before, after, split, again, distinct⟩ := exists_of_firstRepeat? found
    obtain ⟨before, rest, rfl, rfl, same⟩ := List.map_eq_append_iff.1 split
    obtain ⟨a, after, rfl, rfl, -⟩ := List.map_eq_cons_iff.1 same
    refine ⟨a, ⟨before, after, rfl, ?_, firstRepeat?_nil_eq_none_iff.1 distinct⟩, rfl⟩
    rwa [List.append_nil, List.mem_reverse] at again
  · rintro ⟨a, ⟨before, after, rfl, again, distinct⟩, rfl⟩
    rw [List.map_append, List.map_cons,
      firstRepeat?_append (firstRepeat?_nil_eq_none_iff.2 distinct), firstRepeat?, if_pos]
    rwa [List.append_nil, List.mem_reverse]

namespace Workflow

/-! ## What a workflow is like -/

/-- Something starts the workflow, it names every event and every job once, and what a job needs is
a job of the workflow, wherever that stands. -/
structure Sound (w : Workflow) : Prop where
  triggered : w.triggers ≠ []
  events : w.events.Nodup
  ids : w.jobIds.Nodup
  needs : ∀ j ∈ w.jobs, ∀ id ∈ j.needs.members, ∃ k ∈ w.jobs, k.id = id

/-- A job has a need that is no job of the workflow. -/
def LacksNeed (w : Workflow) (j : Job) : Prop := ∃ id ∈ j.needs.members, id ∉ w.jobIds

/-- What a workflow is to be blamed for. -/
inductive Blamed (w : Workflow) : Defect → Prop where
  | noTrigger (untriggered : w.triggers = []) : Blamed w .noTrigger
  | repeatedEvent {t : Trigger} (triggered : w.triggers ≠ [])
      (foremost : FirstRepeat Trigger.event w.triggers t) : Blamed w (.repeatedEvent t.event)
  | repeatedJob {j : Job} (triggered : w.triggers ≠ []) (events : w.events.Nodup)
      (foremost : FirstRepeat Job.id w.jobs j) : Blamed w (.repeatedJob j.id)
  | undefinedNeed {j : Job} {need : String} (triggered : w.triggers ≠ []) (events : w.events.Nodup)
      (ids : w.jobIds.Nodup) (foremost : IsFirst w.LacksNeed w.jobs j)
      (undefined : IsFirst (· ∉ w.jobIds) j.needs.members need) :
      Blamed w (.undefinedNeed j.id need)

/-- The names that a defect is about. -/
def Defect.names : Defect → List String
  | noTrigger => []
  | repeatedEvent event => [event.key]
  | repeatedJob id => [id]
  | undefinedNeed job need => [job, need]

/-- The message of a defect shows every name that the defect is about. -/
lemma Defect.infix_message {d : Defect} {name : String} (h : name ∈ d.names) :
    name.toList <:+: d.message.toList := by
  have between (a b c : String) : b.toList <:+: (a ++ b ++ c).toList := by
    rw [String.toList_append, String.toList_append]
    exact List.infix_append _ _ _
  cases d with
  | noTrigger => cases h
  | repeatedEvent | repeatedJob =>
    obtain rfl := List.mem_singleton.1 h
    exact between _ _ _
  | undefinedNeed job need =>
    obtain rfl | rfl : name = job ∨ name = need := by simpa [names] using h
    · have inside := between "job '" name ("' depends on non-existent job '" ++ need ++ "'")
      rw [← String.append_assoc, ← String.append_assoc] at inside
      exact inside
    · exact between _ _ _

/-! ## What is found -/

variable {w : Workflow} {d : Defect}

/-- A job lacks no need exactly if none is found in it. -/
lemma undefinedNeed?_eq_none_iff {j : Job} :
    undefinedNeed? w.jobIds j = none ↔ ¬ w.LacksNeed j := by
  simp [undefinedNeed?, LacksNeed]

/-- The search for a need ends at the first job that lacks one, with the first one it lacks. -/
lemma undefined_eq_some_iff :
    (w.jobs.findSome? fun j => (undefinedNeed? w.jobIds j).map (Defect.undefinedNeed j.id)) = some d
      ↔ ∃ j need, IsFirst w.LacksNeed w.jobs j ∧
        IsFirst (· ∉ w.jobIds) j.needs.members need ∧ d = .undefinedNeed j.id need := by
  have found {j : Job} {need : String} : undefinedNeed? w.jobIds j = some need ↔
      IsFirst (· ∉ w.jobIds) j.needs.members need := by
    simp [undefinedNeed?, find?_eq_some_iff_isFirst]
  rw [List.findSome?_eq_some_iff]
  simp only [Option.map_eq_some_iff, Option.map_eq_none_iff, undefinedNeed?_eq_none_iff, found]
  constructor
  · rintro ⟨before, j, after, split, ⟨need, foremost, rfl⟩, others⟩
    have lacks : w.LacksNeed j := ⟨need, foremost.mem, foremost.holds⟩
    exact ⟨j, need, ⟨before, after, split, lacks, others⟩, foremost, rfl⟩
  · rintro ⟨j, need, ⟨before, after, split, -, others⟩, foremost, rfl⟩
    exact ⟨before, j, after, split, ⟨need, foremost, rfl⟩, others⟩

/-- A defect is found exactly if the workflow is to be blamed for it. -/
lemma defect?_eq_some_iff : w.defect? = some d ↔ w.Blamed d := by
  constructor
  · intro found
    unfold defect? at found
    split at found
    · next untriggered =>
      cases found
      exact .noTrigger (List.isEmpty_iff.1 untriggered)
    · next triggered =>
      rw [List.isEmpty_iff] at triggered
      split at found
      · next event repeated =>
        obtain ⟨t, foremost, rfl⟩ := firstRepeat?_map_eq_some_iff.1 repeated
        cases found
        exact .repeatedEvent triggered foremost
      · next events =>
        rw [firstRepeat?_nil_eq_none_iff] at events
        split at found
        · next id repeated =>
          obtain ⟨j, foremost, rfl⟩ := firstRepeat?_map_eq_some_iff.1 repeated
          cases found
          exact .repeatedJob triggered events foremost
        · next ids =>
          rw [firstRepeat?_nil_eq_none_iff] at ids
          obtain ⟨j, need, lacking, undefined, rfl⟩ := undefined_eq_some_iff.1 found
          exact .undefinedNeed triggered events ids lacking undefined
  · intro blamed
    unfold defect?
    simp only [List.isEmpty_iff]
    cases blamed with
    | noTrigger untriggered => rw [if_pos untriggered]
    | repeatedEvent triggered foremost =>
      have repeated : firstRepeat? [] w.events = some _ :=
        firstRepeat?_map_eq_some_iff.2 ⟨_, foremost, rfl⟩
      rw [if_neg triggered, repeated]
    | repeatedJob triggered events foremost =>
      have repeated : firstRepeat? [] w.jobIds = some _ :=
        firstRepeat?_map_eq_some_iff.2 ⟨_, foremost, rfl⟩
      rw [if_neg triggered, firstRepeat?_nil_eq_none_iff.2 events, repeated]
    | undefinedNeed triggered events ids lacking undefined =>
      rw [if_neg triggered, firstRepeat?_nil_eq_none_iff.2 events,
        firstRepeat?_nil_eq_none_iff.2 ids]
      exact undefined_eq_some_iff.2 ⟨_, _, lacking, undefined, rfl⟩

/-- No defect is found exactly if the workflow is sound. -/
lemma defect?_eq_none_iff_sound : w.defect? = none ↔ w.Sound := by
  simp only [defect?_eq_none_iff, jobIds, List.mem_map]
  exact ⟨fun ⟨triggered, events, ids, needs⟩ => ⟨triggered, events, ids, needs⟩,
    fun ⟨triggered, events, ids, needs⟩ => ⟨triggered, events, ids, needs⟩⟩

/-- **A workflow is accepted exactly if it is sound,** and otherwise blamed for the first defect
there is. The user is told whom that is about. -/
theorem sound_or_blamed (w : Workflow) :
    (w.defect? = none ↔ w.Sound) ∧ (∀ d, w.defect? = some d ↔ w.Blamed d) ∧
      ∀ d, ∃ text, (Fault.unsound d).report = .validation text ∧
        ∀ name ∈ d.names, name.toList <:+: text.toList :=
  ⟨defect?_eq_none_iff_sound, fun _ => defect?_eq_some_iff,
    fun d => ⟨d.message, rfl, fun _ => Defect.infix_message⟩⟩

/-- A workflow with two defects. A job that waits for a later one, or for itself, is none. -/
def rota : Workflow where
  triggers := [.push {}, .schedule ["0 4 * * 1"]]
  jobs := [{ id := "build", needs := .ofList ["deploy"] },
    { id := "deploy", needs := .ofList ["build", "deploy", "lint", "audit"] },
    { id := "announce", needs := .ofList ["review"] }]

/-- The rota is blamed for the first need that its second job lacks. One more job that is called
`deploy` would be noticed before, and one more push before that. -/
theorem rota_blamed :
    rota.Blamed (.undefinedNeed "deploy" "lint") ∧
    (∃ text, (Fault.unsound (.undefinedNeed "deploy" "lint")).report = .validation text ∧
      "lint".toList <:+: text.toList) ∧
    Blamed { rota with jobs := rota.jobs ++ [{ id := "deploy" }] } (.repeatedJob "deploy") ∧
    Blamed { rota with
        triggers := rota.triggers ++ [.push { tags := ["v*"] }]
        jobs := rota.jobs ++ [{ id := "deploy" }] } (.repeatedEvent .push) := by
  obtain ⟨-, found, told⟩ := sound_or_blamed rota
  have blamed : rota.Blamed (.undefinedNeed "deploy" "lint") := (found _).1 rfl
  obtain ⟨text, reported, named⟩ := told (.undefinedNeed "deploy" "lint")
  refine ⟨blamed, ⟨text, reported, named "lint" (by decide)⟩, ?_, ?_⟩
  · exact ((sound_or_blamed _).2.1 _).1 rfl
  · exact ((sound_or_blamed _).2.1 _).1 rfl

end Workflow

end WorkflowFile
