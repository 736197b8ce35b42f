import WorkflowFile.Job
import WorkflowFile.Proofs.Yaml.Numeral

/-!
# Steps numbered by their position

A job is built up by a series of calls. Some of them append a step, and some of those number it: its
id tells how many steps were there before.

* `Job.Call` are the calls: the changes of a job, and another job put in front of its needs.
* `Job.Call.step?` is the step that a call appends. `Job.steps_call`: a call does nothing else to
  the steps. `Job.steps_prefix_calls`: so a series of them leaves the steps that are there.
* `Job.NumberedFrom` says that steps have the ids of their positions, which every call keeps that
  does not append a step as it is.
* `Job.stepId_injective`: different positions have different ids. So the ids that are given along
  the way, `Job.givenIds`, are distinct.
* `Job.numbered_by_position`: all of it together.
-/

namespace WorkflowFile

namespace Job

/-! ## Calls -/

/-- A call that makes another job of a job. -/
inductive Call where
  | change (edit : Edit)
  /-- Puts another job in front of the needs. -/
  | waitFor (id : String)
  deriving DecidableEq

/-- The job after a call. -/
def call (j : Job) : Call → Job
  | .change edit => j.edit edit
  | .waitFor id => j.waitFor id

/-- The job after several calls. -/
def calls (j : Job) (cs : List Call) : Job := cs.foldl call j

namespace Call

/-- Whether a call appends a step as it is. -/
def givesStep : Call → Bool
  | .change (.step _) => true
  | _ => false

/-- Whether a call appends a step and numbers it. -/
def numbers : Call → Bool
  | .change (.uses ..) => true
  | .change (.run ..) => true
  | _ => false

/-- The step that a call appends behind `n` others. -/
def step? (n : Nat) : Call → Option Step
  | .change (.step step) => some step
  | .change (.uses name action) => some
    { id := some ("step-" ++ toString n), name := some name
      task := .action action.reference action.arguments }
  | .change (.run name script) => some
    { id := some ("step-" ++ toString n), name := some name, task := .command script none none }
  | _ => none

/-- A call that numbers its step has one, under the id of its position. -/
lemma exists_step?_of_numbers {c : Call} (numbered : c.numbers = true) (n : Nat) :
    ∃ step, c.step? n = some step ∧ step.id = some (stepId n) := by
  cases c with
  | waitFor => cases numbered
  | change edit =>
    cases edit with
    | uses | run => exact ⟨_, rfl, rfl⟩
    | _ => cases numbered

/-- A step that is not appended as it is has the id of its position. -/
lemma id_of_step? {c : Call} (not_given : c.givesStep = false) {n : Nat} {step : Step}
    (appended : c.step? n = some step) : step.id = some (stepId n) := by
  cases c with
  | waitFor => cases appended
  | change edit =>
    cases edit with
    | uses | run =>
      cases appended
      rfl
    | step => cases not_given
    | _ => cases appended

end Call

/-! ## Steps -/

variable {j : Job} {n : Nat}

/-- A call appends its step, if it has one, and does nothing else to the steps. -/
theorem steps_call (j : Job) (c : Call) :
    (j.call c).steps = j.steps ++ (c.step? j.steps.length).toList := by
  cases c with
  | waitFor => simp [call, waitFor, Call.step?]
  | change edit =>
    cases edit with
    | step | uses | run => rfl
    | _ => simp [call, Job.edit, Call.step?]

/-- The steps that are there stay where they are. -/
theorem steps_prefix_calls (j : Job) (cs : List Call) : j.steps <+: (j.calls cs).steps := by
  induction cs generalizing j with
  | nil => exact List.prefix_refl _
  | cons c cs ih =>
    have first : j.steps <+: (j.call c).steps := by
      rw [steps_call]
      exact List.prefix_append _ _
    exact first.trans (ih (j.call c))

/-- Every step from a position on has the id of its position. -/
def NumberedFrom (n : Nat) (j : Job) : Prop :=
  ∀ i step, n ≤ i → j.steps[i]? = some step → step.id = some (stepId i)

lemma NumberedFrom.call (h : NumberedFrom n j) {c : Call} (not_given : c.givesStep = false) :
    NumberedFrom n (j.call c) := by
  intro i step from_n found
  rw [steps_call, List.getElem?_append] at found
  split at found
  · exact h i step from_n found
  · next behind =>
    cases appended : c.step? j.steps.length with
    | none => simp [appended] at found
    | some added =>
      -- no more than one step is appended, so it stands right behind the others
      obtain ⟨first, rfl⟩ : i - j.steps.length = 0 ∧ added = step := by
        simpa [appended, List.getElem?_singleton] using found
      obtain rfl : i = j.steps.length := by omega
      exact Call.id_of_step? not_given appended

theorem NumberedFrom.calls (h : NumberedFrom n j) {cs : List Call}
    (none_given : ∀ c ∈ cs, c.givesStep = false) : NumberedFrom n (j.calls cs) := by
  induction cs generalizing j with
  | nil => exact h
  | cons c cs ih =>
    obtain ⟨not_given, rest⟩ := List.forall_mem_cons.1 none_given
    exact ih (h.call not_given) rest

/-! ## Ids -/

/-- Different positions have different ids. -/
lemma stepId_injective : stepId.Injective := by
  intro m n same
  have numerals_eq : toString m = toString n := by simpa [stepId] using same
  exact Int.ofNat.inj (Yaml.toString_injective (congrArg String.toList numerals_eq))

/-- The ids of the steps that are numbered along a series of calls, each read off the job right
after its call. -/
def givenIds (j : Job) : List Call → List (Option String)
  | [] => []
  | c :: cs =>
    if c.numbers then (j.call c).steps.getLast?.bind Step.id :: (j.call c).givenIds cs
    else (j.call c).givenIds cs

/-- The step that has been numbered is the last one, in a new position. -/
lemma lastId_of_numbers (j : Job) {c : Call} (numbered : c.numbers = true) :
    (j.call c).steps.getLast?.bind Step.id = some (stepId j.steps.length) ∧
      j.steps.length < (j.call c).steps.length := by
  obtain ⟨step, appended, id_eq⟩ := Call.exists_step?_of_numbers numbered j.steps.length
  have steps_eq : (j.call c).steps = j.steps ++ [step] := by
    rw [steps_call, appended]
    rfl
  rw [steps_eq, List.getLast?_concat, Option.bind_some]
  exact ⟨id_eq, by simp⟩

/-- Every id that is given is that of a position behind the steps that were there before. -/
lemma exists_of_mem_givenIds {cs : List Call} {id : Option String} (given : id ∈ j.givenIds cs) :
    ∃ i, j.steps.length ≤ i ∧ id = some (stepId i) := by
  induction cs generalizing j with
  | nil => cases given
  | cons c cs ih =>
    have later (given : id ∈ (j.call c).givenIds cs) :
        ∃ i, j.steps.length ≤ i ∧ id = some (stepId i) := by
      obtain ⟨i, behind, id_eq⟩ := ih given
      have := (steps_prefix_calls j [c]).length_le
      exact ⟨i, this.trans behind, id_eq⟩
    rw [givenIds] at given
    split at given
    · next numbered =>
      rcases List.mem_cons.1 given with rfl | given
      · exact ⟨_, le_rfl, (j.lastId_of_numbers numbered).1⟩
      · exact later given
    · exact later given

/-- No id is given twice. -/
theorem nodup_givenIds (j : Job) (cs : List Call) : (j.givenIds cs).Nodup := by
  induction cs generalizing j with
  | nil => exact List.nodup_nil
  | cons c cs ih =>
    rw [givenIds]
    split
    · next numbered =>
      obtain ⟨id_eq, longer⟩ := j.lastId_of_numbers numbered
      refine List.nodup_cons.2 ⟨fun again => ?_, ih (j.call c)⟩
      -- an id that is given later is that of a later position
      obtain ⟨i, behind, same⟩ := exists_of_mem_givenIds again
      rw [id_eq, Option.some.injEq] at same
      have := stepId_injective same
      omega
    · exact ih (j.call c)

/-- **Steps are numbered by their position.** A call appends its step, if it has one, and does
nothing else to the steps, so a series of calls leaves the steps that were there before. No two
calls of a series give the same id. If no call of it appends a step as it is, every step that is
appended has the id of its position. -/
theorem numbered_by_position (j : Job) :
    (∀ c : Call, (j.call c).steps = j.steps ++ (c.step? j.steps.length).toList) ∧
    ∀ cs : List Call, j.steps <+: (j.calls cs).steps ∧ (j.givenIds cs).Nodup ∧
      ((∀ c ∈ cs, c.givesStep = false) → ∀ i step, j.steps.length ≤ i →
        (j.calls cs).steps[i]? = some step → step.id = some ("step-" ++ toString i)) := by
  refine ⟨j.steps_call, fun cs => ⟨j.steps_prefix_calls cs, j.nodup_givenIds cs, ?_⟩⟩
  intro none_given
  have none_yet : NumberedFrom j.steps.length j := by
    intro i step behind found
    rw [List.getElem?_eq_none behind] at found
    cases found
  exact none_yet.calls none_given

/-- A step that is appended as it is may have an id that is given later. -/
theorem build_numbered :
    let build : Job := { id := "build" }
    let checkout : Call := .change (.uses "Check out" (.checkout {}))
    let compile : Call := .change (.run "Compile" "make")
    let date : Call := .change (.step { Step.run "date" with id := some "step-2" })
    let mixed := [checkout, date, .waitFor "lint", compile]
    let automatic := [checkout, .change (.env "LANG" "C"), compile]
    (build.calls mixed).steps.map Step.id = [some "step-0", some "step-2", some "step-2"] ∧
      build.givenIds mixed = [some "step-0", some "step-2"] ∧ (build.givenIds mixed).Nodup ∧
      (∀ c ∈ automatic, c.givesStep = false) ∧ (build.calls automatic).steps.length = 2 ∧
      ∀ (i : Nat) (step : Step), (build.calls automatic).steps[i]? = some step →
        step.id = some ("step-" ++ toString i) := by
  intro build checkout compile date mixed automatic
  obtain ⟨-, series⟩ := numbered_by_position build
  have none_given : ∀ c ∈ automatic, c.givesStep = false := by decide
  refine ⟨by decide, by decide, (series mixed).2.1, none_given, by decide, fun i step => ?_⟩
  exact (series automatic).2.2 none_given i step (Nat.zero_le i)

end Job

end WorkflowFile
