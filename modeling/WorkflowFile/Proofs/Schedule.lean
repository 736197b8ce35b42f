import Mathlib.Data.List.Perm.Basic
import WorkflowFile.Proofs.CheckEffect

/-!
# In which order jobs can run

A job runs after all that it needs, so jobs that need each other never run. A check in front of the
jobs, which all wait for it, keeps none of them from running.

* `IsSchedule` says of an order of jobs that every job comes after all that it needs, and
  `Schedulable` of jobs that there is such an order.
* `ConsistencyCheck.isSchedule_install_iff`: the schedules with an installed check are those of the
  workflow, with the check in front.
* `ConsistencyCheck.schedulable_of_install`: so an installed check comes first in all of them, and
  there is one exactly if there was one before.
-/

namespace WorkflowFile

/-! ## Schedules -/

/-- Every job in the list comes after all that it needs, where the jobs with the ids `done` come
before the list. -/
def InOrder (done : List String) : List Job → Prop
  | [] => True
  | j :: rest => (∀ id ∈ j.needs.members, id ∈ done) ∧ InOrder (j.id :: done) rest

instance decidableInOrder (done : List String) : (order : List Job) → Decidable (InOrder done order)
  | [] => isTrue trivial
  | j :: rest =>
    have := decidableInOrder (j.id :: done) rest
    inferInstanceAs (Decidable (_ ∧ InOrder (j.id :: done) rest))

/-- An order of jobs in which every job comes after all that it needs. -/
structure IsSchedule (jobs order : List Job) : Prop where
  perm : order.Perm jobs
  inOrder : InOrder [] order

/-- There is an order of the jobs in which every job comes after all that it needs. -/
def Schedulable (jobs : List Job) : Prop := ∃ order, IsSchedule jobs order

/-- The first job of a schedule needs nothing. -/
lemma IsSchedule.needs_nothing {jobs rest : List Job} {j : Job} (h : IsSchedule jobs (j :: rest))
    (id : String) : id ∉ j.needs.members := by
  intro needed
  have done : id ∈ ([] : List String) := h.inOrder.1 id needed
  simp at done

/-- A job that is made to wait needs the new one and what it needed before. -/
lemma Job.members_needs_waitFor {j : Job} {id : String} (new : id ∉ j.needs.members) :
    (j.waitFor id).needs.members = id :: j.needs.members :=
  congrArg (fun s : OrderedSet String => id :: s.members) (OrderedSet.erase_of_notMem new)

section Wait

variable {id : String} {done done' : List String}

/-- If a job waits for one that has come before, all that it needs has come before if that is so
without the other job. -/
lemma needs_waitFor_done_iff {j : Job} (new : id ∉ j.needs.members)
    (before : ∀ a, a ∈ done' ↔ a = id ∨ a ∈ done) :
    (∀ a ∈ (j.waitFor id).needs.members, a ∈ done') ↔ ∀ a ∈ j.needs.members, a ∈ done := by
  have other : ∀ a ∈ j.needs.members, (a ∈ done' ↔ a ∈ done) := by
    intro a needed
    have differs : a ≠ id := fun same => new (same ▸ needed)
    rw [before, or_iff_right differs]
  rw [Job.members_needs_waitFor new, List.forall_mem_cons, before]
  constructor
  · rintro ⟨-, all⟩ a needed
    exact (other a needed).1 (all a needed)
  · intro all
    exact ⟨Or.inl rfl, fun a needed => (other a needed).2 (all a needed)⟩

/-- Jobs that wait for one that has come before are in the order that they are in without it. -/
lemma inOrder_map_waitFor {order : List Job} (new : ∀ j ∈ order, id ∉ j.needs.members)
    (before : ∀ a, a ∈ done' ↔ a = id ∨ a ∈ done) :
    InOrder done' (order.map (·.waitFor id)) ↔ InOrder done order := by
  -- what has come before grows along the order, but by the same ids with the job and without it
  induction order generalizing done done' with
  | nil => exact Iff.rfl
  | cons j rest ih =>
    rw [List.forall_mem_cons] at new
    have later : ∀ a, a ∈ j.id :: done' ↔ a = id ∨ a ∈ j.id :: done := by
      intro a
      rw [List.mem_cons, List.mem_cons, before, or_left_comm]
    exact and_congr (needs_waitFor_done_iff new.1 before) (ih new.2 later)

end Wait

namespace ConsistencyCheck

variable {cwd : Path} {root : Option Path} {comparison : Comparison} {w v : Workflow}

/-- Where all other jobs wait for the check, it is the first in every schedule. -/
lemma first_eq_check {check first : Job} {jobs later : List Job}
    (schedule : IsSchedule (check :: jobs.map (·.waitFor jobId)) (first :: later)) :
    first = check := by
  rcases List.mem_cons.1 (schedule.perm.subset List.mem_cons_self) with same | waits
  · exact same
  · obtain ⟨j, -, rfl⟩ := List.mem_map.1 waits
    exact absurd List.mem_cons_self (schedule.needs_nothing jobId)

/-- With a check that all jobs wait for, exactly the schedules without it that are put behind the
check are schedules. -/
theorem isSchedule_install_iff (sound : w.defect? = none) (unreserved : w.job? jobId = none)
    {check : Job} (check_id : check.id = jobId) (needs_nothing : check.needs = ∅)
    (order : List Job) :
    IsSchedule (check :: w.jobs.map (·.waitFor jobId)) order ↔
      ∃ rest, IsSchedule w.jobs rest ∧ order = check :: rest.map (·.waitFor jobId) := by
  have behind {rest : List Job} (perm : rest.Perm w.jobs) :
      InOrder [jobId] (rest.map (·.waitFor jobId)) ↔ InOrder [] rest := by
    apply inOrder_map_waitFor
    · intro j hj
      exact notMem_needs_of_unreserved sound unreserved (perm.subset hj)
    · simp
  constructor
  · intro schedule
    cases order with
    | nil => exact absurd schedule.perm.symm.eq_nil (List.cons_ne_nil _ _)
    | cons first later =>
      obtain rfl := first_eq_check schedule
      -- an order of the waiting jobs is an order of jobs, each made to wait
      have composed :=
        congrFun (congrFun (List.eq_map_comp_perm (Job.waitFor · jobId)) later) w.jobs
      obtain ⟨rest, rfl, perm⟩ := composed.mpr schedule.perm.cons_inv
      have in_order : InOrder [first.id] (rest.map (·.waitFor jobId)) := schedule.inOrder.2
      rw [check_id, behind perm] at in_order
      exact ⟨rest, ⟨perm, in_order⟩, rfl⟩
  · rintro ⟨rest, schedule, rfl⟩
    have perm : (rest.map (·.waitFor jobId)).Perm (w.jobs.map (·.waitFor jobId)) :=
      schedule.perm.map _
    have first : ∀ id ∈ check.needs.members, id ∈ ([] : List String) := by
      rw [needs_nothing]
      exact nofun
    have later : InOrder [check.id] (rest.map (·.waitFor jobId)) := by
      rw [check_id, behind schedule.perm]
      exact schedule.inOrder
    exact ⟨perm.cons check, first, later⟩

/-- **A check runs first and keeps no job from running.** The jobs with an installed check can be
put in an order exactly if those of the workflow can, and in every such order the check is the
first. -/
theorem schedulable_of_install (sound : w.defect? = none)
    (installed : install cwd root comparison w = .ok v) :
    (Schedulable v.jobs ↔ Schedulable w.jobs) ∧
      ∀ order, IsSchedule v.jobs order →
        ∃ check rest, order = check :: rest ∧ check.id = jobId := by
  obtain ⟨unreserved, check, made, rfl⟩ := install_eq_ok installed
  have check_id : check.id = jobId := (get?_needs_job made).1
  have needs_nothing : check.needs = ∅ := congrArg Job.needs (job_eq_ok made)
  have schedules := isSchedule_install_iff sound unreserved check_id needs_nothing
  refine ⟨⟨?_, ?_⟩, ?_⟩
  · rintro ⟨order, schedule⟩
    obtain ⟨rest, schedule, -⟩ := (schedules order).1 schedule
    exact ⟨rest, schedule⟩
  · rintro ⟨rest, schedule⟩
    exact ⟨_, (schedules _).2 ⟨rest, schedule, rfl⟩⟩
  · intro order schedule
    obtain ⟨rest, -, order_eq⟩ := (schedules order).1 schedule
    exact ⟨check, _, order_eq, check_id⟩

/-- A workflow whose first job needs its second one. -/
def relay : Workflow where
  triggers := [.push {}]
  source := some ⟨"ci.rs"⟩
  target := some "relay.yml"
  jobs := [{ id := "ship", needs := .ofList ["build"] }, { id := "build" }]

/-- The jobs of the relay can be put in an order, also with a check, which is then the first. -/
theorem relay_schedulable :
    ∃ v, install ⟨"/"⟩ (some ⟨"/repo"⟩) .regenerate relay = .ok v ∧ relay.defect? = none ∧
      Schedulable relay.jobs ∧ Schedulable v.jobs ∧
      ∀ order, IsSchedule v.jobs order →
        ∃ check rest, order = check :: rest ∧ check.id = "check_yaml_consistency" := by
  have installed : ∃ v, install ⟨"/"⟩ (some ⟨"/repo"⟩) .regenerate relay = .ok v := ⟨_, rfl⟩
  obtain ⟨v, installed⟩ := installed
  have sound : relay.defect? = none := by decide
  have schedule : Schedulable relay.jobs :=
    ⟨[{ id := "build" }, { id := "ship", needs := .ofList ["build"] }], .swap _ _ _, by decide⟩
  have checked := schedulable_of_install sound installed
  exact ⟨v, installed, sound, schedule, checked.1.2 schedule, checked.2⟩

end ConsistencyCheck

end WorkflowFile
