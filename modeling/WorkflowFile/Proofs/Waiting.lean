import WorkflowFile.Job
import WorkflowFile.Proofs.OrderedMap

/-!
# Jobs that are made to wait

A job can be made to wait for others, one after the other. Each of them is put in front of what the
job needs, where it may have been already.

* `OrderedSet.members_foldl_promote`: the members of a set after a series of promotions.
* `Job.waitForAll` makes a job wait for each of a list of jobs, and `Job.eq_waitForAll_iff` says
  what that job is.
-/

namespace WorkflowFile

/-! ## Promotions -/

namespace OrderedSet

variable {α : Type} [DecidableEq α]

/-- Of what is promoted the last comes first, each member once, and what is not promoted keeps its
order behind them. -/
theorem members_foldl_promote (s : OrderedSet α) (as : List α) :
    (as.foldl promote s).members = as.reverse.eraseDups ++ s.members.filter (· ∉ as) := by
  induction as generalizing s with
  | nil => simp
  | cons a as ih =>
    -- `a` is promoted first, so it stands behind all of `as`, unless it is one of them
    have behind : (as.reverse ++ [a]).eraseDups
        = as.reverse.eraseDups ++ [a].filter (· ∉ as) := by
      have rest_eq : [a].removeAll as.reverse = [a].filter (· ∉ as) := by simp [List.removeAll]
      rw [List.eraseDups_append, rest_eq, eraseDups_of_nodup ((List.nodup_singleton a).filter _)]
    have others : (s.members.filter (· ≠ a)).filter (· ∉ as)
        = s.members.filter (· ∉ a :: as) := by
      rw [List.filter_filter]
      refine List.filter_congr fun b _ => ?_
      simp [Bool.and_comm]
    calc (as.foldl promote (s.promote a)).members
        = as.reverse.eraseDups ++ (a :: s.members.filter (· ≠ a)).filter (· ∉ as) := ih _
      _ = as.reverse.eraseDups ++ ([a].filter (· ∉ as) ++ s.members.filter (· ∉ a :: as)) := by
        rw [← List.singleton_append, List.filter_append, others]
      _ = (a :: as).reverse.eraseDups ++ s.members.filter (· ∉ a :: as) := by
        rw [List.reverse_cons, behind, List.append_assoc]

/-- A member that is promoted twice in a row is promoted once. -/
lemma promote_promote_self (s : OrderedSet α) (a : α) : (s.promote a).promote a = s.promote a := by
  apply ext
  show a :: (a :: s.members.filter (· ≠ a)).filter (· ≠ a) = a :: s.members.filter (· ≠ a)
  simp [List.filter_filter]

end OrderedSet

/-! ## Waiting for several jobs -/

namespace Job

/-- The job that waits for each of the given jobs, one after the other. -/
def waitForAll (j : Job) (ids : List String) : Job := ids.foldl waitFor j

/-- Nothing but the needs of a job changes. -/
lemma waitForAll_eq (j : Job) (ids : List String) :
    j.waitForAll ids = { j with needs := ids.foldl OrderedSet.promote j.needs } := by
  induction ids generalizing j with
  | nil => rfl
  | cons id ids ih => exact ih (j.waitFor id)

/-- A job that waits for another one is not changed if it is made to wait for it at once again. -/
lemma waitFor_waitFor_self (j : Job) (id : String) : (j.waitFor id).waitFor id = j.waitFor id := by
  simp only [waitFor, OrderedSet.promote_promote_self]

/-- **What a job needs that is made to wait.** It needs what it waits for, what came last first and
nothing twice, and then what it needed before in its order. Nothing else changes. To wait twice in a
row for one job is to wait for it once. -/
theorem eq_waitForAll_iff (j : Job) :
    (∀ (ids : List String) (k : Job), k = j.waitForAll ids ↔
      { k with needs := j.needs } = j ∧
      k.needs.members = ids.reverse.eraseDups ++ j.needs.members.filter (· ∉ ids)) ∧
    ∀ before id after,
      j.waitForAll (before ++ id :: id :: after) = j.waitForAll (before ++ id :: after) := by
  constructor
  · intro ids k
    rw [waitForAll_eq, ← OrderedSet.members_foldl_promote]
    constructor
    · rintro rfl
      exact ⟨rfl, rfl⟩
    · rintro ⟨others, members_eq⟩
      rw [← OrderedSet.ext members_eq, ← others]
  · intro before id after
    simp only [waitForAll, List.foldl_append, List.foldl_cons, waitFor_waitFor_self]

example :
    let deploy : Job := { id := "deploy", needs := .ofList ["build", "lint", "test"] }
    (deploy.waitForAll ["lint", "check", "scan", "check"]).needs.members
      = ["check", "scan", "lint", "build", "test"] := by decide

end Job

end WorkflowFile
