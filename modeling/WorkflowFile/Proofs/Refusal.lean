import WorkflowFile.Proofs.Path
import WorkflowFile.Proofs.Rendering

/-!
# Why no file is rendered

A rendering is refused for the first of a fixed series of reasons: the workflow is not sound, the
id of the check is taken, the check has no source or no root to start from, it has no target, or
the source is outside the root.

* `ConsistencyCheck.Unmade`, `ConsistencyCheck.Obstacle` and `Rendering.Refusal` list the reasons
  for which a check cannot be made, for which it cannot be installed, and for which no file is
  assembled. Each of them says that those before do not hold.
* `Locator.locate_eq_error_iff`, `ConsistencyCheck.job_eq_error_iff`,
  `ConsistencyCheck.install_eq_error_iff` and `Rendering.assemble_eq_error_iff`: each stage fails
  with a fault exactly if there is that reason.
-/

namespace WorkflowFile

/-- Only an absolute path outside the root has no locator. -/
lemma Locator.locate_eq_error_iff {cwd root p : Path} {fault : Fault} :
    locate cwd root p = .error fault ↔ fault = .misconfigured (.outsideRoot p root) ∧
      p.isAbsolute ∧ ¬ root.components <+: p.components := by
  constructor
  · intro refused
    by_cases hp : p.isAbsolute
    · by_cases inside : root.components <+: p.components
      · obtain ⟨rest, same⟩ := inside
        have walk : cwd.absolute? p = some (root.components ++ rest) := by
          rw [Path.absolute?_of_isAbsolute hp, same]
        rw [locate_of_absolute? walk] at refused
        cases refused
      · rw [locate_outside hp inside] at refused
        exact ⟨(Except.error.inj refused).symm, hp, inside⟩
    · unfold locate at refused
      split at refused
      · cases refused
      · next no_route =>
        unfold route? at no_route
        rw [if_neg hp] at no_route
        split at no_route <;> cases no_route
  · intro h
    rw [h.1, locate_outside h.2.1 h.2.2]

namespace ConsistencyCheck

/-! ## The check -/

/-- Why the check cannot be made. -/
inductive Unmade (root : Option Path) (w : Workflow) : Misconfiguration → Prop where
  | noSource (missing : w.source = none ∨ root = none) : Unmade root w .checkNeedsSource
  | noTarget {source p : Path} (sourced : w.source = some source) (rooted : root = some p)
      (missing : w.target = none) : Unmade root w .checkNeedsTarget
  | outside {source p : Path} {target : String} (sourced : w.source = some source)
      (rooted : root = some p) (named : w.target = some target) (absolute : source.isAbsolute)
      (apart : ¬ p.components <+: source.components) : Unmade root w (.outsideRoot source p)

/-- Why the check cannot be installed. -/
inductive Obstacle (root : Option Path) (w : Workflow) : Misconfiguration → Prop where
  | reserved (taken : jobId ∈ w.jobIds) : Obstacle root w (.reservedJob jobId)
  | unmade {what : Misconfiguration} (free : jobId ∉ w.jobIds) (reason : Unmade root w what) :
      Obstacle root w what

variable {cwd : Path} {root : Option Path} {comparison : Comparison} {w : Workflow} {fault : Fault}

/-- The check is not made exactly if there is a reason, and for that reason. -/
lemma job_eq_error_iff : job cwd root comparison w = .error fault ↔
    ∃ what, fault = .misconfigured what ∧ Unmade root w what := by
  constructor
  · intro refused
    unfold job at refused
    split at refused
    · next p source sourced =>
      split at refused
      · next target named =>
        rcases bind_eq_error_iff.1 refused with outside | ⟨_, -, made⟩
        · obtain ⟨rfl, absolute, apart⟩ := Locator.locate_eq_error_iff.1 outside
          exact ⟨_, rfl, .outside sourced rfl named absolute apart⟩
        · cases made
      · next missing =>
        cases refused
        exact ⟨_, rfl, .noTarget sourced rfl missing⟩
    · next none_given =>
      cases refused
      refine ⟨_, rfl, .noSource ?_⟩
      by_contra given
      rw [not_or, ← Ne, Option.ne_none_iff_exists', ← Ne, Option.ne_none_iff_exists'] at given
      obtain ⟨⟨source, sourced⟩, p, rooted⟩ := given
      exact none_given p source rooted sourced
  · rintro ⟨what, rfl, reason⟩
    unfold job
    cases reason with
    | noSource missing =>
      rcases missing with missing | missing
      · rw [missing]
        cases root <;> rfl
      · rw [missing]
    | noTarget sourced rooted missing => simp only [sourced, rooted, missing]
    | outside sourced rooted named absolute apart =>
      simp only [sourced, rooted, named, Locator.locate_outside absolute apart]
      rfl

/-- The check is not installed exactly if there is an obstacle, and for that reason. -/
lemma install_eq_error_iff : install cwd root comparison w = .error fault ↔
    ∃ what, fault = .misconfigured what ∧ Obstacle root w what := by
  unfold install
  by_cases taken : jobId ∈ w.jobIds
  · rw [if_pos (Workflow.isSome_job?_iff.2 taken)]
    constructor
    · intro refused
      cases refused
      exact ⟨_, rfl, .reserved taken⟩
    · rintro ⟨what, rfl, reason⟩
      cases reason with
      | reserved _ => rfl
      | unmade free _ => exact absurd taken free
  · rw [if_neg (fun found => taken (Workflow.isSome_job?_iff.1 found))]
    constructor
    · intro refused
      rcases bind_eq_error_iff.1 refused with unmade | ⟨_, -, installed⟩
      · obtain ⟨what, rfl, reason⟩ := job_eq_error_iff.1 unmade
        exact ⟨what, rfl, .unmade taken reason⟩
      · cases installed
    · rintro ⟨what, rfl, reason⟩
      cases reason with
      | reserved taken' => exact absurd taken' taken
      | unmade _ reason => exact bind_eq_error_iff.2 (.inl (job_eq_error_iff.2 ⟨what, rfl, reason⟩))

end ConsistencyCheck

namespace Rendering

/-! ## Files -/

/-- Why no file is assembled, depending on whether it is to have a check. -/
inductive Refusal (wanted : Bool) (root : Option Path) (w : Workflow) : Fault → Prop where
  | unsound {defect : Workflow.Defect} (found : w.defect? = some defect) :
      Refusal wanted root w (.unsound defect)
  | unchecked {what : Misconfiguration} (sound : w.defect? = none) (asked : wanted = true)
      (obstacle : ConsistencyCheck.Obstacle root w what) :
      Refusal wanted root w (.misconfigured what)

variable {cwd : Path} {root : Option Path} {comparison : ConsistencyCheck.Comparison} {o : Options}
  {w : Workflow} {fault : Fault}

/-- No file is assembled exactly if there is a reason to refuse it, and for that reason. -/
theorem assemble_eq_error_iff :
    assemble cwd root comparison o w = .error fault ↔ Refusal (o.wantsCheck w) root w fault := by
  unfold assemble
  cases found : w.defect? with
  | some defect =>
    constructor
    · intro refused
      cases refused
      exact .unsound found
    · intro reason
      cases reason with
      | unsound found' => rw [Option.some.inj (found.symm.trans found')]
      | unchecked sound _ _ => cases found.symm.trans sound
  | none =>
    by_cases wanted : o.wantsCheck w = true
    · simp only [if_pos wanted]
      constructor
      · intro refused
        rcases bind_eq_error_iff.1 refused with unchecked | ⟨_, -, assembled⟩
        · obtain ⟨what, rfl, obstacle⟩ := ConsistencyCheck.install_eq_error_iff.1 unchecked
          exact .unchecked found wanted obstacle
        · cases assembled
      · intro reason
        cases reason with
        | unsound found' => cases found.symm.trans found'
        | unchecked _ _ obstacle =>
          refine bind_eq_error_iff.2 (.inl ?_)
          exact ConsistencyCheck.install_eq_error_iff.2 ⟨_, rfl, obstacle⟩
    · simp only [if_neg wanted]
      refine iff_of_false nofun fun reason => ?_
      cases reason with
      | unsound found' => cases found.symm.trans found'
      | unchecked _ asked _ => exact wanted asked

/-- A file is assembled exactly if there is no reason not to. -/
lemma exists_assemble_eq_ok_iff : (∃ r, assemble cwd root comparison o w = .ok r) ↔
    ∀ fault, ¬ Refusal (o.wantsCheck w) root w fault := by
  simp only [← @assemble_eq_error_iff cwd root comparison]
  cases assemble cwd root comparison o w <;> simp

/-- A file is rendered exactly if there is no reason to refuse it. -/
lemma exists_render_eq_ok_iff {session : Session} : (∃ text, render session o w = .ok text) ↔
    ∀ fault, ¬ Refusal (o.wantsCheck w) (o.rootFor session w) w fault := by
  rw [← @exists_assemble_eq_ok_iff session.cwd _ .direct]
  unfold render
  constructor
  · rintro ⟨text, rendered⟩
    obtain ⟨r, assembled, -⟩ := map_eq_ok_iff.1 rendered
    exact ⟨r, assembled⟩
  · rintro ⟨r, assembled⟩
    exact ⟨r.text, map_eq_ok_iff.2 ⟨r, assembled, rfl⟩⟩

/-- Where no check is wanted, a file is refused only if the workflow is not sound. -/
lemma not_refusal_unwanted_iff : (∀ fault, ¬ Refusal false root w fault) ↔ w.defect? = none := by
  constructor
  · intro accepted
    rw [Option.eq_none_iff_forall_ne_some]
    intro defect found
    exact accepted _ (.unsound found)
  · intro sound fault reason
    cases reason with
    | unsound found => cases sound.symm.trans found
    | unchecked _ asked _ => cases asked

/-- What the user is told: that the workflow is malformed, or else what is in the way of the
check. -/
lemma Refusal.report {wanted : Bool} (h : Refusal wanted root w fault) :
    (∃ defect, w.defect? = some defect ∧ fault.report = .validation defect.message) ∨
    w.defect? = none ∧ ∃ what, ConsistencyCheck.Obstacle root w what ∧
      fault.report = .configuration what.message := by
  cases h with
  | unsound found => exact .inl ⟨_, found, rfl⟩
  | unchecked sound _ obstacle => exact .inr ⟨sound, _, obstacle, rfl⟩

/-- **A rendering fails exactly when it has to,** for the first reason there is, and succeeds
otherwise. It does not matter what is chosen for the preamble and how a check compares. Without a
check, the source, the root and the target do not matter either. -/
theorem refused_iff (session : Session) (o : Options) (w : Workflow) :
    (∀ fault, render session o w = .error fault
      ↔ Refusal (o.wantsCheck w) (o.rootFor session w) w fault) ∧
    (∀ fault, render session o w = .error fault →
      (∃ defect, w.defect? = some defect ∧ fault.report = .validation defect.message) ∨
      w.defect? = none ∧ ∃ what, ConsistencyCheck.Obstacle (o.rootFor session w) w what ∧
        fault.report = .configuration what.message) ∧
    ((∃ text, render session o w = .ok text)
      ↔ ∀ fault, ¬ Refusal (o.wantsCheck w) (o.rootFor session w) w fault) ∧
    (∀ (cwd : Path) (root : Option Path) (comparison : ConsistencyCheck.Comparison),
      (∀ fault, assemble cwd root comparison o w = .error fault
        ↔ Refusal (o.wantsCheck w) root w fault) ∧
      ((∃ r, assemble cwd root comparison o w = .ok r)
        ↔ ∀ fault, ¬ Refusal (o.wantsCheck w) root w fault)) ∧
    ∀ (root source : Option Path) (target : Option String),
      (∃ text, render session { o with check := some false, root } { w with source, target }
        = .ok text) ↔ w.defect? = none := by
  have refused (fault : Fault) : render session o w = .error fault
      ↔ Refusal (o.wantsCheck w) (o.rootFor session w) w fault :=
    map_eq_error_iff.trans assemble_eq_error_iff
  refine ⟨refused, fun fault failed => ((refused fault).1 failed).report, exists_render_eq_ok_iff,
    fun cwd root comparison => ⟨fun fault => assemble_eq_error_iff, exists_assemble_eq_ok_iff⟩, ?_⟩
  intro root source target
  exact exists_render_eq_ok_iff.trans not_refusal_unwanted_iff

/-- A workflow with two things that are in the way of a check. -/
def stray : Workflow where
  triggers := [.push {}]
  source := some ⟨"/elsewhere/stray.rs"⟩

/-- The missing target is noticed before the source, which is outside the root; if the target is
given, the source is noticed. Without a check, the workflow is rendered. -/
theorem stray_refused :
    let o : Options := { root := some ⟨"/repo"⟩ }
    Refusal (o.wantsCheck stray) (some ⟨"/repo"⟩) stray (.misconfigured .checkNeedsTarget) ∧
    Refusal true (some ⟨"/repo"⟩) { stray with target := some "stray.yml" }
      (.misconfigured (.outsideRoot ⟨"/elsewhere/stray.rs"⟩ ⟨"/repo"⟩)) ∧
    (∃ what, ConsistencyCheck.Obstacle (some ⟨"/repo"⟩) stray what ∧
      what.message = "consistency check requires a target_file_name") ∧
    ∃ text, render {} { o with check := some false } stray = .ok text := by
  intro o
  obtain ⟨refused, reported, -, -, unchecked⟩ := refused_iff {} o stray
  have named := (refused_iff {} o { stray with target := some "stray.yml" }).1
  refine ⟨(refused _).1 rfl, (named _).1 rfl, ?_,
    (unchecked (some ⟨"/repo"⟩) stray.source stray.target).2 rfl⟩
  rcases reported (.misconfigured .checkNeedsTarget) rfl with ⟨_, _, told⟩ | ⟨-, what, h, told⟩
  · cases told
  · exact ⟨what, h, (Report.configuration.inj told).symm⟩

end Rendering

end WorkflowFile
