import WorkflowFile.Proofs.ConsistencyCheck
import WorkflowFile.Proofs.Refusal

/-!
# Rendering and publishing agree

A file that is rendered and one that is published compare in different ways when they are checked.
That shows in the commands of the check and in nothing else.

* `SameOutcome` relates two computations that fail with the same error or succeed with related
  values.
* `ConsistencyCheck.checkedOut` is a document in which the check ends after its first step.
* `ConsistencyCheck.job_sameOutcome`, `ConsistencyCheck.install_sameOutcome` and
  `Rendering.assemble_sameOutcome` follow two comparisons through the stages of a rendering.
* `render_agrees_with_publish`: the two entry points refuse for the same reasons and give the same
  file, but for the comparison.
-/

namespace WorkflowFile

/-! ## Outcomes -/

/-- Two computations fail with the same error, or succeed with related values. -/
inductive SameOutcome {ε α β : Type} (R : α → β → Prop) : Except ε α → Except ε β → Prop where
  | error (e : ε) : SameOutcome R (.error e) (.error e)
  | ok {a : α} {b : β} (related : R a b) : SameOutcome R (.ok a) (.ok b)

namespace SameOutcome

variable {ε α β γ δ : Type} {R : α → β → Prop} {S : γ → δ → Prop} {x : Except ε α} {y : Except ε β}

/-- Computations that go on alike from related values have the same outcome. -/
lemma bind {f : α → Except ε γ} {g : β → Except ε δ} (h : SameOutcome R x y)
    (next : ∀ a b, R a b → SameOutcome S (f a) (g b)) : SameOutcome S (x >>= f) (y >>= g) := by
  cases h with
  | error e => exact .error e
  | ok related => exact next _ _ related

lemma eq_error_iff (h : SameOutcome R x y) (e : ε) : x = .error e ↔ y = .error e := by
  cases h with
  | error e' => simp
  | ok => simp

/-- Where two computations with the same outcome succeed, their values are related. -/
lemma related {a : α} {b : β} (h : SameOutcome R x y) (hx : x = .ok a) (hy : y = .ok b) :
    R a b := by
  subst hx hy
  cases h with
  | ok related => exact related

/-- A computation has the same outcome as itself, with the same value. -/
lemma refl (x : Except ε α) : SameOutcome (· = ·) x x := by
  cases x with
  | error e => exact .error e
  | ok a => exact .ok rfl

end SameOutcome

/-! ## Changes inside a document -/

namespace Node

/-- The node in which what stands under a chain of keys is replaced by its image. -/
def modify (f : Node → Node) : List String → Node → Node
  | [], node => f node
  | k :: rest, .mapping entries =>
    .mapping (entries.map fun e => (e.1, if e.1 = k then modify f rest e.2 else e.2))
  | _ :: _, node => node

/-- A sequence up to its first item. -/
def firstOnly : Node → Node
  | .sequence items => .sequence (items.take 1)
  | node => node

/-- The value that is written last can be changed beforehand. -/
lemma modify_record_insert (f : Node → Node) (m : OrderedMap String Node) (k : String)
    (rest : List String) (v : Node) :
    (record (m.insert k v)).modify f (k :: rest)
      = record ((m.adjust k (modify f rest)).insert k (v.modify f rest)) := by
  rw [← OrderedMap.adjust_insert]
  rfl

end Node

/-! ## The check -/

namespace ConsistencyCheck

variable {cwd : Path} {root : Option Path} {w : Workflow}

/-- A document in which the check ends after its first step. -/
def checkedOut (document : Node) : Node :=
  document.modify Node.firstOnly ["jobs", jobId, "steps"]

/-- Two checks that start alike: they have the same first step and differ in steps alone. -/
structure SameStart (a b : Job) : Prop where
  id : a.id = jobId
  others : { a with steps := [] } = { b with steps := [] }
  first : a.steps.take 1 = b.steps.take 1

/-- Whatever the comparison is, a check is refused for the same reason or starts alike. -/
theorem job_sameOutcome (c d : Comparison) :
    SameOutcome SameStart (job cwd root c w) (job cwd root d w) := by
  unfold job
  split
  · next _ source _ =>
    split
    · refine (SameOutcome.refl (Locator.locate cwd _ source)).bind fun locator _ same => ?_
      cases same
      -- the commands of both come after the step that checks out
      cases c <;> cases d <;> exact .ok ⟨rfl, rfl, rfl⟩
    · exact .error _
  · exact .error _

/-- Checks that start alike have the same record up to the first step. -/
lemma modify_record_of_sameStart {a b : Job} (h : SameStart a b) :
    a.record.modify Node.firstOnly ["steps"] = b.record.modify Node.firstOnly ["steps"] := by
  have declared : a.typedEntries = b.typedEntries := (congrArg Job.typedEntries h.others :)
  have extra : a.extra = b.extra := (congrArg Job.extra h.others :)
  have first : ((a.steps.map Step.record).take 1) = (b.steps.map Step.record).take 1 := by
    rw [← List.map_take, h.first, List.map_take]
  have cut (steps : List Node) :
      (Node.sequence steps).modify Node.firstOnly [] = .sequence (steps.take 1) := rfl
  unfold Job.record
  rw [Node.modify_record_insert, Node.modify_record_insert, cut, cut, declared, extra, first]

/-- With checks that start alike in front of the other jobs, the documents are the same up to the
first step of the check. -/
lemma checkedOut_document {a b : Job} (sound : w.defect? = none)
    (unreserved : w.job? jobId = none) (h : SameStart a b) :
    checkedOut (Workflow.document { w with jobs := a :: w.jobs.map (·.waitFor jobId) })
      = checkedOut (Workflow.document { w with jobs := b :: w.jobs.map (·.waitFor jobId) }) := by
  have other_id : b.id = jobId := (congrArg Job.id h.others).symm.trans h.id
  have table (c : Job) (id : c.id = jobId) :
      (Job.table (c :: w.jobs.map (·.waitFor jobId))).modify Node.firstOnly [jobId, "steps"]
        = .mapping ((jobId, c.record.modify Node.firstOnly ["steps"]) ::
            w.jobs.map fun j => (j.id, (j.waitFor jobId).record)) := by
    rw [table_install sound unreserved id]
    -- the other jobs have other ids
    simp only [Node.modify, List.map_cons, List.map_map, if_pos]
    congr 2
    refine List.map_congr_left fun j hj => ?_
    simp [id_ne_of_unreserved unreserved hj]
  unfold checkedOut Workflow.document
  rw [Node.modify_record_insert, Node.modify_record_insert, table a h.id, table b other_id,
    modify_record_of_sameStart h]
  rfl

/-- Whatever the comparison is, a check cannot be installed for the same reason, or it changes
the document alike up to its first step. -/
theorem install_sameOutcome (sound : w.defect? = none) (c d : Comparison) :
    SameOutcome (fun u v => checkedOut u.document = checkedOut v.document)
      (install cwd root c w) (install cwd root d w) := by
  unfold install
  split
  · exact .error _
  · next unreserved =>
    refine (job_sameOutcome c d).bind fun a b start => .ok ?_
    exact checkedOut_document sound (by simpa using unreserved) start

end ConsistencyCheck

/-! ## Files -/

namespace Rendering

variable {cwd : Path} {root : Option Path} {o : Options} {w : Workflow}

/-- Two generated files differ in the comparison alone: not at all if there is no check. -/
structure SameButComparison (checked : Bool) (r q : Rendering) : Prop where
  preamble : q.preamble = r.preamble
  document : ConsistencyCheck.checkedOut q.document = ConsistencyCheck.checkedOut r.document
  unchecked : checked = false → q = r

/-- Whatever the comparison is, no file is assembled for the same reason, or the same file but for
the comparison. -/
theorem assemble_sameOutcome (c d : ConsistencyCheck.Comparison) :
    SameOutcome (SameButComparison (o.wantsCheck w)) (assemble cwd root c o w)
      (assemble cwd root d o w) := by
  unfold assemble
  split
  · exact .error _
  · next sound =>
    cases o.wantsCheck w with
    | false => exact .ok ⟨rfl, rfl, fun _ => rfl⟩
    | true =>
      refine (ConsistencyCheck.install_sameOutcome sound c d).bind fun u v same => ?_
      exact .ok ⟨rfl, same.symm, nofun⟩

/-- No file or directory is accessed to assemble a file. -/
lemma assemble_ne_inaccessible {comparison : ConsistencyCheck.Comparison} {path : Path}
    {cause : FileSystem.Error} :
    assemble cwd root comparison o w ≠ .error (.inaccessible path cause) := by
  intro refused
  cases assemble_eq_error_iff.1 refused

end Rendering

/-! ## The two entry points -/

variable {session : Session} {o : Options} {w : Workflow} {root : Path} {target : String}

/-- **Rendering and publishing agree.** Where a workflow has a root and a target, `publish` refuses
for the reasons of `render`, unless a file or directory cannot be accessed, and otherwise they give
the same file, but for the comparison. -/
theorem render_agrees_with_publish (found : o.rootFor session w = some root)
    (named : w.target = some target) :
    (∀ fault, render session o w = .error fault ↔
      (publish session o w).1 = .error fault ∧ ∀ path cause, fault ≠ .inaccessible path cause) ∧
    ∀ text path files, render session o w = .ok text → publish session o w = (.ok path, files) →
      ∃ r q : Rendering, Rendering.assemble session.cwd (some root) .direct o w = .ok r ∧
        r.text = text ∧ Rendering.assemble session.cwd (some root) .regenerate o w = .ok q ∧
        files.read? session.cwd path = some q.text ∧ r.SameButComparison (o.wantsCheck w) q := by
  have outcome : SameOutcome (Rendering.SameButComparison (o.wantsCheck w))
      (Rendering.assemble session.cwd (some root) .direct o w)
      (Rendering.assemble session.cwd (some root) .regenerate o w) :=
    Rendering.assemble_sameOutcome .direct .regenerate
  constructor
  · intro fault
    -- whether a file can be assembled does not depend on the comparison
    have refused : render session o w = .error fault ↔
        Rendering.assemble session.cwd (some root) .regenerate o w = .error fault := by
      rw [← outcome.eq_error_iff]
      unfold render
      rw [found]
      exact map_eq_error_iff
    rw [refused]
    constructor
    · intro unassembled
      have other (path : Path) (cause : FileSystem.Error) : fault ≠ .inaccessible path cause := by
        rintro rfl
        exact Rendering.assemble_ne_inaccessible unassembled
      exact ⟨(publish_eq_error_iff found named other).2 unassembled, other⟩
    · rintro ⟨unpublished, other⟩
      exact (publish_eq_error_iff found named other).1 unpublished
  · intro text path files rendered published
    unfold render at rendered
    rw [found] at rendered
    obtain ⟨r, assembled, rfl⟩ := map_eq_ok_iff.1 rendered
    obtain ⟨_, _, q, found', -, assembled', stored⟩ := publish_eq_ok published
    obtain rfl := Option.some.inj (found.symm.trans found')
    exact ⟨r, q, assembled, rfl, assembled', read?_of_store stored,
      outcome.related assembled assembled'⟩

/-- A workflow that is checked, with a job that has a step. -/
def audit : Workflow where
  triggers := [.push {}]
  source := some ⟨"ci.rs"⟩
  target := some "audit.yml"
  jobs := [{ id := "audit", steps := [.run "make audit"] }]

/-- Rendered and published, the audit gives the same file but for the comparison. -/
theorem audit_sameButComparison :
    let o : Options := { root := some ⟨"/repo"⟩ }
    o.rootFor {} audit = some ⟨"/repo"⟩ ∧ audit.target = some "audit.yml" ∧
      ∃ (r q : Rendering) (path : Path) (files : FileSystem), render {} o audit = .ok r.text ∧
        publish {} o audit = (.ok path, files) ∧ files.read? ⟨"/"⟩ path = some q.text ∧
        r.SameButComparison true q := by
  intro o
  have found : o.rootFor {} audit = some ⟨"/repo"⟩ := rfl
  have named : audit.target = some "audit.yml" := rfl
  have rendered : ∃ text, render {} o audit = .ok text := ⟨_, rfl⟩
  have published : (publish {} o audit).1 = .ok ⟨"/repo/.github/workflows/audit.yml"⟩ := by decide
  obtain ⟨text, rendered⟩ := rendered
  obtain ⟨r, q, -, rfl, -, read, same⟩ := (render_agrees_with_publish found named).2 text _ _
    rendered (Prod.ext published rfl)
  exact ⟨found, named, r, q, _, _, rendered, Prod.ext published rfl, read, same⟩

end WorkflowFile
