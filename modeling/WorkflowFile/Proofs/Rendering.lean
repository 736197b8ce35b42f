import WorkflowFile.Proofs.FileSystem
import WorkflowFile.Proofs.Soundness
import WorkflowFile.Rendering

/-!
# What a successful rendering is made of

* `ConsistencyCheck.install_eq_ok` and `Rendering.assemble_eq_ok` say what the stages of a
  rendering have produced when they succeed.
* `storeOn_cases` and `publishOn_cases` say all that publishing can do, and `publish_eq_error_iff`
  why it refuses where there are a root and a target.
* `Rendering.Emitted` holds of the generated file behind a successful `render` or `publish`:
  `emitted_of_render` for the text that `render` gives, `emitted_of_publish` for the text
  that stands in the published file.
-/

namespace WorkflowFile

variable {cwd : Path} {root : Option Path} {comparison : ConsistencyCheck.Comparison}
  {session : Session} {o : Options} {w : Workflow}

/-! ## The consistency check -/

namespace ConsistencyCheck

/-- The check is made from the target of the workflow and the locator of its source. -/
lemma exists_of_job_eq_ok {check : Job} (h : job cwd root comparison w = .ok check) :
    ∃ p source target locator, root = some p ∧ w.source = some source ∧
      w.target = some target ∧ Locator.locate cwd p source = .ok locator ∧
      check = (base w.checkCondition).edits
        ((commands comparison target locator).map fun c => .run c.1 c.2) := by
  unfold job at h
  split at h
  · next p source sourced =>
    split at h
    · next target named =>
      obtain ⟨locator, located, h⟩ := bind_eq_ok_iff.1 h
      exact ⟨p, source, target, locator, rfl, sourced, named, located, (Except.ok.inj h).symm⟩
    · cases h
  · cases h

/-- The check of a workflow is known up to its steps: it needs nothing and has no free keys. -/
theorem job_eq_ok {check : Job} (h : job cwd root comparison w = .ok check) :
    { check with steps := [] } = { base w.checkCondition with steps := [] } := by
  obtain ⟨_, _, target, locator, -, -, -, -, rfl⟩ := exists_of_job_eq_ok h
  -- the edits are commands, and each of them adds a step
  cases comparison <;> rfl

/-- An installed check stands in front of the jobs, which all wait for it. -/
theorem install_eq_ok {v : Workflow} (h : install cwd root comparison w = .ok v) :
    w.job? jobId = none ∧ ∃ check, job cwd root comparison w = .ok check ∧
      v = { w with jobs := check :: w.jobs.map (·.waitFor jobId) } := by
  unfold install at h
  split at h
  · cases h
  · next reserved =>
    obtain ⟨check, made, h⟩ := bind_eq_ok_iff.1 h
    exact ⟨by simpa using reserved, check, made, (Except.ok.inj h).symm⟩

end ConsistencyCheck

/-! ## Assembling -/

namespace Rendering

variable {r : Rendering}

/-- A file is assembled from a sound workflow, with the check installed if it is wanted. -/
theorem assemble_eq_ok (h : assemble cwd root comparison o w = .ok r) :
    w.defect? = none ∧ r.preamble = o.preamble.compose (locator? cwd root w) ∧
      ∃ v, (if o.wantsCheck w then ConsistencyCheck.install cwd root comparison w else .ok w)
        = .ok v ∧ r.document = v.document := by
  unfold assemble at h
  split at h
  · cases h
  · next sound =>
    refine ⟨sound, ?_⟩
    split at h
    · next wanted =>
      obtain ⟨v, made, h⟩ := bind_eq_ok_iff.1 h
      cases h
      exact ⟨rfl, v, by rw [if_pos wanted, made], rfl⟩
    · next unwanted =>
      cases h
      exact ⟨rfl, w, by rw [if_neg unwanted], rfl⟩

/-- The file behind a successful `render` or `publish`. -/
def Emitted (session : Session) (o : Options) (w : Workflow) (r : Rendering) : Prop :=
  assemble session.cwd (o.rootFor session w) .direct o w = .ok r ∨
    ∃ root, o.rootFor session w = some root ∧
      assemble session.cwd (some root) .regenerate o w = .ok r

/-- An emitted file was assembled, whatever its comparison is. -/
lemma Emitted.assembled (h : Emitted session o w r) :
    ∃ comparison, assemble session.cwd (o.rootFor session w) comparison o w = .ok r := by
  rcases h with h | ⟨root, found, h⟩
  · exact ⟨_, h⟩
  · exact ⟨_, found ▸ h⟩

/-- A successful `render` gives the text of an emitted file. -/
theorem emitted_of_render {text : String} (h : render session o w = .ok text) :
    ∃ r, Emitted session o w r ∧ r.text = text := by
  obtain ⟨r, assembled, rfl⟩ := map_eq_ok_iff.1 h
  exact ⟨r, Or.inl assembled, rfl⟩

end Rendering

/-! ## Publishing -/

/-- What storing on a disk can do: something cannot be accessed, and only directories have been
made, or the file is opened, and whether that is a success is up to the disk, which keeps of the
text what it can. -/
lemma storeOn_cases {disk : FileSystem.Disk} {p : Path} {target text : String}
    {result : Except Fault Path} {files : FileSystem}
    (h : storeOn disk session p target text = (result, files)) :
    (∃ path cause outcome, result = .error (.inaccessible path cause) ∧
      session.files.makeDirectories session.cwd (workflowsDirectory p) = (outcome, files)) ∨
    ∃ path made l, path = (workflowsDirectory p).join ⟨target⟩ ∧
      session.files.makeDirectories session.cwd (workflowsDirectory p) = (.ok (), made) ∧
      made.openFile session.cwd path = .ok l ∧ files = made.put l (.file (disk l text).held) ∧
      ((disk l text).failure? = none ∧ result = .ok path ∨
        ∃ cause, (disk l text).failure? = some cause ∧
          result = .error (.inaccessible path cause)) := by
  unfold storeOn at h
  simp only at h
  split at h
  · next stopped =>
    cases h
    exact .inl ⟨_, _, _, rfl, stopped⟩
  · next made done =>
    unfold FileSystem.writeOn at h
    cases opened : made.openFile session.cwd ((workflowsDirectory p).join ⟨target⟩) with
    | error e =>
      rw [opened] at h
      cases h
      exact .inl ⟨_, _, _, rfl, done⟩
    | ok l =>
      rw [opened] at h
      refine .inr ⟨_, made, l, rfl, done, opened, ?_⟩
      cases kept : (disk l text).failure? with
      | none =>
        simp only [kept] at h
        cases h
        exact ⟨rfl, .inl ⟨rfl, rfl⟩⟩
      | some cause =>
        simp only [kept] at h
        cases h
        exact ⟨rfl, .inr ⟨cause, rfl, rfl⟩⟩

/-- Where there is room for everything, something cannot be accessed, and only directories have
been made, or the file is written. -/
lemma store_cases {p : Path} {target text : String} {result : Except Fault Path}
    {files : FileSystem} (h : store session p target text = (result, files)) :
    (∃ path cause outcome, result = .error (.inaccessible path cause) ∧
      session.files.makeDirectories session.cwd (workflowsDirectory p) = (outcome, files)) ∨
    ∃ path made, result = .ok path ∧ path = (workflowsDirectory p).join ⟨target⟩ ∧
      session.files.makeDirectories session.cwd (workflowsDirectory p) = (.ok (), made) ∧
      made.write session.cwd path text = .ok files := by
  rcases storeOn_cases h with refused | ⟨path, made, l, path_eq, done, opened, files_eq, outcome⟩
  · exact .inl refused
  · rcases outcome with ⟨-, result_eq⟩ | ⟨cause, failed, -⟩
    · refine .inr ⟨path, made, result_eq, path_eq, done, bind_eq_ok_iff.2 ⟨l, opened, ?_⟩⟩
      rw [files_eq]
      rfl
    · cases failed

/-- A file that can be written is stored. -/
lemma store_eq_of_write {p : Path} {target text : String} {made files : FileSystem}
    (done : session.files.makeDirectories session.cwd (workflowsDirectory p) = (.ok (), made))
    (written : made.write session.cwd ((workflowsDirectory p).join ⟨target⟩) text = .ok files) :
    store session p target text = (.ok ((workflowsDirectory p).join ⟨target⟩), files) := by
  obtain ⟨l, opened, put⟩ := bind_eq_ok_iff.1 written
  cases put
  unfold store storeOn FileSystem.writeOn
  simp only [done, opened]
  rfl

/-- What publishing on a disk can do: it refuses for want of a root or a target, no file can be
assembled, or the file is stored. -/
lemma publishOn_cases {disk : FileSystem.Disk} {result : Except Fault Path} {files : FileSystem}
    (h : publishOn disk session o w = (result, files)) :
    (∃ what, result = .error (.misconfigured what) ∧ files = session.files) ∨
    ∃ p target, o.rootFor session w = some p ∧ w.target = some target ∧
      ((∃ fault, Rendering.assemble session.cwd (some p) .regenerate o w = .error fault ∧
        result = .error fault ∧ files = session.files) ∨
      ∃ r, Rendering.assemble session.cwd (some p) .regenerate o w = .ok r ∧
        storeOn disk session p target r.text = (result, files)) := by
  unfold publishOn at h
  split at h
  · cases h
    exact .inl ⟨_, rfl, rfl⟩
  · cases h
    exact .inl ⟨_, rfl, rfl⟩
  · next p target found named =>
    refine .inr ⟨p, target, found, named, ?_⟩
    split at h
    · next fault refused =>
      cases h
      exact .inl ⟨fault, refused, rfl, rfl⟩
    · next r assembled => exact .inr ⟨r, assembled, h⟩

/-- What storing has done when it succeeds. -/
lemma store_eq_ok {p path : Path} {target text : String} {files : FileSystem}
    (h : store session p target text = (.ok path, files)) :
    path = (workflowsDirectory p).join ⟨target⟩ ∧
      ∃ made, session.files.makeDirectories session.cwd (workflowsDirectory p) = (.ok (), made) ∧
        made.write session.cwd path text = .ok files := by
  rcases store_cases h with ⟨_, _, _, refused, -⟩ | ⟨_, made, same, path_eq, done, written⟩
  · cases refused
  · cases same
    exact ⟨path_eq, made, done, written⟩

/-- Storing fails only if a file or directory cannot be accessed. -/
lemma store_ne_error {p : Path} {target text : String} {fault : Fault}
    (other : ∀ path cause, fault ≠ .inaccessible path cause) :
    (store session p target text).1 ≠ .error fault := by
  intro refused
  rcases store_cases (Prod.ext refused rfl) with ⟨_, _, _, same, -⟩ | ⟨_, _, same, -⟩
  · exact other _ _ (Except.error.inj same)
  · cases same

/-- A stored text can be read back. -/
lemma read?_of_store {p path : Path} {target text : String} {files : FileSystem}
    (h : store session p target text = (.ok path, files)) :
    files.read? session.cwd path = some text := by
  obtain ⟨-, made, -, written⟩ := store_eq_ok h
  exact FileSystem.read?_of_write written

/-- Where a text is stored, any other text can be stored at the same path. -/
lemma exists_store_eq_ok {p path : Path} {target text : String} {files : FileSystem}
    (stored : store session p target text = (.ok path, files)) (text' : String) :
    ∃ files', store session p target text' = (.ok path, files') := by
  obtain ⟨rfl, made, done, written⟩ := store_eq_ok stored
  obtain ⟨files', written'⟩ := FileSystem.exists_write_eq_ok (.refl made) written text'
  exact ⟨files', store_eq_of_write done written'⟩

/-- Where there are a root and a target, an assembled file is stored. -/
lemma publish_eq_store {p : Path} {target : String} {r : Rendering}
    (found : o.rootFor session w = some p) (named : w.target = some target)
    (assembled : Rendering.assemble session.cwd (some p) .regenerate o w = .ok r) :
    publish session o w = store session p target r.text := by
  unfold publish publishOn
  rw [found, named]
  simp only [assembled]
  rfl

/-- What a successful `publish` stores. -/
theorem publish_eq_ok {path : Path} {files : FileSystem}
    (h : publish session o w = (.ok path, files)) :
    ∃ p target r, o.rootFor session w = some p ∧ w.target = some target ∧
      Rendering.assemble session.cwd (some p) .regenerate o w = .ok r ∧
      store session p target r.text = (.ok path, files) := by
  rcases publishOn_cases h with ⟨_, refused, -⟩ | ⟨p, target, found, named, h⟩
  · cases refused
  · rcases h with ⟨_, -, refused, -⟩ | ⟨r, assembled, stored⟩
    · cases refused
    · exact ⟨p, target, r, found, named, assembled, stored⟩

/-- Where there are a root and a target, `publish` refuses because no file can be assembled, unless
a file or directory cannot be accessed. -/
theorem publish_eq_error_iff {p : Path} {target : String} {fault : Fault}
    (found : o.rootFor session w = some p) (named : w.target = some target)
    (other : ∀ path cause, fault ≠ .inaccessible path cause) :
    (publish session o w).1 = .error fault ↔
      Rendering.assemble session.cwd (some p) .regenerate o w = .error fault := by
  cases assembled : Rendering.assemble session.cwd (some p) .regenerate o w with
  | error e =>
    unfold publish publishOn
    rw [found, named]
    simp [assembled]
  | ok r =>
    rw [publish_eq_store found named assembled]
    simpa using store_ne_error other

/-- A published file holds the text of an emitted file. -/
theorem Rendering.emitted_of_publish {path : Path} {files : FileSystem}
    (h : publish session o w = (.ok path, files)) :
    ∃ r, Emitted session o w r ∧ files.read? session.cwd path = some r.text := by
  obtain ⟨p, target, r, found, -, assembled, stored⟩ := publish_eq_ok h
  exact ⟨r, Or.inr ⟨p, found, assembled⟩, read?_of_store stored⟩

end WorkflowFile
