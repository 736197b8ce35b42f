import WorkflowFile.Proofs.Path
import WorkflowFile.Proofs.Rendering

/-!
# Generated files do not depend on the checkout

The same repository can be checked out at different places, and every rendering is told its
own root and source.

* `WorkingCopy`: where a rendering takes place.
* `WorkingCopy.Agree`: two working copies give the same text, or refuse for the same reason.
* `WorkingCopy.agree_of_locator`: they do if the source has the same locator in both.
* `WorkingCopy.agree_of_unchecked`: without a check, also if it has no locator in either.
-/

namespace WorkflowFile

/-- Where a workflow is rendered: in which session, in the repository with which root, and from
the source under which path. -/
structure WorkingCopy where
  session : Session
  root : Path
  source : Path

namespace WorkingCopy

/-- The options of a rendering in a working copy. -/
def options (a : WorkingCopy) (o : Options) : Options := { o with root := some a.root }

/-- The workflow that is rendered in a working copy. -/
def workflow (a : WorkingCopy) (w : Workflow) : Workflow := { w with source := some a.source }

/-- `render` in a working copy. -/
def render (a : WorkingCopy) (o : Options) (w : Workflow) : Except Fault String :=
  WorkflowFile.render a.session (a.options o) (a.workflow w)

/-- `publish` in a working copy. -/
def publish (a : WorkingCopy) (o : Options) (w : Workflow) : Except Fault Path × FileSystem :=
  WorkflowFile.publish a.session (a.options o) (a.workflow w)

/-- In a working copy, `publish` succeeds and the published file holds the text. -/
def Publishes (a : WorkingCopy) (o : Options) (w : Workflow) (text : String) : Prop :=
  ∃ path files, a.publish o w = (.ok path, files) ∧
    files.read? a.session.cwd path = some text

/-- In two working copies, `render` has the same result, `publish` writes the same text, and unless
a file cannot be accessed, `publish` refuses for the same reason. -/
structure Agree (a b : WorkingCopy) (o : Options) (w : Workflow) : Prop where
  rendered : a.render o w = b.render o w
  published : ∀ {s t}, a.Publishes o w s → b.Publishes o w t → s = t
  refused : ∀ fault, (∀ path cause, fault ≠ .inaccessible path cause) →
    ((a.publish o w).1 = .error fault ↔ (b.publish o w).1 = .error fault)

/-! ## From the assembled file to the output -/

variable {a b : WorkingCopy} {o : Options} {w : Workflow}

/-- The file that is assembled in a working copy. -/
def assemble (a : WorkingCopy) (comparison : ConsistencyCheck.Comparison) (o : Options)
    (w : Workflow) : Except Fault Rendering :=
  Rendering.assemble a.session.cwd (some a.root) comparison (a.options o) (a.workflow w)

/-- Unless a file cannot be accessed, `publish` refuses for want of a target or because no
file can be assembled. -/
lemma publish_eq_error_iff {fault : Fault}
    (other : ∀ path cause, fault ≠ .inaccessible path cause) :
    (a.publish o w).1 = .error fault ↔
      match w.target with
      | none => fault = .misconfigured .publishingNeedsTarget
      | some _ => a.assemble .regenerate o w = .error fault := by
  have root_eq : (a.options o).rootFor a.session (a.workflow w) = some a.root := rfl
  have target_eq : (a.workflow w).target = w.target := rfl
  cases named : w.target with
  | none =>
    unfold publish WorkflowFile.publish publishOn
    rw [root_eq, target_eq, named]
    simp [eq_comm]
  | some target => exact WorkflowFile.publish_eq_error_iff root_eq (target_eq.trans named) other

/-- A published text is that of the file that was assembled. -/
lemma assemble_of_publishes {text : String} (h : a.Publishes o w text) :
    ∃ r : Rendering, a.assemble .regenerate o w = .ok r ∧ r.text = text := by
  obtain ⟨path, files, published, read⟩ := h
  obtain ⟨root, target, r, found, -, assembled, stored⟩ := publish_eq_ok published
  cases found
  refine ⟨r, assembled, ?_⟩
  rw [read?_of_store stored] at read
  exact Option.some.inj read

/-- A file that was published can be read. -/
lemma exists_publishes (path : Path) (h : (a.publish o w).1 = .ok path) :
    ∃ text, a.Publishes o w text := by
  have published : a.publish o w = (.ok path, (a.publish o w).2) := Prod.ext h rfl
  obtain ⟨root, target, r, -, -, -, stored⟩ := publish_eq_ok published
  exact ⟨r.text, path, _, published, read?_of_store stored⟩

/-- Working copies that assemble the same files have the same output. -/
lemma agree_of_assemble
    (h : ∀ comparison, a.assemble comparison o w = b.assemble comparison o w) :
    Agree a b o w where
  rendered := congrArg (Except.map Rendering.text) (h .direct)
  published := by
    intro s t hs ht
    obtain ⟨r, assembled, rfl⟩ := assemble_of_publishes hs
    obtain ⟨q, assembled', rfl⟩ := assemble_of_publishes ht
    rw [h .regenerate, assembled'] at assembled
    rw [Except.ok.inj assembled]
  refused := by
    intro fault other
    rw [publish_eq_error_iff other, publish_eq_error_iff other, h .regenerate]

/-! ## From the locator to the assembled file -/

/-- The locator of the source in a working copy. -/
def locator (a : WorkingCopy) : Except Fault String :=
  Locator.locate a.session.cwd a.root a.source

/-- The check is made from the workflow and the locator of its source. -/
lemma job_congr (h : a.locator = b.locator) (comparison : ConsistencyCheck.Comparison) :
    ConsistencyCheck.job a.session.cwd (some a.root) comparison (a.workflow w)
      = ConsistencyCheck.job b.session.cwd (some b.root) comparison (b.workflow w) := by
  unfold locator at h
  simp only [ConsistencyCheck.job, workflow, h]

/-- The file is assembled from the workflow and the locator of its source. -/
lemma assemble_congr (h : a.locator = b.locator) (comparison : ConsistencyCheck.Comparison) :
    a.assemble comparison o w = b.assemble comparison o w := by
  have sound : (a.workflow w).defect? = (b.workflow w).defect? := rfl
  have named : Rendering.locator? a.session.cwd (some a.root) (a.workflow w)
      = Rendering.locator? b.session.cwd (some b.root) (b.workflow w) :=
    congrArg Except.toOption h
  have wanted : (a.options o).wantsCheck (a.workflow w) = (b.options o).wantsCheck (b.workflow w) :=
    rfl
  have reserved : (a.workflow w).job? ConsistencyCheck.jobId
      = (b.workflow w).job? ConsistencyCheck.jobId := rfl
  unfold assemble Rendering.assemble ConsistencyCheck.install
  rw [sound, named, wanted, reserved, job_congr h comparison]
  cases (b.workflow w).defect? with
  | some defect => rfl
  | none =>
    -- the two workflows differ in their source, which the document does not mention
    cases (b.options o).wantsCheck (b.workflow w) with
    | false => rfl
    | true =>
      cases ((b.workflow w).job? ConsistencyCheck.jobId).isSome with
      | true => rfl
      | false =>
        cases ConsistencyCheck.job b.session.cwd (some b.root) comparison (b.workflow w) <;> rfl

/-- Without a check, it is enough that the preamble names the same locator or none. -/
lemma assemble_congr_of_unchecked (unchecked : o.check = some false)
    (h : a.locator.toOption = b.locator.toOption) (comparison : ConsistencyCheck.Comparison) :
    a.assemble comparison o w = b.assemble comparison o w := by
  have sound : (a.workflow w).defect? = (b.workflow w).defect? := rfl
  have named : Rendering.locator? a.session.cwd (some a.root) (a.workflow w)
      = Rendering.locator? b.session.cwd (some b.root) (b.workflow w) := h
  have unwanted (c : WorkingCopy) : (c.options o).wantsCheck (c.workflow w) = false := by
    simp [Options.wantsCheck, options, unchecked]
  unfold assemble Rendering.assemble
  rw [sound, named, unwanted a, unwanted b]
  cases (b.workflow w).defect? with
  | some defect => rfl
  | none => rfl

/-- Working copies in which the source has the same locator agree. -/
theorem agree_of_locator (h : a.locator = b.locator) : Agree a b o w :=
  agree_of_assemble (assemble_congr h)

/-- Without a check, working copies in which the source has no locator agree as well. -/
theorem agree_of_unchecked (unchecked : o.check = some false)
    (h : a.locator.toOption = b.locator.toOption) : Agree a b o w :=
  agree_of_assemble (assemble_congr_of_unchecked unchecked h)

/-! ## Moving the repository -/

/-- A source below the root is moved along with it. -/
lemma locator_below {r s : Path} (session : Session) (hr : r.isAbsolute)
    (hs : s.isAbsolute = false) :
    (⟨session, r, r.join s⟩ : WorkingCopy).locator = .ok (Locator.write s.components) :=
  Locator.locate_join hr hs

/-- A relative source is seen from the current directory, which is moved along with the root. -/
lemma locator_from {r c s : Path} {session : Session} (hr : r.isAbsolute)
    (hc : c.isAbsolute = false) (hs : s.isAbsolute = false) (some_text : s.text ≠ "")
    (seen : session.cwd.components = (r.join c).components) :
    (⟨session, r, s⟩ : WorkingCopy).locator
      = .ok (Locator.write (c.components ++ s.components)) :=
  Locator.locate_relative hr hc hs (by simpa using some_text) seen

/-- A source outside the root has no locator. -/
lemma locator_outside {r s : Path} (session : Session) (hs : s.isAbsolute)
    (outside : ¬ r.components <+: s.components) :
    (⟨session, r, s⟩ : WorkingCopy).locator.toOption = none := by
  unfold locator
  rw [Locator.locate_outside hs outside]
  rfl

/-- **Generated files do not depend on the checkout.** Two working copies of a repository agree
if their sources lie at the same place below the root, if the same relative source is seen from
the same directory, the root or one below, and, without a check, if the sources lie outside.
Directories are compared by components, so it does not matter how they are written. -/
theorem agree_of_same_repository {r₁ r₂ : Path} (h₁ : r₁.isAbsolute) (h₂ : r₂.isAbsolute)
    (session₁ session₂ : Session) (o : Options) (w : Workflow) :
    (∀ s : Path, s.isAbsolute = false →
      Agree ⟨session₁, r₁, r₁.join s⟩ ⟨session₂, r₂, r₂.join s⟩ o w) ∧
    (∀ c s : Path, c.isAbsolute = false → s.isAbsolute = false → s.text ≠ "" →
      session₁.cwd.components = (r₁.join c).components →
      session₂.cwd.components = (r₂.join c).components →
      Agree ⟨session₁, r₁, s⟩ ⟨session₂, r₂, s⟩ o w) ∧
    (o.check = some false → ∀ q₁ q₂ p₁ p₂ : Path, p₁.isAbsolute → p₂.isAbsolute →
      ¬ q₁.components <+: p₁.components → ¬ q₂.components <+: p₂.components →
      Agree ⟨session₁, q₁, p₁⟩ ⟨session₂, q₂, p₂⟩ o w) := by
  refine ⟨fun s hs => ?_, fun c s hc hs some_text cwd₁ cwd₂ => ?_,
    fun unchecked q₁ q₂ p₁ p₂ hp₁ hp₂ outside₁ outside₂ => ?_⟩
  · apply agree_of_locator
    rw [locator_below session₁ h₁ hs, locator_below session₂ h₂ hs]
  · apply agree_of_locator
    rw [locator_from h₁ hc hs some_text cwd₁, locator_from h₂ hc hs some_text cwd₂]
  · apply agree_of_unchecked unchecked
    rw [locator_outside session₁ hp₁ outside₁, locator_outside session₂ hp₂ outside₂]

/-- A workflow with a target, which can be published. -/
def release : Workflow where
  triggers := [.push {}]
  target := some "release.yml"
  jobs := [{ id := "build" }]

/-- The same workflow published from two working copies of one repository: with an absolute
source below the root, with a relative one seen from a directory below the root and from the root
itself, and without a check from sources outside. -/
theorem release_agrees :
    let laptop : Session := { cwd := ⟨"/home/user/tool/ci"⟩ }
    let server : Session := { cwd := ⟨"/srv/tool/ci"⟩ }
    let home : Path := ⟨"/home/user/tool"⟩
    let srv : Path := ⟨"/srv/./tool/"⟩
    Agree ⟨laptop, home, home.join ⟨"ci/release.rs"⟩⟩ ⟨server, srv, srv.join ⟨"ci/release.rs"⟩⟩
        {} release ∧
      Agree ⟨laptop, home, ⟨"./release.rs"⟩⟩ ⟨server, srv, ⟨"./release.rs"⟩⟩ {} release ∧
      Agree ⟨{ cwd := home }, home, ⟨"ci/release.rs"⟩⟩
        ⟨{ cwd := ⟨"/srv/tool"⟩ }, srv, ⟨"ci/release.rs"⟩⟩ {} release ∧
      Agree ⟨laptop, home, ⟨"/opt/release.rs"⟩⟩ ⟨server, srv, ⟨"/home/release.rs"⟩⟩
        { check := some false } release ∧
      ∃ text, Publishes ⟨laptop, home, ⟨"./release.rs"⟩⟩ {} release text ∧
        Publishes ⟨server, srv, ⟨"./release.rs"⟩⟩ {} release text := by
  intro laptop server home srv
  have independent (session₁ session₂ : Session) (o : Options) := agree_of_same_repository
    (show home.isAbsolute by decide) (show srv.isAbsolute by decide) session₁ session₂ o release
  have relative :
      Agree ⟨laptop, home, ⟨"./release.rs"⟩⟩ ⟨server, srv, ⟨"./release.rs"⟩⟩ {} release :=
    (independent _ _ _).2.1 ⟨"ci"⟩ _ (by decide) (by decide) (by decide) (by decide) (by decide)
  refine ⟨(independent _ _ _).1 _ (by decide), relative,
    (independent _ _ _).2.1 ⟨"."⟩ _ (by decide) (by decide) (by decide) (by decide) (by decide),
    (independent _ _ _).2.2 rfl _ _ _ _ (by decide) (by decide) (by decide) (by decide), ?_⟩
  have first : ∃ text, Publishes ⟨laptop, home, ⟨"./release.rs"⟩⟩ {} release text :=
    exists_publishes ⟨"/home/user/tool/.github/workflows/release.yml"⟩ (by decide)
  have second : ∃ text, Publishes ⟨server, srv, ⟨"./release.rs"⟩⟩ {} release text :=
    exists_publishes ⟨"/srv/./tool/.github/workflows/release.yml"⟩ (by decide)
  obtain ⟨text, first⟩ := first
  obtain ⟨text', second⟩ := second
  exact ⟨text, first, relative.published first second ▸ second⟩

end WorkingCopy

end WorkflowFile
