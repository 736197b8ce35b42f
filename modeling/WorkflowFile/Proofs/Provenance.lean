import WorkflowFile.Proofs.Preamble
import WorkflowFile.Proofs.Target

/-!
# A generated file names one source

The locator of the source is computed for the preamble and once more for the commands of the check.
Where there is none, the preamble falls back on a text that names no source, whereas a check is
refused.

* `Preamble.provenance_injective`: the text of a provenance tells which locator it names, if any.
* `HasLocator` says when a workflow has a locator for its source.
* `Rendering.Sourced`: a file names a locator exactly if there is one, and in the commands of a
  check the same one.
* `Rendering.sourced_of_output`: so does every file that is rendered or published.
-/

namespace WorkflowFile

/-! ## The text of a provenance -/

namespace Preamble

/-- A provenance that names a locator differs from the one that names none. -/
lemma provenance_some_ne_none (l : String) : provenance (some l) ≠ provenance none := by
  intro same
  have not_opened : ¬ opening.toList <+: (provenance none).toList := by decide +kernel
  apply not_opened
  rw [← same, toList_provenance, List.append_assoc]
  exact List.prefix_append _ _

/-- The locator stands between the opening and the rest of the text. -/
lemma provenance_some (l : String) :
    provenance (some l) = opening ++ l ++ ").\n" ++ closing := by
  apply String.toList_injective
  have line_end : (").\n" : String).toList = (")." : String).toList ++ ['\n'] := by decide
  simp [toList_provenance, line_end]

/-- The text of a provenance tells which locator it names, if any. -/
theorem provenance_injective : provenance.Injective := by
  intro named named' same
  cases named with
  | none =>
    cases named' with
    | none => rfl
    | some l => exact absurd same.symm (provenance_some_ne_none l)
  | some l =>
    cases named' with
    | none => exact absurd same (provenance_some_ne_none l)
    | some l' =>
      have texts_eq := congrArg String.toList same
      rw [toList_provenance, toList_provenance] at texts_eq
      -- the texts in front of the locator and behind it are the same
      have line_eq : (l ++ ").").toList = (l' ++ ").").toList :=
        List.append_cancel_left (List.append_cancel_right texts_eq)
      rw [String.toList_append, String.toList_append] at line_eq
      have l_eq : l = l' := String.toList_injective (List.append_cancel_right line_eq)
      rw [l_eq]

end Preamble

/-! ## The locator of a workflow -/

/-- The source of a workflow has a locator: there are a source and a root, given or found, and the
source can be located from the root. -/
def HasLocator (session : Session) (o : Options) (w : Workflow) (locator : String) : Prop :=
  ∃ source root, w.source = some source ∧ o.rootFor session w = some root ∧
    Locator.locate session.cwd root source = .ok locator

/-- A workflow has at most one locator for its source. -/
lemma HasLocator.unique {session : Session} {o : Options} {w : Workflow} {l l' : String}
    (h : HasLocator session o w l) (h' : HasLocator session o w l') : l = l' := by
  obtain ⟨source, root, sourced, found, located⟩ := h
  obtain ⟨source', root', sourced', found', located'⟩ := h'
  cases sourced.symm.trans sourced'
  cases found.symm.trans found'
  exact Except.ok.inj (located.symm.trans located')

namespace Rendering

variable {session : Session} {o : Options} {w : Workflow} {r : Rendering}
  {comparison : ConsistencyCheck.Comparison}

/-- The locator that is handed to the preamble is that of the source, if it has one. -/
lemma locator?_eq_some_iff {l : String} :
    locator? session.cwd (o.rootFor session w) w = some l ↔ HasLocator session o w l := by
  unfold locator? HasLocator
  cases w.source with
  | none => simp
  | some source =>
    cases o.rootFor session w with
    | none => simp
    | some root =>
      cases located : Locator.locate session.cwd root source <;> simp [Except.toOption, located]

/-- A file says by the text of its provenance where it comes from, in a comment alone or beside the
custom text: the text names a locator exactly if it is that of the source, and no locator exactly if
there is none. If there is a check, the text names a locator, and the check runs its commands with
that locator. -/
structure Sourced (session : Session) (o : Options) (w : Workflow)
    (comparison : ConsistencyCheck.Comparison) (r : Rendering) (provenance : String) : Prop where
  preamble : r.preamble = match o.preamble with
    | .generated => Preamble.comment provenance
    | .replace text =>
      if text = "" then Preamble.comment provenance else Preamble.comment text
    | .before text => Preamble.comment text ++ Preamble.comment provenance
    | .after text => Preamble.comment provenance ++ Preamble.comment text
  names : ∀ l, provenance = Preamble.opening ++ l ++ ").\n" ++ Preamble.closing ↔
    HasLocator session o w l
  generic : provenance = Preamble.provenance none ↔ ∀ l, ¬ HasLocator session o w l
  check : o.wantsCheck w = true → ∃ l target,
    provenance = Preamble.opening ++ l ++ ").\n" ++ Preamble.closing ∧
    w.target = some target ∧ ConsistencyCheck.Checks comparison r.document target l

/-- An installed check runs its commands with the locator of the source. -/
lemma exists_checks_of_install {v : Workflow} (sound : w.defect? = none)
    (installed : ConsistencyCheck.install session.cwd (o.rootFor session w) comparison w = .ok v) :
    ∃ l target, HasLocator session o w l ∧ w.target = some target ∧
      ConsistencyCheck.Checks comparison v.document target l := by
  obtain ⟨-, check, made, -⟩ := ConsistencyCheck.install_eq_ok installed
  obtain ⟨root, -, -, -, found, -⟩ := ConsistencyCheck.exists_of_job_eq_ok made
  rw [found] at installed
  obtain ⟨source, target, l, sourced, named, located, checks⟩ :=
    ConsistencyCheck.checks_of_install sound installed
  exact ⟨l, target, ⟨source, root, sourced, found, located⟩, named, checks⟩

/-- An assembled file names the locator of its source. -/
lemma sourced_of_assemble
    (assembled : assemble session.cwd (o.rootFor session w) comparison o w = .ok r) :
    Sourced session o w comparison r
      (Preamble.provenance (locator? session.cwd (o.rootFor session w) w)) := by
  obtain ⟨sound, preamble_eq, v, made, document_eq⟩ := assemble_eq_ok assembled
  refine ⟨?_, fun l => ?_, ?_, fun checked => ?_⟩
  · rw [preamble_eq]
    cases o.preamble <;> simp [Preamble.compose]
  · rw [← Preamble.provenance_some, Preamble.provenance_injective.eq_iff, locator?_eq_some_iff]
  · rw [Preamble.provenance_injective.eq_iff, Option.eq_none_iff_forall_ne_some]
    simp only [Ne, locator?_eq_some_iff]
  · rw [if_pos checked] at made
    obtain ⟨l, target, located, named, checks⟩ := exists_checks_of_install sound made
    have named_l : locator? session.cwd (o.rootFor session w) w = some l :=
      locator?_eq_some_iff.2 located
    refine ⟨l, target, ?_, named, document_eq ▸ checks⟩
    rw [named_l, Preamble.provenance_some]

/-- **A generated file names one source.** The provenance of a file that is rendered or published
names a locator exactly if the source of the workflow has one, and then that one; with a check it
names one, which is the one in the commands of the check. -/
theorem sourced_of_output (session : Session) (o : Options) (w : Workflow) :
    (∀ text, render session o w = .ok text →
      ∃ (r : Rendering) (provenance : String), r.Emitted session o w ∧ text = r.text ∧
        Sourced session o w .direct r provenance) ∧
    (∀ path files, publish session o w = (.ok path, files) →
      ∃ (r : Rendering) (provenance : String), r.Emitted session o w ∧
        files.read? session.cwd path = some r.text ∧
        Sourced session o w .regenerate r provenance) := by
  constructor
  · intro text rendered
    obtain ⟨r, assembled, rfl⟩ := map_eq_ok_iff.1 rendered
    exact ⟨r, _, Or.inl assembled, rfl, sourced_of_assemble assembled⟩
  · intro path files published
    obtain ⟨root, target, r, found, -, assembled, stored⟩ := publish_eq_ok published
    have emitted : r.Emitted session o w := Or.inr ⟨root, found, assembled⟩
    rw [← found] at assembled
    exact ⟨r, _, emitted, read?_of_store stored, sourced_of_assemble assembled⟩

/-- A workflow of the tool whose source is given by an absolute path with idle steps. -/
def courier : Workflow where
  triggers := [.push {}]
  source := some ⟨"/srv/tool//ci/./courier.rs"⟩
  target := some "courier.yml"
  jobs := [{ id := "deliver" }]

/-- Rendered and published, the courier names its source in the same way in the provenance and in
the commands of the check. -/
theorem courier_sourced :
    ∃ (r q : Rendering) (provenance : String) (path : Path) (files : FileSystem),
      render server atServer courier = .ok r.text ∧
      publish server atServer courier = (.ok path, files) ∧
      files.read? server.cwd path = some q.text ∧
      HasLocator server atServer courier "ci/courier.rs" ∧
      provenance = "This file was generated using a typed workflow definition (ci/courier.rs).\n"
        ++ Preamble.closing ∧
      Sourced server atServer courier .direct r provenance ∧
      ConsistencyCheck.runs r.document
        = [.string "diff -u '.github/workflows/courier.yml' <('ci/courier.rs')"] ∧
      Sourced server atServer courier .regenerate q provenance ∧
      ConsistencyCheck.runs q.document
        = [.string "rm '.github/workflows/courier.yml' && 'ci/courier.rs'",
          .string "git diff --exit-code '.github/workflows/courier.yml'"] := by
  have rendered : ∃ text, render server atServer courier = .ok text := ⟨_, rfl⟩
  have published : (publish server atServer courier).1
      = .ok ⟨"/srv/tool/.github/workflows/courier.yml"⟩ := by decide
  have located : HasLocator server atServer courier "ci/courier.rs" :=
    ⟨_, _, rfl, rfl, by decide⟩
  obtain ⟨text, rendered⟩ := rendered
  obtain ⟨r, provenance, -, rfl, sourced⟩ :=
    (sourced_of_output server atServer courier).1 text rendered
  obtain ⟨q, provenance', -, read, sourced'⟩ :=
    (sourced_of_output server atServer courier).2 _ _ (Prod.ext published rfl)
  have text_eq := (sourced.names _).2 located
  have text_eq' := (sourced'.names _).2 located
  subst text_eq text_eq'
  -- the checks name the locator of the source, and there is only one
  obtain ⟨l, target, named, ⟨⟩, checks⟩ := sourced.check rfl
  obtain rfl := located.unique ((sourced.names l).1 named)
  obtain ⟨l', target', named', ⟨⟩, checks'⟩ := sourced'.check rfl
  obtain rfl := located.unique ((sourced'.names l').1 named')
  exact ⟨r, q, _, _, _, rendered, Prod.ext published rfl, read, located, rfl, sourced,
    checks.direct rfl, sourced', checks'.regenerate rfl⟩

end Rendering

end WorkflowFile
