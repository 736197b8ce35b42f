import WorkflowFile.Proofs.Publication
import WorkflowFile.Proofs.Target

/-!
# Series of publications

Several publications below one root write to one directory, which the first of them makes. They do
not disturb each other otherwise.

* `Publication` is one of them, for a target that is a single name.
* `Publication.run_eq_ok_iff_of_made`: what one of them does where the directory has been made.
* `Publication.runAll_eq_ok_iff`: what a series of them does.
* `Publication.independent_of_runAll`: the outcome for each target depends only on the last
  publication for it.
-/

namespace WorkflowFile

/-- A publication below a given root, for a target that is a single name. -/
structure Publication (root : Path) where
  options : Options
  workflow : Workflow
  target : String
  rooted : options.root = some root
  named : workflow.target = some target
  single : (⟨target⟩ : Path).components = [.name target]

namespace Publication

variable {root : Path} {cwd : Path} {fs made s files : FileSystem} {c : Publication root}
  {calls calls' : List (Publication root)}

/-- The path of the published file. -/
def path (c : Publication root) : Path := (workflowsDirectory root).join ⟨c.target⟩

/-- The place of the published file. -/
def place (cwd : Path) (c : Publication root) : Location := Path.place cwd c.path

/-- The generated file that is published, if one can be assembled. -/
def rendering (cwd : Path) (c : Publication root) : Except Fault Rendering :=
  Rendering.assemble cwd (some root) .regenerate c.options c.workflow

/-- The text that is published. -/
def text (cwd : Path) (c : Publication root) : String :=
  ((c.rendering cwd).map Rendering.text).toOption.getD ""

/-- The files after a publication, if it succeeds. -/
def run (cwd : Path) (fs : FileSystem) (c : Publication root) : Except Fault FileSystem :=
  match publish ⟨fs, cwd⟩ c.options c.workflow with
  | (.ok _, files) => .ok files
  | (.error fault, _) => .error fault

/-- The files after a series of publications, if all of them succeed. -/
def runAll (cwd : Path) (fs : FileSystem) (calls : List (Publication root)) :
    Except Fault FileSystem :=
  calls.foldlM (run cwd) fs

/-- Another order of a series, in which those for the same target come one after the other as
before. -/
structure Rearranged (calls calls' : List (Publication root)) : Prop where
  perm : calls'.Perm calls
  in_order : ∀ target, calls'.filter (·.target = target) = calls.filter (·.target = target)

/-! ## Places -/

lemma place_eq (cwd : Path) (c : Publication root) :
    c.place cwd = Path.place cwd (workflowsDirectory root) ++ [c.target] := by
  rw [place, path, Path.place_join, ← Path.follow_components, c.single]
  rfl

/-- Different targets have different places. -/
lemma place_inj {c' : Publication root} : c.place cwd = c'.place cwd ↔ c.target = c'.target := by
  rw [place_eq, place_eq, List.append_right_inj, List.singleton_inj]

lemma place_ne_nil (cwd : Path) (c : Publication root) : c.place cwd ≠ [] := by
  rw [place_eq]
  simp

/-- The publications for a place are those for a target. -/
lemma filter_place (calls : List (Publication root)) (c : Publication root) :
    calls.filter (·.place cwd = c.place cwd) = calls.filter (·.target = c.target) := by
  simp only [place_inj]

/-- The publications that write to one place are in the same order in a rearrangement. -/
lemma Rearranged.filter_place (h : Rearranged calls calls') (a : Location) :
    calls'.filter (·.place cwd = a) = calls.filter (·.place cwd = a) := by
  by_cases targeted : ∃ c ∈ calls, c.place cwd = a
  · obtain ⟨c, -, rfl⟩ := targeted
    rw [Publication.filter_place, Publication.filter_place, h.in_order]
  · have none_left : calls.filter (·.place cwd = a) = [] := by simpa using targeted
    have none_left' : calls'.filter (·.place cwd = a) = [] := by
      simpa [h.perm.mem_iff] using targeted
    rw [none_left, none_left']

/-- Neighbours for different targets can be swapped. -/
lemma Rearranged.swap (before after : List (Publication root)) {c c' : Publication root}
    (apart : c.target ≠ c'.target) :
    Rearranged (before ++ c :: c' :: after) (before ++ c' :: c :: after) := by
  refine ⟨.append_left before (.swap ..), fun target => ?_⟩
  simp only [List.filter_append, List.filter_cons]
  -- at most one of the two is for the target
  by_cases here : c.target = target
  · have other : ¬ c'.target = target := fun here' => apart (here.trans here'.symm)
    simp [here, other]
  · simp [here]

/-! ## One publication -/

/-- The published text is that of the generated file. -/
lemma text_eq {r : Rendering} (assembled : c.rendering cwd = .ok r) : c.text cwd = r.text := by
  rw [text, assembled]
  rfl

/-- What a publication does when it succeeds: the file is assembled, the directory is made and the
text is written. -/
lemma run_eq_ok_iff : run cwd fs c = .ok files ↔ ∃ r made, c.rendering cwd = .ok r ∧
    fs.makeDirectories cwd (workflowsDirectory root) = (.ok (), made) ∧
    made.write cwd c.path r.text = .ok files := by
  have found : c.options.rootFor ⟨fs, cwd⟩ c.workflow = some root := by
    rw [Options.rootFor, c.rooted]
  constructor
  · intro h
    unfold run at h
    split at h
    · next published =>
      cases h
      obtain ⟨_, _, r, found', named', assembled, stored⟩ := publish_eq_ok published
      cases found.symm.trans found'
      cases c.named.symm.trans named'
      obtain ⟨rfl, made, done, written⟩ := store_eq_ok stored
      exact ⟨r, made, assembled, done, written⟩
    · cases h
  · rintro ⟨r, made, assembled, done, written⟩
    have published : publish ⟨fs, cwd⟩ c.options c.workflow = (.ok c.path, files) :=
      (publish_eq_store found c.named assembled).trans (store_eq_of_write done written)
    rw [run, published]

/-- A publication is possible once its directory has been made: a file can be assembled, and its
text can be written. -/
def Possible (cwd : Path) (made : FileSystem) (c : Publication root) : Prop :=
  ∃ r files, c.rendering cwd = .ok r ∧ made.write cwd c.path r.text = .ok files

/-- The path of a possible publication leads to its place, where no directory is. -/
lemma Possible.leads (h : Possible cwd made c) :
    made.locate cwd c.path = .ok (c.place cwd) ∧ c.path.endsWithSlash = false ∧
      made.isDirectory (c.place cwd) = false := by
  obtain ⟨r, files, -, written⟩ := h
  obtain ⟨located, slash, free, -⟩ := FileSystem.write_eq_ok_place written
  exact ⟨located, slash, free⟩

/-- A possible publication leaves the directories as they are. -/
lemma Possible.sameDirectories (h : Possible cwd made c) (same : made.SameDirectories s) :
    made.SameDirectories (s.put (c.place cwd) (.file (c.text cwd))) := by
  obtain ⟨-, -, free⟩ := h.leads
  rw [same.isDirectory_eq] at free
  exact same.trans (.put_file free)

/-- Where the directory has been made, there is nothing to be made any more. -/
lemma makeDirectories_of_made
    (done : fs.makeDirectories cwd (workflowsDirectory root) = (.ok (), made))
    (same : made.SameDirectories s) :
    s.makeDirectories cwd (workflowsDirectory root) = (.ok (), s) :=
  FileSystem.makeDirectories_again (components_workflowsDirectory_ne_nil root) done
    fun l => (same l).1

/-- Where the directory has been made, a publication puts its file, if that is possible. Files that
have been written since do not matter. -/
theorem run_eq_ok_iff_of_made
    (done : fs.makeDirectories cwd (workflowsDirectory root) = (.ok (), made))
    (same : made.SameDirectories s) :
    run cwd s c = .ok files ↔
      Possible cwd made c ∧ files = s.put (c.place cwd) (.file (c.text cwd)) := by
  have again := makeDirectories_of_made done same
  have put {r : Rendering} {files : FileSystem} (assembled : c.rendering cwd = .ok r)
      (written : s.write cwd c.path r.text = .ok files) :
      files = s.put (c.place cwd) (.file (c.text cwd)) := by
    obtain ⟨-, -, -, rfl⟩ := FileSystem.write_eq_ok_place written
    rw [place, text_eq assembled]
  rw [run_eq_ok_iff]
  constructor
  · rintro ⟨r, _, assembled, done', written⟩
    cases again.symm.trans done'
    obtain ⟨files', written'⟩ := FileSystem.exists_write_eq_ok same.symm written r.text
    exact ⟨⟨r, files', assembled, written'⟩, put assembled written⟩
  · rintro ⟨⟨r, _, assembled, written⟩, rfl⟩
    obtain ⟨files', written'⟩ := FileSystem.exists_write_eq_ok same written r.text
    exact ⟨r, s, assembled, again, put assembled written' ▸ written'⟩

/-- A publication does the same where the workflows directory is made before. -/
lemma run_made (done : fs.makeDirectories cwd (workflowsDirectory root) = (.ok (), made)) :
    run cwd fs c = .ok files ↔ run cwd made c = .ok files := by
  simp only [run_eq_ok_iff, done, makeDirectories_of_made done (.refl made)]

/-! ## A series of publications -/

/-- What is put by a publication. -/
def entry (cwd : Path) (c : Publication root) : Location × Entry :=
  (c.place cwd, .file (c.text cwd))

/-- A location holds the text of the last publication for it. -/
lemma entry?_putAll_entries (s : FileSystem) (calls : List (Publication root)) (a : Location) :
    FileSystem.entry? (s.putAll (calls.map (entry cwd))) a
      = ((calls.filter (·.place cwd = a)).getLast?.map fun c => .file (c.text cwd)).or
          (s.entry? a) := by
  have named : ∀ e ∈ calls.map (entry cwd), e.1 ≠ [] := by
    intro e he
    obtain ⟨c, -, rfl⟩ := List.mem_map.1 he
    exact c.place_ne_nil cwd
  rw [FileSystem.entry?_putAll s named, List.filter_map, List.getLast?_map, Option.map_map]
  rfl

/-- A series puts its files where the directory has been made, if each of them is possible there. -/
lemma runAll_eq_ok_iff_of_made
    (done : fs.makeDirectories cwd (workflowsDirectory root) = (.ok (), made))
    (same : made.SameDirectories s) :
    runAll cwd s calls = .ok files ↔
      (∀ c ∈ calls, Possible cwd made c) ∧ files = s.putAll (calls.map (entry cwd)) := by
  -- a file that is put leaves the directories as they are, so the series can go on
  induction calls generalizing s with
  | nil =>
    show Except.ok s = Except.ok files ↔ _
    simp [FileSystem.putAll, eq_comm]
  | cons c calls ih =>
    rw [runAll, List.foldlM_cons, bind_eq_ok_iff]
    constructor
    · rintro ⟨s', first, rest⟩
      obtain ⟨possible, rfl⟩ := (run_eq_ok_iff_of_made done same).1 first
      obtain ⟨rest_possible, rfl⟩ := (ih (possible.sameDirectories same)).1 rest
      exact ⟨List.forall_mem_cons.2 ⟨possible, rest_possible⟩, rfl⟩
    · rintro ⟨possible, rfl⟩
      obtain ⟨first, rest⟩ := List.forall_mem_cons.1 possible
      exact ⟨_, (run_eq_ok_iff_of_made done same).2 ⟨first, rfl⟩,
        (ih (first.sameDirectories same)).2 ⟨rest, rfl⟩⟩

/-- **What a series of publications does.** The directory is made, and then the files are put one
after the other. -/
theorem runAll_eq_ok_iff (some_call : calls ≠ []) :
    runAll cwd fs calls = .ok files ↔ ∃ made,
      fs.makeDirectories cwd (workflowsDirectory root) = (.ok (), made) ∧
      (∀ c ∈ calls, Possible cwd made c) ∧ files = made.putAll (calls.map (entry cwd)) := by
  have from_made {made : FileSystem}
      (done : fs.makeDirectories cwd (workflowsDirectory root) = (.ok (), made)) :
      runAll cwd fs calls = .ok files ↔
        (∀ c ∈ calls, Possible cwd made c) ∧ files = made.putAll (calls.map (entry cwd)) := by
    rw [← runAll_eq_ok_iff_of_made done (.refl made)]
    obtain ⟨c, calls, rfl⟩ := List.exists_cons_of_ne_nil some_call
    simp only [runAll, List.foldlM_cons, bind_eq_ok_iff, run_made done]
  constructor
  · intro h
    -- the first of them makes the directory
    obtain ⟨c, rest, rfl⟩ := List.exists_cons_of_ne_nil some_call
    obtain ⟨_, first, -⟩ := bind_eq_ok_iff.1 h
    obtain ⟨_, made, -, done, -⟩ := run_eq_ok_iff.1 first
    exact ⟨made, done, (from_made done).1 h⟩
  · rintro ⟨made, done, h⟩
    exact (from_made done).2 h

/-- A series leaves the directories as they have been made. -/
lemma sameDirectories_putAll (same : made.SameDirectories s)
    (possible : ∀ c ∈ calls, Possible cwd made c) :
    made.SameDirectories (s.putAll (calls.map (entry cwd))) := by
  induction calls generalizing s with
  | nil => exact same
  | cons c calls ih =>
    obtain ⟨first, rest⟩ := List.forall_mem_cons.1 possible
    exact ih (first.sameDirectories same) rest

/-! ## Independence -/

/-- A series that has left `files` of `fs` is one of independent publications. -/
structure Independent (cwd : Path) (fs files : FileSystem) (calls : List (Publication root)) :
    Prop where
  /-- The file of a target holds the text that the last publication for it has rendered. -/
  held : ∀ target c, (calls.filter (·.target = target)).getLast? = some c →
    ∃ r, c.rendering cwd = .ok r ∧
      files.read? cwd ((workflowsDirectory root).join ⟨target⟩) = some r.text
  /-- Elsewhere at most directories have been made. -/
  kept : ∀ a, (∀ c ∈ calls, c.place cwd ≠ a) →
    fs.KeptOrMade files (wayToWorkflows ⟨fs, cwd⟩ root) a
  /-- Another order that keeps the one for each target leaves the same. -/
  rearranged : ∀ calls', Rearranged calls calls' →
    ∃ files', runAll cwd fs calls' = .ok files' ∧ ∀ a, files'.entry? a = files.entry? a
  /-- The last publication can be made once more and changes nothing. -/
  repeated : ∀ c, calls.getLast? = some c → run cwd files c = .ok files

/-- The file of a target can be read after a series. -/
lemma read?_putAll (possible : ∀ c ∈ calls, Possible cwd made c) {target : String}
    (last : (calls.filter (·.target = target)).getLast? = some c) :
    ∃ r, c.rendering cwd = .ok r ∧ (made.putAll (calls.map (entry cwd))).read? cwd
      ((workflowsDirectory root).join ⟨target⟩) = some r.text := by
  obtain ⟨hc, here⟩ := List.mem_filter.1 (List.mem_of_getLast? last)
  obtain rfl : c.target = target := of_decide_eq_true here
  obtain ⟨located, slash, -⟩ := (possible c hc).leads
  obtain ⟨r, -, assembled, -⟩ := possible c hc
  have same := sameDirectories_putAll (.refl made) possible
  have still_located := FileSystem.locate_mono (fun l => (same l).1) located
  refine ⟨r, assembled, FileSystem.read?_of_locate still_located slash ?_⟩
  rw [entry?_putAll_entries, filter_place, last, Option.map_some, text_eq assembled]
  rfl

/-- No other file is changed by a series. -/
lemma keptOrMade_putAll
    (done : fs.makeDirectories cwd (workflowsDirectory root) = (.ok (), made))
    (possible : ∀ c ∈ calls, Possible cwd made c) {a : Location}
    (elsewhere : ∀ c ∈ calls, c.place cwd ≠ a) :
    fs.KeptOrMade (made.putAll (calls.map (entry cwd))) (wayToWorkflows ⟨fs, cwd⟩ root) a := by
  have none_there : calls.filter (·.place cwd = a) = [] := by simpa using elsewhere
  refine (FileSystem.keptOrMade_of_makeDirectories done a).of_sameDirectories
    (sameDirectories_putAll (.refl made) possible) ?_
  rw [entry?_putAll_entries, none_there]
  rfl

/-- The order of publications for different targets does not matter. -/
lemma Rearranged.entry?_putAll (h : Rearranged calls calls') (a : Location) :
    FileSystem.entry? (made.putAll (calls'.map (entry cwd))) a
      = FileSystem.entry? (made.putAll (calls.map (entry cwd))) a := by
  rw [entry?_putAll_entries, entry?_putAll_entries, h.filter_place]

/-- The last publication of a series can be made once more. -/
lemma run_putAll (done : fs.makeDirectories cwd (workflowsDirectory root) = (.ok (), made))
    (possible : ∀ c ∈ calls, Possible cwd made c) (last : calls.getLast? = some c) :
    run cwd (made.putAll (calls.map (entry cwd))) c
      = .ok (made.putAll (calls.map (entry cwd))) := by
  refine (run_eq_ok_iff_of_made done (sameDirectories_putAll (.refl made) possible)).2
    ⟨possible c (List.mem_of_getLast? last), ?_⟩
  obtain ⟨before, rfl⟩ := List.getLast?_eq_some_iff.1 last
  rw [List.map_append, List.map_singleton, FileSystem.putAll_concat]
  exact (FileSystem.put_put _ _ _).symm

/-- **Publications are independent.** If a series of publications succeeds, each file depends only
on the last one for its target. -/
theorem independent_of_runAll (succeeded : runAll cwd fs calls = .ok files) :
    Independent cwd fs files calls := by
  by_cases none_called : calls = []
  · subst none_called
    cases succeeded
    refine ⟨by simp, fun _ _ => .inl rfl, fun calls' h => ⟨_, ?_, fun _ => rfl⟩, by simp⟩
    rw [h.perm.eq_nil]
    rfl
  · obtain ⟨made, done, possible, rfl⟩ := (runAll_eq_ok_iff none_called).1 succeeded
    refine ⟨fun _ _ => read?_putAll possible, fun _ => keptOrMade_putAll done possible,
      fun calls' h => ⟨_, ?_, h.entry?_putAll⟩, fun _ => run_putAll done possible⟩
    have some_call : calls' ≠ [] := fun none => none_called (none ▸ h.perm).nil_eq.symm
    exact (runAll_eq_ok_iff some_call).2
      ⟨made, done, fun c hc => possible c (h.perm.mem_iff.1 hc), rfl⟩

/-! ## A series for two targets -/

/-- A publication of a workflow of the tool on the server, with one job. -/
def onServer (target id : String) (single : (⟨target⟩ : Path).components = [.name target]) :
    Publication ⟨"/srv/tool"⟩ where
  options := atServer
  workflow := { delivery target with jobs := [{ id }] }
  target
  rooted := rfl
  named := rfl
  single

/-- A release. -/
def release : Publication ⟨"/srv/tool"⟩ := onServer "release.yml" "build" (by decide)

/-- The workflow of every night. -/
def nightly : Publication ⟨"/srv/tool"⟩ := onServer "nightly.yml" "test" (by decide)

/-- A release with another job, for the same target. -/
def packaging : Publication ⟨"/srv/tool"⟩ := onServer "release.yml" "package" (by decide)

/-- What is published between two releases may as well come after them. -/
theorem releases_independent :
    ∃ files, runAll server.cwd server.files [release, nightly, packaging] = .ok files ∧
      Independent server.cwd server.files files [release, nightly, packaging] ∧
      ∃ files', runAll server.cwd server.files [release, packaging, nightly] = .ok files' ∧
        ∀ a, files'.entry? a = files.entry? a := by
  have isOk : (runAll server.cwd server.files [release, nightly, packaging]).isOk := by decide
  cases succeeded : runAll server.cwd server.files [release, nightly, packaging] with
  | error fault =>
    rw [succeeded] at isOk
    cases isOk
  | ok files =>
    have independent := independent_of_runAll succeeded
    have swapped : Rearranged [release, nightly, packaging] [release, packaging, nightly] :=
      .swap [release] [] (by decide)
    exact ⟨files, rfl, independent, independent.rearranged _ swapped⟩

end Publication

end WorkflowFile
