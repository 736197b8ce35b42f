import WorkflowFile.Proofs.ConsistencyCheck
import WorkflowFile.Proofs.Directories
import WorkflowFile.Proofs.Place

/-!
# Where the target leads

A file is written where the target leads from the workflows directory, whereas the commands of
the check name the target behind the text of that directory.

* `below_iff_of_publish`: a published file is below the workflows directory exactly if its target
  leads from there to a place that this directory is on the way to.
* `ConsistencyCheck.tests_published_iff`: the commands of the check are about the published file
  exactly if its target is relative.
-/

namespace WorkflowFile

/-! ## The places of files and directories -/

namespace FileSystem

variable {fs fs' : FileSystem} {cwd p : Path}

/-- A path that leads somewhere leads to its place. -/
lemma eq_place_of_locate {l : Location} (h : fs.locate cwd p = .ok l) : l = Path.place cwd p := by
  obtain ⟨_, -, reached⟩ := bind_eq_ok_iff.1 h
  exact eq_follow_of_walk reached

/-- A file is written at the place of its path, which the path leads to and where no directory
is. -/
lemma write_eq_ok_place {content : String} (h : fs.write cwd p content = .ok fs') :
    fs.locate cwd p = .ok (Path.place cwd p) ∧ p.endsWithSlash = false ∧
      fs.isDirectory (Path.place cwd p) = false ∧
      fs' = fs.put (Path.place cwd p) (.file content) := by
  obtain ⟨l, located, slash, free, fs'_eq⟩ := write_eq_ok h
  obtain rfl := eq_place_of_locate located
  exact ⟨located, slash, free, fs'_eq⟩

/-- Where a write succeeds, there is a file afterwards, and there was no directory before. -/
lemma isFile_place_of_write {content : String} (h : fs.write cwd p content = .ok fs') :
    fs'.isFile (Path.place cwd p) = true ∧ fs.isDirectory (Path.place cwd p) = false := by
  obtain ⟨-, -, free, rfl⟩ := write_eq_ok_place h
  exact ⟨by simp [isFile, entry?_put_file free], free⟩

/-- A directory is made at the place of its path. -/
lemma isDirectory_place_of_makeDirectories (some_step : p.components ≠ [])
    (h : fs.makeDirectories cwd p = (.ok (), fs')) :
    fs'.isDirectory (Path.place cwd p) = true := by
  have leads := leadsToDirectory_of_makeDirectories some_step h
  unfold leadsToDirectory at leads
  split at leads
  · next l reached =>
    rwa [eq_follow_of_walk reached, Location.follow_append, Path.follow_components,
      ← Location.follow_append] at leads
  · cases leads

end FileSystem

/-! ## The workflows directory -/

lemma steps_directory :
    (⟨ConsistencyCheck.directory⟩ : Path).steps = [.name ".github", .name "workflows"] := by
  decide

/-- The walk to the workflows directory ends with its two names. -/
lemma steps_workflowsDirectory (root : Path) :
    ∃ outer, (workflowsDirectory root).steps = outer ++ [.name ".github", .name "workflows"] := by
  unfold workflowsDirectory
  by_cases empty : root.text.isEmpty
  · rw [Path.join_of_isEmpty empty, steps_directory]
    exact ⟨[], rfl⟩
  · rw [Path.steps_join (by simpa using empty) (by decide), steps_directory]
    exact ⟨root.steps, rfl⟩

lemma components_workflowsDirectory_ne_nil (root : Path) :
    (workflowsDirectory root).components ≠ [] := by
  obtain ⟨outer, steps_eq⟩ := steps_workflowsDirectory root
  unfold Path.components
  rw [steps_eq]
  cases outer <;> simp

/-- The place of the workflows directory, by the place of the root. -/
lemma place_workflowsDirectory (cwd root : Path) :
    Path.place cwd (workflowsDirectory root) = Path.place cwd root ++ [".github", "workflows"] := by
  rw [workflowsDirectory, Path.place_join, steps_directory]
  simp [Location.follow, Location.next]

/-! ## The published file -/

section Publish

variable {session : Session} {o : Options} {w : Workflow} {root path : Path} {target : String}
  {files : FileSystem}

/-- A relative target that never leads above the place where it starts ends below that place. -/
lemma prefix_follow_steps (l : Location) (relative : (⟨target⟩ : Path).isAbsolute = false)
    (stays : (Location.resolve? (⟨target⟩ : Path).steps).isSome) :
    l <+: l.follow (⟨target⟩ : Path).steps := by
  obtain ⟨names, resolved⟩ := Option.isSome_iff_exists.1 stays
  have no_root : Component.root ∉ (⟨target⟩ : Path).steps := by
    rw [Path.steps, if_neg (by simp [relative])]
    exact Path.root_notMem_segments _
  rw [Location.follow_eq_append l no_root resolved]
  exact List.prefix_append l names

/-- **Where a published file is.** It is at the place of its path, which is below the workflows
directory exactly if that directory is on the way to where the target leads from it. So it is for
a relative target that never goes above where it starts. -/
theorem below_iff_of_publish (published : publish session o w = (.ok path, files))
    (found : o.rootFor session w = some root) (named : w.target = some target) :
    let directory := Path.place session.cwd root ++ [".github", "workflows"]
    let place := Path.place session.cwd path
    let walk := (⟨target⟩ : Path).steps
    files.isFile place = true ∧
      (place.Below directory ↔ directory <+: directory.follow walk) ∧
      ((⟨target⟩ : Path).isAbsolute = false → (Location.resolve? walk).isSome →
        place.Below directory) := by
  intro directory place walk
  obtain ⟨_, _, r, found', named', -, stored⟩ := publish_eq_ok published
  cases found.symm.trans found'
  cases named.symm.trans named'
  obtain ⟨path_eq, made, done, written⟩ := store_eq_ok stored
  have directory_eq : Path.place session.cwd (workflowsDirectory root) = directory :=
    place_workflowsDirectory session.cwd root
  have place_eq : place = directory.follow walk := by
    rw [← directory_eq, ← Path.place_join, ← path_eq]
  obtain ⟨there, free⟩ := FileSystem.isFile_place_of_write written
  -- the directory is there when the file is written, so the file is not in its place
  have apart : place ≠ directory := by
    intro same
    have dir := FileSystem.isDirectory_place_of_makeDirectories
      (components_workflowsDirectory_ne_nil root) done
    rw [directory_eq, ← same] at dir
    exact Bool.false_ne_true (free.symm.trans dir)
  have below_iff : place.Below directory ↔ directory <+: directory.follow walk := by
    rw [← place_eq]
    exact and_iff_left apart
  exact ⟨there, below_iff, fun relative stays =>
    below_iff.2 (prefix_follow_steps directory relative stays)⟩

/-- A server with the repository of a tool. -/
def server : Session where
  files := ⟨.ofList [(["srv"], .directory), (["srv", "tool"], .directory)]⟩
  cwd := ⟨"/srv/tool"⟩

/-- Renderings for that repository. -/
def atServer : Options where
  root := some ⟨"/srv/tool"⟩

/-- A workflow of the tool with a target. -/
def delivery (target : String) : Workflow where
  triggers := [.push {}]
  source := some ⟨"ci.rs"⟩
  target := some target
  jobs := [{ id := "build" }]

/-- A relative target is published below the workflows directory. -/
theorem delivery_below :
    ∃ path files, publish server atServer (delivery "./release.yml") = (.ok path, files) ∧
      (Path.place server.cwd path).Below
        (Path.place server.cwd ⟨"/srv/tool"⟩ ++ [".github", "workflows"]) := by
  have published : ∃ files, publish server atServer (delivery "./release.yml")
      = (.ok ⟨"/srv/tool/.github/workflows/./release.yml"⟩, files) :=
    ⟨_, Prod.ext (by decide) rfl⟩
  obtain ⟨files, published⟩ := published
  have below := (below_iff_of_publish published rfl rfl).2.2
  exact ⟨_, files, published, below (by decide) (by decide)⟩

/-- A target is published, but not below the workflows directory. -/
def PublishedOutside (target : String) : Prop :=
  ∃ path files, publish server atServer (delivery target) = (.ok path, files) ∧
    ¬ (Path.place server.cwd path).Below
      (Path.place server.cwd ⟨"/srv/tool"⟩ ++ [".github", "workflows"])

/-- An absolute target and one that goes up get out. -/
theorem delivery_not_below :
    PublishedOutside "/srv/release.yml" ∧ PublishedOutside "../../release.yml" := by
  constructor
  · exact ⟨⟨"/srv/release.yml"⟩, _, Prod.ext (by decide) rfl, by decide⟩
  · exact ⟨⟨"/srv/tool/.github/workflows/../../release.yml"⟩, _, Prod.ext (by decide) rfl,
      by decide⟩

end Publish

/-! ## The commands of the check -/

/-- A command is appended as a step that runs it. -/
lemma Job.steps_edit_run (j : Job) (name script : String) :
    ∃ step, (j.edit (.run name script)).steps = j.steps ++ [step] ∧
      step.record.get? "run" = some (.string script) := by
  refine ⟨_, rfl, ?_⟩
  rw [Step.get?_record]
  rfl

/-- Several commands are appended in their order. -/
lemma Job.runs_edits (j : Job) (commands : List (String × String)) :
    (j.edits (commands.map fun c => .run c.1 c.2)).steps.filterMap (·.record.get? "run")
      = j.steps.filterMap (·.record.get? "run") ++ commands.map fun c => .string c.2 := by
  -- a step is numbered by those before it, so the job changes along the induction
  induction commands generalizing j with
  | nil => simp [edits]
  | cons c commands ih =>
    obtain ⟨step, steps_eq, run⟩ := steps_edit_run j c.1 c.2
    have rest := ih (j.edit (.run c.1 c.2))
    rw [steps_eq, List.filterMap_append] at rest
    rw [List.map_cons, edits, List.foldl_cons]
    refine rest.trans ?_
    simp [run]

namespace ConsistencyCheck

/-- What the steps of the check in a document run. -/
def runs (document : Node) : List Node :=
  match document.at? [.key "jobs", .key jobId, .key "steps"] with
  | some (.sequence steps) => steps.filterMap (·.get? "run")
  | _ => []

variable {cwd root : Path} {comparison : Comparison} {w v : Workflow} {target : String}

/-- What the document runs as a check. The direct comparison runs the source under its locator and
compares the output with the target in the workflows directory; the other one removes the target,
runs the source and asks for changes of the target. -/
structure Checks (comparison : Comparison) (document : Node) (target locator : String) : Prop where
  direct : comparison = .direct → runs document
    = [.string ("diff -u '.github/workflows/" ++ target ++ "' <('" ++ locator ++ "')")]
  regenerate : comparison = .regenerate → runs document
    = [.string ("rm '.github/workflows/" ++ target ++ "' && '" ++ locator ++ "'"),
      .string ("git diff --exit-code '.github/workflows/" ++ target ++ "'")]

/-- Behind an opened quotation, the path of a target starts with the workflows directory. -/
lemma append_targetText (front target : String) :
    front ++ targetText target = front ++ ".github/workflows/" ++ target := by
  have path_eq : targetText target = ".github/workflows/" ++ target := rfl
  rw [path_eq, String.append_assoc]

/-- The commands for a target and a locator are these texts. -/
lemma checks_of_runs {document : Node} {target locator : String}
    (h : runs document = (commands comparison target locator).map fun c => .string c.2) :
    Checks comparison document target locator where
  direct := by
    rintro rfl
    simp only [commands, append_targetText] at h
    exact h
  regenerate := by
    rintro rfl
    simp only [commands, append_targetText] at h
    exact h

/-- An installed check runs its commands for the target and the locator of the source. -/
lemma checks_of_install (sound : w.defect? = none)
    (installed : install cwd (some root) comparison w = .ok v) :
    ∃ source target locator, w.source = some source ∧ w.target = some target ∧
      Locator.locate cwd root source = .ok locator ∧
      Checks comparison v.document target locator := by
  obtain ⟨unreserved, check, made, rfl⟩ := install_eq_ok installed
  obtain ⟨check_id, -⟩ := get?_needs_job made
  obtain ⟨_, source, target, locator, ⟨⟩, sourced, named, located, rfl⟩ := exists_of_job_eq_ok made
  refine ⟨source, target, locator, sourced, named, located, checks_of_runs ?_⟩
  -- the checkout comes before the commands and runs nothing
  have none_before : (base w.checkCondition).steps.filterMap (·.record.get? "run") = [] := rfl
  have all := Job.runs_edits (base w.checkCondition) (commands comparison target locator)
  rw [none_before, List.nil_append] at all
  have steps_eq := Node.at?_append [.key "steps"]
    (at?_document_check sound unreserved check_id)
  simp only [List.cons_append, List.nil_append] at steps_eq
  rw [runs, steps_eq, Node.at?, Job.get?_record, if_pos rfl]
  simp only [Option.bind_some, Node.at?, List.filterMap_map]
  exact all

lemma isAbsolute_targetText (target : String) :
    (⟨targetText target⟩ : Path).isAbsolute = false := by
  simp [Path.isAbsolute, targetText, directory]

/-- Seen from the root, the path in the commands is the one to which a relative target is
joined. -/
lemma join_targetText (root : Path) (relative : (⟨target⟩ : Path).isAbsolute = false) :
    root.join ⟨targetText target⟩ = (workflowsDirectory root).join ⟨target⟩ := by
  have joined : (⟨directory⟩ : Path).join ⟨target⟩ = ⟨targetText target⟩ := by
    rw [Path.join_of_relative (by decide) relative]
    rfl
  rw [workflowsDirectory, Path.join_assoc root (by decide) (by decide) relative, joined]

/-- An absolute target is joined to nothing, so it leads elsewhere than the path in the
commands. -/
lemma components_join_targetText_ne (root : Path) (absolute : (⟨target⟩ : Path).isAbsolute) :
    (root.join ⟨targetText target⟩).components ≠ (⟨target⟩ : Path).components := by
  intro same
  have joined : (root.join ⟨targetText target⟩).isAbsolute := by
    rw [← Path.head?_components_eq_root_iff, same, Path.head?_components_eq_root_iff]
    exact absolute
  have relative := isAbsolute_targetText target
  by_cases empty : root.text.isEmpty
  · rw [Path.join_of_isEmpty empty, relative] at joined
    cases joined
  · have some_text : root.text.isEmpty = false := by simpa using empty
    -- the walk of the path in the commands has the two names of the directory besides
    have two : ((⟨directory⟩ : Path).segments.filter (· ≠ .here)).length = 2 := by decide
    have length_eq := congrArg List.length same
    rw [Path.components_of_isAbsolute joined, Path.components_of_isAbsolute absolute,
      Path.segments_join some_text relative, targetText, Path.segments_slash] at length_eq
    simp only [List.filter_append, List.length_cons, List.length_append, two] at length_eq
    omega

/-- The path in the commands and the path of the published file are computed in different ways,
which agree exactly if the target is relative. -/
lemma components_join_targetText_eq_iff (root : Path) (target : String) :
    (root.join ⟨targetText target⟩).components
        = ((workflowsDirectory root).join ⟨target⟩).components ↔
      (⟨target⟩ : Path).isAbsolute = false := by
  by_cases absolute : (⟨target⟩ : Path).isAbsolute
  · rw [Path.join_of_isAbsolute _ absolute]
    exact iff_of_false (components_join_targetText_ne root absolute) (by simp [absolute])
  · have relative : (⟨target⟩ : Path).isAbsolute = false := by simpa using absolute
    rw [join_targetText root relative]
    exact iff_of_true rfl relative

variable {session : Session} {o : Options} {path : Path} {files : FileSystem}

/-- The file that was published at `path` is the rendering `r`, and its check makes the file under
the path `tested` again from the source and asks for changes of it. -/
structure Tests (session : Session) (o : Options) (w : Workflow) (root path : Path)
    (files : FileSystem) (r : Rendering) (tested : String) : Prop where
  assembled : Rendering.assemble session.cwd (some root) .regenerate o w = .ok r
  read : files.read? session.cwd path = some r.text
  scripts : ∃ source locator, w.source = some source ∧
    Locator.locate session.cwd root source = .ok locator ∧
    runs r.document = [.string ("rm '" ++ tested ++ "' && '" ++ locator ++ "'"),
      .string ("git diff --exit-code '" ++ tested ++ "'")]

/-- Where a file is published with a check, and what the check is about. -/
lemma exists_tests_of_publish (checked : o.wantsCheck w = true)
    (published : publish session o w = (.ok path, files)) :
    ∃ root target r, o.rootFor session w = some root ∧ w.target = some target ∧
      path = (workflowsDirectory root).join ⟨target⟩ ∧
      Tests session o w root path files r (targetText target) := by
  obtain ⟨root, target, r, found, named, assembled, stored⟩ := publish_eq_ok published
  obtain ⟨sound, -, v, installed, document_eq⟩ := Rendering.assemble_eq_ok assembled
  rw [if_pos checked] at installed
  obtain ⟨source, _, locator, sourced, named', located, checks⟩ := checks_of_install sound installed
  cases named.symm.trans named'
  refine ⟨root, target, r, found, named, (store_eq_ok stored).1, assembled, read?_of_store stored,
    source, locator, sourced, located, ?_⟩
  rw [append_targetText, append_targetText, document_eq]
  exact checks.regenerate rfl

/-- **What the check tests.** The path in the commands of the check, seen from the root, is the
path of the published file exactly if the target is relative. -/
theorem tests_published_iff (checked : o.wantsCheck w = true)
    (published : publish session o w = (.ok path, files)) :
    ∃ root target r, o.rootFor session w = some root ∧ w.target = some target ∧
      Tests session o w root path files r (targetText target) ∧
      ((root.join ⟨targetText target⟩).components = path.components ↔
        (⟨target⟩ : Path).isAbsolute = false) := by
  obtain ⟨root, target, r, found, named, rfl, tests⟩ := exists_tests_of_publish checked published
  exact ⟨root, target, r, found, named, tests, components_join_targetText_eq_iff root target⟩

/-- A relative target is tested where it is published. -/
theorem delivery_tested :
    atServer.wantsCheck (delivery "release.yml") = true ∧
    ∃ path files r, publish server atServer (delivery "release.yml") = (.ok path, files) ∧
      Tests server atServer (delivery "release.yml") ⟨"/srv/tool"⟩ path files r
        ".github/workflows/release.yml" ∧
      ((⟨"/srv/tool"⟩ : Path).join ⟨".github/workflows/release.yml"⟩).components
        = path.components := by
  have published : ∃ files, publish server atServer (delivery "release.yml")
      = (.ok ⟨"/srv/tool/.github/workflows/release.yml"⟩, files) := ⟨_, Prod.ext (by decide) rfl⟩
  obtain ⟨files, published⟩ := published
  obtain ⟨_, _, r, ⟨⟩, ⟨⟩, tests, same_iff⟩ := tests_published_iff rfl published
  exact ⟨rfl, _, files, r, published, tests, same_iff.2 (by decide)⟩

/-- An absolute target is published elsewhere than it is tested. -/
theorem delivery_not_tested :
    atServer.wantsCheck (delivery "/srv/release.yml") = true ∧
    ∃ path files r, publish server atServer (delivery "/srv/release.yml") = (.ok path, files) ∧
      Tests server atServer (delivery "/srv/release.yml") ⟨"/srv/tool"⟩ path files r
        ".github/workflows//srv/release.yml" ∧
      ((⟨"/srv/tool"⟩ : Path).join ⟨".github/workflows//srv/release.yml"⟩).components
        ≠ path.components := by
  have published : ∃ files, publish server atServer (delivery "/srv/release.yml")
      = (.ok ⟨"/srv/release.yml"⟩, files) := ⟨_, Prod.ext (by decide) rfl⟩
  obtain ⟨files, published⟩ := published
  obtain ⟨_, _, r, ⟨⟩, ⟨⟩, -, tests⟩ := exists_tests_of_publish rfl published
  exact ⟨rfl, _, files, r, published, tests, by decide⟩

end ConsistencyCheck

end WorkflowFile
