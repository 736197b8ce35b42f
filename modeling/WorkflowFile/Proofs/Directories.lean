import WorkflowFile.Proofs.FileSystem

/-!
# Making directories

* `FileSystem.KeptOrMade` says of a location that it is as before, or has got a directory that
  belongs to a walk.
* `FileSystem.keptOrMade_of_makeDirectories`: whether or not directories could be made on the way
  of a path, that is so of every location.
* `FileSystem.leadsToDirectory_of_makeDirectories`: if they could, the path leads to a directory.
* `FileSystem.makeDirectories_again`: then there is nothing to be made as long as they stay.
-/

namespace WorkflowFile

namespace FileSystem

variable {fs fs' fs'' : FileSystem} {steps begun : List Component} {l : Location}

/-! ## What stays and what is new -/

/-- A beginning of a walk leads to a location. -/
def OnWay (fs : FileSystem) (steps : List Component) (l : Location) : Prop :=
  ∃ begun, begun <+: steps ∧ fs.walk begun = .ok l

/-- A location holds what it held before, or there is a new directory that a beginning of the
walk leads to. -/
def KeptOrMade (fs fs' : FileSystem) (steps : List Component) (l : Location) : Prop :=
  fs'.entry? l = fs.entry? l ∨
    fs.entry? l = none ∧ fs'.entry? l = some .directory ∧ fs'.OnWay steps l

lemma KeptOrMade.directory (h : KeptOrMade fs fs' steps l)
    (dir : fs.entry? l = some .directory) : fs'.entry? l = some .directory := by
  rcases h with same | ⟨-, made, -⟩
  · exact same.trans dir
  · exact made

lemma KeptOrMade.trans (first : KeptOrMade fs fs' steps l)
    (second : ∀ a, KeptOrMade fs' fs'' steps a) : KeptOrMade fs fs'' steps l := by
  rcases first with same | ⟨free, made, begun, on_way, reached⟩
  · unfold KeptOrMade
    rw [← same]
    exact second l
  · -- the second change keeps what was made first, and the way to it as well
    exact .inr ⟨free, (second l).directory made, begun, on_way,
      walk_mono (fun a => (second a).directory) reached⟩

/-- What has been changed may go on to change in files elsewhere. -/
lemma KeptOrMade.of_sameDirectories {a : Location} (h : KeptOrMade fs fs' steps a)
    (same : fs'.SameDirectories fs'') (kept : fs''.entry? a = fs'.entry? a) :
    KeptOrMade fs fs'' steps a := by
  unfold KeptOrMade
  rw [kept]
  rcases h with unchanged | ⟨absent, made, begun, on_way, reached⟩
  · exact .inl unchanged
  · exact .inr ⟨absent, made, begun, on_way, walk_mono (fun b => (same b).1) reached⟩

/-- A file that is put where no directory is changes nothing else. -/
lemma KeptOrMade.put_file {content : String} {a : Location} (h : KeptOrMade fs fs' steps a)
    (free : fs'.isDirectory l = false) (other : l ≠ a) :
    KeptOrMade fs (fs'.put l (.file content)) steps a :=
  h.of_sameDirectories (.put_file free) (entry?_put_of_ne _ other)

/-! ## One directory -/

/-- A walk goes on as before when a directory is put somewhere. -/
lemma walk_put_directory {a : Location} (h : fs.walk steps = .ok a) :
    (fs.put l .directory).walk steps = .ok a :=
  walk_mono (fun _ => entry?_put_of_directory fun _ => rfl) h

/-- What making a directory does when it succeeds: it puts one where the walk leads to and
nothing is. -/
lemma makeDirectory_eq_ok (h : fs.makeDirectory steps = .ok fs') :
    ∃ l, fs.walk steps = .ok l ∧ fs.entry? l = none ∧ fs' = fs.put l .directory := by
  obtain ⟨l, reached, h⟩ := bind_eq_ok_iff.1 h
  split at h
  · cases h
  · next free => exact ⟨l, reached, free, (Except.ok.inj h).symm⟩

lemma keptOrMade_of_makeDirectory (on_way : begun <+: steps)
    (h : fs.makeDirectory begun = .ok fs') (a : Location) : KeptOrMade fs fs' steps a := by
  obtain ⟨l, reached, free, rfl⟩ := makeDirectory_eq_ok h
  by_cases same : l = a
  · subst same
    exact .inr ⟨free, entry?_put_directory fs l, begun, on_way, walk_put_directory reached⟩
  · exact .inl (entry?_put_of_ne _ same)

lemma keptOrMade_of_ensureDirectory (on_way : begun <+: steps)
    (h : fs.ensureDirectory begun = .ok fs') (a : Location) : KeptOrMade fs fs' steps a := by
  unfold ensureDirectory at h
  split at h
  · next made =>
    cases h
    exact keptOrMade_of_makeDirectory on_way made a
  · split at h
    · cases h
      exact .inl rfl
    · cases h

/-- A directory that was made is where the walk leads. -/
lemma leadsToDirectory_of_makeDirectory (h : fs.makeDirectory steps = .ok fs') :
    fs'.leadsToDirectory steps = true := by
  obtain ⟨l, reached, free, rfl⟩ := makeDirectory_eq_ok h
  unfold leadsToDirectory
  rw [walk_put_directory reached]
  exact isDirectory_iff.2 (entry?_put_directory fs l)

/-- A directory that there has to be is where the walk leads. -/
lemma leadsToDirectory_of_ensureDirectory (h : fs.ensureDirectory steps = .ok fs') :
    fs'.leadsToDirectory steps = true := by
  unfold ensureDirectory at h
  split at h
  · next made =>
    cases h
    exact leadsToDirectory_of_makeDirectory made
  · split at h
    · next there =>
      cases h
      exact there
    · cases h

/-! ## All directories on a way -/

/-- Whether or not it succeeds, making the directories on a walk changes nothing else. -/
lemma keptOrMade_makeDirectoriesBack (start back : List Component)
    (on_way : start ++ back.reverse <+: steps) (a : Location) :
    KeptOrMade fs (fs.makeDirectoriesBack start back).2 steps a := by
  induction back generalizing a with
  | nil => exact .inl rfl
  | cons step outer ih =>
    -- the walk is given backwards, so the rest of the list is a shorter way to its end
    have outer_on_way : start ++ outer.reverse <+: steps := by
      refine List.IsPrefix.trans ?_ on_way
      rw [List.reverse_cons, ← List.append_assoc]
      exact List.prefix_append _ _
    have ih := ih outer_on_way
    unfold makeDirectoriesBack
    simp only
    split
    · next made => exact keptOrMade_of_makeDirectory on_way made a
    · split
      · next stopped => exact congrArg Prod.snd stopped ▸ ih a
      · next done =>
        have ih : ∀ a, KeptOrMade fs _ steps a := congrArg Prod.snd done ▸ ih
        split
        · next all => exact (ih a).trans (keptOrMade_of_ensureDirectory on_way all)
        · exact ih a
    · exact .inl rfl

/-- Making directories changes nothing but the locations on the way. -/
theorem keptOrMade_of_makeDirectories {cwd p : Path} {result : Except Error Unit}
    (h : fs.makeDirectories cwd p = (result, fs')) (a : Location) :
    KeptOrMade fs fs' (cwd.origin p ++ p.components) a := by
  unfold makeDirectories at h
  split at h
  · cases h
    exact .inl rfl
  · have on_way :
        cwd.origin p ++ p.components.reverse.reverse <+: cwd.origin p ++ p.components := by
      simp
    have kept : KeptOrMade fs _ _ a := keptOrMade_makeDirectoriesBack _ _ on_way a
    rwa [h] at kept

/-- If all directories on a walk can be made, the walk leads to a directory. -/
lemma leadsToDirectory_of_makeDirectoriesBack {start outer : List Component} {step : Component}
    (h : fs.makeDirectoriesBack start (step :: outer) = (.ok (), fs')) :
    fs'.leadsToDirectory (start ++ (step :: outer).reverse) = true := by
  unfold makeDirectoriesBack at h
  simp only at h
  split at h
  · next made =>
    cases h
    exact leadsToDirectory_of_makeDirectory made
  · split at h
    · cases h
    · split at h
      · next all =>
        cases h
        exact leadsToDirectory_of_ensureDirectory all
      · cases h
  · split at h
    · next there =>
      cases h
      exact there
    · cases h

/-- If all directories on the way of a path can be made, the path leads to a directory. -/
theorem leadsToDirectory_of_makeDirectories {cwd p : Path} (some_step : p.components ≠ [])
    (h : fs.makeDirectories cwd p = (.ok (), fs')) :
    fs'.leadsToDirectory (cwd.origin p ++ p.components) = true := by
  unfold makeDirectories at h
  split at h
  · cases h
  · obtain ⟨step, outer, back⟩ :=
      List.exists_cons_of_ne_nil (List.reverse_ne_nil_iff.2 some_step)
    rw [back] at h
    have leads := leadsToDirectory_of_makeDirectoriesBack h
    rwa [← back, List.reverse_reverse] at leads

/-- Where a walk leads to a directory, there is nothing to be made. -/
lemma makeDirectoriesBack_of_leadsToDirectory {start outer : List Component} {step : Component}
    (there : fs.leadsToDirectory (start ++ (step :: outer).reverse) = true) :
    fs.makeDirectoriesBack start (step :: outer) = (.ok (), fs) := by
  have present : fs.makeDirectory (start ++ (step :: outer).reverse) = .error .present := by
    unfold leadsToDirectory at there
    unfold makeDirectory
    split at there
    · next l reached =>
      have dir : fs.entry? l = some .directory := isDirectory_iff.1 there
      rw [reached]
      simp [bind, Except.bind, dir]
    · cases there
  unfold makeDirectoriesBack
  simp only [present, there, if_true]

/-- Directories that have been made need not be made again, as long as they stay. -/
theorem makeDirectories_again {cwd p : Path} (some_step : p.components ≠ [])
    (h : fs.makeDirectories cwd p = (.ok (), fs'))
    (stay : ∀ l, fs'.entry? l = some .directory → fs''.entry? l = some .directory) :
    fs''.makeDirectories cwd p = (.ok (), fs'') := by
  have leads : fs''.leadsToDirectory (cwd.origin p ++ p.components) = true := by
    have leads := leadsToDirectory_of_makeDirectories some_step h
    unfold leadsToDirectory at leads ⊢
    split at leads
    · next l reached =>
      rw [walk_mono stay reached]
      exact isDirectory_iff.2 (stay l (isDirectory_iff.1 leads))
    · cases leads
  unfold makeDirectories at h ⊢
  split at h
  · cases h
  · obtain ⟨step, outer, back⟩ :=
      List.exists_cons_of_ne_nil (List.reverse_ne_nil_iff.2 some_step)
    rw [back]
    apply makeDirectoriesBack_of_leadsToDirectory
    rwa [← back, List.reverse_reverse]

end FileSystem

end WorkflowFile
