import WorkflowFile.FileSystem
import WorkflowFile.Proofs.OrderedMap

/-!
# Reading back what was written

* `entry?_put`: an entry that is put at a location changes that location alone.
* `walk_mono`: a walk leads to the same place as long as all directories stay.
* `locate_put_file`: a path leads to the same place after a file is put where no directory is.
* `SameDirectories`: two file systems that may differ in their files alone.
* `exists_write_eq_ok`: whether a file can be written does not depend on what is written, nor on
  other files.
* `read?_of_write`: a file that was written holds what was written.
* `entry?_putAll`: after a series of entries, each location holds the one that was put there last.
-/

namespace WorkflowFile

/-! ## Steps that may fail -/

section Outcome

variable {ε α β : Type}

/-- Two steps in a row succeed exactly if the first does and then the second. -/
lemma bind_eq_ok_iff {x : Except ε α} {f : α → Except ε β} {b : β} :
    (x >>= f) = .ok b ↔ ∃ a, x = .ok a ∧ f a = .ok b := by
  cases x <;> simp [bind, Except.bind]

/-- Two computations one after the other fail if the first one does, or the second one after it. -/
lemma bind_eq_error_iff {x : Except ε α} {f : α → Except ε β} {e : ε} :
    (x >>= f) = .error e ↔ x = .error e ∨ ∃ a, x = .ok a ∧ f a = .error e := by
  cases x <;> simp [bind, Except.bind]

lemma map_eq_ok_iff {x : Except ε α} {f : α → β} {b : β} :
    x.map f = .ok b ↔ ∃ a, x = .ok a ∧ f a = b := by
  cases x <;> simp [Except.map]

lemma map_eq_error_iff {x : Except ε α} {f : α → β} {e : ε} :
    x.map f = .error e ↔ x = .error e := by
  cases x <;> simp [Except.map]

end Outcome

namespace FileSystem

variable {fs fs' : FileSystem}

/-! ## Entries -/

lemma entry?_put (fs : FileSystem) (l : Location) (e : Entry) (a : Location) :
    entry? (fs.put l e) a
      = if a = [] then some .directory else if l = a then some e else fs.entry? a := by
  unfold entry? put
  simp only [List.isEmpty_iff, OrderedMap.get?_insert]
  split <;> simp_all

lemma isDirectory_nil (fs : FileSystem) : fs.isDirectory [] = true := rfl

lemma isDirectory_iff {l : Location} : fs.isDirectory l = true ↔ fs.entry? l = some .directory := by
  simp [isDirectory]

/-- Putting an entry once more changes nothing. -/
lemma put_put (fs : FileSystem) (l : Location) (e : Entry) :
    put (fs.put l e) l e = fs.put l e := by
  unfold put
  rw [OrderedMap.insert_insert_self]

/-- Putting an entry at a location changes nothing at any other one. -/
lemma entry?_put_of_ne {l a : Location} (e : Entry) (other : l ≠ a) :
    entry? (fs.put l e) a = fs.entry? a := by
  rw [entry?_put, if_neg other]
  split
  · next root => rw [root]; rfl
  · rfl

lemma entry?_put_directory (fs : FileSystem) (l : Location) :
    entry? (fs.put l .directory) l = some .directory := by
  rw [entry?_put]
  split <;> simp

/-- All directories stay unless something else is put in the place of one. -/
lemma entry?_put_of_directory {l a : Location} {e : Entry}
    (keeps : fs.entry? l = some .directory → e = .directory)
    (dir : fs.entry? a = some .directory) : entry? (fs.put l e) a = some .directory := by
  by_cases same : l = a
  · subst same
    rw [keeps dir]
    exact entry?_put_directory fs l
  · rw [entry?_put_of_ne _ same, dir]

/-- A file that is put where no directory is can be found there. -/
lemma entry?_put_file {l : Location} {content : String} (free : fs.isDirectory l = false) :
    entry? (fs.put l (.file content)) l = some (.file content) := by
  rw [entry?_put, if_neg, if_pos rfl]
  rintro rfl
  simp [isDirectory_nil] at free

/-! ## Directories -/

/-- Two file systems have the same directories. -/
def SameDirectories (fs fs' : FileSystem) : Prop :=
  ∀ l, fs.entry? l = some .directory ↔ fs'.entry? l = some .directory

namespace SameDirectories

lemma refl (fs : FileSystem) : fs.SameDirectories fs := fun _ => Iff.rfl

lemma symm (h : fs.SameDirectories fs') : fs'.SameDirectories fs := fun l => (h l).symm

lemma trans {fs'' : FileSystem} (h : fs.SameDirectories fs') (h' : fs'.SameDirectories fs'') :
    fs.SameDirectories fs'' := fun l => (h l).trans (h' l)

lemma isDirectory_eq (h : fs.SameDirectories fs') (l : Location) :
    fs.isDirectory l = fs'.isDirectory l := by
  rw [Bool.eq_iff_iff, isDirectory_iff, isDirectory_iff]
  exact h l

/-- A file that is put where no directory is leaves the directories as they are. -/
lemma put_file {l : Location} {content : String} (free : fs.isDirectory l = false) :
    fs.SameDirectories (fs.put l (.file content)) := by
  intro a
  by_cases same : l = a
  · subst same
    have no_directory : ¬ fs.entry? l = some .directory := by
      rw [← isDirectory_iff, free]
      exact Bool.false_ne_true
    rw [entry?_put_file free]
    exact iff_of_false no_directory nofun
  · rw [entry?_put_of_ne _ same]

end SameDirectories

/-! ## Walks -/

/-- Every step but the one to the root starts from a directory. -/
lemma directory_of_advance {l a : Location} {step : Component} (h : fs.advance l step = .ok a) :
    step = .root ∨ fs.entry? l = some .directory := by
  cases step with
  | root => exact Or.inl rfl
  | here | up | name _ =>
    right
    simp only [advance] at h
    split at h <;> first | assumption | simp at h

/-- A step from a directory does not depend on what else there is. -/
lemma advance_congr {l : Location} (h : fs.entry? l = fs'.entry? l) (step : Component) :
    fs.advance l step = fs'.advance l step := by
  cases step with
  | root => rfl
  | here | up | name _ => simp only [advance, h]

/-- A step leads to the same place as long as all directories stay. -/
lemma advance_mono (stay : ∀ l, fs.entry? l = some .directory → fs'.entry? l = some .directory)
    {a b : Location} {step : Component} (h : fs.advance a step = .ok b) :
    fs'.advance a step = .ok b := by
  rcases directory_of_advance h with rfl | dir
  · exact h
  · rw [← h]
    exact advance_congr ((stay a dir).trans dir.symm) step

/-- A walk leads to the same place as long as all directories stay. -/
lemma walk_mono (stay : ∀ l, fs.entry? l = some .directory → fs'.entry? l = some .directory)
    {a : Location} {steps : List Component} (h : fs.walk steps = .ok a) :
    fs'.walk steps = .ok a := by
  unfold walk at h ⊢
  generalize ([] : Location) = start at h ⊢
  induction steps generalizing start with
  | nil => exact h
  | cons step steps ih =>
    obtain ⟨b, first, rest⟩ := bind_eq_ok_iff.1 h
    rw [List.foldlM_cons, advance_mono stay first]
    exact ih b rest

/-- A path leads to the same location where the directories are still there. -/
lemma locate_mono (stay : ∀ l, fs.entry? l = some .directory → fs'.entry? l = some .directory)
    {a : Location} {cwd p : Path} (h : fs.locate cwd p = .ok a) : fs'.locate cwd p = .ok a := by
  obtain ⟨_, checked, reached⟩ := bind_eq_ok_iff.1 h
  rw [locate, checked]
  exact walk_mono stay reached

/-- A path leads to the same place after a file is put where no directory is. -/
lemma locate_put_file {l a : Location} {cwd p : Path} {content : String}
    (free : fs.isDirectory l = false) (h : fs.locate cwd p = .ok a) :
    (fs.put l (.file content)).locate cwd p = .ok a :=
  locate_mono (fun b => (SameDirectories.put_file free b).1) h

/-! ## Writing and reading -/

/-- A file that can be opened is at the place that the path leads to, where no directory is. -/
lemma openFile_eq_ok {cwd p : Path} {l : Location} (h : fs.openFile cwd p = .ok l) :
    fs.locate cwd p = .ok l ∧ p.endsWithSlash = false ∧ fs.isDirectory l = false := by
  unfold openFile at h
  obtain ⟨_, checked, h⟩ := bind_eq_ok_iff.1 h
  obtain ⟨_, _, h⟩ := bind_eq_ok_iff.1 h
  split at h
  · cases h
  · next slash =>
    obtain ⟨l', found, h⟩ := bind_eq_ok_iff.1 h
    split at h
    · cases h
    · next free =>
      cases h
      refine ⟨?_, by simpa using slash, by simpa using free⟩
      rw [locate, checked]
      exact found

/-- Whether a file can be opened does not depend on what files there are. -/
lemma openFile_of_sameDirectories {cwd p : Path} {l : Location} (same : fs.SameDirectories fs')
    (h : fs.openFile cwd p = .ok l) : fs'.openFile cwd p = .ok l := by
  have stay : ∀ l, fs.entry? l = some .directory → fs'.entry? l = some .directory :=
    fun l => (same l).1
  unfold openFile at h ⊢
  obtain ⟨_, checked, h⟩ := bind_eq_ok_iff.1 h
  obtain ⟨_, reached, h⟩ := bind_eq_ok_iff.1 h
  refine bind_eq_ok_iff.2 ⟨_, checked, bind_eq_ok_iff.2 ⟨_, walk_mono stay reached, ?_⟩⟩
  split at h
  · cases h
  · next slash =>
    obtain ⟨l', found, h⟩ := bind_eq_ok_iff.1 h
    rw [if_neg slash]
    refine bind_eq_ok_iff.2 ⟨l', walk_mono stay found, ?_⟩
    rwa [← same.isDirectory_eq]

/-- What a write does when it succeeds: it puts the file at the place that the path leads to,
where no directory is. -/
theorem write_eq_ok {cwd p : Path} {content : String} (h : fs.write cwd p content = .ok fs') :
    ∃ l, fs.locate cwd p = .ok l ∧ p.endsWithSlash = false ∧ fs.isDirectory l = false ∧
      fs' = fs.put l (.file content) := by
  obtain ⟨l, opened, h⟩ := bind_eq_ok_iff.1 h
  obtain ⟨found, slash, free⟩ := openFile_eq_ok opened
  exact ⟨l, found, slash, free, (Except.ok.inj h).symm⟩

/-- Where one text can be written, so can any other, whatever other files there are. -/
lemma exists_write_eq_ok {files : FileSystem} {cwd p : Path} {content : String}
    (same : fs.SameDirectories fs') (h : fs.write cwd p content = .ok files) (content' : String) :
    ∃ files', fs'.write cwd p content' = .ok files' := by
  obtain ⟨l, opened, -⟩ := bind_eq_ok_iff.1 h
  exact ⟨_, bind_eq_ok_iff.2 ⟨l, openFile_of_sameDirectories same opened, rfl⟩⟩

/-- A path that leads to a file reads its content. -/
lemma read?_of_locate {cwd p : Path} {l : Location} {content : String}
    (found : fs.locate cwd p = .ok l) (slash : p.endsWithSlash = false)
    (there : fs.entry? l = some (.file content)) : fs.read? cwd p = some content := by
  unfold read?
  rw [found]
  simp only [Except.toOption, Option.bind_some, there, slash]
  rfl

/-- A file that was written holds what was written. -/
theorem read?_of_write {cwd p : Path} {content : String}
    (h : fs.write cwd p content = .ok fs') : fs'.read? cwd p = some content := by
  obtain ⟨l, found, slash, free, rfl⟩ := write_eq_ok h
  exact read?_of_locate (locate_put_file free found) slash (entry?_put_file free)

/-! ## Series of entries -/

/-- The file system after entries were put one after the other. -/
def putAll (fs : FileSystem) (writes : List (Location × Entry)) : FileSystem :=
  ⟨fs.entries.insertAll writes⟩

/-- The last entry of a series is put after the others. -/
lemma putAll_concat (fs : FileSystem) (writes : List (Location × Entry)) (e : Location × Entry) :
    fs.putAll (writes ++ [e]) = (fs.putAll writes).put e.1 e.2 := by
  unfold putAll put
  rw [OrderedMap.insertAll, List.foldl_append]
  rfl

/-- A location holds the entry that was put there last. -/
lemma entry?_putAll (fs : FileSystem) {writes : List (Location × Entry)}
    (named : ∀ e ∈ writes, e.1 ≠ []) (a : Location) :
    entry? (fs.putAll writes) a
      = ((writes.filter (·.1 = a)).getLast?.map Prod.snd).or (fs.entry? a) := by
  unfold entry? putAll
  rw [OrderedMap.get?_insertAll, valueUnder?_eq_head?, List.filter_reverse, List.head?_reverse]
  split
  · next root =>
    -- nothing is put at the root
    have none_put : writes.filter (·.1 = a) = [] := by
      rw [List.filter_eq_nil_iff]
      intro e he
      rw [List.isEmpty_iff.1 root]
      simpa using named e he
    rw [none_put]
    rfl
  · rfl

end FileSystem

end WorkflowFile
