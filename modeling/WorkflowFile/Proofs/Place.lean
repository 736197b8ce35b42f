import WorkflowFile.Proofs.FileSystem
import WorkflowFile.Proofs.Path

/-!
# The places that walks name

* `Location.follow` is the place that a walk leads to, going by its text alone, and `Path.place`
  that of a path.
* `FileSystem.eq_follow_of_walk`: since there are no links, a walk that leads somewhere leads to
  that place.
* `Path.place_join`: a path that is seen from another one leads on from its place.
* `Location.follow_eq_append`: a walk that never goes above its start stays below it.
-/

namespace WorkflowFile

namespace Location

/-- The place one step further, where a step up undoes the last step down and nothing is above
the root. -/
def next (l : Location) : Component → Location
  | .root => []
  | .here => l
  | .up => l.dropLast
  | .name text => l ++ [text]

/-- The place that a walk leads to from another one, going by the walk alone. -/
def follow (l : Location) (walk : List Component) : Location := walk.foldl next l

/-- A place is strictly below another one. -/
def Below (l d : Location) : Prop := d <+: l ∧ l ≠ d

instance (l d : Location) : Decidable (l.Below d) :=
  inferInstanceAs (Decidable (d <+: l ∧ l ≠ d))

lemma follow_append (l : Location) (walk walk' : List Component) :
    l.follow (walk ++ walk') = (l.follow walk).follow walk' :=
  List.foldl_append

/-- Idle steps lead nowhere. -/
lemma follow_filter (l : Location) (walk : List Component) :
    l.follow (walk.filter (· ≠ .here)) = l.follow walk := by
  induction walk generalizing l with
  | nil => rfl
  | cons step walk ih =>
    by_cases idle : step = .here
    · rw [idle, List.filter_cons_of_neg (by simp)]
      exact ih l
    · rw [List.filter_cons_of_pos (by simpa using idle)]
      exact ih (l.next step)

/-- A walk that never goes above where it starts leads to the same place below any start. -/
lemma follow_eq_append {walk : List Component} {names : Location} (l : Location)
    (no_root : Component.root ∉ walk) (h : resolve? walk = some names) :
    l.follow walk = l ++ names := by
  unfold resolve? at h
  -- in the middle of the walk, `gone` are the names below the start that it has reached
  suffices ∀ gone : Location, walk.foldlM next? gone = some names →
      (l ++ gone).follow walk = l ++ names by simpa using this [] h
  clear h
  induction walk with
  | nil =>
    rintro gone ⟨⟩
    rfl
  | cons step walk ih =>
    intro gone h
    rw [List.mem_cons, not_or] at no_root
    obtain ⟨further, first, rest⟩ := Option.bind_eq_some_iff.1 h
    have same : (l ++ gone).next step = l ++ further := by
      cases step with
      | root => exact absurd rfl no_root.1
      | here =>
        cases first
        rfl
      | name text =>
        cases first
        exact List.append_assoc ..
      | up =>
        simp only [next?, List.isEmpty_iff] at first
        split at first
        · cases first
        · next some_name =>
          cases first
          exact List.dropLast_append_of_ne_nil some_name
    rw [follow, List.foldl_cons, same]
    exact ih no_root.2 further rest

end Location

namespace FileSystem

variable {fs : FileSystem} {steps : List Component} {l : Location}

lemma eq_next_of_advance {a : Location} {step : Component} (h : fs.advance l step = .ok a) :
    a = l.next step := by
  rcases directory_of_advance h with rfl | dir
  · exact (Except.ok.inj h).symm
  · cases step with
    | root => exact (Except.ok.inj h).symm
    | here | up =>
      simp only [advance, dir] at h
      exact (Except.ok.inj h).symm
    | name text =>
      simp only [advance, dir] at h
      split at h
      · cases h
      · exact (Except.ok.inj h).symm

/-- There are no links, so a walk that leads somewhere leads to the place that it names. -/
theorem eq_follow_of_walk (h : fs.walk steps = .ok l) : l = Location.follow [] steps := by
  unfold walk at h
  generalize ([] : Location) = start at h ⊢
  induction steps generalizing start with
  | nil => exact (Except.ok.inj h).symm
  | cons step steps ih =>
    obtain ⟨b, first, rest⟩ := bind_eq_ok_iff.1 h
    rw [ih b rest, eq_next_of_advance first]
    rfl

end FileSystem

namespace Path

variable {cwd p q : Path}

/-- The place that a path names, seen from the directory `cwd`. -/
def place (cwd p : Path) : Location := Location.follow [] (cwd.origin p ++ p.steps)

lemma follow_components (l : Location) (p : Path) : l.follow p.components = l.follow p.steps := by
  unfold components
  cases p.steps with
  | nil => rfl
  | cons step rest => exact Location.follow_filter (l.next step) rest

/-- An absolute path names the same place from everywhere. -/
lemma follow_steps_of_isAbsolute (hp : p.isAbsolute) (l : Location) :
    l.follow p.steps = Location.follow [] p.steps := by
  rw [steps, if_pos hp]
  rfl

/-- A path that is seen from another one leads on from the place of that one. -/
theorem place_join (cwd p q : Path) : place cwd (p.join q) = (place cwd p).follow q.steps := by
  by_cases hq : q.isAbsolute
  · rw [join_of_isAbsolute p hq, follow_steps_of_isAbsolute hq, place, origin, if_pos hq]
    rfl
  · have hq : q.isAbsolute = false := by simpa using hq
    unfold place
    rw [← Location.follow_append, List.append_assoc]
    by_cases empty : p.text.isEmpty
    · -- the empty path has no steps, and what is seen from it is seen from the current directory
      have here : p = ⟨""⟩ := by rw [← String.isEmpty_iff.1 empty]
      rw [join_of_isEmpty empty, here, origin, if_neg (by simp [hq])]
      rfl
    · have some_text : p.text.isEmpty = false := by simpa using empty
      rw [steps_join some_text hq, origin, isAbsolute_join some_text hq]
      rfl

end Path

end WorkflowFile
