import WorkflowFile.Proofs.Place

/-!
# Where a locator leads

A locator is a text. To follow it, the text has to be read as a path again.

* `Component.Proper` holds of the steps that stand between the slashes of a path.
* `Locator.steps_write`: a walk of such steps is read back from its locator, without idle steps.
* `Path.components_ofSegments`: so is a walk from the root.
* `Locator.Locates`: the locator of a path leads from the root to the place of the path.
* `Locator.locates_iff`: it does if the walk to the root is the beginning of that of the path, or
  if a relative path leads to the same place from the root as from the current directory.
-/

namespace WorkflowFile

/-! ## Steps between slashes -/

namespace Component

/-- The step stands for a segment of a path. -/
def Proper (step : Component) : Prop :=
  ∃ segment, segment ≠ [] ∧ '/' ∉ segment ∧ ofSegment segment = step

/-- A step that stands for a segment is written as that segment, unless it is idle. -/
lemma Proper.exists_segment? {step : Component} (h : step.Proper) (busy : step ≠ .here) :
    ∃ text, step.segment? = some text ∧ text.toList ≠ [] ∧ '/' ∉ text.toList ∧
      ofSegment text.toList = step := by
  obtain ⟨segment, some_char, one, rfl⟩ := h
  refine ⟨String.ofList segment, ?_, by simpa using some_char, by simpa using one, by simp⟩
  unfold ofSegment at busy ⊢
  split
  · next idle =>
    rw [if_pos idle] at busy
    exact absurd rfl busy
  · split
    · next up =>
      rw [up]
      rfl
    · rfl

end Component

namespace Path

variable {p : Path}

lemma proper_of_mem_segments {step : Component} (h : step ∈ p.segments) : step.Proper := by
  obtain ⟨segment, listed, rfl⟩ := List.mem_map.1 h
  obtain ⟨piece, some_char⟩ := List.mem_filter.1 listed
  exact ⟨segment, by simpa using some_char, (Text.of_mem_split piece).2, rfl⟩

/-- The walk of a relative path consists of its segments. -/
lemma mem_segments_of_mem_components (hp : p.isAbsolute = false) {step : Component}
    (h : step ∈ p.components) : step ∈ p.segments := by
  unfold components at h
  rw [steps, hp, if_neg Bool.false_ne_true] at h
  cases segments_eq : p.segments with
  | nil => simp [segments_eq] at h
  | cons first rest =>
    simp only [segments_eq, List.mem_cons, List.mem_filter] at h
    rcases h with rfl | ⟨h, -⟩
    · exact List.mem_cons_self
    · exact List.mem_cons_of_mem _ h

/-- The walk of a relative path consists of steps that stand between slashes. -/
lemma proper_of_mem_components (hp : p.isAbsolute = false) {step : Component}
    (h : step ∈ p.components) : step.Proper :=
  proper_of_mem_segments (mem_segments_of_mem_components hp h)

/-- A text without slashes is one segment. -/
lemma segments_of_notMem {text : String} (some_char : text.toList ≠ []) (one : '/' ∉ text.toList) :
    (⟨text⟩ : Path).segments = [.ofSegment text.toList] := by
  unfold segments
  rw [Text.split_of_notMem one, List.filter_cons_of_pos (by simpa using some_char)]
  rfl

/-- The first of several texts with slashes between them is the first segment. -/
lemma segments_intercalate_cons {text : String} (some_char : text.toList ≠ [])
    (one : '/' ∉ text.toList) (rest : List String) :
    (⟨"/".intercalate (text :: rest)⟩ : Path).segments
      = .ofSegment text.toList :: (⟨"/".intercalate rest⟩ : Path).segments := by
  by_cases last : rest = []
  · subst last
    rw [String.intercalate_singleton, segments_of_notMem some_char one]
    rfl
  · rw [String.intercalate_cons_of_ne_nil last, segments_slash, segments_of_notMem some_char one,
      List.singleton_append]

end Path

/-! ## Written walks -/

namespace Locator

variable {walk : List Component}

/-- The segments of a written walk are its steps. -/
lemma segments_write (proper : ∀ step ∈ walk, step.Proper) :
    (⟨write walk⟩ : Path).segments = walk.filter (· ≠ .here) := by
  unfold write
  induction walk with
  | nil => rfl
  | cons step walk ih =>
    have rest := ih fun step hstep => proper step (List.mem_cons_of_mem _ hstep)
    -- an idle step is not written, any other one is the first segment
    by_cases idle : step = .here
    · subst idle
      rw [List.filterMap_cons_none rfl, rest, List.filter_cons_of_neg (by simp)]
    · obtain ⟨text, written, some_char, one, same⟩ :=
        (proper step List.mem_cons_self).exists_segment? idle
      rw [List.filterMap_cons_some written, Path.segments_intercalate_cons some_char one, same,
        rest, List.filter_cons_of_pos (by simpa using idle)]

/-- A written walk does not start with a slash. -/
lemma isAbsolute_write (proper : ∀ step ∈ walk, step.Proper) :
    (⟨write walk⟩ : Path).isAbsolute = false := by
  unfold write Path.isAbsolute
  induction walk with
  | nil => rfl
  | cons step walk ih =>
    by_cases idle : step = .here
    · subst idle
      rw [List.filterMap_cons_none rfl]
      exact ih fun step hstep => proper step (List.mem_cons_of_mem _ hstep)
    · obtain ⟨text, written, some_char, one, -⟩ :=
        (proper step List.mem_cons_self).exists_segment? idle
      obtain ⟨c, cs, chars⟩ := List.exists_cons_of_ne_nil some_char
      have no_slash : c ≠ '/' := by
        rintro rfl
        exact one (chars ▸ List.mem_cons_self)
      rw [List.filterMap_cons_some written]
      by_cases last : walk.filterMap Component.segment? = []
      · simp [last, chars, no_slash]
      · simp [String.intercalate_cons_of_ne_nil last, chars, no_slash]

/-- A written walk is read back without its idle steps. -/
theorem steps_write (proper : ∀ step ∈ walk, step.Proper) :
    (⟨write walk⟩ : Path).steps = walk.filter (· ≠ .here) := by
  rw [Path.steps, isAbsolute_write proper, if_neg Bool.false_ne_true, segments_write proper]

/-- A written walk leads where the walk leads. -/
lemma follow_write (proper : ∀ step ∈ walk, step.Proper) (l : Location) :
    l.follow (⟨write walk⟩ : Path).steps = l.follow walk := by
  rw [steps_write proper, Location.follow_filter]

end Locator

namespace Path

/-- The walk that a path is made from is read back from it. -/
theorem components_ofSegments {slashes : String} {names : List String}
    (proper : ∀ name ∈ names, (Component.name name).Proper)
    (leading : slashes = "/" ∨ slashes = "//") :
    (ofSegments slashes names).components = .root :: names.map .name := by
  have text_eq : "/".intercalate names = Locator.write (names.map .name) := by
    rw [Locator.write, List.filterMap_map]
    exact congrArg _ (List.filterMap_some ..).symm
  have named : (⟨"/".intercalate names⟩ : Path).segments = names.map .name := by
    rw [text_eq, Locator.segments_write]
    · rw [List.filter_eq_self]
      simp
    · simpa using proper
  have absolute : (ofSegments slashes names).isAbsolute := by
    rcases leading with rfl | rfl <;> simp [ofSegments, isAbsolute]
  have segments_eq : (ofSegments slashes names).segments = names.map .name := by
    rcases leading with rfl | rfl
    · have := segments_slash "" ("/".intercalate names)
      exact this.trans named
    · have := segments_slash "/" ("/".intercalate names)
      exact this.trans named
  rw [components_of_isAbsolute absolute, segments_eq, List.filter_eq_self.2]
  simp

/-! ## The walk from the root -/

variable {cwd p : Path}

/-- A path that is made absolute leads to the same place. -/
lemma follow_absolute? {walk : List Component} (h : cwd.absolute? p = some walk) :
    Location.follow [] walk = place cwd p := by
  unfold absolute? at h
  unfold place origin
  split at h
  · cases h
  · split at h <;> cases h
    · next absolute => rw [if_pos absolute, List.nil_append, follow_components]
    · next relative =>
      rw [if_neg relative, Location.follow_append, Location.follow_append, follow_components,
        Location.follow_filter, follow_components]

/-- A path that is made absolute leads from the root. -/
lemma exists_root_cons {walk : List Component} (absolute : cwd.isAbsolute)
    (h : cwd.absolute? p = some walk) : ∃ rest, walk = .root :: rest := by
  unfold absolute? at h
  split at h
  · cases h
  · split at h <;> cases h
    · next absolute => exact ⟨_, components_of_isAbsolute absolute⟩
    · exact ⟨_, by rw [components_of_isAbsolute absolute, List.cons_append]⟩

/-- Behind the root, a path that is made absolute consists of its own segments, or of those of the
current directory and its own, without idle ones. -/
lemma eq_segments_of_absolute? {walk : List Component}
    (h : cwd.absolute? p = some (.root :: walk)) :
    walk = p.segments.filter (· ≠ .here) ∨
      walk = cwd.segments.filter (· ≠ .here) ++ p.segments.filter (· ≠ .here) := by
  unfold absolute? at h
  split at h
  · cases h
  · split at h
    · next absolute =>
      rw [components_of_isAbsolute absolute] at h
      exact .inl (List.cons.inj (Option.some.inj h)).2.symm
    · next relative =>
      rw [filter_components (by simpa using relative)] at h
      have walk_eq := Option.some.inj h
      cases start : cwd.components with
      | nil =>
        -- a relative path does not lead through the root
        rw [start, List.nil_append] at walk_eq
        have first : Component.root ∈ p.segments.filter (· ≠ .here) := walk_eq ▸ List.mem_cons_self
        exact absurd (List.mem_of_mem_filter first) (root_notMem_segments p)
      | cons first rest =>
        rw [start, List.cons_append] at walk_eq
        obtain ⟨rfl, rfl⟩ := List.cons.inj walk_eq
        have absolute : cwd.isAbsolute := head?_components_eq_root_iff.1 (by rw [start]; rfl)
        rw [components_of_isAbsolute absolute] at start
        obtain ⟨-, rfl⟩ := List.cons.inj start
        exact .inr rfl

/-- Behind the root, the steps of a path that is made absolute are segments that are not idle. -/
lemma mem_segments_of_absolute? {walk : List Component}
    (h : cwd.absolute? p = some (.root :: walk)) :
    ∀ step ∈ walk, (step ∈ cwd.segments ∨ step ∈ p.segments) ∧ step ≠ .here := by
  intro step hstep
  rcases eq_segments_of_absolute? h with rfl | rfl
  · obtain ⟨listed, busy⟩ := List.mem_filter.1 hstep
    exact ⟨.inr listed, by simpa using busy⟩
  · rw [← List.filter_append, List.mem_filter, List.mem_append] at hstep
    exact ⟨hstep.1, by simpa using hstep.2⟩

/-- Behind the root, the steps of a path that is made absolute stand between slashes, and none is
idle. -/
lemma proper_of_absolute? {walk : List Component} (h : cwd.absolute? p = some (.root :: walk)) :
    ∀ step ∈ walk, step.Proper ∧ step ≠ .here := by
  intro step hstep
  obtain ⟨segment, busy⟩ := mem_segments_of_absolute? h step hstep
  exact ⟨segment.elim proper_of_mem_segments proper_of_mem_segments, busy⟩

/-- Where a path that is made absolute goes on from an absolute path, its steps are segments that
are not idle. -/
lemma mem_segments_of_absolute?_append {root : Path} {rest : List Component}
    (absolute : root.isAbsolute) (h : cwd.absolute? p = some (root.components ++ rest)) :
    ∀ step ∈ rest, (step ∈ cwd.segments ∨ step ∈ p.segments) ∧ step ≠ .here := by
  rw [components_of_isAbsolute absolute, List.cons_append] at h
  intro step hstep
  exact mem_segments_of_absolute? h step (List.mem_append_right _ hstep)

/-- Where a path that is made absolute goes on from an absolute path, its steps stand between
slashes, and none is idle. -/
lemma proper_of_absolute?_append {root : Path} {rest : List Component} (absolute : root.isAbsolute)
    (h : cwd.absolute? p = some (root.components ++ rest)) :
    ∀ step ∈ rest, step.Proper ∧ step ≠ .here := by
  rw [components_of_isAbsolute absolute, List.cons_append] at h
  intro step hstep
  exact proper_of_absolute? h step (List.mem_append_right _ hstep)

end Path

namespace Locator

variable {cwd root p : Path}

/-! ## Paths and their locators -/

/-- A path has a locator, which leads from the root to the place of the path. -/
def Locates (cwd root p : Path) : Prop :=
  ∃ text, locate cwd root p = .ok text ∧ Path.place cwd (root.join ⟨text⟩) = Path.place cwd p

/-- A walk that goes on from the root is located. -/
lemma locates_of_below (absolute : root.isAbsolute) {walk : List Component}
    (h : cwd.absolute? p = some walk) (below : root.components <+: walk) : Locates cwd root p := by
  obtain ⟨rest, rfl⟩ := below
  have proper : ∀ step ∈ rest, step.Proper := fun step hstep =>
    (Path.proper_of_absolute?_append absolute h step hstep).1
  refine ⟨write rest, locate_of_absolute? h, ?_⟩
  calc Path.place cwd (root.join ⟨write rest⟩)
      = (Path.place cwd root).follow (⟨write rest⟩ : Path).steps := Path.place_join ..
    _ = (Path.place cwd root).follow rest := follow_write proper _
    _ = Location.follow [] (root.components ++ rest) := by
        rw [Location.follow_append, Path.follow_components, Path.place, Path.origin,
          if_pos absolute, List.nil_append]
    _ = Path.place cwd p := Path.follow_absolute? h

/-- A path has a locator that leads to its place exactly if its walk goes on from the root, or if
it is relative and leads to the same place from the root as from the current directory. -/
theorem locates_iff (absolute : root.isAbsolute) {walk : List Component}
    (h : cwd.absolute? p = some walk) :
    Locates cwd root p ↔ root.components <+: walk ∨
      p.isAbsolute = false ∧ (Path.place cwd root).follow p.steps = Path.place cwd p := by
  by_cases below : root.components <+: walk
  · exact iff_of_true (locates_of_below absolute h below) (Or.inl below)
  · rw [or_iff_right below]
    by_cases hp : p.isAbsolute
    · -- what is outside the root has no locator
      have walk_eq : p.components = walk :=
        Option.some.inj ((Path.absolute?_of_isAbsolute hp).symm.trans h)
      refine iff_of_false ?_ (fun relative => ?_)
      · rintro ⟨_, located, -⟩
        rw [locate_outside hp (walk_eq.symm ▸ below)] at located
        cases located
      · rw [hp] at relative
        exact Bool.noConfusion relative.1
    · -- and what is relative is taken as seen from it
      have hp : p.isAbsolute = false := by simpa using hp
      have place_eq : Path.place cwd (root.join ⟨write p.components⟩)
          = (Path.place cwd root).follow p.steps := by
        rw [Path.place_join, follow_write fun _ => Path.proper_of_mem_components hp,
          Path.follow_components]
      unfold Locates
      rw [locate_of_outside h below, if_neg (by simp [hp])]
      constructor
      · rintro ⟨_, located, same⟩
        cases located
        exact ⟨hp, place_eq.symm.trans same⟩
      · rintro ⟨-, same⟩
        exact ⟨_, rfl, place_eq.trans same⟩

end Locator

end WorkflowFile
