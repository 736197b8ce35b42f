import WorkflowFile.Locator
import WorkflowFile.Proofs.Text

/-!
# Joined paths and their locators

* `Path.segments_join` and `Path.components_join`: the walk of a path seen from another one is
  the walk of that one followed by its own.
* `Path.join_assoc`: it does not matter from where a relative path is seen first.
* `Path.absolute?_congr` and `Locator.locate_congr`: a path is known by its components.
* `Locator.locate_join`: the locator of a path below the root is its walk from there, whatever
  the root is called.
* `Locator.locate_relative`: so is that of a relative path seen from a directory below the root.
* `Locator.locate_outside`: an absolute path outside the root has no locator.
-/

namespace WorkflowFile

/-- No segment stands for the root. -/
lemma Component.ofSegment_ne_root (segment : List Char) : ofSegment segment ≠ .root := by
  unfold ofSegment
  split
  · nofun
  · split <;> nofun

namespace Path

variable {p q : Path}

/-! ## Joined paths -/

/-- A slash between two texts separates their segments. -/
lemma segments_slash (a b : String) :
    (⟨a ++ "/" ++ b⟩ : Path).segments = (⟨a⟩ : Path).segments ++ (⟨b⟩ : Path).segments := by
  have texts : (a ++ "/" ++ b).toList = a.toList ++ '/' :: b.toList := by simp
  simp only [segments, texts, Text.split_append_cons, List.filter_append, List.map_append]

/-- A text that ends with a slash is another text and that slash. -/
lemma exists_text_eq (h : p.endsWithSlash) : ∃ a, p.text = a ++ "/" := by
  have last : p.text.toList.getLast? = some '/' := by simpa [endsWithSlash] using h
  obtain ⟨cs, hcs⟩ := List.getLast?_eq_some_iff.1 last
  refine ⟨String.ofList cs, String.toList_injective ?_⟩
  simpa using hcs

/-- An absolute path has a text. -/
lemma text_ne_empty (h : p.isAbsolute) : p.text.isEmpty = false := by
  rw [Bool.eq_false_iff]
  intro empty
  rw [String.isEmpty_iff] at empty
  simp [isAbsolute, empty] at h

lemma toList_ne_nil (some_text : p.text.isEmpty = false) : p.text.toList ≠ [] := by
  intro nil
  rw [String.toList_eq_nil_iff.1 nil] at some_text
  cases some_text

lemma join_of_isAbsolute (p : Path) (hq : q.isAbsolute) : p.join q = q := by
  rw [join, hq, Bool.true_or, if_pos rfl]

lemma join_of_isEmpty (empty : p.text.isEmpty) (q : Path) : p.join q = q := by
  rw [join, empty, Bool.or_true, if_pos rfl]

/-- The text of a path with a slash at its end. -/
def withSlash (p : Path) : String := if p.endsWithSlash then p.text else p.text ++ "/"

lemma join_of_relative (some_text : p.text.isEmpty = false) (hq : q.isAbsolute = false) :
    p.join q = ⟨p.withSlash ++ q.text⟩ := by
  unfold join withSlash
  rw [hq, some_text]
  by_cases slash : p.endsWithSlash <;> simp [slash]

/-- A slash at the end separates a path from what comes behind it. -/
lemma segments_withSlash_append (p : Path) (b : String) :
    (⟨p.withSlash ++ b⟩ : Path).segments = p.segments ++ (⟨b⟩ : Path).segments := by
  unfold withSlash
  by_cases slash : p.endsWithSlash
  · rw [if_pos slash]
    obtain ⟨a, text_eq⟩ := exists_text_eq slash
    have left : p.segments = (⟨a⟩ : Path).segments := by
      have := segments_slash a ""
      rw [String.append_empty, ← text_eq] at this
      exact this.trans (List.append_nil _)
    rw [left, text_eq, segments_slash]
  · rw [if_neg slash, segments_slash]

/-- The segments of a path seen from another one come after those of that one. -/
theorem segments_join (some_text : p.text.isEmpty = false) (hq : q.isAbsolute = false) :
    (p.join q).segments = p.segments ++ q.segments := by
  rw [join_of_relative some_text hq]
  exact segments_withSlash_append p q.text

/-- A path seen from another one starts where that one does. -/
lemma isAbsolute_join (some_text : p.text.isEmpty = false) (hq : q.isAbsolute = false) :
    (p.join q).isAbsolute = p.isAbsolute := by
  obtain ⟨c, cs, hcs⟩ := List.exists_cons_of_ne_nil (toList_ne_nil some_text)
  rw [join_of_relative some_text hq, withSlash]
  split <;> simp [isAbsolute, hcs]

/-- The text of a path seen from another one ends as its own does. -/
lemma withSlash_join (some_text : p.text.isEmpty = false) (hq : q.isAbsolute = false)
    (some_text' : q.text.isEmpty = false) : (p.join q).withSlash = p.withSlash ++ q.withSlash := by
  have ends : (⟨p.withSlash ++ q.text⟩ : Path).endsWithSlash = q.endsWithSlash := by
    have some_last := List.getLast?_isSome.2 (toList_ne_nil some_text')
    obtain ⟨c, last⟩ := Option.isSome_iff_exists.1 some_last
    simp [endsWithSlash, List.getLast?_append, last]
  rw [join_of_relative some_text hq]
  -- on the right, only the slash behind `q` is to be looked at
  conv_lhs => rw [withSlash, ends]
  conv_rhs => rw [withSlash.eq_1 q]
  split
  · rfl
  · exact String.append_assoc

/-- It does not matter from where a relative path is seen first. -/
theorem join_assoc {r : Path} (p : Path) (some_text : q.text.isEmpty = false)
    (hq : q.isAbsolute = false) (hr : r.isAbsolute = false) :
    (p.join q).join r = p.join (q.join r) := by
  by_cases empty : p.text.isEmpty
  · rw [join_of_isEmpty empty, join_of_isEmpty empty]
  · have some_text' : p.text.isEmpty = false := by simpa using empty
    have joined : (p.join q).text.isEmpty = false := by
      rw [join_of_relative some_text' hq, Bool.eq_false_iff]
      intro empty
      have none_left := (String.append_eq_empty_iff.1 (String.isEmpty_iff.1 empty)).2
      rw [none_left] at some_text
      cases some_text
    have relative : (q.join r).isAbsolute = false := (isAbsolute_join some_text hr).trans hq
    rw [join_of_relative joined hr, withSlash_join some_text' hq some_text,
      join_of_relative some_text' relative, join_of_relative some_text hr, String.append_assoc]

/-- The steps of a path seen from another one come after those of that one. -/
lemma steps_join (some_text : p.text.isEmpty = false) (hq : q.isAbsolute = false) :
    (p.join q).steps = p.steps ++ q.steps := by
  unfold steps
  rw [isAbsolute_join some_text hq, segments_join some_text hq, hq]
  split <;> rfl

lemma root_notMem_segments (p : Path) : Component.root ∉ p.segments := by
  unfold segments
  rw [List.mem_map]
  rintro ⟨segment, -, same⟩
  exact Component.ofSegment_ne_root segment same

/-- Only the walk of an absolute path starts at the root. -/
lemma head?_components_eq_root_iff : p.components.head? = some .root ↔ p.isAbsolute := by
  unfold components steps
  by_cases hp : p.isAbsolute
  · simp [hp]
  · rw [if_neg hp]
    refine iff_of_false (fun first => ?_) hp
    have no_root := root_notMem_segments p
    cases segments_eq : p.segments with
    | nil => simp [segments_eq] at first
    | cons step rest =>
      rw [segments_eq] at first no_root
      cases first
      exact no_root List.mem_cons_self

/-- The walk of an absolute path starts at the root. -/
lemma components_of_isAbsolute (hp : p.isAbsolute) :
    p.components = .root :: p.segments.filter (· ≠ .here) := by
  simp [components, steps, hp]

/-- An absolute path is its own walk from everywhere. -/
lemma absolute?_of_isAbsolute {cwd : Path} (hp : p.isAbsolute) :
    cwd.absolute? p = some p.components := by
  rw [absolute?, text_ne_empty hp, if_neg Bool.false_ne_true, if_pos hp]

/-- Up to idle steps, the walk of a relative path consists of its segments. -/
lemma filter_components (hp : p.isAbsolute = false) :
    p.components.filter (· ≠ .here) = p.segments.filter (· ≠ .here) := by
  simp only [components, steps, hp, Bool.false_eq_true, if_false]
  cases p.segments with
  | nil => rfl
  | cons step rest => by_cases idle : step = .here <;> simp [idle]

/-- Only the empty path has no components. -/
lemma components_eq_nil_iff : p.components = [] ↔ p.text.isEmpty := by
  constructor
  · intro none_left
    cases chars : p.text.toList with
    | nil => exact String.isEmpty_iff.2 (String.toList_eq_nil_iff.1 chars)
    | cons c cs =>
      -- a first character is a slash, which leads to the root, or belongs to a segment
      have no_steps : p.steps = [] := by
        unfold components at none_left
        split at none_left
        · assumption
        · cases none_left
      unfold steps isAbsolute segments at no_steps
      rw [chars] at no_steps
      split at no_steps
      · cases no_steps
      · next relative =>
        have first : c ≠ '/' := by simpa using relative
        obtain ⟨piece, pieces, rest⟩ :=
          List.exists_cons_of_ne_nil (Text.split_ne_nil '/' cs)
        simp [Text.split, first, rest, Text.consFirst] at no_steps
  · intro empty
    have nothing : p = ⟨""⟩ := by rw [← String.isEmpty_iff.1 empty]
    rw [nothing]
    rfl

/-- Whether a path is absolute shows in its components. -/
lemma isAbsolute_congr (same : p.components = q.components) : p.isAbsolute = q.isAbsolute := by
  rw [Bool.eq_iff_iff, ← head?_components_eq_root_iff, ← head?_components_eq_root_iff, same]

/-- A path is made absolute by its components. -/
lemma absolute?_congr {cwd : Path} (same : p.components = q.components) :
    cwd.absolute? p = cwd.absolute? q := by
  have empty : p.text.isEmpty = q.text.isEmpty := by
    rw [Bool.eq_iff_iff, ← components_eq_nil_iff, ← components_eq_nil_iff, same]
  unfold absolute?
  rw [empty, isAbsolute_congr same, same]

/-- The walk of a path seen from an absolute one goes on from there. -/
theorem components_join (hp : p.isAbsolute) (hq : q.isAbsolute = false) :
    (p.join q).components = p.components ++ q.components.filter (· ≠ .here) := by
  have some_text := text_ne_empty hp
  rw [components_of_isAbsolute ((isAbsolute_join some_text hq).trans hp),
    components_of_isAbsolute hp, segments_join some_text hq, filter_components hq,
    List.filter_append, List.cons_append]

end Path

namespace Locator

variable {cwd root p : Path}

/-! ## Locators -/

/-- Idle steps are not written. -/
lemma write_filter (walk : List Component) : write (walk.filter (· ≠ .here)) = write walk := by
  have same : (fun step => if decide (step ≠ .here) then Component.segment? step else none)
      = Component.segment? := by
    funext step
    cases step <;> rfl
  rw [write, write, List.filterMap_filter, same]

/-- What is made absolute and goes on from the root is located by what follows the root. -/
lemma route?_of_absolute? {rest : List Component}
    (h : cwd.absolute? p = some (root.components ++ rest)) : route? cwd root p = some rest := by
  have stripped : root.components.isPrefixOf? (root.components ++ rest) = some rest :=
    List.isPrefixOf?_eq_some_iff_append_eq.2 rfl
  simp only [route?, h, Option.bind_some, stripped]

/-- A walk that goes on from the root is written without the way to the root. -/
lemma locate_of_absolute? {rest : List Component}
    (h : cwd.absolute? p = some (root.components ++ rest)) :
    locate cwd root p = .ok (write rest) := by
  rw [locate, route?_of_absolute? h]

/-- The locator of a path below the root does not depend on the root. -/
theorem locate_join (hroot : root.isAbsolute) (hp : p.isAbsolute = false) :
    locate cwd root (root.join p) = .ok (write p.components) := by
  have inside : (root.join p).isAbsolute :=
    (Path.isAbsolute_join (Path.text_ne_empty hroot) hp).trans hroot
  have walk : cwd.absolute? (root.join p)
      = some (root.components ++ p.components.filter (· ≠ .here)) := by
    rw [Path.absolute?_of_isAbsolute inside, Path.components_join hroot hp]
  rw [locate_of_absolute? walk, write_filter]

/-- The locator of a relative path seen from the root or from a directory below does not depend on
the root. -/
theorem locate_relative {c : Path} (hroot : root.isAbsolute) (hc : c.isAbsolute = false)
    (hp : p.isAbsolute = false) (some_text : p.text.isEmpty = false)
    (seen : cwd.components = (root.join c).components) :
    locate cwd root p = .ok (write (c.components ++ p.components)) := by
  have walk : cwd.absolute? p
      = some (root.components ++ (c.components ++ p.components).filter (· ≠ .here)) := by
    rw [Path.absolute?, some_text, if_neg Bool.false_ne_true, hp, if_neg Bool.false_ne_true,
      seen, Path.components_join hroot hc, List.filter_append, List.append_assoc]
  rw [locate_of_absolute? walk, write_filter]

/-- What does not go on from the root is located by its components if it is relative. -/
lemma route?_of_not_below (outside : ∀ rest, cwd.absolute? p ≠ some (root.components ++ rest)) :
    route? cwd root p = if p.isAbsolute then none else some p.components := by
  unfold route?
  split
  · next rest stripped =>
    obtain ⟨walk, made, stripped⟩ := Option.bind_eq_some_iff.1 stripped
    rw [List.isPrefixOf?_eq_some_iff_append_eq] at stripped
    exact absurd (made.trans (congrArg some stripped.symm)) (outside rest)
  · rfl

/-- A path whose walk is known not to go on from the root is located by its components if it is
relative. -/
lemma route?_of_outside {walk : List Component} (h : cwd.absolute? p = some walk)
    (outside : ¬ root.components <+: walk) :
    route? cwd root p = if p.isAbsolute then none else some p.components := by
  apply route?_of_not_below
  intro rest made
  exact outside ⟨rest, Option.some.inj (made.symm.trans h)⟩

/-- A path whose walk does not go on from the root is written as it is if it is relative. -/
lemma locate_of_not_below (outside : ∀ rest, cwd.absolute? p ≠ some (root.components ++ rest)) :
    locate cwd root p
      = if p.isAbsolute then .error (.misconfigured (.outsideRoot p root))
        else .ok (write p.components) := by
  rw [locate, route?_of_not_below outside]
  by_cases hp : p.isAbsolute <;> simp [hp]

/-- A path whose walk is known not to go on from the root is written as it is if it is relative. -/
lemma locate_of_outside {walk : List Component} (h : cwd.absolute? p = some walk)
    (outside : ¬ root.components <+: walk) :
    locate cwd root p
      = if p.isAbsolute then .error (.misconfigured (.outsideRoot p root))
        else .ok (write p.components) := by
  apply locate_of_not_below
  intro rest made
  exact outside ⟨rest, Option.some.inj (made.symm.trans h)⟩

/-- Paths with the same components are located by the same walk. -/
lemma route?_congr {q : Path} (same : p.components = q.components) :
    route? cwd root p = route? cwd root q := by
  unfold route?
  rw [Path.absolute?_congr same, Path.isAbsolute_congr same, same]

/-- Paths with the same components have the same locator, or both are outside the root. -/
theorem locate_congr {q : Path} (same : p.components = q.components) :
    (∃ s, locate cwd root p = .ok s ∧ locate cwd root q = .ok s) ∨
      locate cwd root p = .error (.misconfigured (.outsideRoot p root)) ∧
        locate cwd root q = .error (.misconfigured (.outsideRoot q root)) := by
  unfold locate
  rw [route?_congr same]
  split
  · exact .inl ⟨_, rfl, rfl⟩
  · exact .inr ⟨rfl, rfl⟩

/-- An absolute path whose walk does not start with that to the root has no locator. -/
theorem locate_outside (hp : p.isAbsolute) (outside : ¬ root.components <+: p.components) :
    locate cwd root p = .error (.misconfigured (.outsideRoot p root)) := by
  rw [locate_of_outside (Path.absolute?_of_isAbsolute hp) outside, if_pos hp]

end Locator

end WorkflowFile
