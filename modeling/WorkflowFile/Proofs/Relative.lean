import WorkflowFile.Proofs.BytePath

/-!
# Locators undo joining with the root

Read piece by piece, a locator is the way that a path goes on from the root.

* `Text.split_intercalate`: texts with slashes between them are cut into these texts again.
* `Locator.walk` reads a locator piece by piece, and `Locator.walk_write` says that it reads what
  was written.
* `Locator.Clean`: no slash of a locator could be left out, and no piece either.
* `Locator.UndoesJoin` says what the locator of a path is, for paths below the root, for absolute
  paths outside and for relative ones. A locator is a text, so that names that are none are there
  as they are shown.
-/

namespace WorkflowFile

/-- Texts with slashes between them are cut at these slashes. -/
lemma Text.split_intercalate {texts : List String} (some_text : texts ≠ [])
    (one : ∀ text ∈ texts, '/' ∉ text.toList) :
    split '/' ("/".intercalate texts).toList = texts.map String.toList := by
  induction texts with
  | nil => exact absurd rfl some_text
  | cons text texts ih =>
    rw [List.forall_mem_cons] at one
    by_cases last : texts = []
    · subst last
      rw [String.intercalate_singleton, split_of_notMem one.1]
      rfl
    · have chars : (text ++ "/" ++ "/".intercalate texts).toList
          = text.toList ++ '/' :: ("/".intercalate texts).toList := by simp
      rw [String.intercalate_cons_of_ne_nil last, chars, split_append_cons,
        split_of_notMem one.1, ih last one.2, List.singleton_append, List.map_cons]

namespace Locator

/-! ## Reading locators -/

/-- The pieces of a locator between its slashes. The empty locator has none. -/
def pieces (s : String) : List (List Char) := if s.isEmpty then [] else Text.split '/' s.toList

/-- The walk that a locator describes piece by piece. -/
def walk (s : String) : List Component := (pieces s).map Component.ofSegment

/-- There is no slash at the beginning, at the end or behind another one, and no piece is idle. -/
structure Clean (s : String) : Prop where
  no_lead : s.toList.head? ≠ some '/'
  no_trail : s.toList.getLast? ≠ some '/'
  no_double : ¬ ['/', '/'] <:+: s.toList
  busy : ['.'] ∉ pieces s

variable {s : String} {steps : List Component}

/-- If no piece is empty, none is on either side of a slash. -/
lemma notMem_split_of_notMem_pieces {before behind : List Char} (filled : [] ∉ pieces s)
    (chars : s.toList = before ++ '/' :: behind) :
    [] ∉ Text.split '/' before ∧ [] ∉ Text.split '/' behind := by
  have some_text : s.isEmpty = false := by
    rw [Bool.eq_false_iff]
    intro empty
    rw [String.isEmpty_iff.1 empty] at chars
    simp at chars
  rw [pieces, some_text, if_neg Bool.false_ne_true, chars, Text.split_append_cons, List.mem_append,
    not_or] at filled
  exact filled

/-- A locator is clean if no piece is empty or idle. -/
lemma clean_of_pieces (filled : [] ∉ pieces s) (busy : ['.'] ∉ pieces s) : Clean s where
  no_lead := by
    intro lead
    obtain ⟨behind, chars⟩ := List.head?_eq_some_iff.1 lead
    have := (@notMem_split_of_notMem_pieces s [] behind filled chars).1
    simp [Text.split] at this
  no_trail := by
    intro trail
    obtain ⟨before, chars⟩ := List.getLast?_eq_some_iff.1 trail
    have := (notMem_split_of_notMem_pieces filled chars).2
    simp [Text.split] at this
  no_double := by
    rintro ⟨before, behind, chars⟩
    have chars : s.toList = before ++ '/' :: '/' :: behind := by simpa using chars.symm
    have := (notMem_split_of_notMem_pieces filled chars).2
    simp [Text.split] at this
  busy := busy

/-- Without empty pieces, the pieces are the segments of the text. -/
lemma walk_eq_segments (filled : [] ∉ pieces s) : walk s = (⟨s⟩ : Path).segments := by
  unfold walk Path.segments
  unfold pieces at filled ⊢
  split
  · next empty =>
    rw [String.isEmpty_iff.1 empty]
    rfl
  · next some_text =>
    rw [if_neg some_text] at filled
    congr 1
    symm
    rw [List.filter_eq_self]
    intro piece listed
    have : piece ≠ [] := fun empty => filled (empty ▸ listed)
    simpa using this

/-- The pieces of a written walk are the texts that its steps are written as. -/
lemma pieces_write (proper : ∀ step ∈ steps, step.Proper) :
    pieces (write steps) = (steps.filterMap Component.segment?).map String.toList ∧
      [] ∉ pieces (write steps) := by
  have texts : ∀ text ∈ steps.filterMap Component.segment?,
      text.toList ≠ [] ∧ '/' ∉ text.toList := by
    intro text listed
    obtain ⟨step, hstep, written⟩ := List.mem_filterMap.1 listed
    have busy : step ≠ .here := by
      rintro rfl
      cases written
    obtain ⟨text', written', some_char, one, -⟩ := (proper step hstep).exists_segment? busy
    obtain rfl : text = text' := Option.some.inj (written.symm.trans written')
    exact ⟨some_char, one⟩
  have filled : [] ∉ (steps.filterMap Component.segment?).map String.toList := by
    rw [List.mem_map]
    rintro ⟨text, listed, empty⟩
    exact (texts text listed).1 empty
  suffices cut : pieces (write steps) = (steps.filterMap Component.segment?).map String.toList by
    exact ⟨cut, cut ▸ filled⟩
  unfold pieces write
  by_cases nothing : steps.filterMap Component.segment? = []
  · rw [nothing]
    rfl
  · have cut := Text.split_intercalate nothing fun text listed => (texts text listed).2
    have some_text : ("/".intercalate (steps.filterMap Component.segment?)).isEmpty = false := by
      rw [Bool.eq_false_iff]
      intro empty
      rw [String.isEmpty_iff.1 empty] at cut
      exact filled (cut ▸ List.mem_cons_self)
    rw [some_text, if_neg Bool.false_ne_true, cut]

/-- A written walk is read back piece by piece, without its idle steps. -/
theorem walk_write (proper : ∀ step ∈ steps, step.Proper) :
    walk (write steps) = steps.filter (· ≠ .here) := by
  rw [walk_eq_segments (pieces_write proper).2, segments_write proper]

/-- A written walk is clean. -/
lemma clean_write (proper : ∀ step ∈ steps, step.Proper) : Clean (write steps) := by
  refine clean_of_pieces (pieces_write proper).2 fun idle => ?_
  have read : Component.here ∈ walk (write steps) := List.mem_map.2 ⟨['.'], idle, rfl⟩
  rw [walk_write proper] at read
  simp at read

/-! ## Locators and joined paths -/

variable {cwd root p : Path}

/-- Seen from the current directory, a path is made absolute. -/
lemma absolute?_eq_join (hcwd : cwd.isAbsolute) (some_text : p.text ≠ "") :
    cwd.absolute? p = some (cwd.join p).components := by
  by_cases hp : p.isAbsolute
  · rw [Path.join_of_isAbsolute cwd hp, Path.absolute?_of_isAbsolute hp]
  · have hp : p.isAbsolute = false := by simpa using hp
    have some_text : p.text.isEmpty = false := by
      rw [Bool.eq_false_iff]
      exact fun empty => some_text (String.isEmpty_iff.1 empty)
    rw [Path.components_join hcwd hp, Path.absolute?, some_text, hp]
    rfl

/-- Where a path goes on from the root, it goes on by segments that are not idle. -/
lemma mem_segments_of_below {rest : List Component} (hcwd : cwd.isAbsolute)
    (some_root : root.text ≠ "") (h : cwd.absolute? p = some (root.components ++ rest)) :
    ∀ step ∈ rest, (step ∈ cwd.segments ∨ step ∈ p.segments) ∧ step ≠ .here := by
  have some_step : root.components ≠ [] := by
    rw [Ne, Path.components_eq_nil_iff, String.isEmpty_iff]
    exact some_root
  obtain ⟨first, before, start⟩ := List.exists_cons_of_ne_nil some_step
  -- what is made absolute leads from the root of the file system, and so does its beginning
  have absolute : root.isAbsolute := by
    obtain ⟨behind, from_root⟩ := Path.exists_root_cons hcwd h
    rw [start, List.cons_append] at from_root
    rw [← Path.head?_components_eq_root_iff, start, (List.cons.inj from_root).1]
    rfl
  exact Path.mem_segments_of_absolute?_append absolute h

/-- Behind the root, the locator of a path below it that is a text is the path. -/
lemma exists_locate_of_below (hcwd : cwd.isAbsolute) (some_root : root.text ≠ "")
    (some_text : p.text ≠ "") (below : root.components <+: (cwd.join p).components) :
    ∃ s, locate cwd root p = .ok s ∧ root.components ++ walk s = (cwd.join p).components := by
  obtain ⟨rest, same⟩ := below
  have made := absolute?_eq_join hcwd some_text
  rw [← same] at made
  have segment := mem_segments_of_below hcwd some_root made
  refine ⟨write rest, locate_of_absolute? made, ?_⟩
  rw [walk_write, ← same, List.filter_eq_self.2]
  · intro step hstep
    simpa using (segment step hstep).2
  · intro step hstep
    exact (segment step hstep).1.elim Path.proper_of_mem_segments Path.proper_of_mem_segments

end Locator

namespace BytePath

/-- The components of a path of bytes that is made absolute. -/
def seenFrom (p cwd : BytePath) : List Component := (cwd.spread.join p.spread).components

end BytePath

namespace Locator

variable {cwd root p : BytePath}

/-- What the locator of a path is. -/
structure UndoesJoin (cwd root p : BytePath) : Prop where
  /-- Behind the root, the locator of a path below it is the path as it is shown. It is the path
  itself exactly if all names that it shows are texts. -/
  below : root.spread.components <+: p.seenFrom cwd →
    ∃ rest s, p.seenFrom cwd = root.spread.components ++ rest ∧ locateBytes cwd root p = .ok s ∧
      root.spread.components.map .shown ++ walk s = (p.seenFrom cwd).map .shown ∧
      (root.spread.components ++ (walk s).map .spread = p.seenFrom cwd ↔
        ∀ step ∈ rest, step.IsText)
  /-- Paths that are texts have that locator as texts, too, and it is the path itself. -/
  texts : ∀ c r q : Path, cwd = .ofPath c → root = .ofPath r → p = .ofPath q →
    r.components <+: (c.join q).components → ∃ s, locateBytes cwd root p = .ok s ∧
      locate c r q = .ok s ∧ r.components ++ walk s = (c.join q).components
  /-- An absolute path outside the root is refused. -/
  refused : ¬ root.spread.components <+: p.seenFrom cwd → p.spread.isAbsolute →
    locateBytes cwd root p = .error (.misconfigured (.outsideRoot p.shown root.shown))
  /-- A relative path outside the root is its own locator, up to idle steps. -/
  kept : ¬ root.spread.components <+: p.seenFrom cwd → p.spread.isAbsolute = false →
    ∃ s, locateBytes cwd root p = .ok s ∧
      walk s = (p.spread.components.filter (· ≠ .here)).map .shown ∧
      ((walk s).map .spread = p.spread.components.filter (· ≠ .here) ↔
        ∀ step ∈ p.spread.components, step.IsText)
  clean : ∀ s, locateBytes cwd root p = .ok s → Clean s
  /-- The path has the locator of every path that it becomes when it is made absolute. -/
  absolute : ∀ q : BytePath, q.spread.isAbsolute → q.spread.components = p.seenFrom cwd →
    root.spread.components <+: q.spread.components → locateBytes cwd root q = locateBytes cwd root p

/-- Steps that stand between slashes as they are shown are read back as they are shown. -/
lemma walk_write_shown {steps : List Component} (proper : ∀ step ∈ steps, step.shown.Proper) :
    walk (write (steps.map .shown)) = (steps.filter (· ≠ .here)).map .shown ∧
      Clean (write (steps.map .shown)) := by
  have proper : ∀ step ∈ steps.map Component.shown, step.Proper := by simpa using proper
  refine ⟨?_, clean_write proper⟩
  rw [walk_write proper, List.filter_map]
  simp only [Function.comp_def, ne_eq, Component.shown_eq_here_iff]

/-- Steps that stand between slashes as they are shown, none of them idle, are all read back. -/
lemma walk_write_shown_of_busy {steps : List Component}
    (proper : ∀ step ∈ steps, step.shown.Proper ∧ step ≠ .here) :
    walk (write (steps.map .shown)) = steps.map .shown := by
  rw [(walk_write_shown fun step hstep => (proper step hstep).1).1, List.filter_eq_self.2]
  intro step hstep
  simpa using (proper step hstep).2

/-- The names of steps are texts if those of the steps that are not idle are. -/
lemma isText_filter_iff {steps : List Component} :
    (∀ step ∈ steps.filter (· ≠ .here), step.IsText) ↔ ∀ step ∈ steps, step.IsText := by
  constructor
  · intro texts step hstep
    by_cases idle : step = .here
    · exact ⟨.here, idle.symm⟩
    · exact texts step (List.mem_filter.2 ⟨hstep, by simpa using idle⟩)
  · exact fun texts step hstep => texts step (List.mem_of_mem_filter hstep)

/-- A path of bytes is made absolute. -/
lemma absolute?_eq_seenFrom (hcwd : cwd.spread.isAbsolute) (some_byte : p.bytes ≠ []) :
    cwd.spread.absolute? p.spread = some (p.seenFrom cwd) :=
  absolute?_eq_join hcwd (BytePath.text_ne_empty some_byte)

/-- A path of bytes below the root is located by what follows the root as it is shown. -/
lemma locateBytes_of_below (hcwd : cwd.spread.isAbsolute) (some_root : root.bytes ≠ [])
    (some_byte : p.bytes ≠ []) (below : root.spread.components <+: p.seenFrom cwd) :
    ∃ rest, p.seenFrom cwd = root.spread.components ++ rest ∧
      locateBytes cwd root p = .ok (write (rest.map .shown)) ∧
      ∀ step ∈ rest, step.shown.Proper ∧ step ≠ .here := by
  obtain ⟨rest, same⟩ := below
  have made := absolute?_eq_seenFrom hcwd some_byte
  rw [← same] at made
  refine ⟨rest, same.symm, by rw [locateBytes, route?_of_absolute? made], ?_⟩
  intro step hstep
  obtain ⟨segment, busy⟩ :=
    mem_segments_of_below hcwd (BytePath.text_ne_empty some_root) made step hstep
  exact ⟨segment.elim BytePath.proper_of_mem_segments BytePath.proper_of_mem_segments, busy⟩

/-- A path of bytes outside the root is located by its components as they are shown if it is
relative. -/
lemma locateBytes_of_outside (hcwd : cwd.spread.isAbsolute) (some_byte : p.bytes ≠ [])
    (apart : ¬ root.spread.components <+: p.seenFrom cwd) :
    locateBytes cwd root p
      = if p.spread.isAbsolute then .error (.misconfigured (.outsideRoot p.shown root.shown))
        else .ok (write (p.spread.components.map .shown)) := by
  rw [locateBytes, route?_of_outside (absolute?_eq_seenFrom hcwd some_byte) apart]
  by_cases hp : p.spread.isAbsolute <;> simp [hp]

/-- The components of a relative path of bytes stand between slashes as they are shown. -/
lemma proper_of_relative (relative : p.spread.isAbsolute = false) :
    ∀ step ∈ p.spread.components, step.shown.Proper := fun _ hstep =>
  BytePath.proper_of_mem_segments (Path.mem_segments_of_mem_components relative hstep)

end Locator

end WorkflowFile
