import WorkflowFile.BytePath
import WorkflowFile.Proofs.Bytes
import WorkflowFile.Proofs.Locator

/-!
# Locators of paths of bytes

* `Component.shown_spread`: the bytes of a name are shown as the name, and `Component.IsText` holds
  of the steps whose names are such bytes.
* `Component.proper_shown`: the segments of a path of bytes stand between slashes as they are shown.
* `BytePath.components_ofPath`: the bytes of a path are taken apart as the path is.
* `Locator.locateBytes_ofPath`: they have the locator of the path.
-/

namespace WorkflowFile

namespace Component

variable {step : Component}

/-- The name of the step, if it has one, is the bytes of a text. -/
def IsText (step : Component) : Prop := ∃ whole, spread whole = step

/-- The bytes of a name are shown as the name. -/
@[simp]
lemma shown_spread (step : Component) : step.spread.shown = step := by
  cases step <;> simp [spread, shown, rename, Text.shown_gather_bytes]

lemma spread_injective : Function.Injective spread := by
  intro step other same
  rw [← shown_spread step, same, shown_spread]

/-- A step whose name is a text is known by what is shown of it, and no other one is. -/
lemma spread_shown_eq_iff : step.shown.spread = step ↔ step.IsText := by
  constructor
  · exact fun same => ⟨_, same⟩
  · rintro ⟨whole, rfl⟩
    rw [shown_spread]

instance : Decidable step.IsText := decidable_of_iff _ spread_shown_eq_iff

/-- Steps are known by what is shown of them exactly if their names are texts. -/
lemma map_spread_map_shown_eq_iff {walk : List Component} :
    (walk.map shown).map spread = walk ↔ ∀ step ∈ walk, step.IsText := by
  have same := List.map_inj_left (l := walk) (f := spread ∘ shown) (g := id)
  rw [List.map_id] at same
  rw [List.map_map, same]
  exact forall₂_congr fun step _ => spread_shown_eq_iff

/-- Only an idle step is shown as one. -/
lemma shown_eq_here_iff : step.shown = .here ↔ step = .here := by
  cases step <;> simp [shown, rename]

lemma spread_eq_here_iff : step.spread = .here ↔ step = .here := by
  cases step <;> simp [spread, rename]

/-- The bytes of a segment stand for its step with the bytes of its name. -/
lemma ofSegment_bytes (segment : List Char) :
    ofSegment (Text.bytes segment) = (ofSegment segment).spread := by
  have here : Text.bytes segment = ['.'] ↔ segment = ['.'] :=
    Text.bytes_injective.eq_iff' (b := ['.']) rfl
  have up : Text.bytes segment = ['.', '.'] ↔ segment = ['.', '.'] :=
    Text.bytes_injective.eq_iff' (b := ['.', '.']) rfl
  simp only [ofSegment, here, up]
  split_ifs <;> simp [spread, rename]

/-- What is shown of bytes without a slash stands between slashes, and is a dot or two dots only if
the bytes are. -/
lemma proper_shown {bytes : List UInt8} (some_byte : bytes ≠ []) (one : '/' ∉ Text.spread bytes) :
    (ofSegment (Text.spread bytes)).shown.Proper := by
  have dots (text : List Char) (whole : Text.replacement ∉ text)
      (shown_eq : Text.shown bytes = text) : Text.spread bytes = Text.bytes text := by
    rw [Text.bytes, ← shown_eq, ← Text.eq_encode_of_shown (shown_eq ▸ whole)]
  unfold ofSegment
  split_ifs with here up
  · exact ⟨['.'], by decide, by decide, rfl⟩
  · exact ⟨['.', '.'], by decide, by decide, rfl⟩
  · refine ⟨Text.shown bytes, mt Text.shown_eq_nil_iff.1 some_byte, ?_, ?_⟩
    · intro slash
      have listed := Text.subset_of_mem_shown slash (by decide) List.mem_cons_self
      exact one (List.mem_map_of_mem listed)
    · unfold ofSegment
      rw [if_neg fun h => here (dots ['.'] (by decide) h),
        if_neg fun h => up (dots ['.', '.'] (by decide) h)]
      simp [shown, rename, Text.gather_spread]

end Component

namespace BytePath

variable {p : BytePath}

/-- Where there are bytes, there is a text to be taken apart. -/
lemma text_ne_empty (some_byte : p.bytes ≠ []) : p.spread.text ≠ "" := by
  intro empty
  have chars : Text.spread p.bytes = [] := by simpa [spread] using congrArg String.toList empty
  exact some_byte (List.map_eq_nil_iff.1 chars)

/-- The segments of a path of bytes stand between slashes as they are shown. -/
lemma proper_of_mem_segments {step : Component} (h : step ∈ p.spread.segments) :
    step.shown.Proper := by
  obtain ⟨segment, listed, rfl⟩ := List.mem_map.1 h
  obtain ⟨piece, some_char⟩ := List.mem_filter.1 listed
  obtain ⟨from_bytes, one⟩ := Text.of_mem_split piece
  rw [spread, String.toList_ofList] at from_bytes
  obtain ⟨part, rfl⟩ := Text.exists_spread_of_subset from_bytes
  refine Component.proper_shown ?_ one
  rintro rfl
  simp [Text.spread] at some_char

end BytePath

/-! ## Bytes of texts -/

namespace BytePath

variable (p : Path)

/-- The bytes of a path are shown as the path. -/
lemma shown_ofPath : (ofPath p).shown = p := by
  simp [shown, ofPath, Text.shown_encode]

lemma toList_spread_ofPath : (ofPath p).spread.text.toList = Text.bytes p.text.toList := by
  simp [spread, ofPath, Text.bytes]

/-- Only a path without a text has no bytes. -/
lemma text_ne_empty_of_ofPath {p : Path} (some_byte : (ofPath p).bytes ≠ []) : p.text ≠ "" := by
  rintro empty
  simp [ofPath, empty, Text.encode] at some_byte

/-- The segments of the bytes of a path are the bytes of its segments. -/
lemma segments_ofPath : (ofPath p).spread.segments = p.segments.map Component.spread := by
  have nothing (piece : List Char) : Text.bytes piece = [] ↔ piece = [] :=
    Text.bytes_injective.eq_iff' (b := []) rfl
  unfold Path.segments
  rw [toList_spread_ofPath, Text.split_bytes, List.filter_map, List.map_map, List.map_map]
  simp only [Function.comp_def, Component.ofSegment_bytes, ne_eq, nothing]

/-- The bytes of a path start at the root if the path does. -/
lemma isAbsolute_ofPath : (ofPath p).spread.isAbsolute = p.isAbsolute := by
  unfold Path.isAbsolute
  rw [toList_spread_ofPath]
  cases p.text.toList with
  | nil => rfl
  | cons c cs =>
    by_cases slash : c = '/'
    · subst slash
      rfl
    · have one := Text.slash_notMem_bytes (mt List.mem_singleton.1 (Ne.symm slash))
      obtain ⟨first, behind, chars⟩ : ∃ first behind, Text.bytes [c] = first :: behind :=
        List.exists_cons_of_ne_nil (Text.bytes_injective.ne_iff' rfl |>.2 (List.cons_ne_nil c []))
      rw [chars, List.mem_cons, not_or] at one
      rw [Text.bytes_cons, chars]
      simp [slash, Ne.symm one.1]

lemma isEmpty_ofPath : (ofPath p).spread.text.isEmpty = p.text.isEmpty := by
  have chars := toList_spread_ofPath p
  rw [Bool.eq_iff_iff, String.isEmpty_iff, String.isEmpty_iff, ← String.toList_eq_nil_iff,
    ← String.toList_eq_nil_iff, chars]
  exact Text.bytes_injective.eq_iff' rfl

/-- The components of the bytes of a path are the bytes of its components. -/
theorem components_ofPath : (ofPath p).spread.components = p.components.map Component.spread := by
  have steps : (ofPath p).spread.steps = p.steps.map Component.spread := by
    unfold Path.steps
    rw [isAbsolute_ofPath, segments_ofPath]
    split <;> rfl
  unfold Path.components
  rw [steps]
  cases p.steps with
  | nil => rfl
  | cons step rest =>
    simp only [List.map_cons, List.filter_map, Function.comp_def, ne_eq,
      Component.spread_eq_here_iff]

end BytePath

namespace Locator

variable {cwd root p : Path}

/-- The bytes of a path are made absolute as the path is. -/
lemma absolute?_ofPath : (BytePath.ofPath cwd).spread.absolute? (BytePath.ofPath p).spread
    = (cwd.absolute? p).map (List.map Component.spread) := by
  unfold Path.absolute?
  rw [BytePath.isEmpty_ofPath, BytePath.isAbsolute_ofPath, BytePath.components_ofPath,
    BytePath.components_ofPath]
  split_ifs
  · rfl
  · rfl
  · simp only [Option.map_some, List.map_append, List.filter_map, Function.comp_def, ne_eq,
      Component.spread_eq_here_iff]

/-- The bytes of one walk are a beginning of those of another one if that one is. -/
lemma isPrefixOf?_map_spread (walk other : List Component) :
    (walk.map Component.spread).isPrefixOf? (other.map Component.spread)
      = (walk.isPrefixOf? other).map (List.map Component.spread) := by
  induction walk generalizing other with
  | nil => rfl
  | cons step walk ih =>
    cases other with
    | nil => rfl
    | cons first other =>
      simp only [List.map_cons, List.isPrefixOf?, beq_iff_eq, Component.spread_injective.eq_iff, ih]
      split <;> rfl

/-- The bytes of a path are located by the bytes of the walk that the path is located by. -/
lemma route?_ofPath : route? (BytePath.ofPath cwd).spread (BytePath.ofPath root).spread
      (BytePath.ofPath p).spread = (route? cwd root p).map (List.map Component.spread) := by
  unfold route?
  rw [absolute?_ofPath, BytePath.components_ofPath, BytePath.components_ofPath,
    BytePath.isAbsolute_ofPath]
  cases cwd.absolute? p with
  | none => split_ifs <;> rfl
  | some walk =>
    simp only [Option.map_some, Option.bind_some, isPrefixOf?_map_spread]
    cases root.components.isPrefixOf? walk with
    | none => split_ifs <;> rfl
    | some rest => rfl

/-- The bytes of a path have the locator of the path. -/
theorem locateBytes_ofPath (cwd root p : Path) :
    locateBytes (.ofPath cwd) (.ofPath root) (.ofPath p) = locate cwd root p := by
  unfold locateBytes locate
  rw [route?_ofPath, BytePath.shown_ofPath, BytePath.shown_ofPath]
  cases route? cwd root p with
  | none => rfl
  | some walk => simp [List.map_map, Function.comp_def]

end Locator

end WorkflowFile
