import Mathlib.Data.List.Basic
import WorkflowFile.Text.Lines
import WorkflowFile.Text.Whitespace

/-!
# Pieces of a text

* `Text.split_append_cons`: a text is cut on both sides of a separator on their own.
* `Text.split_append_of_notMem`: what stands in front of a text joins its first piece.
* `Text.split_flatMap_append`: lines that are each ended by the separator are its first pieces.
* `Text.of_mem_split`: a piece has its characters from the text and no separator.
* `Text.join_append` and `Text.join_append_of_ne_nil`: in front of a separator or of further pieces,
  joined pieces are pieces with a separator each. `Text.split_join`: they are cut apart again.
* `Text.trimEnd_append`: only the end of a text is trimmed.
* `Text.trimEnd_prefix` and `Text.not_whitespace_of_getLast?_trimEnd`: a trimmed text is a
  beginning of the text that does not end with white space.
* `Text.isTrimmed_iff` and `Text.trimEnd_eq_trimEnd_iff` say without trimming what a text is that is
  trimmed, and when two texts are the same once they are.
-/

namespace WorkflowFile

namespace Text

/-! ## Splitting -/

/-- Cutting at a separator in the middle cuts both sides on their own. -/
lemma split_append_cons (separator : Char) (cs ds : List Char) :
    split separator (cs ++ separator :: ds) = split separator cs ++ split separator ds := by
  induction cs with
  | nil => simp [split]
  | cons c cs ih =>
    rw [List.cons_append]
    by_cases cut : c = separator
    · simp [split, cut, ih]
    · have some_piece := split_ne_nil separator cs
      simp only [split, if_neg cut, ih]
      -- the character joins the first piece of the left side
      cases pieces : split separator cs with
      | nil => exact absurd pieces some_piece
      | cons piece rest => simp [consFirst]

/-- A text without the separator is one piece. -/
lemma split_of_notMem {separator : Char} {cs : List Char} (h : separator ∉ cs) :
    split separator cs = [cs] := by
  induction cs with
  | nil => rfl
  | cons c cs ih =>
    rw [List.mem_cons, not_or] at h
    rw [split, if_neg (Ne.symm h.1), ih h.2]
    rfl

/-- What stands in front of a text and has no separator joins the first piece. -/
lemma split_append_of_notMem {separator : Char} {lead : List Char} (h : separator ∉ lead)
    (cs : List Char) : ∃ first rest, split separator cs = first :: rest ∧
      split separator (lead ++ cs) = (lead ++ first) :: rest := by
  obtain ⟨first, rest, pieces⟩ := List.exists_cons_of_ne_nil (split_ne_nil separator cs)
  refine ⟨first, rest, pieces, ?_⟩
  induction lead with
  | nil => exact pieces
  | cons c lead ih =>
    rw [List.mem_cons, not_or] at h
    rw [List.cons_append, split, if_neg (Ne.symm h.1), ih h.2]
    rfl

/-- Pieces that are each ended by the separator are cut off one after the other. -/
lemma split_flatMap_append {separator : Char} {pieces : List (List Char)}
    (clean : ∀ piece ∈ pieces, separator ∉ piece) (cs : List Char) :
    split separator (pieces.flatMap (· ++ [separator]) ++ cs) = pieces ++ split separator cs := by
  induction pieces with
  | nil => rfl
  | cons piece pieces ih =>
    rw [List.forall_mem_cons] at clean
    rw [List.flatMap_cons, List.append_assoc, List.append_assoc, List.singleton_append,
      split_append_cons, split_of_notMem clean.1, ih clean.2, List.singleton_append,
      List.cons_append]

/-- A piece has its characters from the text, and the separator is not among them. -/
lemma of_mem_split {separator : Char} {cs piece : List Char} (h : piece ∈ split separator cs) :
    piece ⊆ cs ∧ separator ∉ piece := by
  induction cs generalizing piece with
  | nil =>
    rw [split, List.mem_singleton] at h
    subst h
    exact ⟨List.Subset.refl _, List.not_mem_nil⟩
  | cons c cs ih =>
    rw [split] at h
    split at h
    · rcases List.mem_cons.1 h with rfl | h
      · exact ⟨List.nil_subset _, List.not_mem_nil⟩
      · exact ⟨List.subset_cons_of_subset c (ih h).1, (ih h).2⟩
    · next other =>
      obtain ⟨first, rest, pieces⟩ := List.exists_cons_of_ne_nil (split_ne_nil separator cs)
      rw [pieces, consFirst] at h
      rw [pieces] at ih
      rcases List.mem_cons.1 h with rfl | h
      · -- the character stands in front of the first piece of the rest
        obtain ⟨from_rest, free⟩ := ih List.mem_cons_self
        refine ⟨List.cons_subset_cons c from_rest, ?_⟩
        rw [List.mem_cons, not_or]
        exact ⟨Ne.symm other, free⟩
      · obtain ⟨from_rest, free⟩ := ih (List.mem_cons_of_mem _ h)
        exact ⟨List.subset_cons_of_subset c from_rest, free⟩

/-- Joined pieces that are ended by one more separator are each ended by a separator. -/
lemma join_append (separator : Char) {pieces : List (List Char)} (some_piece : pieces ≠ []) :
    join separator pieces ++ [separator] = pieces.flatMap (· ++ [separator]) := by
  induction pieces with
  | nil => exact absurd rfl some_piece
  | cons piece pieces ih =>
    cases pieces with
    | nil => simp [join]
    | cons next pieces => simpa [join] using ih (List.cons_ne_nil _ _)

/-- Pieces in front of others are each ended by a separator. -/
lemma join_append_of_ne_nil (separator : Char) (pieces : List (List Char))
    {rest : List (List Char)} (some_piece : rest ≠ []) :
    join separator (pieces ++ rest)
      = pieces.flatMap (· ++ [separator]) ++ join separator rest := by
  induction pieces with
  | nil => rfl
  | cons piece pieces ih =>
    obtain ⟨next, others, same⟩ : ∃ next others, pieces ++ rest = next :: others :=
      List.exists_cons_of_ne_nil (by simp [some_piece])
    rw [List.cons_append, same, join, ← same, ih]
    simp

/-- Pieces without the separator are cut apart again where they were joined. -/
lemma split_join {separator : Char} {pieces : List (List Char)} (some_piece : pieces ≠ [])
    (clean : ∀ piece ∈ pieces, separator ∉ piece) :
    split separator (join separator pieces) = pieces := by
  obtain ⟨first, last, rfl⟩ := (List.eq_nil_or_concat' pieces).resolve_left some_piece
  rw [List.forall_mem_append, List.forall_mem_singleton] at clean
  have last_alone : join separator [last] = last := rfl
  rw [join_append_of_ne_nil separator first (List.cons_ne_nil _ _), last_alone,
    split_flatMap_append clean.1, split_of_notMem clean.2]

/-! ## Trimmed texts -/

/-- Only the end of a text is trimmed, unless there is nothing else than white space in it. -/
lemma trimEnd_append (lead cs : List Char) :
    trimEnd (lead ++ cs) = if trimEnd cs = [] then trimEnd lead else lead ++ trimEnd cs := by
  by_cases nothing : trimEnd cs = []
  · rw [if_pos nothing]
    induction lead with
    | nil => exact nothing
    | cons c lead ih => rw [List.cons_append, trimEnd, ih, trimEnd]
  · rw [if_neg nothing]
    induction lead with
    | nil => rfl
    | cons c lead ih =>
      rw [List.cons_append, trimEnd, ih]
      split
      · next gone => exact absurd (List.append_eq_nil_iff.1 gone).2 nothing
      · rfl

/-- A trimmed text does not end with white space. -/
lemma not_whitespace_of_getLast?_trimEnd {cs : List Char} {c : Char}
    (h : (trimEnd cs).getLast? = some c) : isWhitespace c = false := by
  induction cs with
  | nil => simp [trimEnd] at h
  | cons d cs ih =>
    rw [trimEnd] at h
    split at h
    · split at h
      · cases h
      · next visible =>
        cases h
        simpa using visible
    · next kept =>
      apply ih
      rwa [List.getLast?_cons_of_ne_nil kept] at h

/-- A trimmed text is the beginning of the text. -/
lemma trimEnd_prefix (cs : List Char) : trimEnd cs <+: cs := by
  induction cs with
  | nil => exact List.prefix_rfl
  | cons c cs ih =>
    rw [trimEnd]
    split
    · split
      · exact List.nil_prefix
      · simp
    · exact (List.prefix_cons_inj c).2 ih

/-- What is trimmed off is white space. -/
lemma exists_blank (cs : List Char) :
    ∃ blank, cs = trimEnd cs ++ blank ∧ ∀ c ∈ blank, isWhitespace c := by
  induction cs with
  | nil => exact ⟨[], rfl, by simp⟩
  | cons c cs ih =>
    obtain ⟨blank, cut, white⟩ := ih
    rw [trimEnd]
    split
    · next gone =>
      rw [gone, List.nil_append] at cut
      split
      · next white_first =>
        refine ⟨c :: blank, congrArg (c :: ·) cut, ?_⟩
        rw [List.forall_mem_cons]
        exact ⟨white_first, white⟩
      · exact ⟨blank, congrArg (c :: ·) cut, white⟩
    · exact ⟨blank, congrArg (c :: ·) cut, white⟩

lemma trimEnd_eq_nil_of_blank {blank : List Char} (white : ∀ c ∈ blank, isWhitespace c) :
    trimEnd blank = [] := by
  induction blank with
  | nil => rfl
  | cons c blank ih =>
    rw [List.forall_mem_cons] at white
    rw [trimEnd, ih white.2]
    exact if_pos white.1

/-- White space at the end makes no difference. -/
lemma trimEnd_append_blank (kept : List Char) {blank : List Char}
    (white : ∀ c ∈ blank, isWhitespace c) : trimEnd (kept ++ blank) = trimEnd kept := by
  rw [trimEnd_append, if_pos (trimEnd_eq_nil_of_blank white)]

/-- What is left of a text if it has no white space at its end any more and nothing else is
missing. -/
structure IsTrimmed (kept cs : List Char) : Prop where
  missing : ∃ blank, cs = kept ++ blank ∧ ∀ c ∈ blank, isWhitespace c
  visible : ∀ c, kept.getLast? = some c → isWhitespace c = false

/-- Trimming gives what is left of a text without the white space at its end, and only that is. -/
theorem isTrimmed_iff {kept cs : List Char} : IsTrimmed kept cs ↔ trimEnd cs = kept := by
  constructor
  · rintro ⟨⟨blank, rfl, white⟩, visible⟩
    rw [trimEnd_append_blank kept white]
    rcases List.eq_nil_or_concat' kept with rfl | ⟨first, last, rfl⟩
    · rfl
    · have stays : trimEnd [last] = [last] := by
        have shown := visible last (by simp)
        simp [trimEnd, shown]
      rw [trimEnd_append, stays, if_neg (List.cons_ne_nil _ _)]
  · rintro rfl
    exact ⟨exists_blank cs, fun c => not_whitespace_of_getLast?_trimEnd⟩

/-- Two texts are the same but for white space at their ends. -/
def SameButForEnd (cs ds : List Char) : Prop :=
  ∃ kept blank blank', cs = kept ++ blank ∧ ds = kept ++ blank' ∧
    (∀ c ∈ blank, isWhitespace c) ∧ ∀ c ∈ blank', isWhitespace c

/-- Two texts are trimmed alike exactly if they are the same but for white space at their ends. -/
theorem trimEnd_eq_trimEnd_iff {cs ds : List Char} :
    trimEnd cs = trimEnd ds ↔ SameButForEnd cs ds := by
  constructor
  · intro same
    obtain ⟨blank, cut, white⟩ := exists_blank cs
    obtain ⟨blank', cut', white'⟩ := exists_blank ds
    exact ⟨trimEnd cs, blank, blank', cut, by rwa [same], white, white'⟩
  · rintro ⟨kept, blank, blank', rfl, rfl, white, white'⟩
    rw [trimEnd_append_blank kept white, trimEnd_append_blank kept white']

end Text

end WorkflowFile
