import WorkflowFile.Proofs.Preamble

/-!
# A comment keeps its text

A comment has a line for every line of its text. Only white space at the ends of the lines is lost,
so the text can be read back up to that.

* `Preamble.said?` reads a line of a comment, and `Preamble.said?_commentLine` is the way back.
* `Preamble.Comments` says that a block of lines comments a text line by line.
* `Preamble.comment_eq_comment_iff`: comments are the same exactly if the lines of their texts are,
  once they are trimmed.
* `Preamble.comments_of_ne_empty`: all of this for every text.
-/

namespace WorkflowFile

namespace Preamble

open Text (split join trimEnd IsTrimmed SameButForEnd)

variable {text other : String}

/-! ## One line -/

/-- The line of a comment that says the words. -/
def markLine (words : List Char) : List Char :=
  if words = [] then ['#'] else '#' :: ' ' :: words

/-- The words that a line of a comment says, behind a hash and a space. A hash alone says
nothing. -/
def said? : List Char → Option (List Char)
  | ['#'] => some []
  | '#' :: ' ' :: words => some words
  | _ => none

lemma said?_markLine (words : List Char) : said? (markLine words) = some words := by
  unfold markLine
  split
  · next nothing =>
    rw [nothing]
    rfl
  · rfl

/-- The comment for a line says the line without the white space at its end. -/
lemma commentLine_eq_markLine (line : List Char) : commentLine line = markLine (trimEnd line) := by
  have bare : trimEnd ['#', ' '] = ['#'] := by decide
  have trimmed := Text.trimEnd_append ['#', ' '] line
  rw [bare] at trimmed
  exact trimmed

lemma said?_commentLine (line : List Char) : said? (commentLine line) = some (trimEnd line) := by
  rw [commentLine_eq_markLine, said?_markLine]

/-! ## All lines -/

/-- The lines of a text between its LFs. -/
def lines (text : String) : List (List Char) := split '\n' text.toList

/-- A block of lines comments a text: there is a line for every line of the text, which starts with
a hash and says the same, without the white space at its end. -/
structure Comments (body text : String) : Prop where
  count : (lines body).length = (lines text).length
  marked : ∀ line ∈ lines body, line.head? = some '#'
  faithful : List.Forall₂ (fun line original => ∃ words, said? line = some words ∧
    IsTrimmed words original) (lines body) (lines text)

/-- The comment lines for a text, without what ends them. -/
def body (text : String) : String := String.ofList (join '\n' ((lines text).map commentLine))

lemma comment_eq_body (some_text : text ≠ "") : comment text = body text ++ "\n\n" := by
  have filled : ¬ text.isEmpty := fun empty => some_text (String.isEmpty_iff.1 empty)
  rw [comment, if_neg filled, String.ofList_append]
  rfl

lemma lines_body (text : String) : lines (body text) = (lines text).map commentLine := by
  rw [lines, body, String.toList_ofList, Text.split_join]
  · simp [lines, Text.split_ne_nil]
  · intro line listed
    obtain ⟨original, original_listed, rfl⟩ := List.mem_map.1 listed
    exact newline_notMem_commentLine (Text.of_mem_split original_listed).2

lemma comments_body (text : String) : Comments (body text) text where
  count := by rw [lines_body, List.length_map]
  marked := by
    rw [lines_body, List.forall_mem_map]
    intro line _
    rw [commentLine_eq_cons]
    rfl
  faithful := by
    rw [lines_body, List.forall₂_map_left_iff, List.forall₂_same]
    exact fun line _ => ⟨trimEnd line, said?_commentLine line, Text.isTrimmed_iff.2 rfl⟩

/-- The trimmed lines of a text are all that its comment shows, and it shows all of them. -/
theorem comment_eq_comment_iff (some_text : text ≠ "") (some_other : other ≠ "") :
    comment text = comment other ↔ (lines text).map trimEnd = (lines other).map trimEnd := by
  -- a reader gets the trimmed lines back, and they are all that is written
  have read_back (t : String) :
      (lines (body t)).map said? = ((lines t).map trimEnd).map some := by
    rw [lines_body, List.map_map, List.map_map]
    exact List.map_congr_left fun line _ => said?_commentLine line
  have written (t : String) :
      body t = String.ofList (join '\n' (((lines t).map trimEnd).map markLine)) := by
    rw [body, List.map_map]
    congr 2
    exact List.map_congr_left fun line _ => commentLine_eq_markLine line
  rw [comment_eq_body some_text, comment_eq_body some_other]
  constructor
  · intro same
    have same_body : body text = body other := by
      rw [← String.toList_inj, String.toList_append, String.toList_append] at same
      exact String.toList_inj.1 (List.append_cancel_right same)
    have same_read := congrArg (fun b => (lines b).map said?) same_body
    simp only [read_back] at same_read
    exact List.map_injective_iff.2 (fun _ _ => Option.some.inj) same_read
  · intro same
    rw [written text, written other, same]

/-- Lines that are the same once they are trimmed are the same but for white space at their ends,
one by one. -/
lemma map_trimEnd_eq_iff {as bs : List (List Char)} :
    as.map trimEnd = bs.map trimEnd ↔ List.Forall₂ SameButForEnd as bs := by
  have pointwise : as.map trimEnd = bs.map trimEnd ↔
      List.Forall₂ (fun a b => trimEnd a = trimEnd b) as bs := by
    rw [← List.forall₂_map_right_iff, ← List.forall₂_map_left_iff, List.forall₂_eq_eq_eq]
  rw [pointwise]
  simp only [Text.trimEnd_eq_trimEnd_iff]

lemma comment_eq_empty_iff : comment text = "" ↔ text = "" := by
  constructor
  · intro nothing
    by_contra some_text
    rw [comment_eq_body some_text, ← String.toList_inj, String.toList_append] at nothing
    simp at nothing
  · rintro rfl
    rfl

/-- **A comment keeps its text.** The comment for a text is a block that comments it line by line,
ended by LF, and an empty line. Two comments are the same exactly if the lines of the texts are, but
for white space at their ends. Only no text has no comment. -/
theorem comments_of_ne_empty :
    (∀ text : String, text ≠ "" → ∃ body, comment text = body ++ "\n\n" ∧ Comments body text) ∧
    (∀ text other : String, text ≠ "" → other ≠ "" →
      (comment text = comment other ↔ List.Forall₂ SameButForEnd (lines text) (lines other))) ∧
    ∀ text : String, comment text = "" ↔ text = "" := by
  refine ⟨fun text some_text => ⟨body text, comment_eq_body some_text, comments_body text⟩,
    fun text other some_text some_other => ?_, fun text => comment_eq_empty_iff⟩
  rw [comment_eq_comment_iff some_text some_other, map_trimEnd_eq_iff]

/-- Lines that are empty, consist of white space, start with spaces or a hash or end with an
ideographic space: the two texts have the same comment, so they have the same lines. -/
theorem memo_comments :
    let memo := "  Owned by ops\u3000\n\n# not by us \n \t"
    let copy := "  Owned by ops\n \n# not by us\n"
    memo ≠ "" ∧ copy ≠ "" ∧
      (∃ body, comment memo = body ++ "\n\n" ∧ Comments body memo) ∧
      comment memo = "#   Owned by ops\n#\n# # not by us\n#\n\n" ∧
      comment memo = comment copy ∧ List.Forall₂ SameButForEnd (lines memo) (lines copy) := by
  intro memo copy
  have some_memo : memo ≠ "" := by decide
  have some_copy : copy ≠ "" := by decide
  have same : comment memo = comment copy := by decide +kernel
  obtain ⟨commented, alike, -⟩ := comments_of_ne_empty
  exact ⟨some_memo, some_copy, commented memo some_memo, by decide +kernel, same,
    (alike memo copy some_memo some_copy).1 same⟩

end Preamble

end WorkflowFile
