import WorkflowFile.Proofs.Rendering
import WorkflowFile.Proofs.Text

/-!
# The preamble is comment

A reader of YAML ends a line at LF, at CR and at the two together, but a comment is made line by
line between LFs only.

* `Yaml.readLines` are the lines that a reader sees, and `Yaml.isRemark` tells those without
  content.
* `Preamble.Contained` says what a text must be like so that no part of it gets out of its comment.
* `Preamble.readLines_compose`: in front of anything, a preamble is read as the lines of its
  comments.
* `Preamble.outside` are the texts in a preamble that are not fixed; the rest is contained
  (`Preamble.contained_provenance_iff`).
* `Preamble.isRemark_compose_iff`: the lines of a preamble are remarks exactly if these texts are
  contained, as they are if they have no CR (`Preamble.isRemark_compose_of_noReturn`).
-/

namespace WorkflowFile

/-! ## Lines of a YAML text -/

namespace Yaml

open Text (split consFirst)

/-- The lines of a text as a reader delimits them: LF, CR and the two together end a line. -/
def readLines : List Char → List (List Char)
  | [] => [[]]
  | '\r' :: '\n' :: cs => [] :: readLines cs
  | c :: cs => if c = '\n' ∨ c = '\r' then [] :: readLines cs else consFirst c (readLines cs)

/-- Whether a line is blank or starts with a hash, so that it holds no content. -/
def isRemark (line : List Char) : Bool :=
  line.head? == some '#' || line.all fun c => c == ' ' || c == '\t'

lemma readLines_return {cs : List Char} (single : cs.head? ≠ some '\n') :
    readLines ('\r' :: cs) = [] :: readLines cs := by
  cases cs with
  | nil => rfl
  | cons d ds =>
    have other : d ≠ '\n' := fun same => single (congrArg some same)
    simp [readLines, other]

lemma readLines_char {c : Char} (no_newline : c ≠ '\n') (no_return : c ≠ '\r')
    (cs : List Char) : readLines (c :: cs) = consFirst c (readLines cs) := by
  simp [readLines, no_newline, no_return]

/-- A line that LF ends is cut at the CRs in it. One right in front of the LF would belong to
it. -/
lemma readLines_line {line : List Char} (one_line : '\n' ∉ line)
    (no_return : line.getLast? ≠ some '\r') (rest : List Char) :
    readLines (line ++ '\n' :: rest) = split '\r' line ++ readLines rest := by
  induction line with
  | nil => rfl
  | cons c cs ih =>
    rw [List.mem_cons, not_or] at one_line
    have last : cs.getLast? ≠ some '\r' := by
      intro last
      cases cs with
      | nil => cases last
      | cons d ds => exact no_return (by simpa using last)
    have ih := ih one_line.2 last
    by_cases cut : c = '\r'
    · subst cut
      have single : (cs ++ '\n' :: rest).head? ≠ some '\n' := by
        cases cs with
        | nil => exact absurd rfl no_return
        | cons d ds => exact fun same => one_line.2 (Option.some.inj same ▸ List.mem_cons_self)
      rw [List.cons_append, readLines_return single, ih, split, if_pos rfl, List.cons_append]
    · obtain ⟨first, pieces, cut_eq⟩ := List.exists_cons_of_ne_nil (Text.split_ne_nil '\r' cs)
      rw [List.cons_append, readLines_char (Ne.symm one_line.1) cut, ih, split, if_neg cut, cut_eq]
      rfl

/-- Lines that are each ended by LF are read one after the other. -/
lemma readLines_flatMap {lines : List (List Char)} (one_line : ∀ line ∈ lines, '\n' ∉ line)
    (no_return : ∀ line ∈ lines, line.getLast? ≠ some '\r') (rest : List Char) :
    readLines (lines.flatMap (· ++ ['\n']) ++ rest)
      = lines.flatMap (split '\r') ++ readLines rest := by
  induction lines with
  | nil => rfl
  | cons line lines ih =>
    rw [List.forall_mem_cons] at one_line no_return
    rw [List.flatMap_cons, List.append_assoc, List.append_assoc, List.singleton_append,
      readLines_line one_line.1 no_return.1, ih one_line.2 no_return.2, List.flatMap_cons,
      List.append_assoc]

end Yaml

namespace Preamble

open Text (split trimEnd)
open Yaml (readLines isRemark)

variable {text : String} {p : Preamble} {locator : Option String}

/-! ## One comment -/

/-- A text stays inside its comment: what stands behind a CR in one of its lines would start a line
of its own, so it has to be blank or a comment itself. White space at the end of a line does not
count. -/
def Contained (text : String) : Prop :=
  ∀ line ∈ split '\n' text.toList, ∀ rest ∈ (split '\r' (trimEnd line)).tail, isRemark rest

instance (text : String) : Decidable (Contained text) :=
  inferInstanceAs (Decidable (∀ line ∈ split '\n' text.toList,
    ∀ rest ∈ (split '\r' (trimEnd line)).tail, isRemark rest))

/-- The lines of the comment for a text, as a reader delimits them. -/
def commentLines (text : String) : List (List Char) :=
  if text.isEmpty then []
  else ((split '\n' text.toList).map commentLine).flatMap (split '\r') ++ [[]]

/-- What stands behind the first CR of a line does not depend on what is put in front of it. -/
lemma tail_split_trimEnd_append {lead : List Char} (h : '\r' ∉ lead) (line : List Char) :
    (split '\r' (trimEnd (lead ++ line))).tail = (split '\r' (trimEnd line)).tail := by
  rw [Text.trimEnd_append]
  split
  · next nothing_left =>
    have free : '\r' ∉ trimEnd lead := fun inside => h ((Text.trimEnd_prefix lead).subset inside)
    rw [Text.split_of_notMem free, nothing_left]
    rfl
  · obtain ⟨first, rest, pieces, joined⟩ := Text.split_append_of_notMem h (trimEnd line)
    rw [joined, pieces]
    rfl

/-- The comment for a line starts with a hash. -/
lemma commentLine_eq_cons (line : List Char) :
    commentLine line = '#' :: (commentLine line).tail := by
  have visible : trimEnd ['#'] = ['#'] := by decide
  rw [commentLine, ← List.singleton_append, Text.trimEnd_append, visible]
  split <;> rfl

/-- Behind its first CR, the comment for a line goes on like the line. -/
lemma split_commentLine (line : List Char) :
    ∃ first, split '\r' (commentLine line)
      = ('#' :: first) :: (split '\r' (trimEnd line)).tail := by
  have rest := tail_split_trimEnd_append (show '\r' ∉ ['#', ' '] by decide) line
  obtain ⟨first, more, -, pieces⟩ :=
    Text.split_append_of_notMem (show '\r' ∉ ['#'] by decide) (commentLine line).tail
  rw [List.singleton_append, ← commentLine_eq_cons] at pieces
  refine ⟨first, ?_⟩
  rw [← rest]
  show split '\r' (commentLine line) = ('#' :: first) :: (split '\r' (commentLine line)).tail
  rw [pieces]
  rfl

/-- The lines of a comment are remarks exactly if the text stays inside it. -/
lemma isRemark_commentLines_iff (text : String) :
    (∀ line ∈ commentLines text, isRemark line) ↔ Contained text := by
  unfold commentLines Contained
  by_cases empty : text.isEmpty
  · rw [if_pos empty, String.isEmpty_iff.1 empty]
    decide
  · rw [if_neg empty]
    simp only [List.mem_append, List.mem_flatMap, List.mem_map, List.mem_singleton]
    constructor
    · intro remarks line hline rest hrest
      obtain ⟨first, pieces⟩ := split_commentLine line
      exact remarks rest (.inl ⟨_, ⟨line, hline, rfl⟩, pieces ▸ List.mem_cons_of_mem _ hrest⟩)
    · rintro contained piece (⟨_, ⟨line, hline, rfl⟩, hpiece⟩ | rfl)
      · obtain ⟨first, pieces⟩ := split_commentLine line
        rw [pieces] at hpiece
        rcases List.mem_cons.1 hpiece with rfl | hpiece
        · rfl
        · exact contained line hline piece hpiece
      · rfl

lemma newline_notMem_commentLine {line : List Char} (h : '\n' ∉ line) :
    '\n' ∉ commentLine line := by
  intro inside
  have := (Text.trimEnd_prefix _).subset inside
  simp [h] at this

lemma getLast?_commentLine_ne (line : List Char) : (commentLine line).getLast? ≠ some '\r' :=
  fun last => absurd (Text.not_whitespace_of_getLast?_trimEnd last) (by decide)

/-- The lines that make up the comment for a text, each of them ended by LF. -/
def blockLines (text : String) : List (List Char) :=
  if text.isEmpty then [] else (split '\n' text.toList).map commentLine ++ [[]]

lemma toList_comment (text : String) :
    (comment text).toList = (blockLines text).flatMap (· ++ ['\n']) := by
  unfold comment blockLines
  split
  · rfl
  · have lines_ne : (split '\n' text.toList).map commentLine ≠ [] := by
      simp [Text.split_ne_nil]
    rw [String.toList_ofList, List.flatMap_append, ← Text.join_append '\n' lines_ne,
      List.append_assoc]
    rfl

/-- A line of a comment is empty, or it is the comment for a line of the text. -/
lemma of_mem_blockLines {text : String} {line : List Char} (h : line ∈ blockLines text) :
    line = [] ∨ ∃ of ∈ split '\n' text.toList, line = commentLine of := by
  unfold blockLines at h
  split at h
  · cases h
  · rcases List.mem_append.1 h with h | h
    · obtain ⟨of, listed, rfl⟩ := List.mem_map.1 h
      exact .inr ⟨of, listed, rfl⟩
    · exact .inl (List.mem_singleton.1 h)

lemma newline_notMem_of_mem_blockLines {text : String} {line : List Char}
    (h : line ∈ blockLines text) : '\n' ∉ line := by
  rcases of_mem_blockLines h with rfl | ⟨of, listed, rfl⟩
  · exact List.not_mem_nil
  · exact newline_notMem_commentLine (Text.of_mem_split listed).2

/-- In front of any text, a comment is read as its own lines. -/
lemma readLines_comment (text : String) (rest : List Char) :
    readLines ((comment text).toList ++ rest) = commentLines text ++ readLines rest := by
  have lines_eq : commentLines text = (blockLines text).flatMap (split '\r') := by
    unfold commentLines blockLines
    split
    · rfl
    · rw [List.flatMap_append]
      rfl
  rw [toList_comment, lines_eq, Yaml.readLines_flatMap]
  · exact fun line => newline_notMem_of_mem_blockLines
  · intro line h
    rcases of_mem_blockLines h with rfl | ⟨of, -, rfl⟩
    · exact nofun
    · exact getLast?_commentLine_ne of

/-! ## All comments -/

/-- The texts that a preamble shows as comments, in their order. -/
def texts (p : Preamble) (locator : Option String) : List String :=
  match p with
  | generated => [provenance locator]
  | replace text => if text.isEmpty then [provenance locator] else [text]
  | before text => [text, provenance locator]
  | after text => [provenance locator, text]

lemma toList_compose (p : Preamble) (locator : Option String) :
    (p.compose locator).toList = (p.texts locator).flatMap fun text => (comment text).toList := by
  cases p with
  | generated => simp [compose, texts]
  | replace text =>
    simp only [compose, texts]
    split <;> simp
  | before text => simp [compose, texts]
  | after text => simp [compose, texts]

/-- In front of any text, a preamble is read as the lines of its comments. -/
theorem readLines_compose (p : Preamble) (locator : Option String) (rest : List Char) :
    readLines ((p.compose locator).toList ++ rest)
      = (p.texts locator).flatMap commentLines ++ readLines rest := by
  rw [toList_compose]
  induction p.texts locator with
  | nil => rfl
  | cons text texts ih =>
    rw [List.flatMap_cons, List.append_assoc, readLines_comment, ih, List.flatMap_cons,
      List.append_assoc]

/-- The lines of comments are remarks exactly if all of the texts are contained. -/
lemma isRemark_flatMap_commentLines_iff (texts : List String) :
    (∀ line ∈ texts.flatMap commentLines, isRemark line) ↔ ∀ text ∈ texts, Contained text := by
  simp only [← isRemark_commentLines_iff, List.mem_flatMap]
  constructor
  · intro remarks text htext line hline
    exact remarks line ⟨text, htext, hline⟩
  · rintro contained line ⟨text, htext, hline⟩
    exact contained text htext line hline

/-- A line without CR has nothing behind one. -/
lemma tail_split_trimEnd_of_noReturn {line : List Char} (h : '\r' ∉ line) :
    (split '\r' (trimEnd line)).tail = [] := by
  have free : '\r' ∉ trimEnd line := fun inside => h ((Text.trimEnd_prefix line).subset inside)
  rw [Text.split_of_notMem free]
  rfl

/-- A text without CR is contained. -/
lemma contained_of_noReturn (h : '\r' ∉ text.toList) : Contained text := by
  intro line hline rest hrest
  rw [tail_split_trimEnd_of_noReturn fun inside => h ((Text.of_mem_split hline).1 inside)] at hrest
  cases hrest

/-! ## What comes from outside -/

/-- What stands in the provenance in front of the locator. -/
def opening : String := "This file was generated using a typed workflow definition ("

/-- What stands in the provenance on the lines behind the locator. -/
def closing : String :=
  "If you want to modify the workflow, please change the definition and regenerate this " ++
    "YAML file.\nGenerated with actionsmith"

lemma toList_provenance (l : String) :
    (provenance (some l)).toList
      = opening.toList ++ (l ++ ").").toList ++ '\n' :: closing.toList := by
  have line_end : (").\n" : String) = ")." ++ "\n" := rfl
  unfold provenance opening closing
  simp only [line_end, String.toList_append, List.append_assoc]
  rfl

/-- The provenance is contained exactly if the locator is, with the characters that follow on its
line. -/
theorem contained_provenance_iff (l : String) :
    Contained (provenance (some l)) ↔ Contained (l ++ ").") := by
  have one_line : '\n' ∉ opening.toList := by decide +kernel
  have no_return : '\r' ∉ opening.toList := by decide +kernel
  have no_return' : '\r' ∉ closing.toList := by decide +kernel
  obtain ⟨first, more, pieces, joined⟩ :=
    Text.split_append_of_notMem one_line (l ++ ").").toList
  unfold Contained
  rw [toList_provenance, Text.split_append_cons, joined, pieces]
  simp only [List.forall_mem_append, List.forall_mem_cons, tail_split_trimEnd_append no_return]
  refine and_iff_left fun line hline rest hrest => ?_
  rw [tail_split_trimEnd_of_noReturn
    fun inside => no_return' ((Text.of_mem_split hline).1 inside)] at hrest
  cases hrest

lemma contained_provenance_none : Contained (provenance none) := by
  apply contained_of_noReturn
  unfold provenance
  simp only [String.toList_append, List.mem_append, not_or]
  refine ⟨⟨?_, ?_⟩, ?_⟩ <;> decide +kernel

/-- The texts in a preamble that come from outside: the free text, and the locator with the
characters that follow on its line. -/
def outside (p : Preamble) (locator : Option String) : List String :=
  let named := (locator.map (· ++ ").")).toList
  match p with
  | generated => named
  | replace text => if text.isEmpty then named else [text]
  | before text => text :: named
  | after text => named ++ [text]

/-- The texts that a preamble shows are contained exactly if those from outside are. -/
lemma contained_texts_iff (p : Preamble) (locator : Option String) :
    (∀ text ∈ p.texts locator, Contained text) ↔ ∀ text ∈ p.outside locator, Contained text := by
  have named : Contained (provenance locator) ↔
      ∀ text ∈ (locator.map (· ++ ").")).toList, Contained text := by
    cases locator with
    | none => simp [contained_provenance_none]
    | some l => simp [contained_provenance_iff]
  cases p with
  | generated => simpa [texts, outside] using named
  | replace text =>
    simp only [texts, outside]
    split
    · simpa using named
    · rfl
  | before text => simpa [texts, outside] using fun _ => named
  | after text => simpa [texts, outside, or_imp, forall_and] using fun _ => named

/-! ## The whole preamble -/

/-- The lines of a preamble are remarks exactly if all texts from outside are contained. -/
lemma isRemark_readLines_compose_iff (p : Preamble) (locator : Option String) :
    (∀ line ∈ readLines (p.compose locator).toList, isRemark line) ↔
      ∀ text ∈ p.outside locator, Contained text := by
  have read := readLines_compose p locator []
  rw [List.append_nil] at read
  rw [read, ← contained_texts_iff, ← isRemark_flatMap_commentLines_iff]
  -- behind the last comment, the reader sees one more line, which is empty
  simp [readLines, isRemark, or_imp, forall_and]

/-- A preamble is comment if no text from outside has a CR. -/
theorem isRemark_compose_of_noReturn (h : ∀ text ∈ p.outside locator, '\r' ∉ text.toList) :
    ∀ line ∈ readLines (p.compose locator).toList, isRemark line := by
  rw [isRemark_readLines_compose_iff]
  intro text htext
  exact contained_of_noReturn (h text htext)

/-! ## Generated files -/

/-- **What a preamble lets out of its comments.** Its lines, and so the lines in front of the
document of a generated file, are remarks exactly if all texts from outside are contained. -/
theorem isRemark_compose_iff (p : Preamble) (locator : Option String) :
    ((∀ line ∈ readLines (p.compose locator).toList, isRemark line) ↔
      ∀ text ∈ p.outside locator, Contained text) ∧
    ∀ (session : Session) (o : Options) (w : Workflow) (r : Rendering), o.preamble = p →
      r.Emitted session o w →
      ∃ head, readLines r.text.toList = head ++ readLines r.document.yaml.toList ∧
        ((∀ line ∈ head, isRemark line) ↔
          ∀ text ∈ p.outside (Rendering.locator? session.cwd (o.rootFor session w) w),
            Contained text) := by
  refine ⟨isRemark_readLines_compose_iff p locator, fun session o w r chosen emitted => ?_⟩
  obtain ⟨comparison, assembled⟩ := emitted.assembled
  obtain ⟨-, preamble_eq, -⟩ := Rendering.assemble_eq_ok assembled
  refine ⟨_, ?_, (isRemark_flatMap_commentLines_iff _).trans (contained_texts_iff ..)⟩
  rw [Rendering.text, String.toList_append, preamble_eq, chosen, readLines_compose]

/-- A workflow that is triggered and does nothing. -/
def idle : Workflow := { triggers := [.push {}] }

/-- A free text whose lines end with CR LF, or go on with a hash behind a CR, is contained. -/
theorem notice_contained :
    let o : Options := { preamble := .before "Owned by ops\r\nAsk first\r# or not" }
    ∃ r : Rendering, r.Emitted {} o idle ∧
      ∃ head, readLines r.text.toList = head ++ readLines r.document.yaml.toList ∧
        ∀ line ∈ head, isRemark line := by
  intro o
  obtain ⟨text, rendered⟩ : ∃ text, render {} o idle = .ok text := ⟨_, rfl⟩
  obtain ⟨r, emitted, -⟩ := Rendering.emitted_of_render rendered
  obtain ⟨head, read, remarks⟩ := (isRemark_compose_iff o.preamble none).2 {} o idle r rfl emitted
  exact ⟨r, emitted, head, read, remarks.2 (by decide)⟩

/-- A free text goes on as content behind a CR, and so does a locator. -/
theorem notice_gets_out :
    let notice := "Owned by ops\rname: nightly"
    render {} { preamble := .replace notice } idle
        = .ok "# Owned by ops\rname: nightly\n\non:\n  push: {}\njobs: {}\n" ∧
      (¬ ∀ line ∈ readLines ((replace notice).compose none).toList, isRemark line) ∧
      ¬ ∀ line ∈ readLines (generated.compose (some "ci\rname: nightly")).toList,
          isRemark line := by
  refine ⟨by decide +kernel, by decide, fun remarks => ?_⟩
  rw [isRemark_readLines_compose_iff] at remarks
  exact absurd remarks (by decide)

end Preamble

end WorkflowFile
