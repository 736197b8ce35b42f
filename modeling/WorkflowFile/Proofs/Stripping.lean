import WorkflowFile.Proofs.Precedence
import WorkflowFile.Proofs.Preamble

/-!
# A preamble can be stripped off

The lines of a preamble are empty or start with a hash, and the first line of a document does
neither. So the seam between them is where the first other line of a generated file begins.

* `Preamble.Block` are the texts that consist of such lines, each of them ended by LF, and
  `Preamble.Heads` is the longest one at the beginning of a text.
* `Preamble.strip` cuts it off (`Preamble.exists_heads`).
* `Preamble.block_compose`: a preamble is such a block. `Workflow.strip_document`: nothing is cut
  off a document.
* `Preamble.strip_of_render`: what is left of a generated file is its document.
-/

namespace WorkflowFile

namespace Preamble

open Text (split join)

/-! ## Blocks of comment lines -/

/-- Whether a line is empty or starts with a hash. -/
def isComment (line : List Char) : Bool := line.isEmpty || line.head? == some '#'

/-- A text of lines that are empty or start with a hash, each of them ended by LF. -/
def Block (text : String) : Prop :=
  ∃ lines : List (List Char), (∀ line ∈ lines, '\n' ∉ line ∧ isComment line) ∧
    text.toList = lines.flatMap (· ++ ['\n'])

/-- The longest block at the beginning of a text. -/
structure Heads (head text : String) : Prop where
  block : Block head
  begins : head.toList <+: text.toList
  longest : ∀ other, Block other → other.toList <+: text.toList → other.toList <+: head.toList

/-- Lines without those in front that are empty or start with a hash. The last line is not ended, so
it stays. -/
def dropComments : List (List Char) → List (List Char)
  | [] => []
  | [line] => [line]
  | line :: next :: lines =>
    if isComment line then dropComments (next :: lines) else line :: next :: lines

/-- A text without the longest block at its beginning. -/
def strip (text : String) : String :=
  String.ofList (join '\n' (dropComments (split '\n' text.toList)))

lemma Block.append {a b : String} (ha : Block a) (hb : Block b) : Block (a ++ b) := by
  obtain ⟨as, comments, a_eq⟩ := ha
  obtain ⟨bs, comments', b_eq⟩ := hb
  refine ⟨as ++ bs, ?_, by rw [String.toList_append, a_eq, b_eq, List.flatMap_append]⟩
  rw [List.forall_mem_append]
  exact ⟨comments, comments'⟩

/-! ## Stripping -/

lemma dropComments_append {lines rest : List (List Char)}
    (comments : ∀ line ∈ lines, isComment line)
    (some_line : rest ≠ []) : dropComments (lines ++ rest) = dropComments rest := by
  induction lines with
  | nil => rfl
  | cons line lines ih =>
    rw [List.forall_mem_cons] at comments
    obtain ⟨next, others, same⟩ : ∃ next others, lines ++ rest = next :: others :=
      List.exists_cons_of_ne_nil (by simp [some_line])
    rw [List.cons_append, same, dropComments, if_pos comments.1, ← same, ih comments.2]

/-- Lines are comments up to where the dropping stops, which is in front of a line that is none, or
in front of the last line. -/
lemma exists_of_dropComments (lines : List (List Char)) :
    ∃ dropped, lines = dropped ++ dropComments lines ∧ (∀ line ∈ dropped, isComment line) ∧
      ∀ line next others, dropComments lines = line :: next :: others → isComment line = false := by
  induction lines using dropComments.induct with
  | case1 => exact ⟨[], rfl, by simp, by simp [dropComments]⟩
  | case2 line => exact ⟨[], rfl, by simp, by simp [dropComments]⟩
  | case3 line next lines comment ih =>
    obtain ⟨dropped, split, comments, stops⟩ := ih
    rw [dropComments, if_pos comment]
    refine ⟨line :: dropped, by rw [List.cons_append, ← split], ?_, stops⟩
    rw [List.forall_mem_cons]
    exact ⟨comment, comments⟩
  | case4 line next lines other =>
    rw [dropComments, if_neg other]
    refine ⟨[], rfl, by simp, ?_⟩
    intro _ _ _ same
    rw [← (List.cons.inj same).1]
    simpa using other

lemma dropComments_ne_nil {lines : List (List Char)} (some_line : lines ≠ []) :
    dropComments lines ≠ [] := by
  induction lines using dropComments.induct with
  | case1 => exact absurd rfl some_line
  | case2 line => exact some_line
  | case3 line next lines comment ih =>
    rw [dropComments, if_pos comment]
    exact ih (List.cons_ne_nil next lines)
  | case4 line next lines other =>
    rw [dropComments, if_neg other]
    exact List.cons_ne_nil line _

/-- No run of comments goes on where the dropping stops. -/
lemma prefix_of_append_eq {lines rest dropped left : List (List Char)}
    (comments : ∀ line ∈ lines, isComment line) (some_rest : rest ≠ [])
    (stops : ∀ line next others, left = line :: next :: others → isComment line = false)
    (same : lines ++ rest = dropped ++ left) : lines <+: dropped := by
  rcases List.append_eq_append_iff.1 same with ⟨more, rfl, -⟩ | ⟨more, rfl, left_eq⟩
  · exact List.prefix_append _ _
  · cases more with
    | nil => simp
    | cons line more =>
      obtain ⟨next, others, goes_on⟩ : ∃ next others, more ++ rest = next :: others :=
        List.exists_cons_of_ne_nil (by simp [some_rest])
      rw [List.cons_append, goes_on] at left_eq
      have comment := comments line (by simp)
      cases comment.symm.trans (stops line next others left_eq)

/-- What is stripped off a text is the longest block at its beginning. -/
theorem exists_heads (text : String) : ∃ head, Heads head text ∧ text = head ++ strip text := by
  obtain ⟨dropped, cut, comments, stops⟩ := exists_of_dropComments (split '\n' text.toList)
  have some_left := dropComments_ne_nil (Text.split_ne_nil '\n' text.toList)
  have clean : ∀ line ∈ dropped, '\n' ∉ line := by
    intro line listed
    have piece : line ∈ split '\n' text.toList := by
      rw [cut]
      exact List.mem_append_left _ listed
    exact (Text.of_mem_split piece).2
  have text_eq : text.toList = dropped.flatMap (· ++ ['\n']) ++ (strip text).toList := by
    rw [strip, String.toList_ofList, ← Text.join_append_of_ne_nil '\n' dropped some_left, ← cut,
      Text.join_split]
  refine ⟨String.ofList (dropped.flatMap (· ++ ['\n'])), ⟨?_, ?_, ?_⟩, ?_⟩
  · refine ⟨dropped, fun line listed => ⟨clean line listed, comments line listed⟩, ?_⟩
    rw [String.toList_ofList]
  · rw [String.toList_ofList, text_eq]
    exact List.prefix_append _ _
  · rintro other ⟨lines, lines_comments, other_eq⟩ ⟨rest, begins⟩
    rw [other_eq] at begins
    have recut := Text.split_flatMap_append (fun line listed => (lines_comments line listed).1) rest
    rw [begins, cut] at recut
    obtain ⟨more, rfl⟩ := prefix_of_append_eq (fun line listed => (lines_comments line listed).2)
      (Text.split_ne_nil '\n' rest) stops recut.symm
    rw [String.toList_ofList, other_eq, List.flatMap_append]
    exact List.prefix_append _ _
  · rw [← String.toList_inj, String.toList_append, String.toList_ofList, text_eq]

/-- A block in front of a text makes no difference. -/
lemma strip_append {head : String} (block : Block head) (text : String) :
    strip (head ++ text) = strip text := by
  obtain ⟨lines, comments, head_eq⟩ := block
  rw [strip, String.toList_append, head_eq,
    Text.split_flatMap_append fun line listed => (comments line listed).1,
    dropComments_append (fun line listed => (comments line listed).2) (Text.split_ne_nil _ _)]
  rfl

/-- Nothing is stripped off a text that starts with content. -/
lemma strip_eq_self {text : String} {c : Char} {cs : List Char} (starts : text.toList = c :: cs)
    (no_hash : c ≠ '#') (no_newline : c ≠ '\n') : strip text = text := by
  obtain ⟨first, rest, cut⟩ : ∃ first rest, split '\n' text.toList = (c :: first) :: rest := by
    obtain ⟨first, rest, cut⟩ := List.exists_cons_of_ne_nil (Text.split_ne_nil '\n' cs)
    refine ⟨first, rest, ?_⟩
    rw [starts, Text.split, if_neg no_newline, cut]
    rfl
  have stops : dropComments (split '\n' text.toList) = split '\n' text.toList := by
    have other : ¬ isComment (c :: first) := by simp [isComment, no_hash]
    rw [cut]
    cases rest with
    | nil => rfl
    | cons next rest => rw [dropComments, if_neg other]
  rw [strip, stops, Text.join_split, String.ofList_toList]

/-! ## The preamble -/

lemma block_comment (text : String) : Block (comment text) := by
  refine ⟨blockLines text, fun line listed => ⟨newline_notMem_of_mem_blockLines listed, ?_⟩,
    toList_comment text⟩
  rcases of_mem_blockLines listed with rfl | ⟨of, -, rfl⟩
  · rfl
  · rw [commentLine_eq_cons]
    rfl

/-- A preamble has no other lines than comments, whatever its texts are. -/
theorem block_compose (p : Preamble) (locator : Option String) : Block (p.compose locator) := by
  cases p with
  | generated => exact block_comment _
  | replace text =>
    rw [compose]
    split
    · exact block_comment _
    · exact block_comment _
  | before text => exact (block_comment text).append (block_comment _)
  | after text => exact (block_comment _).append (block_comment text)

end Preamble

/-! ## The document -/

namespace Workflow

/-- The first key of a document is that of the name or that of the triggers. -/
lemma exists_document_eq (w : Workflow) :
    ∃ k v entries, w.document = .mapping ((k, v) :: entries) ∧ (k = "name" ∨ k = "on") := by
  have rule : Node.Precedence w.typedEntries w.extra (some ("jobs", Job.table w.jobs))
      w.document := Node.precedence_insert w.nodup_keys_typedEntries (by simp [typedEntries])
  obtain ⟨entries, document_eq, keys⟩ := rule.keys
  obtain ⟨k, others, set_eq, first⟩ :
      ∃ k others, Node.setKeys w.typedEntries = k :: others ∧ (k = "name" ∨ k = "on") := by
    unfold typedEntries
    cases w.name with
    | none => exact ⟨"on", _, rfl, .inr rfl⟩
    | some text => exact ⟨"name", _, rfl, .inl rfl⟩
  rw [set_eq] at keys
  obtain ⟨⟨_, v⟩, rest, rfl, rfl, -⟩ := List.map_eq_cons_iff.1 keys
  exact ⟨_, v, rest, document_eq, first⟩

/-- Nothing is stripped off a document. -/
theorem strip_document (w : Workflow) : Preamble.strip w.document.yaml = w.document.yaml := by
  obtain ⟨k, v, entries, document_eq, first⟩ := w.exists_document_eq
  have text_eq : w.document.yaml.toList = Yaml.keyText 0 k ++ v.lines (Yaml.valuePlace 0 k)
      ++ Node.entryLines 0 (Yaml.pad 0) entries := by
    rw [document_eq, Node.yaml, String.toList_ofList]
    rfl
  rcases first with rfl | rfl
  · have key : Yaml.keyText 0 "name" = ['n', 'a', 'm', 'e', ':'] := by decide
    rw [key] at text_eq
    exact Preamble.strip_eq_self text_eq (by decide) (by decide)
  · have key : Yaml.keyText 0 "on" = ['o', 'n', ':'] := by decide
    rw [key] at text_eq
    exact Preamble.strip_eq_self text_eq (by decide) (by decide)

end Workflow

namespace Preamble

/-! ## Generated files -/

variable {cwd : Path} {root : Option Path} {comparison : ConsistencyCheck.Comparison} {o : Options}
  {w : Workflow} {r : Rendering}

/-- What is left of an assembled file is its document. -/
lemma strip_of_assemble (assembled : Rendering.assemble cwd root comparison o w = .ok r) :
    strip r.text = r.document.yaml := by
  obtain ⟨-, preamble_eq, v, -, document_eq⟩ := Rendering.assemble_eq_ok assembled
  rw [Rendering.text, preamble_eq, strip_append (block_compose _ _), document_eq, v.strip_document]

/-- The choice of the preamble changes the preamble alone. -/
lemma assemble_preamble (p : Preamble) :
    Rendering.assemble cwd root comparison { o with preamble := p } w
      = (Rendering.assemble cwd root comparison o w).map fun r =>
        { r with preamble := p.compose (Rendering.locator? cwd root w) } := by
  unfold Rendering.assemble
  cases w.defect? with
  | some defect => rfl
  | none =>
    have same : ({ o with preamble := p } : Options).wantsCheck w = o.wantsCheck w := rfl
    simp only [same]
    split
    · cases ConsistencyCheck.install cwd root comparison w <;> rfl
    · rfl

/-- **A preamble can be stripped off exactly.** What is cut off a text is its longest block of
comment lines. What that leaves of a rendered file is the text of its document, which is the same
whatever is chosen for the preamble. -/
theorem strip_of_render :
    (∀ text, ∃ head, Heads head text ∧ text = head ++ strip text) ∧
    (∀ (session : Session) (o : Options) (w : Workflow) (text : String),
      render session o w = .ok text →
      ∃ r, Rendering.assemble session.cwd (o.rootFor session w) .direct o w = .ok r ∧
        text = r.text ∧ strip text = r.document.yaml) ∧
    ∀ (session : Session) (o : Options) (w : Workflow) (p : Preamble),
      (render session { o with preamble := p } w).map strip = (render session o w).map strip := by
  refine ⟨exists_heads, fun session o w text rendered => ?_, fun session o w p => ?_⟩
  · obtain ⟨r, assembled, rfl⟩ := map_eq_ok_iff.1 rendered
    exact ⟨r, assembled, rfl, strip_of_assemble assembled⟩
  · unfold render
    have same_root : ({ o with preamble := p } : Options).rootFor session w = o.rootFor session w :=
      rfl
    rw [same_root]
    have chosen := @assemble_preamble session.cwd (o.rootFor session w) .direct o w p
    cases assembled : Rendering.assemble session.cwd (o.rootFor session w) .direct o w with
    | error fault =>
      rw [chosen, assembled]
      rfl
    | ok r =>
      rw [assembled] at chosen
      have plain := strip_of_assemble assembled
      have other := strip_of_assemble chosen
      rw [chosen]
      show Except.ok (strip _) = Except.ok (strip _)
      rw [other, plain]

/-- A workflow whose document has a key that looks like a comment. -/
def bulletin : Workflow where
  triggers := [.push {}]
  extra := .ofList [("# key", "value"), ("name", "Bulletin")]

/-- A free text that looks like a document, with empty lines and hashes, is stripped off, and that
key is not. -/
theorem bulletin_strip :
    let o : Options := { preamble := .before "\n# on:\n\njobs: {}\n" }
    ∃ text, render {} o bulletin = .ok text ∧
      strip text = "on:\n  push: {}\n'# key': value\nname: Bulletin\njobs: {}\n" := by
  intro o
  obtain ⟨text, rendered⟩ : ∃ text, render {} o bulletin = .ok text := ⟨_, rfl⟩
  obtain ⟨r, assembled, -, left⟩ := strip_of_render.2.1 {} o bulletin text rendered
  have document_eq : r.document = bulletin.document := by
    cases assembled
    rfl
  refine ⟨text, rendered, left.trans ?_⟩
  rw [document_eq]
  decide +kernel

end Preamble

end WorkflowFile
