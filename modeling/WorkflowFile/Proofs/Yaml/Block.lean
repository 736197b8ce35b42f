import WorkflowFile.Proofs.Yaml.Scalar
import WorkflowFile.Yaml.Block

/-!
# The YAML text determines the document

The text of a node ends where less indented text follows, so two nodes at one place have the
same text only if they are equal.

* `Node.fits`: the integers of a tree have 64 bits.
* `Yaml.Follows`: what may follow the text of a node at a place.
* `Yaml.Shape`: the ways to write a node, which are told apart by how the text begins.
* `Yaml.lines_append_inj`: the induction over the tree.
-/

namespace WorkflowFile

/-! ## Integers of a tree -/

namespace Node

mutual

/-- Whether every integer of a tree has 64 bits. -/
def fits : Node → Bool
  | .integer value => -(2 ^ 63) ≤ value && value < 2 ^ 63
  | .sequence items => itemsFit items
  | .mapping entries => entriesFit entries
  | .string _ | .bool _ => true

/-- Whether every integer of the items has 64 bits. -/
def itemsFit : List Node → Bool
  | [] => true
  | item :: items => item.fits && itemsFit items

/-- Whether every integer of the entries has 64 bits. -/
def entriesFit : List (String × Node) → Bool
  | [] => true
  | (_, value) :: entries => value.fits && entriesFit entries

end

end Node

namespace Yaml

variable {column : Nat} {place : Place} {r s t u : List Char}

/-! ## What follows a node -/

/-- What may follow the text of a node at a place: text that is less indented than the lines of
the node, and behind a sequence below a key also no item in the column of the key. -/
def Follows : Place → List Char → Prop
  | .top, r => r = []
  | .afterKey column, r => Outdented (column + 1) r ∧ ∀ t, r ≠ pad column ++ '-' :: ' ' :: t
  | .afterMark column, r => Outdented (column + 1) r

namespace Follows

/-- What follows a node ends the lines of a scalar at its place. -/
lemma scalar (h : Follows place r) : Outdented place.scalarColumn r := by
  cases place with
  | top =>
    obtain rfl : r = [] := h
    exact .done
  | afterKey column => exact h.1.mono (Nat.le_succ _)
  | afterMark column => exact Outdented.mono h (Nat.le_succ _)

/-- What may follow a node ends the entries of a mapping. -/
lemma mapping (h : Follows place r) : Outdented place.mappingColumn r := by
  cases place with
  | top =>
    obtain rfl : r = [] := h
    exact .done
  | afterKey column => exact h.1.mono (Nat.le_succ _)
  | afterMark column => exact Outdented.mono h (Nat.le_succ _)

/-- In a block of items or entries, a less indented text ends the last one. -/
lemma of_outdented (h : Outdented column r) : Follows (.afterKey column) r :=
  ⟨h.mono (Nat.le_succ _), fun _ => h.ne_pad⟩

/-- What may follow a node may follow the last item of a sequence. -/
lemma sequence (h : Follows place r) : Follows (.afterKey place.sequenceColumn) r := by
  cases place with
  | top =>
    obtain rfl : r = [] := h
    exact of_outdented .done
  | afterKey column => exact h
  | afterMark column => exact of_outdented (Outdented.mono h (Nat.le_succ _))

end Follows

/-! ## What leads over to a node -/

/-- Text on the line of a key is told apart from a block below it. -/
lemma gap_append_eq_lead_append (h : place.gap ++ t = place.lead column ++ u) : t = u := by
  cases place with
  | top => exact h
  | afterKey _ => exact absurd (List.cons.inj h).1 (by decide)
  | afterMark _ => exact (List.cons.inj h).2

/-- The text of a node begins with what leads over to it. -/
lemma lines_cases (n : Node) (place : Place) :
    (∃ x, n.lines place = place.gap ++ x) ∨ ∃ column x, n.lines place = place.lead column ++ x := by
  cases n with
  | string text => exact .inl ⟨_, by rw [Node.lines]⟩
  | bool value => exact .inl ⟨_, by rw [Node.lines, List.append_assoc]⟩
  | integer value => exact .inl ⟨_, by rw [Node.lines, List.append_assoc]⟩
  | sequence items =>
    cases items with
    | nil => exact .inl ⟨_, by rw [Node.lines]; rfl⟩
    | cons item items =>
      exact .inr ⟨place.sequenceColumn, _, by
        rw [Node.lines, Node.itemLines, List.append_assoc]; rfl⟩
  | mapping entries =>
    cases entries with
    | nil => exact .inl ⟨_, by rw [Node.lines]; rfl⟩
    | cons entry entries =>
      obtain ⟨key, value⟩ := entry
      exact .inr ⟨place.mappingColumn, _, by
        rw [Node.lines, Node.entryLines, List.append_assoc, List.append_assoc]; rfl⟩

lemma exists_lines_afterMark_eq (n : Node) (column : Nat) :
    ∃ x, n.lines (.afterMark column) = ' ' :: x := by
  rcases lines_cases n (.afterMark column) with ⟨x, h⟩ | ⟨c, x, h⟩ <;> exact ⟨x, h⟩

lemma exists_lines_afterKey_eq (n : Node) (column : Nat) :
    ∃ b x, isBlank b = true ∧ n.lines (.afterKey column) = b :: x := by
  rcases lines_cases n (.afterKey column) with ⟨x, h⟩ | ⟨c, x, h⟩
  · exact ⟨' ', x, by decide, h⟩
  · exact ⟨'\n', pad c ++ x, by decide, h⟩

/-! ## Items and entries -/

/-- An item begins with a dash and a space. -/
lemma itemLines_cons (column : Nat) (lead : List Char) (item : Node) (items : List Node) :
    ∃ x, Node.itemLines column lead (item :: items) = lead ++ '-' :: ' ' :: x := by
  obtain ⟨x, hx⟩ := exists_lines_afterMark_eq item column
  exact ⟨x ++ Node.itemLines column (pad column) items, by
    rw [Node.itemLines, hx, List.append_assoc]; rfl⟩

/-- What follows an item is the next item or the end of the sequence. -/
lemma outdented_itemLines (items : List Node) (h : Follows (.afterKey column) r) :
    Outdented (column + 1) (Node.itemLines column (pad column) items ++ r) := by
  cases items with
  | nil => exact h.1
  | cons item items =>
    obtain ⟨x, hx⟩ := itemLines_cons column (pad column) item items
    rw [hx, List.append_assoc]
    exact .line column '-' _ (Nat.lt_succ_self _) (by decide) (by decide)

/-- The two ways to write a key and what stands behind it. -/
inductive KeyLine (column : Nat) (key : String) : List Char → Prop
  | simple (simple : isSimpleKey key = true) (b : Char) (rest : List Char)
      (blank : isBlank b = true) :
      KeyLine column key (scalarText (column + 2) key.toList ++ ':' :: b :: rest)
  | own (other : isSimpleKey key = false) (rest : List Char) :
      KeyLine column key
        ('?' :: ' ' :: (scalarLine (column + 2) key.toList ++ (pad column ++ ':' :: rest)))

lemma unbroken_of_isSimpleKey {key : String} (h : isSimpleKey key = true) :
    key.toList.all (fun c => !isBreak c) = true := by
  simp only [isSimpleKey, Bool.and_eq_true, Bool.not_eq_true'] at h
  rw [List.all_eq_not_any_not]
  simpa using h.2

/-- A key is followed by its value, which begins with a blank. -/
lemma keyLine (column : Nat) (key : String) (value : Node) (rest : List Char) :
    KeyLine column key (keyText column key ++ (value.lines (valuePlace column key) ++ rest)) := by
  unfold keyText valuePlace
  cases simple : isSimpleKey key with
  | true =>
    rw [if_pos rfl, if_pos rfl]
    obtain ⟨b, x, blank, hx⟩ := exists_lines_afterKey_eq value column
    rw [hx, List.append_assoc]
    exact .simple simple b _ blank
  | false =>
    rw [if_neg Bool.false_ne_true, if_neg Bool.false_ne_true]
    simpa using KeyLine.own simple (value.lines (.afterMark column) ++ rest)

/-- A key begins neither with a space or break nor like an item. -/
lemma KeyLine.begins {key : String} {x : List Char} (h : KeyLine column key x) :
    (∃ c rest, x = c :: rest ∧ c ≠ ' ' ∧ isBreak c = false) ∧ x ≠ '-' :: ' ' :: t := by
  cases h with
  | simple simple b rest blank =>
    have inline := (inline_scalarText (column + 2) key.toList).append (':' :: b :: rest)
    have ne_item := inline.ne_item (t := t)
    obtain ⟨c, more, same, not_space, not_break, -⟩ := inline
    exact ⟨⟨c, more, same, not_space, not_break⟩, ne_item⟩
  | own other rest =>
    exact ⟨⟨'?', _, rfl, by decide, by decide⟩, fun h => absurd (List.cons.inj h).1 (by decide)⟩

/-- What follows the value of an entry is the next entry or the end of the mapping. -/
lemma follows_entryLines (entries : List (String × Node)) (h : Outdented column r) :
    Follows (.afterKey column) (Node.entryLines column (pad column) entries ++ r) := by
  cases entries with
  | nil => exact Follows.of_outdented h
  | cons entry entries =>
    obtain ⟨key, value⟩ := entry
    have line := keyLine column key value (Node.entryLines column (pad column) entries ++ r)
    rw [Node.entryLines, List.append_assoc, List.append_assoc, List.append_assoc]
    refine ⟨?_, fun t same => ?_⟩
    · obtain ⟨⟨c, rest, first, not_space, not_break⟩, -⟩ := line.begins (t := [])
      rw [first]
      exact .line column c rest (Nat.lt_succ_self _) not_space not_break
    · exact line.begins.2 (List.append_cancel_left same)

/-- The text of an entry determines the key. -/
lemma KeyLine.inj {key key' : String} {x y : List Char} (hx : KeyLine column key x)
    (hy : KeyLine column key' y) (h : x = y) : key = key' := by
  cases hx with
  | simple simple b rest blank =>
    cases hy with
    | simple simple' b' rest' blank' =>
      have inline := styleOf_ne_literal (unbroken_of_isSimpleKey simple)
      obtain ⟨same, -⟩ :=
        scalarText_append_inj inline (.key b rest blank) (.key b' rest' blank') h
      exact String.toList_inj.1 same
    | own other rest' =>
      exact absurd h ((inline_scalarText (column + 2) key.toList).append _).ne_key
  | own other rest =>
    cases hy with
    | simple simple' b' rest' blank' =>
      exact absurd h.symm ((inline_scalarText (column + 2) key'.toList).append _).ne_key
    | own other' rest' =>
      have colon (rest : List Char) : Outdented (column + 2) (pad column ++ ':' :: rest) :=
        .line column ':' rest (by omega) (by decide) (by decide)
      have lines := (List.cons.inj (List.cons.inj h).2).2
      obtain ⟨same, -⟩ := scalarLine_append_inj (colon rest) (colon rest') lines
      exact String.toList_inj.1 same

/-- Of two equal texts of entries, the keys are equal and so is what stands behind them. -/
lemma keyText_append_inj {key key' : String} {value value' : Node}
    (h : keyText column key ++ (value.lines (valuePlace column key) ++ t)
      = keyText column key' ++ (value'.lines (valuePlace column key') ++ u)) :
    key = key' ∧ value.lines (valuePlace column key) ++ t
      = value'.lines (valuePlace column key) ++ u := by
  obtain rfl := (keyLine column key value t).inj (keyLine column key' value' u) h
  exact ⟨rfl, List.append_cancel_left h⟩

/-! ## The ways to write a node -/

/-- The nodes that are written as a word. -/
inductive IsWord : Node → List Char → Prop
  | bool (value : Bool) : IsWord (.bool value) (flagText value).toList
  | integer (value : Int) (lower : -(2 ^ 63) ≤ value) (upper : value < 2 ^ 63) :
      IsWord (.integer value) (toString value).toList
  | noItems : IsWord (.sequence []) ['[', ']']
  | noEntries : IsWord (.mapping []) ['{', '}']

lemma IsWord.word {n : Node} {w : List Char} (h : IsWord n w) : Word w := by
  cases h with
  | bool value => exact word_flagText value
  | integer value lower upper => exact word_toString lower upper
  | noItems => exact word_noItems
  | noEntries => exact word_noEntries

lemma IsWord.lines_eq {n : Node} {w : List Char} (h : IsWord n w) :
    n.lines place = place.gap ++ (w ++ ['\n']) := by
  cases h with
  | bool value => rw [Node.lines, List.append_assoc]
  | integer value lower upper => rw [Node.lines, List.append_assoc]
  | noItems =>
    rw [Node.lines]
    rfl
  | noEntries =>
    rw [Node.lines]
    rfl

/-- Different nodes are written as different words. -/
lemma IsWord.inj {n m : Node} {w v : List Char} (hn : IsWord n w) (hm : IsWord m v)
    (h : w = v) : n = m := by
  -- the texts of integers are told apart from the others by reading as integers
  have integer (i : Int) (lower : -(2 ^ 63) ≤ i) (upper : i < 2 ^ 63) {w : List Char}
      (other : isInteger w = false) : (toString i).toList ≠ w := by
    rintro rfl
    rw [isInteger_toString lower upper] at other
    cases other
  have flag (value : Bool) : isInteger (flagText value).toList = false := by
    cases value <;> decide
  cases hn with
  | bool value =>
    cases hm with
    | bool value' =>
      cases value <;> cases value' <;> first | rfl | exact absurd h (by decide)
    | integer i lower upper => exact absurd h.symm (integer i lower upper (flag value))
    | noItems => cases value <;> exact absurd h (by decide)
    | noEntries => cases value <;> exact absurd h (by decide)
  | integer i lower upper =>
    cases hm with
    | bool value => exact absurd h (integer i lower upper (flag value))
    | integer j lower' upper' => rw [toString_injective h]
    | noItems => exact absurd h (integer i lower upper (by decide))
    | noEntries => exact absurd h (integer i lower upper (by decide))
  | noItems =>
    cases hm with
    | bool value => cases value <;> exact absurd h (by decide)
    | integer i lower upper => exact absurd h.symm (integer i lower upper (by decide))
    | noItems => rfl
    | noEntries => exact absurd h (by decide)
  | noEntries =>
    cases hm with
    | bool value => cases value <;> exact absurd h (by decide)
    | integer i lower upper => exact absurd h.symm (integer i lower upper (by decide))
    | noItems => exact absurd h (by decide)
    | noEntries => rfl

/-- The nodes that are written on the line they begin on. -/
inductive Leaf : Node → Prop
  | word {n : Node} {w : List Char} (h : IsWord n w) : Leaf n
  | string (text : String) : Leaf (.string text)

/-- The ways to write a node: on its line, or as a block. -/
inductive Shape : Node → Prop
  | leaf {n : Node} (h : Leaf n) : Shape n
  | items (item : Node) (items : List Node) : Shape (.sequence (item :: items))
  | entries (key : String) (value : Node) (entries : List (String × Node)) :
      Shape (.mapping ((key, value) :: entries))

lemma shape_of_fits (n : Node) (h : n.fits = true) : Shape n := by
  cases n with
  | string text => exact .leaf (.string text)
  | bool value => exact .leaf (.word (.bool value))
  | integer value =>
    simp only [Node.fits, Bool.and_eq_true, decide_eq_true_eq] at h
    exact .leaf (.word (.integer value h.1 h.2))
  | sequence items =>
    cases items with
    | nil => exact .leaf (.word .noItems)
    | cons item items => exact .items item items
  | mapping entries =>
    cases entries with
    | nil => exact .leaf (.word .noEntries)
    | cons entry entries => exact .entries entry.1 entry.2 entries

/-! ## Nodes on their line -/

/-- A text on the line of a scalar, which is neither an item nor an entry. -/
def ValueLine (x : List Char) : Prop :=
  Inline x ∧ ∀ (column : Nat) (key : List Char) (b : Char) (rest : List Char),
    key.all (fun c => !isBreak c) = true → isBlank b = true →
      x ≠ scalarText column key ++ ':' :: b :: rest

lemma ValueLine.ne_entry {key : String} {x y : List Char} (hx : ValueLine x)
    (hy : KeyLine column key y) : x ≠ y := by
  intro same
  cases hy with
  | simple simple b rest blank =>
    exact hx.2 _ _ b rest (unbroken_of_isSimpleKey simple) blank same
  | own other rest => exact hx.1.ne_key same

namespace Leaf

variable {n m : Node}

lemma exists_valueLine (h : Leaf n) (place : Place) (r : List Char) :
    ∃ x, n.lines place ++ r = place.gap ++ x ∧ ValueLine x := by
  cases h with
  | @word n w h =>
    refine ⟨w ++ '\n' :: r, by rw [h.lines_eq]; simp, h.word.inline.append _, ?_⟩
    exact fun column key b rest _ blank => h.word.append_ne_scalarText (.line r) (.key b rest blank)
  | string text =>
    refine ⟨scalarLine place.scalarColumn text.toList ++ r, by rw [Node.lines, List.append_assoc],
      ?_, fun column key b rest simple blank => scalarLine_append_ne_key simple blank⟩
    unfold scalarLine
    rw [List.append_assoc]
    exact (inline_scalarText _ _).append _

/-- The text of a scalar or an empty collection determines it and where its text ends. -/
lemma append_inj (hn : Leaf n) (hm : Leaf m) (hr : Outdented place.scalarColumn r)
    (hs : Outdented place.scalarColumn s) (h : n.lines place ++ r = m.lines place ++ s) :
    n = m ∧ r = s := by
  cases hn with
  | @word n w hn =>
    rw [hn.lines_eq, List.append_assoc, List.append_assoc] at h
    cases hm with
    | @word m v hm =>
      rw [hm.lines_eq, List.append_assoc, List.append_assoc] at h
      obtain ⟨same, rest⟩ := hn.word.bare.append_inj hm.word.bare (.line r) (.line s)
        (List.append_cancel_left h)
      exact ⟨hn.inj hm same, (List.cons.inj rest).2⟩
    | string text =>
      rw [Node.lines, List.append_assoc] at h
      exact absurd (List.append_cancel_left h) hn.word.line_append_ne_scalarLine
  | string text =>
    rw [Node.lines, List.append_assoc] at h
    cases hm with
    | @word m v hm =>
      rw [hm.lines_eq, List.append_assoc, List.append_assoc] at h
      exact absurd (List.append_cancel_left h).symm hm.word.line_append_ne_scalarLine
    | string text' =>
      rw [Node.lines, List.append_assoc] at h
      obtain ⟨same, rfl⟩ := scalarLine_append_inj hr hs (List.append_cancel_left h)
      exact ⟨congrArg Node.string (String.toList_inj.1 same), rfl⟩

end Leaf

/-! ## Blocks -/

lemma lines_items (place : Place) (item : Node) (items : List Node) :
    (Node.sequence (item :: items)).lines place
      = Node.itemLines place.sequenceColumn (place.lead place.sequenceColumn) (item :: items) := by
  rw [Node.lines]
  rfl

lemma lines_entries (place : Place) (entry : String × Node) (entries : List (String × Node)) :
    (Node.mapping (entry :: entries)).lines place
      = Node.entryLines place.mappingColumn (place.lead place.mappingColumn)
          (entry :: entries) := by
  rw [Node.lines]
  rfl

lemma exists_itemLine (place : Place) (item : Node) (items : List Node) (r : List Char) :
    ∃ x, (Node.sequence (item :: items)).lines place ++ r
      = place.lead place.sequenceColumn ++ '-' :: ' ' :: x := by
  obtain ⟨x, hx⟩ := itemLines_cons place.sequenceColumn
    (place.lead place.sequenceColumn) item items
  exact ⟨x ++ r, by rw [lines_items, hx, List.append_assoc]; rfl⟩

lemma exists_keyLine (place : Place) (key : String) (value : Node)
    (entries : List (String × Node)) (r : List Char) :
    ∃ x, (Node.mapping ((key, value) :: entries)).lines place ++ r
      = place.lead place.mappingColumn ++ x ∧ KeyLine place.mappingColumn key x :=
  ⟨_, by rw [lines_entries, Node.entryLines, List.append_assoc, List.append_assoc,
    List.append_assoc], keyLine _ _ _ _⟩

/-- An item is told apart from an entry, which stands further in below a key. -/
lemma itemLine_ne_keyLine {key : String} {x y : List Char}
    (hy : KeyLine place.mappingColumn key y) :
    place.lead place.sequenceColumn ++ '-' :: ' ' :: x ≠ place.lead place.mappingColumn ++ y := by
  intro same
  cases place with
  | top => exact hy.begins.2 same.symm
  | afterKey column =>
    exact pad_append_ne (show column < column + 2 by omega) (by decide) (List.cons.inj same).2
  | afterMark column => exact hy.begins.2 (List.cons.inj same).2.symm

/-! ## Whole trees -/

/-- What may follow the value of an entry may follow it wherever its key puts it. -/
lemma Follows.value (h : Follows (.afterKey column) r) (key : String) :
    Follows (valuePlace column key) r := by
  unfold valuePlace
  split
  · exact h
  · exact h.1

lemma exists_entryLines_eq (column : Nat) (entry : String × Node)
    (entries : List (String × Node)) (r : List Char) :
    ∃ d x, Node.entryLines column (pad column) (entry :: entries) ++ r
      = pad column ++ d :: x := by
  obtain ⟨key, value⟩ := entry
  have line := keyLine column key value (Node.entryLines column (pad column) entries ++ r)
  obtain ⟨⟨d, x, first, -, -⟩, -⟩ := line.begins (t := [])
  exact ⟨d, x, by rw [← first, Node.entryLines]; simp only [List.append_assoc]⟩

/-- Two blocks of items are equal whatever leads over to them. -/
lemma itemLines_pad {lead : List Char} {item item' : Node} {items items' : List Node}
    (h : Node.itemLines column lead (item :: items) ++ r
      = Node.itemLines column lead (item' :: items') ++ s) :
    Node.itemLines column (pad column) (item :: items) ++ r
      = Node.itemLines column (pad column) (item' :: items') ++ s := by
  simp only [Node.itemLines, List.append_assoc] at h ⊢
  rw [List.append_cancel_left h]

/-- Two blocks of entries are equal whatever leads over to them. -/
lemma entryLines_pad {lead : List Char} {entry entry' : String × Node}
    {entries entries' : List (String × Node)}
    (h : Node.entryLines column lead (entry :: entries) ++ r
      = Node.entryLines column lead (entry' :: entries') ++ s) :
    Node.entryLines column (pad column) (entry :: entries) ++ r
      = Node.entryLines column (pad column) (entry' :: entries') ++ s := by
  simp only [Node.entryLines, List.append_assoc] at h ⊢
  rw [List.append_cancel_left h]

mutual

/-- The text of a node at a place determines the node and where its text ends. -/
theorem lines_append_inj (n m : Node) (place : Place) (r s : List Char) (hn : n.fits = true)
    (hm : m.fits = true) (hr : Follows place r) (hs : Follows place s)
    (h : n.lines place ++ r = m.lines place ++ s) : n = m ∧ r = s := by
  cases shape_of_fits n hn with
  | leaf leaf =>
    obtain ⟨x, hx, line⟩ := leaf.exists_valueLine place r
    cases shape_of_fits m hm with
    | leaf leaf' => exact leaf.append_inj leaf' hr.scalar hs.scalar h
    | items item items =>
      obtain ⟨y, hy⟩ := exists_itemLine place item items s
      rw [hx, hy] at h
      exact absurd (gap_append_eq_lead_append h) line.1.ne_item
    | entries key value entries =>
      obtain ⟨y, hy, keyLine⟩ := exists_keyLine place key value entries s
      rw [hx, hy] at h
      exact absurd (gap_append_eq_lead_append h) (line.ne_entry keyLine)
  | items item items =>
    obtain ⟨x, hx⟩ := exists_itemLine place item items r
    cases shape_of_fits m hm with
    | leaf leaf' =>
      obtain ⟨y, hy, line⟩ := leaf'.exists_valueLine place s
      rw [hx, hy] at h
      exact absurd (gap_append_eq_lead_append h.symm) line.1.ne_item
    | items item' items' =>
      rw [lines_items, lines_items] at h
      obtain ⟨same, rfl⟩ := itemLines_append_inj (item :: items) (item' :: items')
        place.sequenceColumn r s hn hm hr.sequence hs.sequence (itemLines_pad h)
      exact ⟨congrArg Node.sequence same, rfl⟩
    | entries key value entries =>
      obtain ⟨y, hy, keyLine⟩ := exists_keyLine place key value entries s
      rw [hx, hy] at h
      exact absurd h (itemLine_ne_keyLine keyLine)
  | entries key value entries =>
    obtain ⟨x, hx, keyLine⟩ := exists_keyLine place key value entries r
    cases shape_of_fits m hm with
    | leaf leaf' =>
      obtain ⟨y, hy, line⟩ := leaf'.exists_valueLine place s
      rw [hx, hy] at h
      exact absurd (gap_append_eq_lead_append h.symm) (line.ne_entry keyLine)
    | items item items =>
      obtain ⟨y, hy⟩ := exists_itemLine place item items s
      rw [hx, hy] at h
      exact absurd h.symm (itemLine_ne_keyLine keyLine)
    | entries key' value' entries' =>
      rw [lines_entries, lines_entries] at h
      obtain ⟨same, rfl⟩ := entryLines_append_inj ((key, value) :: entries)
        ((key', value') :: entries') place.mappingColumn r s hn hm hr.mapping hs.mapping
        (entryLines_pad h)
      exact ⟨congrArg Node.mapping same, rfl⟩

/-- The text of items determines them and where their text ends. -/
theorem itemLines_append_inj (items items' : List Node) (column : Nat) (r s : List Char)
    (hn : Node.itemsFit items = true) (hm : Node.itemsFit items' = true)
    (hr : Follows (.afterKey column) r) (hs : Follows (.afterKey column) s)
    (h : Node.itemLines column (pad column) items ++ r
      = Node.itemLines column (pad column) items' ++ s) : items = items' ∧ r = s := by
  cases items with
  | nil =>
    cases items' with
    | nil => exact ⟨rfl, h⟩
    | cons item' items' =>
      obtain ⟨x, hx⟩ := itemLines_cons column (pad column) item' items'
      rw [hx, List.append_assoc] at h
      exact absurd h (hr.2 _)
  | cons item items =>
    cases items' with
    | nil =>
      obtain ⟨x, hx⟩ := itemLines_cons column (pad column) item items
      rw [hx, List.append_assoc] at h
      exact absurd h.symm (hs.2 _)
    | cons item' items' =>
      simp only [Node.itemsFit, Bool.and_eq_true] at hn hm
      simp only [Node.itemLines, List.append_assoc, List.cons_append] at h
      have lines := (List.cons.inj (List.append_cancel_left h)).2
      obtain ⟨rfl, rest⟩ := lines_append_inj item item' (.afterMark column) _ _ hn.1 hm.1
        (outdented_itemLines items hr) (outdented_itemLines items' hs) lines
      obtain ⟨rfl, rfl⟩ := itemLines_append_inj items items' column r s hn.2 hm.2 hr hs rest
      exact ⟨rfl, rfl⟩

/-- The text of entries determines them and where their text ends. -/
theorem entryLines_append_inj (entries entries' : List (String × Node)) (column : Nat)
    (r s : List Char) (hn : Node.entriesFit entries = true) (hm : Node.entriesFit entries' = true)
    (hr : Outdented column r) (hs : Outdented column s)
    (h : Node.entryLines column (pad column) entries ++ r
      = Node.entryLines column (pad column) entries' ++ s) : entries = entries' ∧ r = s := by
  cases entries with
  | nil =>
    cases entries' with
    | nil => exact ⟨rfl, h⟩
    | cons entry' entries' =>
      obtain ⟨d, x, hx⟩ := exists_entryLines_eq column entry' entries' s
      exact absurd (h.trans hx) hr.ne_pad
  | cons entry entries =>
    cases entries' with
    | nil =>
      obtain ⟨d, x, hx⟩ := exists_entryLines_eq column entry entries r
      exact absurd (h.symm.trans hx) hs.ne_pad
    | cons entry' entries' =>
      obtain ⟨key, value⟩ := entry
      obtain ⟨key', value'⟩ := entry'
      simp only [Node.entriesFit, Bool.and_eq_true] at hn hm
      simp only [Node.entryLines, List.append_assoc] at h
      obtain ⟨rfl, lines⟩ := keyText_append_inj (List.append_cancel_left h)
      obtain ⟨rfl, rest⟩ := lines_append_inj value value' (valuePlace column key) _ _ hn.1 hm.1
        ((follows_entryLines entries hr).value key) ((follows_entryLines entries' hs).value key)
        lines
      obtain ⟨rfl, rfl⟩ := entryLines_append_inj entries entries' column r s hn.2 hm.2 hr hs rest
      exact ⟨rfl, rfl⟩

end

/-! ## Documents -/

/-- A place at which nothing follows. -/
lemma follows_nil (place : Place) : Follows place [] := by
  cases place with
  | top => rfl
  | afterKey column => exact Follows.of_outdented .done
  | afterMark column => exact .done

/-- Nodes with the same text at a place are the same. -/
lemma eq_of_lines_eq {n m : Node} (hn : n.fits = true) (hm : m.fits = true)
    (h : n.lines place = m.lines place) : n = m :=
  (lines_append_inj n m place [] [] hn hm (follows_nil place) (follows_nil place)
    (congrArg (· ++ []) h)).1

end Yaml

/-- **The text determines the document.** Trees with integers of 64 bits have the same YAML text
only if they are the same tree, the order of keys included. At no place another node is written
like a string. -/
theorem Node.yaml_injective {n m : Node} (hn : n.fits = true) (hm : m.fits = true) :
    (n.yaml = m.yaml → n = m) ∧
      ∀ (place : Yaml.Place) (text : String),
        n.lines place = (Node.string text).lines place → n = .string text :=
  ⟨fun h => Yaml.eq_of_lines_eq hn hm (String.ofList_injective h),
    fun _ _ h => Yaml.eq_of_lines_eq hn rfl h⟩

/-- A number and its digits, below a key of two lines and next to a text of two lines. -/
theorem Node.yaml_ne_of_digits :
    let document (node : Node) : Node :=
      .mapping [("a\nb", .sequence [node, .mapping []]), ("script", .string "make\n  test\n")]
    (document (.integer 12)).fits = true ∧ (document (.string "12")).fits = true ∧
      (document (.integer 12)).yaml ≠ (document (.string "12")).yaml ∧
      ∀ place, (Node.integer 12).lines place ≠ (Node.string "12").lines place := by
  intro document
  refine ⟨by decide, by decide, fun same => ?_, fun place same => ?_⟩
  · have := (Node.yaml_injective (n := document (.integer 12)) (m := document (.string "12"))
      (by decide) (by decide)).1 same
    simp [document] at this
  · cases (Node.yaml_injective (n := .integer 12) (m := .string "12") (by decide) (by decide)).2
      place "12" same

end WorkflowFile
