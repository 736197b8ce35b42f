import WorkflowFile.Arguments
import WorkflowFile.Proofs.Yaml.Numeral
import WorkflowFile.Proofs.Yaml.Style

/-!
# The text of a scalar determines the scalar

* `Yaml.styleOf_eq_of_append_eq`: the first character shows the style of a string.
* `Yaml.scalarText_append_inj` and `Yaml.scalarLine_append_inj`: so the text of a string
  determines the string and where it ends.
* `Yaml.Word`: the texts of the other scalars, which no string is written as
  (`Yaml.Word.append_ne_scalarText`).
* `Yaml.Inline`: none of all these texts begins like an item of a sequence.
-/

namespace WorkflowFile

namespace Yaml

variable {column : Nat} {cs ds t u : List Char}

/-! ## Styles -/

/-- What is known about a string that is written as it is. -/
structure Plain (cs : List Char) : Prop where
  string : readsAsOther cs = false
  first : startsWithIndicator cs = false
  keyless : hasKeyIndicator cs = false
  unspaced : cs.head? ≠ some ' '
  unbroken : cs.all (fun c => !isBreak c) = true

lemma plain_of_allowsPlain (string : readsAsOther cs = false) (allowed : allowsPlain cs = true) :
    Plain cs := by
  simp only [allowsPlain, Bool.and_eq_true, Bool.not_eq_true', bne_iff_ne, and_assoc] at allowed
  obtain ⟨-, first, keyless, -, unspaced, -, all⟩ := allowed
  refine ⟨string, first, keyless, unspaced, ?_⟩
  rw [List.all_eq_true] at all ⊢
  intro c hc
  have := all c hc
  rw [Bool.and_eq_true] at this
  exact this.2

lemma plain_of_styleOf (h : styleOf cs = .plain) : Plain cs := by
  unfold styleOf at h
  split at h
  · next suggested =>
    split at h
    · next allowed =>
      refine plain_of_allowsPlain ?_ allowed
      unfold suggestedStyle at suggested
      split at suggested
      · cases suggested
      · split at suggested
        · cases suggested
        · next reads => simpa using reads
    · split at h <;> cases h
  · split at h <;> cases h
  · split at h <;> cases h

lemma Plain.bare (h : Plain cs) : Bare cs := ⟨h.unbroken, h.keyless⟩

/-- Only strings with line feeds are written line by line. -/
lemma contains_of_styleOf_literal (h : styleOf cs = .literal) : cs.contains '\n' = true := by
  unfold styleOf at h
  split at h
  · split at h
    · cases h
    · split at h <;> cases h
  · next suggested =>
    unfold suggestedStyle at suggested
    split at suggested
    · next feeds => exact feeds
    · split at suggested <;> cases suggested
  · split at h <;> cases h

/-! ## How scalars begin -/

/-- A text that begins on the line of the scalar and neither like an item of a sequence nor like
a key on lines of its own. -/
def Inline (x : List Char) : Prop :=
  ∃ c rest, x = c :: rest ∧ c ≠ ' ' ∧ isBreak c = false ∧
    (c = '-' ∨ c = '?' → ∃ d more, rest = d :: more ∧ d ≠ ' ')

lemma inline_cons {c : Char} {rest : List Char} (not_space : c ≠ ' ')
    (not_break : isBreak c = false) (not_dash : c ≠ '-') (not_question : c ≠ '?') :
    Inline (c :: rest) :=
  ⟨c, rest, rfl, not_space, not_break, fun mark => absurd mark (by simp [not_dash, not_question])⟩

namespace Inline

variable {x : List Char}

lemma append (h : Inline x) (t : List Char) : Inline (x ++ t) := by
  obtain ⟨c, rest, rfl, not_space, not_break, marked⟩ := h
  refine ⟨c, rest ++ t, rfl, not_space, not_break, fun mark => ?_⟩
  obtain ⟨d, more, rfl, hd⟩ := marked mark
  exact ⟨d, more ++ t, rfl, hd⟩

lemma ne_item (h : Inline x) : x ≠ '-' :: ' ' :: t := by
  rintro rfl
  obtain ⟨c, rest, same, -, -, marked⟩ := h
  obtain ⟨rfl, rfl⟩ := List.cons.inj same
  obtain ⟨d, more, same, hd⟩ := marked (.inl rfl)
  exact hd (List.cons.inj same).1.symm

lemma ne_key (h : Inline x) : x ≠ '?' :: ' ' :: t := by
  rintro rfl
  obtain ⟨c, rest, same, -, -, marked⟩ := h
  obtain ⟨rfl, rfl⟩ := List.cons.inj same
  obtain ⟨d, more, same, hd⟩ := marked (.inr rfl)
  exact hd (List.cons.inj same).1.symm

end Inline

/-- The first character of a string that is written as it is. -/
lemma Plain.exists_eq_cons (h : Plain cs) :
    ∃ c rest, cs = c :: rest ∧ c ∉ indicators ∧ Inline cs := by
  cases cs with
  | nil => exact absurd h.string (by decide)
  | cons c rest =>
    have first := h.first
    have unbroken := h.unbroken
    simp only [startsWithIndicator, Bool.or_eq_false_iff, List.contains_eq_mem,
      decide_eq_false_iff_not] at first
    simp only [List.all_cons, Bool.and_eq_true, Bool.not_eq_true'] at unbroken
    refine ⟨c, rest, rfl, first.1, c, rest, rfl, by simpa using h.unspaced, unbroken.1, ?_⟩
    intro mark
    -- behind a mark that could be that of an item or a key, no blank follows
    have goes_on : blankFollows rest = false := by
      rcases mark with rfl | rfl <;> simpa using first.2
    cases rest with
    | nil => exact absurd goes_on (by decide)
    | cons d more =>
      refine ⟨d, more, rfl, ?_⟩
      rintro rfl
      exact absurd goes_on (by simp [blankFollows, isBlank])

/-! ## The first character -/

/-- The character that a style begins with, if it is always the same. -/
def Style.mark? : Style → Option Char
  | plain => none
  | singleQuoted => some '\''
  | doubleQuoted => some '"'
  | literal => some '|'

/-- The style that the first character of a text shows. -/
def mark? (x : List Char) : Option Char := x.head?.filter (['\'', '"', '|'].contains ·)

lemma mark?_append {x : List Char} (h : Inline x) (t : List Char) : mark? (x ++ t) = mark? x := by
  obtain ⟨c, rest, rfl, -⟩ := h
  rfl

lemma mark?_scalarText (column : Nat) (cs t : List Char) :
    mark? (scalarText column cs ++ t) = (styleOf cs).mark? := by
  unfold scalarText
  cases style : styleOf cs with
  | plain =>
    obtain ⟨c, rest, rfl, not_indicator, -⟩ := (plain_of_styleOf style).exists_eq_cons
    have unmarked : c ≠ '\'' ∧ c ≠ '"' ∧ c ≠ '|' := by
      refine ⟨?_, ?_, ?_⟩ <;> rintro rfl <;> exact not_indicator (by decide)
    simp [mark?, unmarked, Style.mark?]
  | singleQuoted => rfl
  | doubleQuoted => rfl
  | literal => rfl

/-- The first character shows the style. -/
theorem styleOf_eq_of_append_eq {column' : Nat}
    (h : scalarText column cs ++ t = scalarText column' ds ++ u) : styleOf cs = styleOf ds := by
  have marks := mark?_scalarText column cs t
  rw [h, mark?_scalarText] at marks
  cases hcs : styleOf cs <;> cases hds : styleOf ds <;> rw [hcs, hds] at marks <;>
    first | rfl | exact absurd marks (by decide)

lemma inline_scalarText (column : Nat) (cs : List Char) : Inline (scalarText column cs) := by
  unfold scalarText
  cases style : styleOf cs with
  | plain =>
    obtain ⟨c, rest, -, -, inline⟩ := (plain_of_styleOf style).exists_eq_cons
    exact inline
  | singleQuoted => exact inline_cons (by decide) (by decide) (by decide) (by decide)
  | doubleQuoted => exact inline_cons (by decide) (by decide) (by decide) (by decide)
  | literal => exact inline_cons (by decide) (by decide) (by decide) (by decide)

/-! ## Strings -/

lemma Stops.head?_ne (h : Stops t) : t.head? ≠ some '\'' := by
  cases h <;> simp

/-- On a line, the text of a string determines the string and where it ends. -/
theorem scalarText_append_inj (inline : styleOf cs ≠ .literal) (ht : Stops t) (hu : Stops u)
    (h : scalarText column cs ++ t = scalarText column ds ++ u) : cs = ds ∧ t = u := by
  have same_style := styleOf_eq_of_append_eq h
  unfold scalarText at h
  rw [← same_style] at h
  cases style : styleOf cs with
  | plain =>
    rw [style] at h
    exact (plain_of_styleOf style).bare.append_inj (plain_of_styleOf (same_style ▸ style)).bare
      ht hu h
  | singleQuoted =>
    rw [style] at h
    exact singleQuotedText_append_inj ht.head?_ne hu.head?_ne h
  | doubleQuoted =>
    rw [style] at h
    exact doubleQuotedText_append_inj h
  | literal => exact absurd style inline

/-- The text of a string with its last line ended. -/
lemma scalarLine_eq (column : Nat) (cs : List Char) :
    scalarLine column cs
      = if styleOf cs = .literal then literalLine column cs
        else scalarText column cs ++ ['\n'] := by
  by_cases style : styleOf cs = .literal
  · simp [scalarLine, scalarText, literalLine, style]
  · simp [scalarLine, style]

/-- On lines of its own, the text of a string determines the string and where it ends. -/
theorem scalarLine_append_inj (ht : Outdented column t) (hu : Outdented column u)
    (h : scalarLine column cs ++ t = scalarLine column ds ++ u) : cs = ds ∧ t = u := by
  have same_style : styleOf cs = styleOf ds := by
    unfold scalarLine at h
    rw [List.append_assoc, List.append_assoc] at h
    exact styleOf_eq_of_append_eq h
  rw [scalarLine_eq, scalarLine_eq, ← same_style] at h
  split at h
  · exact literalLine_append_inj ht hu h
  · next inline =>
    rw [List.append_assoc, List.append_assoc] at h
    obtain ⟨rfl, rest⟩ := scalarText_append_inj inline (.line t) (.line u) h
    exact ⟨rfl, (List.cons.inj rest).2⟩

/-! ## Simple keys -/

/-- A string without breaks is written on a line. -/
lemma styleOf_ne_literal (h : cs.all (fun c => !isBreak c) = true) : styleOf cs ≠ .literal := by
  intro style
  have feed := contains_of_styleOf_literal style
  rw [List.contains_eq_mem, decide_eq_true_eq] at feed
  have := List.all_eq_true.1 h _ feed
  simp [isBreak] at this

/-- A string without breaks is written in the same way in every column. -/
lemma scalarText_column (column column' : Nat) (h : cs.all (fun c => !isBreak c) = true) :
    scalarText column cs = scalarText column' cs := by
  unfold scalarText
  cases style : styleOf cs with
  | plain => rfl
  | singleQuoted =>
    simp only [singleQuotedText_eq, quotedRest_of_unbroken _ h]
  | doubleQuoted => rfl
  | literal => exact absurd style (styleOf_ne_literal h)

/-- A string as a value is told apart from one as a key. -/
lemma scalarLine_append_ne_key {column' : Nat} {c : Char}
    (simple : ds.all (fun c => !isBreak c) = true) (blank : isBlank c = true) :
    scalarLine column cs ++ t ≠ scalarText column' ds ++ ':' :: c :: u := by
  intro h
  have inline := styleOf_ne_literal simple
  rw [scalarText_column column' column simple] at h
  have same_style : styleOf cs = styleOf ds := by
    unfold scalarLine at h
    rw [List.append_assoc] at h
    exact styleOf_eq_of_append_eq h
  rw [scalarLine_eq, if_neg (same_style ▸ inline), List.append_assoc] at h
  obtain ⟨-, rest⟩ :=
    scalarText_append_inj (same_style ▸ inline) (.line t) (.key c u blank) h
  exact absurd (List.cons.inj rest).1 (by decide)

/-! ## Other scalars -/

/-- The text of a scalar that is no string, or of an empty collection. -/
structure Word (w : List Char) : Prop where
  bare : Bare w
  inline : Inline w
  unmarked : mark? w = none
  not_plain : styleOf w ≠ .plain

/-- No string is written like another scalar. -/
theorem Word.append_ne_scalarText {w : List Char} (h : Word w) (ht : Stops t) (hu : Stops u) :
    w ++ t ≠ scalarText column cs ++ u := by
  intro same
  have marks := mark?_append h.inline t
  rw [same, mark?_scalarText, h.unmarked] at marks
  have style : styleOf cs = .plain := by
    cases style : styleOf cs <;> rw [style] at marks <;>
      first | rfl | exact absurd marks (by decide)
  unfold scalarText at same
  rw [style] at same
  obtain ⟨rfl, -⟩ := h.bare.append_inj (plain_of_styleOf style).bare ht hu same
  exact h.not_plain style

/-- No string with its last line ended is written like another scalar with its line ended. -/
lemma Word.line_append_ne_scalarLine {w : List Char} (h : Word w) :
    w ++ '\n' :: t ≠ scalarLine column cs ++ u := by
  intro same
  have marks := mark?_append h.inline ('\n' :: t)
  have line := same
  unfold scalarLine at line
  rw [List.append_assoc] at line
  rw [line, mark?_scalarText, h.unmarked] at marks
  have inline : styleOf cs ≠ .literal := by
    intro style
    rw [style] at marks
    exact absurd marks (by decide)
  rw [scalarLine_eq, if_neg inline, List.append_assoc] at same
  exact h.append_ne_scalarText (.line t) (.line u) same

lemma word_flagText (value : Bool) : Word (flagText value).toList := by
  cases value
  · exact ⟨⟨by decide, by decide⟩, inline_cons (by decide) (by decide) (by decide) (by decide),
      by decide, by decide⟩
  · exact ⟨⟨by decide, by decide⟩, inline_cons (by decide) (by decide) (by decide) (by decide),
      by decide, by decide⟩

lemma word_noItems : Word ['[', ']'] :=
  ⟨⟨by decide, by decide⟩, inline_cons (by decide) (by decide) (by decide) (by decide),
    by decide, by decide⟩

lemma word_noEntries : Word ['{', '}'] :=
  ⟨⟨by decide, by decide⟩, inline_cons (by decide) (by decide) (by decide) (by decide),
    by decide, by decide⟩

lemma keyless_of_notMem (h : ':' ∉ cs) : hasKeyIndicator cs = false := by
  induction cs with
  | nil => rfl
  | cons c cs ih =>
    rw [List.mem_cons, not_or] at h
    simp [hasKeyIndicator, ih h.2, Ne.symm h.1]

lemma isBreak_of_isDigit {c : Char} (h : c.isDigit = true) : isBreak c = false := by
  rw [Bool.eq_false_iff]
  intro is_break
  simp only [isBreak, Bool.or_eq_true, beq_iff_eq] at is_break
  rcases is_break with (((rfl | rfl) | rfl) | rfl) | rfl <;> exact absurd h (by decide)

lemma bare_of_isDigit (h : ∀ c ∈ cs, c.isDigit = true) : Bare cs where
  unbroken := by
    rw [List.all_eq_true]
    exact fun c hc => by rw [isBreak_of_isDigit (h c hc)]; rfl
  keyless := keyless_of_notMem fun hc => absurd (h _ hc) (by decide)

/-- A digit is none of the characters that mean something at the start of a text. -/
lemma ne_of_isDigit {c : Char} (h : c.isDigit = true) :
    c ≠ ' ' ∧ c ≠ '-' ∧ c ≠ '?' ∧ c ≠ '\'' ∧ c ≠ '"' ∧ c ≠ '|' := by
  refine ⟨?_, ?_, ?_, ?_, ?_, ?_⟩ <;> rintro rfl <;> exact absurd h (by decide)

lemma word_toString {i : Int} (lower : -(2 ^ 63) ≤ i) (upper : i < 2 ^ 63) :
    Word (toString i).toList := by
  have not_plain : styleOf (toString i).toList ≠ .plain := by
    intro style
    have := (plain_of_styleOf style).string
    simp only [readsAsOther, isInteger_toString lower upper, Bool.or_true, Bool.true_or] at this
    cases this
  have digits := Text.isDigit_toDigits i.natAbs
  obtain ⟨d, ds, digits_eq⟩ : ∃ d ds, Nat.toDigits 10 i.natAbs = d :: ds :=
    List.exists_cons_of_ne_nil Nat.toDigits_ne_nil
  have bare := bare_of_isDigit digits
  rw [digits_eq] at digits bare
  have hd := digits d List.mem_cons_self
  obtain ⟨not_space, not_dash, not_question, not_mark⟩ := ne_of_isDigit hd
  rw [Text.toList_toString, digits_eq] at not_plain ⊢
  split at not_plain
  · next negative =>
    rw [if_pos negative]
    refine ⟨⟨?_, ?_⟩, ⟨'-', d :: ds, rfl, by decide, by decide, fun _ => ⟨d, ds, rfl, not_space⟩⟩,
      rfl, not_plain⟩
    · rw [List.all_cons, bare.unbroken]
      rfl
    · rw [hasKeyIndicator, bare.keyless]
      rfl
  · next nonnegative =>
    rw [if_neg nonnegative]
    exact ⟨bare, inline_cons not_space (isBreak_of_isDigit hd) not_dash not_question,
      by simp [mark?, not_mark], not_plain⟩

end Yaml

end WorkflowFile
