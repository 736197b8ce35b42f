import Mathlib.Data.List.Basic
import Mathlib.Data.Nat.Digits.Defs
import WorkflowFile.Yaml.Scalar

/-!
# Texts of one style end in one place

Each way to write a string shows where the string ends, so of two equal texts the strings are
equal and so is what follows.

* `Yaml.Bare.append_inj`: a plain text ends with its line or at the colon of a key (`Stops`).
* `Yaml.singleQuotedText_append_inj`: a single apostrophe ends a text between apostrophes.
* `Yaml.doubleQuotedText_append_inj`: no escape sequence begins another one.
* `Yaml.literalLine_append_inj`: a literal ends in front of a line that is less indented
  (`Outdented`).
-/

namespace WorkflowFile

namespace Yaml

variable {column : Nat} {cs ds t u : List Char}

/-! ## Plain texts -/

/-- What stands behind a scalar on its line: the end of the line, or a colon that makes it a
key. -/
inductive Stops : List Char → Prop
  | line (rest : List Char) : Stops ('\n' :: rest)
  | key (c : Char) (rest : List Char) (blank : isBlank c = true) : Stops (':' :: c :: rest)

/-- A text without breaks and without a colon that would make a part of it a key. -/
structure Bare (cs : List Char) : Prop where
  unbroken : cs.all (fun c => !isBreak c) = true
  keyless : hasKeyIndicator cs = false

lemma Bare.tail {c : Char} (h : Bare (c :: cs)) : Bare cs where
  unbroken := by
    have := h.unbroken
    simp only [List.all_cons, Bool.and_eq_true] at this
    exact this.2
  keyless := by
    have := h.keyless
    simp only [hasKeyIndicator, Bool.or_eq_false_iff] at this
    exact this.2

/-- A bare text does not stop before its end. -/
lemma Bare.not_stops {c : Char} (h : Bare (c :: cs)) : ¬ Stops (c :: cs ++ t) := by
  intro stops
  have unbroken := h.unbroken
  have keyless := h.keyless
  simp only [List.all_cons, Bool.and_eq_true] at unbroken
  simp only [hasKeyIndicator, Bool.or_eq_false_iff] at keyless
  rw [List.cons_append] at stops
  generalize rest_eq : cs ++ t = rest at stops
  cases stops with
  | line => exact absurd unbroken.1 (by decide)
  | key b _ blank =>
    -- the colon is followed by a blank, or the text ends with it
    cases cs with
    | nil => exact absurd keyless.1 (by decide)
    | cons a cs =>
      obtain ⟨rfl, -⟩ := List.cons.inj rest_eq
      simp [blankFollows, blank] at keyless

/-- A bare text ends where it stops. -/
theorem Bare.append_inj (hcs : Bare cs) (hds : Bare ds) (ht : Stops t) (hu : Stops u)
    (h : cs ++ t = ds ++ u) : cs = ds ∧ t = u := by
  induction cs generalizing ds with
  | nil =>
    cases ds with
    | nil => exact ⟨rfl, h⟩
    | cons d ds =>
      rw [List.nil_append] at h
      exact absurd (h ▸ ht) hds.not_stops
  | cons c cs ih =>
    cases ds with
    | nil =>
      rw [List.nil_append] at h
      exact absurd (h ▸ hu) hcs.not_stops
    | cons d ds =>
      obtain ⟨rfl, rest⟩ := List.cons.inj h
      obtain ⟨rfl, rfl⟩ := ih hcs.tail hds.tail rest
      exact ⟨rfl, rfl⟩

/-! ## Indentation -/

/-- The spaces that are due at the start of a line. -/
def margin (column : Nat) (atStart : Bool) : List Char := if atStart then pad column else []

/-- What begins with a margin and then no break does not begin with a break. -/
lemma isBreak_of_margin_eq {atStart : Bool} {x b : Char} (hx : isBreak x = false)
    (h : margin column atStart ++ x :: t = b :: u) : isBreak b = false := by
  unfold margin at h
  split at h
  · cases column with
    | zero =>
      obtain ⟨rfl, -⟩ := List.cons.inj h
      exact hx
    | succ column =>
      obtain ⟨rfl, -⟩ := List.cons.inj h
      decide
  · obtain ⟨rfl, -⟩ := List.cons.inj h
    exact hx

lemma indentLines_break {atStart : Bool} {c : Char} (hc : isBreak c = true) :
    indentLines column atStart (c :: cs) = c :: indentLines column true cs := by
  rw [indentLines, if_pos hc]

lemma indentLines_char {atStart : Bool} {c : Char} (hc : isBreak c = false) :
    indentLines column atStart (c :: cs)
      = margin column atStart ++ c :: indentLines column false cs := by
  rw [indentLines, if_neg (by simp [hc])]
  rfl

/-- Whether a text leads to the start of a line, for one that begins at the start of a line or
does not. -/
def endsAtStart : Bool → List Char → Bool
  | atStart, [] => atStart
  | _, c :: cs => endsAtStart (isBreak c) cs

lemma endsAtStart_eq (atStart : Bool) (cs : List Char) :
    endsAtStart atStart cs = if cs.isEmpty then atStart else endsWithBreak cs := by
  induction cs generalizing atStart with
  | nil => rfl
  | cons c cs ih =>
    rw [endsAtStart, ih]
    cases cs with
    | nil => simp [endsWithBreak]
    | cons d ds => simp [endsWithBreak, List.getLast?_cons_cons]

/-! ## Texts between apostrophes -/

/-- A character between apostrophes. -/
def quoted (c : Char) : List Char := if c == '\'' then ['\'', '\''] else [c]

/-- What stands between apostrophes, and the last of these, from some place in the text on. -/
def quotedRest (column : Nat) : Bool → List Char → List Char
  | atStart, [] => margin column atStart ++ ['\'']
  | atStart, c :: cs =>
    if isBreak c then c :: quotedRest column true cs
    else margin column atStart ++ quoted c ++ quotedRest column false cs

lemma indentLines_quoted {atStart : Bool} {c : Char} (hc : isBreak c = false) :
    indentLines column atStart (quoted c ++ cs)
      = margin column atStart ++ quoted c ++ indentLines column false cs := by
  unfold quoted
  split
  · -- the second apostrophe does not stand at the start of the line
    rw [List.cons_append, indentLines_char (by decide), List.cons_append,
      indentLines_char (by decide)]
    simp [margin]
  · rw [List.cons_append, indentLines_char hc]
    simp

lemma indentLines_doubleApostrophes (column : Nat) (atStart : Bool) (cs : List Char) :
    indentLines column atStart (doubleApostrophes cs) ++ margin column (endsAtStart atStart cs)
      ++ ['\''] = quotedRest column atStart cs := by
  induction cs generalizing atStart with
  | nil => rfl
  | cons c cs ih =>
    have first : doubleApostrophes (c :: cs) = quoted c ++ doubleApostrophes cs := rfl
    rw [first, endsAtStart, quotedRest]
    cases hc : isBreak c with
    | true =>
      have single : quoted c = [c] := by
        unfold quoted
        split
        · next apostrophe =>
          rw [beq_iff_eq] at apostrophe
          exact absurd (apostrophe ▸ hc) (by decide)
        · rfl
      rw [single, List.cons_append, List.nil_append, indentLines_break hc, if_pos rfl, ← ih]
      rfl
    | false =>
      rw [indentLines_quoted hc, if_neg Bool.false_ne_true, ← ih]
      simp only [List.append_assoc]

lemma singleQuotedText_eq (column : Nat) (cs : List Char) :
    singleQuotedText column cs = '\'' :: quotedRest column false cs := by
  have ends : endsWithBreak cs = endsAtStart false cs := by
    rw [endsAtStart_eq]
    cases cs <;> rfl
  rw [singleQuotedText, ends, ← indentLines_doubleApostrophes]
  rfl

/-- Without breaks no line is indented. -/
lemma quotedRest_of_unbroken (column : Nat) (h : cs.all (fun c => !isBreak c) = true) :
    quotedRest column false cs = cs.flatMap quoted ++ ['\''] := by
  induction cs with
  | nil => rfl
  | cons c cs ih =>
    simp only [List.all_cons, Bool.and_eq_true, Bool.not_eq_true'] at h
    rw [quotedRest, if_neg (by simp [h.1]), ih h.2, List.flatMap_cons, List.append_assoc,
      List.append_assoc]
    rfl

lemma exists_quoted_eq (c : Char) : ∃ more, quoted c = c :: more := by
  unfold quoted
  split
  · next apostrophe =>
    rw [beq_iff_eq] at apostrophe
    exact ⟨['\''], by rw [apostrophe]⟩
  · exact ⟨[], rfl⟩

lemma quoted_append_inj {c d : Char} (h : quoted c ++ t = quoted d ++ u) : c = d ∧ t = u := by
  obtain ⟨more, hc⟩ := exists_quoted_eq c
  obtain ⟨more', hd⟩ := exists_quoted_eq d
  have first := h
  rw [hc, hd] at first
  obtain ⟨rfl, -⟩ := List.cons.inj first
  exact ⟨rfl, List.append_cancel_left h⟩

/-- An apostrophe with no other one behind it is not part of the text. -/
lemma quoted_append_ne {c : Char} (ht : t.head? ≠ some '\'') : '\'' :: t ≠ quoted c ++ u := by
  intro h
  unfold quoted at h
  split at h
  · obtain ⟨-, rest⟩ := List.cons.inj h
    exact ht (by simp [rest])
  · next other =>
    obtain ⟨rfl, -⟩ := List.cons.inj h
    exact other rfl

/-- A line break between apostrophes is neither the last apostrophe nor another character. -/
lemma quotedRest_ne_break {atStart : Bool} {d : Char} (hd : isBreak d = true)
    (hcs : ∀ c, cs.head? = some c → isBreak c = false) :
    quotedRest column atStart cs ++ t ≠ d :: u := by
  intro h
  cases cs with
  | nil =>
    rw [quotedRest, List.append_assoc] at h
    exact absurd (isBreak_of_margin_eq (by decide) h) (by simp [hd])
  | cons c cs =>
    have hc := hcs c rfl
    obtain ⟨more, first⟩ := exists_quoted_eq c
    rw [quotedRest, if_neg (by simp [hc]), first, List.append_assoc, List.append_assoc] at h
    exact absurd (isBreak_of_margin_eq hc h) (by simp [hd])

/-- Where the last apostrophe stands, a text does not go on. -/
lemma quotedRest_nil_ne_cons {atStart : Bool} {d : Char} (ht : t.head? ≠ some '\'') :
    quotedRest column atStart [] ++ t ≠ quotedRest column atStart (d :: ds) ++ u := by
  intro h
  cases hd : isBreak d with
  | true =>
    rw [quotedRest.eq_2, if_pos hd] at h
    exact quotedRest_ne_break hd (by simp) h
  | false =>
    rw [quotedRest, quotedRest, if_neg (by simp [hd]), List.append_assoc, List.append_assoc,
      List.append_assoc] at h
    exact quoted_append_ne ht (List.append_cancel_left h)

/-- The last apostrophe ends the text. -/
lemma quotedRest_append_inj {atStart : Bool} (ht : t.head? ≠ some '\'')
    (hu : u.head? ≠ some '\'')
    (h : quotedRest column atStart cs ++ t = quotedRest column atStart ds ++ u) :
    cs = ds ∧ t = u := by
  induction cs generalizing atStart ds with
  | nil =>
    cases ds with
    | nil => exact ⟨rfl, List.append_cancel_left h⟩
    | cons d ds => exact absurd h (quotedRest_nil_ne_cons ht)
  | cons c cs ih =>
    cases ds with
    | nil => exact absurd h.symm (quotedRest_nil_ne_cons hu)
    | cons d ds =>
      cases hc : isBreak c <;> cases hd : isBreak d
      · rw [quotedRest, if_neg (by simp [hc]), quotedRest, if_neg (by simp [hd]),
          List.append_assoc, List.append_assoc, List.append_assoc, List.append_assoc] at h
        obtain ⟨rfl, rest⟩ := quoted_append_inj (List.append_cancel_left h)
        obtain ⟨rfl, rfl⟩ := ih rest
        exact ⟨rfl, rfl⟩
      · rw [quotedRest.eq_2 _ _ d, if_pos hd] at h
        exact absurd h (quotedRest_ne_break hd (by simp [hc]))
      · rw [quotedRest.eq_2 _ _ c, if_pos hc] at h
        exact absurd h.symm (quotedRest_ne_break hc (by simp [hd]))
      · rw [quotedRest, if_pos hc, quotedRest, if_pos hd] at h
        obtain ⟨rfl, rest⟩ := List.cons.inj h
        obtain ⟨rfl, rfl⟩ := ih rest
        exact ⟨rfl, rfl⟩

/-- A string between apostrophes ends at the last apostrophe. -/
theorem singleQuotedText_append_inj (ht : t.head? ≠ some '\'') (hu : u.head? ≠ some '\'')
    (h : singleQuotedText column cs ++ t = singleQuotedText column ds ++ u) :
    cs = ds ∧ t = u := by
  rw [singleQuotedText_eq, singleQuotedText_eq] at h
  exact quotedRest_append_inj ht hu (List.cons.inj h).2

/-! ## Texts between quotation marks -/

/-- A character between quotation marks. -/
def escaped (c : Char) : List Char := if needsEscape c then escape c else [c]

/-- Hexadecimal digits denote a number up to the digits that are left out. -/
lemma hexDigits_inj {n a b : Nat} (h : hexDigits n a = hexDigits n b) :
    a % 16 ^ n = b % 16 ^ n := by
  have digit_inj :
      ∀ i j : Fin 16, (Nat.digitChar i).toUpper = (Nat.digitChar j).toUpper → i = j := by
    decide
  induction n generalizing a b with
  | zero => simp [Nat.mod_one]
  | succ n ih =>
    obtain ⟨higher, last⟩ := List.append_inj' h rfl
    have lower := digit_inj ⟨a % 16, Nat.mod_lt _ (by decide)⟩ ⟨b % 16, Nat.mod_lt _ (by decide)⟩
      (List.cons.inj last).1
    have lower_eq : a % 16 = b % 16 := congrArg Fin.val lower
    rw [Nat.pow_succ', Nat.mod_mul, Nat.mod_mul, lower_eq, ih higher]

lemma length_hexDigits (n value : Nat) : (hexDigits n value).length = n := by
  induction n generalizing value with
  | zero => rfl
  | succ n ih => simp [hexDigits, ih]

/-- A character of at most `n` digits is known by them. -/
lemma hexDigits_append_inj {n : Nat} {c d : Char} (hc : c.toNat < 16 ^ n) (hd : d.toNat < 16 ^ n)
    (h : hexDigits n c.toNat ++ t = hexDigits n d.toNat ++ u) : c = d ∧ t = u := by
  obtain ⟨digits, rest⟩ := List.append_inj h (by rw [length_hexDigits, length_hexDigits])
  have := hexDigits_inj digits
  rw [Nat.mod_eq_of_lt hc, Nat.mod_eq_of_lt hd] at this
  exact ⟨Char.toNat_inj.1 this, rest⟩

/-- The escapes that give the number of a character, and how many digits they have. -/
def longEscapes : List (Char × Nat) := [('x', 2), ('u', 4), ('U', 8)]

/-- The letters of all escapes are different. -/
lemma escapes_apart :
    (∀ p ∈ shortEscapes, ∀ q ∈ shortEscapes, p.2 = q.2 → p.1 = q.1) ∧
      (∀ p ∈ shortEscapes, ∀ q ∈ longEscapes, p.2 ≠ q.1) ∧
      ∀ p ∈ longEscapes, ∀ q ∈ longEscapes, p.1 = q.1 → p.2 = q.2 := by
  decide

/-- The two kinds of escape sequences of a character. -/
inductive EscapeOf (c : Char) : List Char → Prop
  | short (letter : Char) (listed : (c, letter) ∈ shortEscapes) : EscapeOf c ['\\', letter]
  | long (letter : Char) (n : Nat) (listed : (letter, n) ∈ longEscapes)
      (fits : c.toNat < 16 ^ n) : EscapeOf c ('\\' :: letter :: hexDigits n c.toNat)

lemma escapeOf_escape (c : Char) : EscapeOf c (escape c) := by
  unfold escape
  split
  · next letter found =>
    obtain ⟨before, after, split, -⟩ := List.lookup_eq_some_iff.1 found
    exact .short letter (by rw [split]; simp)
  · split
    · next small => exact .long 'x' 2 (by decide) (Nat.lt_succ_of_le small)
    · split
      · next small => exact .long 'u' 4 (by decide) (Nat.lt_succ_of_le small)
      · exact .long 'U' 8 (by decide) c.val.toNat_lt

/-- No escape sequence begins another one. -/
lemma EscapeOf.append_inj {c d : Char} {x y : List Char} (hx : EscapeOf c x) (hy : EscapeOf d y)
    (h : x ++ t = y ++ u) : c = d ∧ t = u := by
  obtain ⟨short_inj, short_ne_long, long_inj⟩ := escapes_apart
  cases hx with
  | short letter listed =>
    cases hy with
    | short letter' listed' =>
      simp only [List.cons_append, List.nil_append, List.cons.injEq, true_and] at h
      exact ⟨short_inj _ listed _ listed' h.1, h.2⟩
    | long letter' n listed' fits =>
      simp only [List.cons_append, List.nil_append, List.cons.injEq, true_and] at h
      exact absurd h.1 (short_ne_long _ listed _ listed')
  | long letter n listed fits =>
    cases hy with
    | short letter' listed' =>
      simp only [List.cons_append, List.nil_append, List.cons.injEq, true_and] at h
      exact absurd h.1.symm (short_ne_long _ listed' _ listed)
    | long letter' n' listed' fits' =>
      simp only [List.cons_append, List.cons.injEq, true_and] at h
      obtain rfl : n = n' := long_inj _ listed _ listed' h.1
      exact hexDigits_append_inj fits fits' h.2

lemma EscapeOf.exists_eq_cons {c : Char} {x : List Char} (h : EscapeOf c x) :
    ∃ more, x = '\\' :: more := by
  cases h <;> exact ⟨_, rfl⟩

/-- A character between quotation marks is an escape sequence or itself, and then it is neither
a backslash nor a quotation mark. -/
lemma escaped_cases (c : Char) :
    EscapeOf c (escaped c) ∨ escaped c = [c] ∧ c ≠ '\\' ∧ c ≠ '"' := by
  unfold escaped
  split
  · exact .inl (escapeOf_escape c)
  · next free =>
    refine .inr ⟨rfl, ?_, ?_⟩ <;> rintro rfl <;> exact free (by decide)

lemma escaped_append_inj {c d : Char} (h : escaped c ++ t = escaped d ++ u) :
    c = d ∧ t = u := by
  rcases escaped_cases c with hc | ⟨hc, not_backslash, -⟩ <;>
    rcases escaped_cases d with hd | ⟨hd, not_backslash', -⟩
  · exact hc.append_inj hd h
  · obtain ⟨more, first⟩ := hc.exists_eq_cons
    rw [first, hd] at h
    exact absurd (List.cons.inj h).1.symm not_backslash'
  · obtain ⟨more, first⟩ := hd.exists_eq_cons
    rw [hc, first] at h
    exact absurd (List.cons.inj h).1 not_backslash
  · rw [hc, hd] at h
    exact List.cons.inj h

lemma escaped_append_ne {c : Char} : escaped c ++ t ≠ '"' :: u := by
  intro h
  rcases escaped_cases c with hc | ⟨hc, -, not_mark⟩
  · obtain ⟨more, first⟩ := hc.exists_eq_cons
    rw [first] at h
    exact absurd (List.cons.inj h).1 (by decide)
  · rw [hc] at h
    exact not_mark (List.cons.inj h).1

/-- What stands between quotation marks ends at the second mark. -/
lemma flatMap_escaped_append_inj
    (h : cs.flatMap escaped ++ '"' :: t = ds.flatMap escaped ++ '"' :: u) : cs = ds ∧ t = u := by
  induction cs generalizing ds with
  | nil =>
    cases ds with
    | nil => exact ⟨rfl, (List.cons.inj h).2⟩
    | cons d ds =>
      rw [List.flatMap_cons, List.append_assoc] at h
      exact absurd h.symm escaped_append_ne
  | cons c cs ih =>
    cases ds with
    | nil =>
      rw [List.flatMap_cons, List.append_assoc] at h
      exact absurd h escaped_append_ne
    | cons d ds =>
      rw [List.flatMap_cons, List.flatMap_cons, List.append_assoc, List.append_assoc] at h
      obtain ⟨rfl, rest⟩ := escaped_append_inj h
      obtain ⟨rfl, rfl⟩ := ih rest
      exact ⟨rfl, rfl⟩

/-- A string between quotation marks ends at the second mark. -/
theorem doubleQuotedText_append_inj (h : doubleQuotedText cs ++ t = doubleQuotedText ds ++ u) :
    cs = ds ∧ t = u := by
  have opened (cs t : List Char) :
      doubleQuotedText cs ++ t = '"' :: (cs.flatMap escaped ++ '"' :: t) := by
    show '"' :: (cs.flatMap escaped ++ ['"'] ++ t) = _
    rw [List.append_assoc, List.singleton_append]
  rw [opened, opened] at h
  exact flatMap_escaped_append_inj (List.cons.inj h).2

/-! ## Literals -/

/-- A text whose first line is less indented than a column, and not just a break. -/
inductive Outdented (column : Nat) : List Char → Prop
  | done : Outdented column []
  | line (k : Nat) (x : Char) (rest : List Char) (less : k < column) (not_space : x ≠ ' ')
      (not_break : isBreak x = false) : Outdented column (pad k ++ x :: rest)

lemma Outdented.mono {column' : Nat} (h : Outdented column t) (le : column ≤ column') :
    Outdented column' t := by
  cases h with
  | done => exact .done
  | line k x rest less not_space not_break =>
    exact .line k x rest (by omega) not_space not_break

/-- A less indented line has another character in the column. -/
lemma pad_append_ne {k : Nat} {x : Char} (less : k < column) (not_space : x ≠ ' ') :
    pad k ++ x :: t ≠ pad column ++ u := by
  intro h
  have split : pad column = pad k ++ ' ' :: pad (column - k - 1) := by
    show List.replicate column ' ' = _
    rw [show column = k + (column - k - 1 + 1) by omega, List.replicate_add,
      List.replicate_succ]
    simp [pad]
  rw [split, List.append_assoc] at h
  exact not_space (List.cons.inj (List.append_cancel_left h)).1

lemma Outdented.ne_pad (h : Outdented column t) {d : Char} : t ≠ pad column ++ d :: u := by
  intro same
  cases h with
  | done => simp at same
  | line k x rest less not_space not_break => exact pad_append_ne less not_space same

lemma Outdented.ne_break (h : Outdented column t) {d : Char} (hd : isBreak d = true) :
    t ≠ d :: u := by
  intro same
  cases h with
  | done => cases same
  | line k x rest less not_space not_break =>
    have : isBreak d = false :=
      isBreak_of_margin_eq not_break (show margin k true ++ _ = _ from same)
    simp [hd] at this

/-- Indented lines end in front of a line that is less indented. -/
lemma indentLines_append_inj {atStart : Bool} (hcs : endsAtStart atStart cs = true)
    (hds : endsAtStart atStart ds = true) (ht : Outdented column t) (hu : Outdented column u)
    (h : indentLines column atStart cs ++ t = indentLines column atStart ds ++ u) :
    cs = ds ∧ t = u := by
  -- behind the last break of one text the other one does not go on
  have ends {d : Char} {ds t u : List Char} (ht : Outdented column t) :
      t ≠ indentLines column true (d :: ds) ++ u := by
    cases hd : isBreak d with
    | true =>
      rw [indentLines_break hd]
      exact ht.ne_break hd
    | false =>
      rw [indentLines_char hd, List.append_assoc]
      exact ht.ne_pad
  induction cs generalizing atStart ds with
  | nil =>
    obtain rfl : atStart = true := hcs
    cases ds with
    | nil => exact ⟨rfl, h⟩
    | cons d ds => exact absurd h (ends ht)
  | cons c cs ih =>
    cases ds with
    | nil =>
      obtain rfl : atStart = true := hds
      exact absurd h.symm (ends hu)
    | cons d ds =>
      rw [endsAtStart] at hcs hds
      cases hc : isBreak c <;> cases hd : isBreak d <;> rw [hc] at hcs <;> rw [hd] at hds
      · rw [indentLines_char hc, indentLines_char hd, List.append_assoc, List.append_assoc] at h
        obtain ⟨rfl, rest⟩ := List.cons.inj (List.append_cancel_left h)
        obtain ⟨rfl, rfl⟩ := ih hcs hds rest
        exact ⟨rfl, rfl⟩
      · rw [indentLines_char hc, indentLines_break hd, List.append_assoc] at h
        exact absurd (isBreak_of_margin_eq hc h) (by simp [hd])
      · rw [indentLines_break hc, indentLines_char hd, List.append_assoc] at h
        exact absurd (isBreak_of_margin_eq hd h.symm) (by simp [hc])
      · rw [indentLines_break hc, indentLines_break hd] at h
        obtain ⟨rfl, rest⟩ := List.cons.inj h
        obtain ⟨rfl, rfl⟩ := ih hcs hds rest
        exact ⟨rfl, rfl⟩

/-- The header of a literal is bare and shows whether the text ends with a break. -/
lemma literalHeader_shows (cs : List Char) :
    Bare (literalHeader cs) ∧ ('-' ∉ literalHeader cs ↔ endsWithBreak cs = true) := by
  unfold literalHeader
  -- the header is made of three bits
  generalize (cs.head? == some ' ' || startsWithBreak cs) = indented
  generalize (cs.length == 1 || endsWithBreak cs.dropLast) = kept
  generalize endsWithBreak cs = ends
  cases indented <;> cases kept <;> cases ends <;> exact ⟨⟨by decide, by decide⟩, by decide⟩

/-- A literal with all its lines ended. -/
def literalLine (column : Nat) (cs : List Char) : List Char :=
  literalText column cs ++ if endsWithBreak cs then [] else ['\n']

/-- A text with its last line ended. -/
def ended (cs : List Char) : List Char := if endsWithBreak cs then cs else cs ++ ['\n']

lemma endsAtStart_ended (cs : List Char) : endsAtStart true (ended cs) = true := by
  rw [endsAtStart_eq]
  unfold ended
  split
  · next ends => simp [ends]
  · simp [endsWithBreak, isBreak]

lemma indentLines_newline (column : Nat) (atStart : Bool) (cs : List Char) :
    indentLines column atStart (cs ++ ['\n']) = indentLines column atStart cs ++ ['\n'] := by
  induction cs generalizing atStart with
  | nil => rfl
  | cons c cs ih =>
    rw [List.cons_append]
    cases hc : isBreak c with
    | true => rw [indentLines_break hc, indentLines_break hc, ih, List.cons_append]
    | false =>
      rw [indentLines_char hc, indentLines_char hc, ih, List.append_assoc, List.cons_append]

lemma literalLine_eq (column : Nat) (cs : List Char) :
    literalLine column cs = literalHeader cs ++ '\n' :: indentLines column true (ended cs) := by
  unfold literalLine literalText ended
  split
  · rw [List.append_nil]
  · rw [indentLines_newline, List.append_assoc, List.cons_append]

/-- A literal ends in front of a line that is less indented. -/
theorem literalLine_append_inj (ht : Outdented column t) (hu : Outdented column u)
    (h : literalLine column cs ++ t = literalLine column ds ++ u) : cs = ds ∧ t = u := by
  obtain ⟨bare, ends⟩ := literalHeader_shows cs
  obtain ⟨bare', ends'⟩ := literalHeader_shows ds
  rw [literalLine_eq, literalLine_eq, List.append_assoc, List.append_assoc] at h
  obtain ⟨same_header, body⟩ := bare.append_inj bare' (.line _) (.line _) h
  obtain ⟨ended_eq, rfl⟩ := indentLines_append_inj (endsAtStart_ended cs) (endsAtStart_ended ds)
    ht hu (List.cons.inj body).2
  refine ⟨?_, rfl⟩
  have same_end : endsWithBreak cs = endsWithBreak ds := by
    rw [Bool.eq_iff_iff, ← ends, ← ends', same_header]
  unfold ended at ended_eq
  rw [same_end] at ended_eq
  split at ended_eq
  · exact ended_eq
  · exact List.append_cancel_right ended_eq

end Yaml

end WorkflowFile
