/-!
# Splitting text at a character

* `Text.split` cuts a text at every occurrence of a separator; `n` separators give
  `n + 1` pieces, some of them possibly empty.
* `Text.join` puts the separator back between the pieces and undoes `Text.split`.
-/

namespace WorkflowFile

namespace Text

/-- Puts a character in front of the first piece. -/
def consFirst (c : Char) : List (List Char) → List (List Char)
  | [] => [[c]]
  | piece :: pieces => (c :: piece) :: pieces

/-- The pieces of a text between the occurrences of `separator`. -/
def split (separator : Char) : List Char → List (List Char)
  | [] => [[]]
  | c :: cs => if c = separator then [] :: split separator cs else consFirst c (split separator cs)

/-- The pieces with `separator` between them. -/
def join (separator : Char) : List (List Char) → List Char
  | [] => []
  | [piece] => piece
  | piece :: next :: pieces => piece ++ separator :: join separator (next :: pieces)

/-- A text has at least one piece. -/
theorem split_ne_nil (separator : Char) (cs : List Char) : split separator cs ≠ [] := by
  cases cs with
  | nil => simp [split]
  | cons c cs =>
    simp only [split]
    split
    · simp
    · cases Text.split separator cs <;> simp [consFirst]

/-- Joining the pieces gives the text back. -/
theorem join_split (separator : Char) (cs : List Char) :
    join separator (split separator cs) = cs := by
  induction cs with
  | nil => simp [split, join]
  | cons c cs ih =>
    have some_piece := split_ne_nil separator cs
    revert ih some_piece
    simp only [split]
    generalize split separator cs = pieces
    intro ih some_piece
    -- the pieces of the rest are a first piece and possibly more
    match pieces, some_piece with
    | [piece], _ => split <;> simp_all [consFirst, join]
    | piece :: next :: pieces, _ => split <;> simp_all [consFirst, join]

end Text

end WorkflowFile
