import WorkflowFile.Text.Bytes

/-!
# Wildcards

A pattern stands for texts whose parts are separated by slashes. Patterns and texts are compared
byte by byte, where a byte is written as the character with its number.

* `Wildcard.member?` reads a member of a set of bytes, `Wildcard.ofPattern?` a pattern.
* `Wildcard.acceptsAll` tells whether a text is one of those that the pieces of a pattern stand
  for. It follows the places in the text that can be reached piece by piece.
* `Wildcard.accepts` does both.
-/

namespace WorkflowFile

namespace Text

namespace Wildcard

/-! ## Sets of bytes -/

/-- A kind of bytes that has a name. -/
inductive Kind where
  | alnum | alpha | blank | cntrl | digit | graph | lower | print | punct | space | upper | xdigit
  deriving DecidableEq

namespace Kind

/-- The kind of a name. -/
def ofName? (name : List Char) : Option Kind :=
  [("alnum", alnum), ("alpha", alpha), ("blank", blank), ("cntrl", cntrl), ("digit", digit),
    ("graph", graph), ("lower", lower), ("print", print), ("punct", punct), ("space", space),
    ("upper", upper), ("xdigit", xdigit)].lookup (String.ofList name)

/-- A byte is of a kind. Without regard to case all letters, which are small then, count as
capital ones too. -/
def has (ignoreCase : Bool) (k : Kind) (c : Char) : Bool :=
  match k with
  | alnum => c.isAlphanum
  | alpha => c.isAlpha
  | blank => c.isWhitespace || c == '\x0c'
  | cntrl => c < ' ' || c == '\x7f'
  | digit => c.isDigit
  | graph => '!' ≤ c && c ≤ '~'
  | lower => c.isLower
  | print => ' ' ≤ c && c ≤ '~'
  | punct => '!' ≤ c && c ≤ '~' && !c.isAlphanum
  | space => c == ' '
  | upper => c.isUpper || ignoreCase && c.isLower
  | xdigit => c.isDigit || 'a' ≤ c && c ≤ 'f' || 'A' ≤ c && c ≤ 'F'

end Kind

/-- A member of a set of bytes. -/
inductive Member where
  | exactly (c : Char)
  | range (first last : Char)
  | kind (k : Kind)
  deriving DecidableEq

/-- A letter as it is compared: small if case does not count. -/
def fold (ignoreCase : Bool) (c : Char) : Char := if ignoreCase then c.toLower else c

/-- A byte is between two others. -/
def isBetween (first last c : Char) : Bool := first ≤ c && c ≤ last

/-- A byte, as it is compared, is in a set. Without regard to case a range may also be meant for
capital letters, and its ends may be in either order then. -/
def Member.has (ignoreCase : Bool) (c : Char) : Member → Bool
  | exactly d => c == fold ignoreCase d
  | range first last =>
    isBetween (fold ignoreCase first) (fold ignoreCase last) c ||
      ignoreCase && c.isLower &&
        (isBetween first.toUpper last.toUpper c.toUpper ||
          isBetween last.toUpper first.toUpper c.toUpper)
  | kind k => k.has ignoreCase c

end Wildcard

/-- A piece of a pattern. -/
inductive Wildcard where
  | exactly (c : Char)
  /-- One byte that is not a slash. -/
  | one
  /-- One byte of a set that is not a slash. -/
  | oneOf (members : List Wildcard.Member)
  /-- One byte outside a set that is not a slash. -/
  | noneOf (members : List Wildcard.Member)
  /-- Bytes that are not slashes. -/
  | run
  /-- Any number of whole parts, each with the slash behind it. -/
  | parts
  /-- Any bytes at all. -/
  | anything
  deriving DecidableEq

namespace Wildcard

/-! ## Reading sets -/

/-- The name of a kind of bytes, whose closing colon and bracket come next. -/
def kindName? (cs : List Char) : Option (List Char) :=
  let inside := cs.takeWhile (· != ']')
  if inside.getLast? == some ':' then some inside.dropLast else none

/-- The last byte of a range, and what follows it. -/
def rangeEnd? : List Char → Option (Char × List Char)
  | '\\' :: c :: cs => some (c, cs)
  | c :: cs => if c == ']' || c == '\\' then none else some (c, cs)
  | [] => none

/-- The member of a set that comes next, the byte from which a range can start behind it, and
what follows it. A range can start here from `before?`. -/
def member? (before? : Option Char) : List Char → Option (Member × Option Char × List Char)
  | [] | ['\\'] => none
  | '\\' :: c :: cs => some (.exactly c, some c, cs)
  | '[' :: ':' :: cs =>
    match kindName? cs with
    | some name => (Kind.ofName? name).map fun k => (.kind k, none, cs.drop (name.length + 2))
    | none => some (.exactly '[', some '[', ':' :: cs)
  | '-' :: cs =>
    match before?, rangeEnd? cs with
    | some first, some (last, rest) => some (.range first last, none, rest)
    | _, _ => some (.exactly '-', some '-', cs)
  | c :: cs => some (.exactly c, some c, cs)

/-- What follows a member is shorter than what it starts with. -/
theorem length_lt_of_member? {before? next? : Option Char} {cs rest : List Char} {m : Member}
    (h : member? before? cs = some (m, next?, rest)) : rest.length < cs.length := by
  have shorter : ∀ {cs rest : List Char} {c : Char},
      rangeEnd? cs = some (c, rest) → rest.length < cs.length := by
    intro cs rest c
    fun_cases rangeEnd? cs <;> grind
  revert h
  fun_cases member? before? cs <;> grind [Option.map_eq_some_iff]

/-- The members of a set up to its closing bracket, and what follows that one. -/
def members? (before? : Option Char) (cs : List Char) : Option (List Member × List Char) :=
  match cs with
  | ']' :: rest => some ([], rest)
  | cs =>
    match h : member? before? cs with
    | some (m, next?, rest) =>
      have := length_lt_of_member? h
      (members? next? rest).map fun (ms, after) => (m :: ms, after)
    | none => none
termination_by cs.length

/-- What follows a set is shorter than what it starts with. -/
theorem length_lt_of_members? {before? : Option Char} {cs after : List Char} {ms : List Member}
    (h : members? before? cs = some (ms, after)) : after.length < cs.length := by
  fun_induction members? before? cs generalizing ms after <;>
    grind [length_lt_of_member?, Option.map_eq_some_iff]

/-- A set of bytes behind its opening bracket, and what follows it. A closing bracket can be its
first member. -/
def set? (cs : List Char) : Option (Wildcard × List Char) := do
  let isNegated := cs.head? == some '!' || cs.head? == some '^'
  let (m, next?, rest) ← member? none (if isNegated then cs.tail else cs)
  let (ms, after) ← members? next? rest
  return (if isNegated then noneOf (m :: ms) else oneOf (m :: ms), after)

/-- What follows a set is shorter than what it starts with. -/
theorem length_lt_of_set? {cs after : List Char} {w : Wildcard}
    (h : set? cs = some (w, after)) : after.length < cs.length := by
  simp only [set?, Option.bind_eq_bind, Option.bind_eq_some_iff] at h
  obtain ⟨⟨m, next?, rest⟩, first, ⟨ms, _⟩, others, h⟩ := h
  have := length_lt_of_member? first
  have := length_lt_of_members? others
  split at * <;> grind

/-! ## Reading a pattern -/

/-- The pieces that stars stand for, and what follows them, behind the first star. Several stars
that fill a part stand for any number of parts, others for bytes inside one part. -/
def stars (atStart : Bool) (cs : List Char) : List Wildcard × List Char :=
  let rest := cs.dropWhile (· == '*')
  if atStart && cs.head? == some '*' then
    match rest with
    | [] => ([anything], [])
    | '/' :: after => ([parts], after)
    | '\\' :: '/' :: after => ([anything, exactly '/'], after)
    | _ => ([run], rest)
  else ([run], rest)

/-- What follows stars is not longer than what comes behind the first star. -/
theorem length_stars_le (atStart : Bool) (cs : List Char) :
    (stars atStart cs).2.length ≤ cs.length := by
  have := (List.dropWhile_suffix (l := cs) (· == '*')).length_le
  fun_cases stars atStart cs <;> grind

/-- The pieces of a pattern, or of the rest of one, which is at the start of a part or not. A
pattern must not end inside a set or behind a backslash. -/
def ofPattern? (atStart : Bool) (pattern : List Char) : Option (List Wildcard) :=
  match pattern with
  | [] => some []
  | '*' :: cs =>
    have := length_stars_le atStart cs
    let found := stars atStart cs
    (ofPattern? (found.1 != [run]) found.2).map (found.1 ++ ·)
  | '?' :: cs => (ofPattern? false cs).map (one :: ·)
  | '[' :: cs =>
    match h : set? cs with
    | some (w, rest) =>
      have := length_lt_of_set? h
      (ofPattern? false rest).map (w :: ·)
    | none => none
  | '\\' :: c :: cs => (ofPattern? (c == '/') cs).map (exactly c :: ·)
  | ['\\'] => none
  | c :: cs => (ofPattern? (c == '/') cs).map (exactly c :: ·)
termination_by pattern.length

/-! ## Comparing -/

/-- The places reached from some places of a text by one byte. There is a place in front of each
byte and one at the end. -/
def step (ok : Char → Bool) (text : List Char) (places : List Bool) : List Bool :=
  false :: List.zipWith (fun c here => here && ok c) text places

/-- The places reached from some places of a text by any number of bytes. All places behind one
that is reached are too if `reached` says so, up to a byte that does not fit. -/
def spread (ok : Char → Bool) (reached : Bool) : List Char → List Bool → List Bool
  | _, [] => []
  | [], here :: _ => [reached || here]
  | c :: text, here :: places =>
    (reached || here) :: spread ok ((reached || here) && ok c) text places

/-- The places reached from some places of a text by a piece of a pattern. -/
def reach (ignoreCase : Bool) (text : List Char) (places : List Bool) : Wildcard → List Bool
  | exactly c => step (· == fold ignoreCase c) text places
  | one => step (· != '/') text places
  | oneOf ms => step (fun c => c != '/' && ms.any (·.has ignoreCase c)) text places
  | noneOf ms => step (fun c => c != '/' && !ms.any (·.has ignoreCase c)) text places
  | run => spread (· != '/') false text places
  | parts =>
    let covered := spread (fun _ => true) false text places
    List.zipWith (· || ·) places (step (· == '/') text covered)
  | anything => spread (fun _ => true) false text places

/-- The pieces of a pattern stand for a text. -/
def acceptsAll (ignoreCase : Bool) (ws : List Wildcard) (text : List Char) : Bool :=
  let text := text.map (fold ignoreCase)
  let start := true :: text.map fun _ => false
  (ws.foldl (reach ignoreCase text) start).getLast? == some true

/-- The number of searches that pieces need: one where it is open how far a piece goes. -/
def searches : List Wildcard → Nat
  | [] | [run] | [anything] => 0
  | run :: exactly c :: ws => if c == '/' then searches ws else searches ws + 1
  | w :: ws => if w ∈ [run, anything, parts] then searches ws + 1 else searches ws

/-- How many searches a pattern can need to be of use. -/
def maxSearches : Nat := 63

/-- A pattern stands for a text. One that cannot be read stands for none. -/
def accepts (ignoreCase : Bool) (pattern text : List Char) : Bool :=
  (ofPattern? true (bytes pattern)).any fun ws =>
    searches ws ≤ maxSearches && acceptsAll ignoreCase ws (bytes text)

end Wildcard

end Text

end WorkflowFile
