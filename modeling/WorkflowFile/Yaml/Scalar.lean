import WorkflowFile.Yaml.Character
import WorkflowFile.Yaml.Numeral

/-!
# Scalars as YAML text

A string is written in one of four styles. Its content suggests a style; a style that
could not be read back as the same string gives way to a stronger one.

* `Yaml.styleOf` picks the style.
* `Yaml.scalarText` writes a string in its style, with the lines after the first indented.
* `Yaml.scalarLine` also ends the line, unless the text already ends with a break.
-/

namespace WorkflowFile

namespace Yaml

/-! ## Styles -/

/-- The ways to write a string. -/
inductive Style where
  /-- The text itself. -/
  | plain
  /-- Between apostrophes, an apostrophe written twice. -/
  | singleQuoted
  /-- Between quotation marks, with escapes. -/
  | doubleQuoted
  /-- Line by line below a header. -/
  | literal
  deriving DecidableEq

/-- The plain spellings of null and the booleans. -/
def keywords : List String :=
  ["~", "null", "Null", "NULL", "true", "True", "TRUE", "false", "False", "FALSE"]

/-- Whether a plain scalar with this text would not be read as a string. -/
def readsAsOther (cs : List Char) : Bool :=
  cs.isEmpty || keywords.contains (String.ofList cs) || isInteger cs || isFloat cs ||
    isZeroPadded cs

/-- The style that the content of a string suggests. -/
def suggestedStyle (cs : List Char) : Style :=
  if cs.contains '\n' then .literal
  else if readsAsOther cs then .singleQuoted
  else .plain

/-- The characters that no plain scalar begins with. -/
def indicators : List Char :=
  ['#', ',', '[', ']', '{', '}', '&', '*', '!', '|', '>', '\'', '"', '%', '@', '\x60']

/-- Whether a text begins like a document marker. -/
def startsLikeMarker : List Char → Bool
  | '-' :: '-' :: '-' :: _ => true
  | '.' :: '.' :: '.' :: _ => true
  | _ => false

/-- Whether the rest of a text is empty or begins with a blank. -/
def blankFollows : List Char → Bool
  | [] => true
  | c :: _ => isBlank c

/-- Whether a text begins with an indicator. -/
def startsWithIndicator : List Char → Bool
  | [] => false
  | c :: cs =>
    indicators.contains c || ((c == '?' || c == ':' || c == '-') && blankFollows cs)

/-- Whether a text has a colon before a blank or at its end. -/
def hasKeyIndicator : List Char → Bool
  | [] => false
  | c :: cs => (c == ':' && blankFollows cs) || hasKeyIndicator cs

/-- Whether a string can be written as it is. -/
def allowsPlain (cs : List Char) : Bool :=
  !startsLikeMarker cs && !startsWithIndicator cs && !hasKeyIndicator cs &&
    !anyAdjacent (fun a b => isBlank a && b == '#') cs &&
    cs.head? != some ' ' && cs.getLast? != some ' ' &&
    cs.all fun c => isPrintable c && !isBreak c

/-- Whether a string can be written between apostrophes. -/
def allowsSingleQuoted (cs : List Char) : Bool :=
  cs.all isPrintable &&
    !anyAdjacent (fun a b => (isBreak a && b == ' ') || (a == ' ' && isBreak b)) cs

/-- Whether a string can be written line by line. -/
def allowsLiteral (cs : List Char) : Bool :=
  cs.all isPrintable && cs.getLast? != some ' ' &&
    !anyAdjacent (fun a b => a == ' ' && isBreak b) cs

/-- The style a string is written in: the suggested one, or the next that allows it. -/
def styleOf (cs : List Char) : Style :=
  match suggestedStyle cs with
  | .plain =>
    if allowsPlain cs then .plain
    else if allowsSingleQuoted cs then .singleQuoted
    else .doubleQuoted
  | .literal => if allowsLiteral cs then .literal else .doubleQuoted
  | _ => if allowsSingleQuoted cs then .singleQuoted else .doubleQuoted

/-! ## Writing in a style -/

/-- Spaces up to a column. -/
def pad (column : Nat) : List Char := List.replicate column ' '

/-- A text with spaces before the first character of every line that has one. The flag says
whether the text begins a line. -/
def indentLines (column : Nat) : Bool → List Char → List Char
  | _, [] => []
  | atStart, c :: cs =>
    if isBreak c then c :: indentLines column true cs
    else (if atStart then pad column else []) ++ c :: indentLines column false cs

/-- A text with every apostrophe written twice. -/
def doubleApostrophes (cs : List Char) : List Char :=
  cs.flatMap fun c => if c == '\'' then ['\'', '\''] else [c]

/-- A string between apostrophes. -/
def singleQuotedText (column : Nat) (cs : List Char) : List Char :=
  '\'' :: indentLines column false (doubleApostrophes cs) ++
    (if endsWithBreak cs then pad column else []) ++ ['\'']

/-- The last `n` hexadecimal digits of a number, upper case. -/
def hexDigits (n value : Nat) : List Char :=
  match n with
  | 0 => []
  | n + 1 => hexDigits n (value / 16) ++ [(Nat.digitChar (value % 16)).toUpper]

/-- The escapes that have a letter or sign of their own. -/
def shortEscapes : List (Char × Char) :=
  [('\x00', '0'), ('\x07', 'a'), ('\x08', 'b'), ('\t', 't'), ('\n', 'n'), ('\x0b', 'v'),
    ('\x0c', 'f'), ('\r', 'r'), ('\x1b', 'e'), ('"', '"'), ('\\', '\\'), ('\u0085', 'N'),
    ('\u2028', 'L'), ('\u2029', 'P')]

/-- The escape sequence of a character: the short one if there is one, else its number in
two, four or eight digits. -/
def escape (c : Char) : List Char :=
  match shortEscapes.lookup c with
  | some letter => ['\\', letter]
  | none =>
    if c.toNat ≤ 0xFF then '\\' :: 'x' :: hexDigits 2 c.toNat
    else if c.toNat ≤ 0xFFFF then '\\' :: 'u' :: hexDigits 4 c.toNat
    else '\\' :: 'U' :: hexDigits 8 c.toNat

/-- Whether a character is escaped between quotation marks. -/
def needsEscape (c : Char) : Bool := !isPrintable c || isBreak c || c == '"' || c == '\\'

/-- A string between quotation marks. -/
def doubleQuotedText (cs : List Char) : List Char :=
  '"' :: (cs.flatMap fun c => if needsEscape c then escape c else [c]) ++ ['"']

/-- The header of a literal: an indentation if the first line does not show it, and how the
text ends. -/
def literalHeader (cs : List Char) : List Char :=
  let indentation := if cs.head? == some ' ' || startsWithBreak cs then ['2'] else []
  let ending :=
    if !endsWithBreak cs then ['-']
    else if cs.length == 1 || endsWithBreak cs.dropLast then ['+']
    else []
  '|' :: indentation ++ ending

/-- A string line by line below its header. -/
def literalText (column : Nat) (cs : List Char) : List Char :=
  literalHeader cs ++ '\n' :: indentLines column true cs

/-- A string in its style, lines after the first indented to a column. -/
def scalarText (column : Nat) (cs : List Char) : List Char :=
  match styleOf cs with
  | .plain => cs
  | .singleQuoted => singleQuotedText column cs
  | .doubleQuoted => doubleQuotedText cs
  | .literal => literalText column cs

/-- A string in its style up to the end of its last line. -/
def scalarLine (column : Nat) (cs : List Char) : List Char :=
  scalarText column cs ++
    if styleOf cs = .literal && endsWithBreak cs then [] else ['\n']

end Yaml

end WorkflowFile
