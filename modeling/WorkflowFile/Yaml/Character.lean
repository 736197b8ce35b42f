/-!
# Character classes of YAML text

* `Yaml.isBreak`: the characters that end a line.
* `Yaml.isBlank`: what may stand around an indicator, the end of the text included as NUL.
* `Yaml.isPrintable`: what may stand in a text unescaped.
-/

namespace WorkflowFile

namespace Yaml

/-- The characters that end a line. -/
def isBreak (c : Char) : Bool :=
  c == '\n' || c == '\r' || c == '\u0085' || c == '\u2028' || c == '\u2029'

/-- Space, tab, NUL and the breaks. -/
def isBlank (c : Char) : Bool := c == ' ' || c == '\t' || c == '\x00' || isBreak c

/-- The characters that are written as they are. -/
def isPrintable (c : Char) : Bool :=
  let n := c.toNat
  n == 0xA || (0x20 ≤ n && n ≤ 0x7E) ||
    (0xA0 ≤ n && n != 0xFEFF && n != 0xFFFE && n != 0xFFFF)

/-- Whether a text begins with a break. -/
def startsWithBreak : List Char → Bool
  | [] => false
  | c :: _ => isBreak c

/-- Whether a text ends with a break. -/
def endsWithBreak (cs : List Char) : Bool := cs.getLast?.any isBreak

/-- Whether some two neighbours in a text are related by `r`. -/
def anyAdjacent (r : Char → Char → Bool) : List Char → Bool
  | a :: b :: cs => r a b || anyAdjacent r (b :: cs)
  | _ => false

end Yaml

end WorkflowFile
