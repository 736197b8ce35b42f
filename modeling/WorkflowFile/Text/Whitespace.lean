/-!
# White space

* `Text.isWhitespace` is the Unicode property White_Space.
* `Text.trimEnd` removes the white space at the end of a text.
-/

namespace WorkflowFile

namespace Text

/-- The Unicode property White_Space. -/
def isWhitespace (c : Char) : Bool :=
  let n := c.toNat
  (0x9 ≤ n && n ≤ 0xD) || n == 0x20 || n == 0x85 || n == 0xA0 || n == 0x1680 ||
    (0x2000 ≤ n && n ≤ 0x200A) || n == 0x2028 || n == 0x2029 || n == 0x202F ||
    n == 0x205F || n == 0x3000

/-- The text without the white space at its end. -/
def trimEnd : List Char → List Char
  | [] => []
  | c :: cs =>
    match trimEnd cs with
    | [] => if isWhitespace c then [] else [c]
    | rest => c :: rest

end Text

end WorkflowFile
