/-!
# Bytes

A text is stored as bytes. Bytes that come from elsewhere need not be those of a text; where they
are not, they are shown with replacement characters.

* `Text.encode` are the bytes of a text. `Text.spread` writes a byte as the character with its
  number, and `Text.gather` reads it back.
* `Text.first?` is the character that bytes start with.
* `Text.shown` is the text that bytes are shown as. It has one replacement character for as many
  bytes as could be the beginning of a character, and for every other byte that is in none.
-/

namespace WorkflowFile

namespace Text

/-- The bytes of a text. -/
def encode (text : List Char) : List UInt8 := text.flatMap String.utf8EncodeChar

/-- Bytes, each as the character with its number. -/
def spread (bytes : List UInt8) : List Char := bytes.map Char.ofUInt8

/-- The bytes with the numbers of characters. -/
def gather (text : List Char) : List UInt8 := text.map Char.toUInt8

/-- The bytes of a text, each as the character with its number. -/
def bytes (text : List Char) : List Char := spread (encode text)

/-- The character whose bytes are a beginning of the given ones. -/
def first? (bytes : List UInt8) : Option Char := bytes.toByteArray.utf8DecodeChar? 0

/-- What is shown for bytes that are no character. -/
def replacement : Char := '\uFFFD'

/-- The ranges of the bytes that come behind the first byte of a character. -/
def ranges (lead : UInt8) : List (UInt8 × UInt8) :=
  let any := (0x80, 0xBF)
  if lead < 0xC2 then []
  else if lead < 0xE0 then [any]
  else if lead = 0xE0 then [(0xA0, 0xBF), any]
  else if lead = 0xED then [(0x80, 0x9F), any]
  else if lead < 0xF0 then [any, any]
  else if lead = 0xF0 then [(0x90, 0xBF), any, any]
  else if lead < 0xF4 then [any, any, any]
  else if lead = 0xF4 then [(0x80, 0x8F), any, any]
  else []

/-- The number of bytes at the beginning that lie in the ranges, one in each. -/
def fitting : List (UInt8 × UInt8) → List UInt8 → Nat
  | (low, high) :: others, byte :: bytes =>
    if low ≤ byte ∧ byte ≤ high then fitting others bytes + 1 else 0
  | _, _ => 0

/-- The text that bytes are shown as, without the first `skip` bytes. -/
def shownFrom : Nat → List UInt8 → List Char
  | _, [] => []
  | skip + 1, _ :: bytes => shownFrom skip bytes
  | 0, byte :: bytes =>
    match first? (byte :: bytes) with
    | some c => c :: shownFrom (c.utf8Size - 1) bytes
    | none => replacement :: shownFrom (fitting (ranges byte) bytes) bytes

/-- The text that bytes are shown as. -/
def shown (bytes : List UInt8) : List Char := shownFrom 0 bytes

end Text

end WorkflowFile
