import WorkflowFile.Text.Digits

/-!
# Texts that read as numbers

A plain scalar with one of these spellings would be read as a number, so a string with
such a spelling has to be quoted.

* `Yaml.isInteger`: signed decimal, hexadecimal, octal and binary integers of 128 bits.
* `Yaml.isFloat`: decimal fractions that a double can hold, infinities and not-a-number.
* `Yaml.isZeroPadded`: digits after a leading zero, which readers disagree about.
-/

namespace WorkflowFile

namespace Yaml

open Text (natOfText? natOfDigits dropSign)

/-! ## Integers -/

/-- The magnitude of an unsigned integer: after `0x`, `0o` or `0b` in that radix, otherwise
decimal without a leading zero. -/
def magnitude? : List Char → Option Nat
  | '0' :: 'x' :: ds => natOfText? 16 ds
  | '0' :: 'o' :: ds => natOfText? 8 ds
  | '0' :: 'b' :: ds => natOfText? 2 ds
  | ['0'] => some 0
  | '0' :: _ => none
  | ds => natOfText? 10 ds

/-- Whether a text reads as an integer of 128 bits, unsigned or signed. -/
def isInteger : List Char → Bool
  | '-' :: cs => (magnitude? cs).any (· ≤ Nat.pow 2 127)
  | '+' :: cs => (magnitude? cs).any (· < Nat.pow 2 128)
  | cs => (magnitude? cs).any (· < Nat.pow 2 128)

/-- Whether a text is a zero and further digits after an optional sign. -/
def isZeroPadded (cs : List Char) : Bool :=
  match dropSign cs with
  | '0' :: d :: ds => (d :: ds).all Char.isDigit
  | _ => false

/-! ## Floats -/

/-- The least magnitude that rounds to infinity: half a unit above the largest double. -/
def overflow : Nat := Nat.pow 2 1024 - Nat.pow 2 970

/-- Whether the decimal digits `ds`, scaled by a power of ten, round to a finite double. -/
def fitsDouble (ds : List Char) (exponent : Int) : Bool :=
  let n := natOfDigits 10 ds
  match exponent with
  -- any positive number of more than 309 digits is too large
  | .ofNat e => n == 0 || (e ≤ 308 && n * Nat.pow 10 e < overflow)
  -- the digits denote less than one if there are no more of them than places
  | .negSucc e => ds.length ≤ e + 1 || n < overflow * Nat.pow 10 (e + 1)

/-- The exponent that ends a float, if there is one: a letter `e`, an optional sign and
digits. No text at all stands for zero. -/
def exponent? : List Char → Option Int
  | [] => some 0
  | e :: cs =>
    if e == 'e' || e == 'E' then
      match cs with
      | '-' :: ds => (natOfText? 10 ds).map fun n => -(n : Int)
      | '+' :: ds => (natOfText? 10 ds).map fun n => (n : Int)
      | ds => (natOfText? 10 ds).map fun n => (n : Int)
    else none

/-- The digits after the point, and what follows them. -/
def fraction : List Char → List Char × List Char
  | '.' :: cs => cs.span Char.isDigit
  | cs => ([], cs)

/-- Whether an unsigned text is a decimal fraction with an optional exponent that a double
can hold. -/
def isDecimal (cs : List Char) : Bool :=
  let (whole, rest) := cs.span Char.isDigit
  let (places, rest) := fraction rest
  !(whole.isEmpty && places.isEmpty) &&
    (exponent? rest).any fun e => fitsDouble (whole ++ places) (e - places.length)

/-- Whether a text reads as a float. -/
def isFloat (cs : List Char) : Bool :=
  isDecimal (dropSign cs) ||
    [".inf".toList, ".Inf".toList, ".INF".toList].contains (dropSign cs) ||
    [".nan".toList, ".NaN".toList, ".NAN".toList].contains cs

end Yaml

end WorkflowFile
