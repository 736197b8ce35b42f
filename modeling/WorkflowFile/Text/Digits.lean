/-!
# Digits

* `Text.natOfText?` is the number that digits of a radix denote.
* `Text.intOfText?` is the number that decimal digits denote after an optional sign.
-/

namespace WorkflowFile

namespace Text

/-- The value of a digit, with letters of either case above nine. Any other character counts
as too large for every radix. -/
def digitValue (c : Char) : Nat :=
  if c.isDigit then c.toNat - '0'.toNat
  else if 'a' ≤ c && c ≤ 'f' then c.toNat - 'a'.toNat + 10
  else if 'A' ≤ c && c ≤ 'F' then c.toNat - 'A'.toNat + 10
  else 16

/-- The number that digits denote in a radix. -/
def natOfDigits (radix : Nat) (ds : List Char) : Nat :=
  ds.foldl (fun n c => n * radix + digitValue c) 0

/-- The number that a text denotes in a radix, if it consists of digits of that radix. -/
def natOfText? (radix : Nat) (ds : List Char) : Option Nat :=
  if !ds.isEmpty && ds.all (digitValue · < radix) then some (natOfDigits radix ds) else none

/-- The sign at the front of a text, taken off. -/
def dropSign : List Char → List Char
  | '+' :: cs => cs
  | '-' :: cs => cs
  | cs => cs

/-- The integer that a text denotes, if it consists of decimal digits after an optional sign. -/
def intOfText? (cs : List Char) : Option Int :=
  (natOfText? 10 (dropSign cs)).map fun n : Nat => if cs.head? = some '-' then -(n : Int) else n

end Text

end WorkflowFile
