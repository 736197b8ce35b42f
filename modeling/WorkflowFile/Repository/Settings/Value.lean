import WorkflowFile.Path
import WorkflowFile.Text.Digits

/-!
# Values of settings

A value is written with quotes and backslashes. It stands for bytes, which are usually but not
always a text.

* `Value.decode` is the value that a written form stands for.
* `Value.flag?` and `Value.number?` are what a value means as a flag or as a number.
* `Value.path?` is the path that a value means.
-/

namespace WorkflowFile

namespace Repository

/-- The bytes of a value. -/
structure Value where
  bytes : List UInt8 := []
  deriving DecidableEq

namespace Value

/-! ## Decoding -/

/-- The bytes of a character, last one first. -/
def bytesBack (c : Char) : List UInt8 := (String.utf8EncodeChar c).reverse

/-- The bytes a written form stands for, last one first, after those in `done`. Quotes vanish.
A rubout takes back the byte before it. -/
def decodeBack (done : List UInt8) : List Char → List UInt8
  | '\\' :: 'n' :: rest => decodeBack (bytesBack '\n' ++ done) rest
  | '\\' :: 't' :: rest => decodeBack (bytesBack '\t' ++ done) rest
  | '\\' :: 'b' :: rest => decodeBack done.tail rest
  | '\\' :: c :: rest => decodeBack (bytesBack c ++ done) rest
  | '"' :: rest => decodeBack done rest
  | c :: rest => decodeBack (bytesBack c ++ done) rest
  | [] => done

/-- The value that a written form stands for. -/
def decode (written : List Char) : Value := ⟨(decodeBack [] written).reverse⟩

/-- The text of a value, if its bytes are one. -/
def text? (v : Value) : Option String := String.fromUTF8? ⟨v.bytes.toArray⟩

/-! ## Flags and numbers -/

/-- The first natural number that is out of the range of numbers. -/
def numberBound : Int := 9223372036854775808

/-- A number that is in the range of numbers. -/
def inRange? (n : Int) : Option Int :=
  if -numberBound ≤ n ∧ n < numberBound then some n else none

/-- The number that decimal digits denote after an optional sign. -/
def plainNumber? (cs : List Char) : Option Int := (Text.intOfText? cs).bind inRange?

/-- The factor that a letter at the end of a number stands for. -/
def factor? (c : Char) : Option Int :=
  if c == 'k' || c == 'K' then some 1024
  else if c == 'm' || c == 'M' then some (1024 * 1024)
  else if c == 'g' || c == 'G' then some (1024 * 1024 * 1024)
  else none

/-- The number that a text denotes, which may have a factor at its end. -/
def numberOf? (cs : List Char) : Option Int :=
  match plainNumber? cs with
  | some n => some n
  | none => do
    let factor ← factor? (← cs.getLast?)
    let n ← plainNumber? cs.dropLast
    inRange? (n * factor)

/-- The number that a value means. -/
def number? (v : Value) : Option Int := v.text?.bind fun text => numberOf? text.toList

/-- The text of a value without regard to case. -/
def word? (v : Value) : Option String :=
  v.text?.map fun text => String.ofList (text.toList.map Char.toLower)

/-- The flag that a value means: one of several words, or a number that is not zero. -/
def flag? (v : Value) : Option Bool :=
  v.word?.bind fun word =>
    if word ∈ ["true", "yes", "on"] then some true
    else if word ∈ ["false", "no", "off", ""] then some false
    else (plainNumber? word.toList).map (· != 0)

/-! ## Paths -/

/-- The text of a path, which may be marked as one that need not exist. It must not be empty, and
it must not begin with the home of a user or the place of the program, which are not known. -/
def pathText? (text : List Char) : Option (List Char) :=
  let path := (":(optional)".toList.isPrefixOf? text).getD text
  if path.isEmpty || "%(prefix)/".toList.isPrefixOf path ||
      path.head? == some '~' && path.contains '/' then none
  else some path

/-- The path that a value means. -/
def path? (v : Value) : Option Path :=
  v.text?.bind fun text => (pathText? text.toList).map fun path => ⟨String.ofList path⟩

end Value

end Repository

end WorkflowFile
