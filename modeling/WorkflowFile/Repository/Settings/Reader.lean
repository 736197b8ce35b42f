import WorkflowFile.Repository.Settings

/-!
# Reading settings

A settings text consists of headings in brackets, settings, comments after `#` or `;`, and
white space between them. A setting has a value after an equals sign or none. A value ends with
its line, but a backslash at the end of the line joins the next one to it.

* `Reader` is what is known after a part of a text, `Reader.advance?` takes one more character.
* `Settings.read?` reads a whole text.
-/

namespace WorkflowFile

namespace Repository

/-- What a value read so far waits for. -/
inductive Expectation where
  | anything
  /-- The character behind a backslash. -/
  | escaped
  /-- The second half of a line end behind a backslash. -/
  | lineEnd
  deriving DecidableEq

/-- The written form of a value of which a part is read, last character first. -/
structure Draft where
  /-- The lines before the last one. -/
  joined : List Char := []
  /-- The last line without the white space at its end. -/
  line : List Char := []
  /-- The white space at the end of the last line. It counts only if more follows. -/
  blanks : List Char := []
  quoted : Bool := false
  expectation : Expectation := .anything
  deriving DecidableEq

/-- Where in a text a reader stands. -/
inductive Place where
  | between
  /-- In the middle of a line end of two characters. -/
  | lineEnd
  | comment
  | heading (name : List Char)
  | beforeSubject (name : List Char)
  | subject (name text : List Char)
  /-- Behind a backslash in the second name of a heading. -/
  | escapedSubject (name text : List Char)
  | afterSubject (name text : List Char)
  | key (name : List Char)
  /-- Behind the white space that follows the name of a setting. -/
  | afterKey (name : List Char)
  | beforeValue (name : List Char)
  | value (name : List Char) (draft : Draft)
  deriving DecidableEq

/-- What is known of the part of a text that is read. -/
structure Reader where
  place : Place := .between
  /-- The sections before the last one, last one first. -/
  finished : List Section := []
  /-- The last section. -/
  open? : Option Section := none
  deriving DecidableEq

/-- White space between the items of a line. -/
def isBlank (c : Char) : Bool := c == ' ' || c == '\t'

/-- White space that does not count at the end of a value. -/
def isTrimmed (c : Char) : Bool := isBlank c || c == '\r' || c == '\x0c'

def isCommentMark (c : Char) : Bool := c == '#' || c == ';'

/-- A character of a name. The name of a setting starts with a letter. -/
def isNameCharacter (c : Char) : Bool := c.isAlphanum || c == '-'

/-! ## Headings -/

/-- The heading in brackets without quotes: what follows the last dot is the second name. -/
def Heading.ofName? (name : List Char) : Option Heading :=
  let after := (name.reverse.takeWhile (· != '.')).reverse
  if after.length == name.length then some { name := String.ofList name }
  else
    let before := name.take (name.length - after.length - 1)
    if before.isEmpty then none
    else some { name := String.ofList before, subject? := some (String.ofList after) }

/-! ## Values -/

namespace Draft

/-- The draft with more characters at its end, which are given last one first. -/
def push (d : Draft) (written : List Char) : Draft :=
  { d with line := written ++ (d.blanks ++ d.line), blanks := [], expectation := .anything }

/-- The draft at the start of a joined line. -/
def join (d : Draft) : Draft :=
  { d with joined := d.blanks ++ (d.line ++ d.joined), line := [], blanks := [],
           expectation := .anything }

/-- The draft after a character behind a backslash. -/
def escape? (d : Draft) (c : Char) : Option Draft :=
  if c == '\n' then some d.join
  else if c == '\r' then some { d with expectation := .lineEnd }
  else if "nt\\b\"".toList.contains c then some (d.push [c, '\\'])
  else none

/-- The value of a draft. -/
def value (d : Draft) : Value := .decode (d.line ++ d.joined).reverse

/-- The value of a draft at the end of a text. An empty joined line there takes away all lines
before it. -/
def lastValue (d : Draft) : Value :=
  if d.line.isEmpty && d.blanks.isEmpty then {} else d.value

/-- The white space at the end of a draft can stand before a line end. -/
def endsLine (d : Draft) : Bool :=
  match d.blanks with
  | '\r' :: blanks => blanks.all isBlank
  | blanks => blanks.all isBlank

/-- The white space at the end of a draft can stand inside a line. -/
def endsItem (d : Draft) : Bool := d.blanks.all isBlank

end Draft

/-! ## Reading on -/

namespace Reader

/-- The reader at another place. -/
def goTo (r : Reader) (place : Place) : Reader := { r with place }

/-- All sections that are read. -/
def sections (r : Reader) : List Section := (r.open?.toList ++ r.finished).reverse

/-- The reader behind a heading. -/
def enter (r : Reader) (heading : Heading) : Reader :=
  { place := .between, finished := r.open?.toList ++ r.finished, open? := some { heading } }

/-- The reader behind a setting. -/
def add (r : Reader) (name : List Char) (value : Option Value) : Reader :=
  let setting : Setting := ⟨String.ofList name, value⟩
  { r with
    place := .between,
    open? := r.open?.map fun part => { part with settings := part.settings ++ [setting] } }

/-- The reader after a character between two items. -/
def begin? (r : Reader) (c : Char) : Option Reader :=
  if isBlank c || c == '\n' then some (r.goTo .between)
  else if c == '\r' then some (r.goTo .lineEnd)
  else if isCommentMark c then some (r.goTo .comment)
  else if c == '[' then some (r.goTo (.heading []))
  else if c.isAlpha && r.open?.isSome then some (r.goTo (.key [c.toLower]))
  else none

/-- The reader after a character of a value or behind it. -/
def advanceValue? (r : Reader) (name : List Char) (d : Draft) (c : Char) : Option Reader :=
  match d.expectation with
  | .escaped => (d.escape? c).map fun d => r.goTo (.value name d)
  | .lineEnd => if c == '\n' then some (r.goTo (.value name d.join)) else none
  | .anything =>
    if c == '\\' then some (r.goTo (.value name { d with expectation := .escaped }))
    else if c == '"' then some (r.goTo (.value name { d.push [c] with quoted := !d.quoted }))
    else if c == '\n' then
      if !d.quoted && d.endsLine then some (r.add name (some d.value)) else none
    else if isCommentMark c && !d.quoted then
      if d.endsItem then (r.add name (some d.value)).begin? c else none
    else if isTrimmed c then some (r.goTo (.value name { d with blanks := c :: d.blanks }))
    else some (r.goTo (.value name (d.push [c])))

/-- The reader after one more character, if it can stand there. A setting whose name is followed
by white space has an empty value if no equals sign follows. -/
def advance? (r : Reader) (c : Char) : Option Reader :=
  match r.place with
  | .between => r.begin? c
  | .lineEnd => if c == '\n' then some (r.goTo .between) else none
  | .comment => some (if c == '\n' then r.goTo .between else r)
  | .heading name =>
    if isNameCharacter c || c == '.' then some (r.goTo (.heading (name ++ [c])))
    else if name.isEmpty then none
    else if c == ']' then (Heading.ofName? name).map r.enter
    else if isBlank c then some (r.goTo (.beforeSubject name))
    else none
  | .beforeSubject name =>
    if isBlank c then some r
    else if c == '"' then some (r.goTo (.subject name []))
    else none
  | .subject name text =>
    if c == '"' then some (r.goTo (.afterSubject name text))
    else if c == '\\' then some (r.goTo (.escapedSubject name text))
    else if c == '\n' || c == '\x00' then none
    else some (r.goTo (.subject name (text ++ [c])))
  | .escapedSubject name text =>
    if c == '\n' then none else some (r.goTo (.subject name (text ++ [c])))
  | .afterSubject name text =>
    if c == ']' then some (r.enter ⟨String.ofList name, some (String.ofList text)⟩) else none
  | .key name =>
    if isNameCharacter c then some (r.goTo (.key (name ++ [c.toLower])))
    else if c == '=' then some (r.goTo (.beforeValue name))
    else if isBlank c then some (r.goTo (.afterKey name))
    else (r.add name none).begin? c
  | .afterKey name =>
    if c == '=' then some (r.goTo (.beforeValue name))
    else if isBlank c then some r
    else (r.add name (some {})).begin? c
  | .beforeValue name => if isBlank c then some r else r.advanceValue? name {} c
  | .value name d => r.advanceValue? name d c

/-- The reader at the end of a text, if the text can end there. -/
def finish? (r : Reader) : Option Reader :=
  match r.place with
  | .between | .comment => some r
  | .key name => some (r.add name none)
  | .afterKey name | .beforeValue name => some (r.add name (some {}))
  | .value name d =>
    if d.quoted || d.expectation != .anything || !d.endsItem then none
    else some (r.add name (some d.lastValue))
  | _ => none

end Reader

/-- The mark that a text may have at its start. -/
def byteOrderMark : Char := '\ufeff'

/-- The settings that a text lists. -/
def Settings.read? (text : String) : Option Settings := do
  let marked := text.toList
  let unmarked := if marked.head? == some byteOrderMark then marked.tail else marked
  let r ← unmarked.foldlM Reader.advance? {}
  return ⟨(← r.finish?).sections⟩

end Repository

end WorkflowFile
