import WorkflowFile.Text.Lines
import WorkflowFile.Text.Whitespace

/-!
# Preambles

The comment at the head of a generated file.

* `Preamble.comment` turns free text into a block of comment lines and an empty line.
* `Preamble.provenance` says that the file is generated and from what.
* `Preamble.compose` puts provenance and custom text together.
-/

namespace WorkflowFile

/-- How the comment at the head of a file is made up. -/
inductive Preamble where
  /-- The provenance alone. -/
  | generated
  /-- The custom text alone. -/
  | replace (text : String)
  /-- The custom text and then the provenance. -/
  | before (text : String)
  /-- The provenance and then the custom text. -/
  | after (text : String)
  deriving DecidableEq

namespace Preamble

/-- The comment for a line of text, without white space at its end. -/
def commentLine (line : List Char) : List Char := Text.trimEnd ('#' :: ' ' :: line)

/-- The comment for a text, with an empty line after it. No text needs no comment. -/
def comment (text : String) : String :=
  if text.isEmpty then ""
  else
    let lines := (Text.split '\n' text.toList).map commentLine
    String.ofList (Text.join '\n' lines ++ ['\n', '\n'])

/-- The text that says where a file comes from, naming the definition if its locator is
known. -/
def provenance : Option String → String
  | some locator =>
    "This file was generated using a typed workflow definition (" ++ locator ++ ").\n" ++
      "If you want to modify the workflow, please change the definition and regenerate this " ++
      "YAML file.\nGenerated with actionsmith"
  | none =>
    "This file was generated using a typed workflow definition.\n" ++
      "If you want to modify the workflow, please change the definition source and " ++
      "regenerate this YAML file.\nGenerated with actionsmith"

/-- The comment at the head of a file. A replacement by no text leaves the provenance. -/
def compose (p : Preamble) (locator : Option String) : String :=
  let generatedComment := comment (provenance locator)
  match p with
  | generated => generatedComment
  | replace text => if text.isEmpty then generatedComment else comment text
  | before text => comment text ++ generatedComment
  | after text => generatedComment ++ comment text

end Preamble

end WorkflowFile
