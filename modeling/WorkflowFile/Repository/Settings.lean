import WorkflowFile.Repository.Settings.Value

/-!
# Settings of a repository

Settings stand below headings. Which of several settings of one name counts depends on the
kind of value that is asked for.

* `Section.last?` is the last setting of a name below one heading.
* `Settings.flag?` is the value of a flag, for which a setting without a value counts, and
  `Settings.flag` what is assumed where there is none.
* `Settings.value?` is the value of a setting that has one.
-/

namespace WorkflowFile

namespace Repository

/-- A setting, whose name is in lower case. -/
structure Setting where
  name : String
  value? : Option Value
  deriving DecidableEq

/-- A heading, which may have a second name. -/
structure Heading where
  name : String
  subject? : Option String := none
  deriving DecidableEq

/-- Settings below a heading. -/
structure Section where
  heading : Heading
  settings : List Setting := []
  deriving DecidableEq

/-- Settings in the order of a text. -/
structure Settings where
  sections : List Section := []
  deriving DecidableEq

/-- The first name of a heading is the given one but for case. -/
def Heading.startsWith (h : Heading) (name : String) : Bool :=
  h.name.toList.map Char.toLower == name.toList

/-- A heading has one name only, which is the given one but for case. -/
def Heading.isNamed (h : Heading) (name : String) : Bool :=
  h.subject?.isNone && h.startsWith name

namespace Section

/-- What the last setting of a name says. -/
def last? (s : Section) (name : String) : Option (Option Value) :=
  (s.settings.reverse.find? (·.name == name)).map (·.value?)

/-- The values of all settings of a name, where a missing value is empty. -/
def values (s : Section) (name : String) : List Value :=
  (s.settings.filter (·.name == name)).map (·.value?.getD {})

end Section

namespace Settings

/-- The sections below a heading, last one first. -/
def sectionsBack (s : Settings) (heading : String) : List Section :=
  (s.sections.filter (·.heading.isNamed heading)).reverse

/-- What the last section that has a setting of a name says for it. -/
def setting? (s : Settings) (heading name : String) : Option (Option Value) :=
  (s.sectionsBack heading).findSome? (·.last? name)

/-- The flag that a setting is, if it is one. A setting without a value is a set flag. -/
def flag? (s : Settings) (heading name : String) : Option Bool :=
  (s.setting? heading name).bind fun
    | some v => v.flag?
    | none => some true

/-- The flag that a setting is, where `unset` holds without the setting. A setting that is no
flag is not set. -/
def flag (s : Settings) (heading name : String) (unset : Bool) : Bool :=
  if (s.setting? heading name).isNone then unset else s.flag? heading name == some true

/-- A value, given by the last section in which the last setting for it has one. -/
def value? (s : Settings) (heading name : String) : Option Value :=
  (s.sectionsBack heading).findSome? fun part => (part.last? name).join

end Settings

end Repository

end WorkflowFile
