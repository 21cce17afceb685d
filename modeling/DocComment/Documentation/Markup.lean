import DocComment.Documentation

/-!
# Documentation as Markdown

A documentation record is written down in a normal form: the summary, the parts of the discussion,
and then the fields `Parameters`, `Throws` and `Returns`.  A `Sheet` holds the written parts, and
`Sheet.markup` puts them together, so that the layout is decided in one place.
-/

namespace DocComment

namespace Markup

open Text

/-- A line of a field's body, moved to the column of its bullet's content.  Blank lines stay
empty. -/
def padLine (indent : Nat) (line : List Char) : List Char :=
  if line.all isBlank then [] else List.replicate indent ' ' ++ line

/-- A text as it follows `Name:` in a bullet.  A single line stays on the bullet's line; more lines
become blocks of their own after an empty line, so that the first of them is not read as part of the
name's line. -/
def fieldBody (indent : Nat) (text : String) : String :=
  let body := trim (· == '\n') text.toList
  if body.isEmpty then ""
  else if body.contains '\n' then
    String.ofList ('\n' :: '\n' :: joinNewlines ((splitNewlines body).map (padLine indent)))
  else String.ofList (' ' :: body)

/-- A field with its body. -/
def field (name : String) (indent : Nat) (text : String) : String :=
  name ++ ":" ++ fieldBody indent text

end Markup

/-- The written parts of a documentation record.  Parameters are without their bullets; `throws` and
`returns` are the bodies of these fields. -/
structure Sheet where
  summary : String
  parts : List String
  parameters : List String
  throws : Option String
  returns : Option String
deriving Repr, DecidableEq

namespace Sheet

/-- A text followed by an empty line. -/
def paragraph (text : String) : List Char :=
  text.toList ++ ['\n', '\n']

/-- A parameter on its bullet. -/
def parameterLine (text : String) : List Char :=
  "  - ".toList ++ text.toList ++ ['\n']

/-- The parameters below their heading bullet; nothing if there are none. -/
def parameterSection (parameters : List String) : List Char :=
  if parameters.isEmpty then []
  else "- Parameters:\n".toList ++ parameters.flatMap parameterLine

/-- A closing field on its bullet; nothing if it is absent. -/
def closing (heading : String) : Option String → List Char
  | none => []
  | some body => heading.toList ++ body.toList ++ ['\n']

/-- The parts put together, in order. -/
def lines (sheet : Sheet) : List Char :=
  (if sheet.summary.isEmpty then [] else paragraph sheet.summary)
    ++ sheet.parts.flatMap paragraph
    ++ parameterSection sheet.parameters
    ++ closing "- Throws:" sheet.throws
    ++ closing "- Returns:" sheet.returns

/-- The whole text: no blanks at either end, and one newline unless nothing is left. -/
def markup (sheet : Sheet) : String :=
  let body := Text.trim Text.isBlank sheet.lines
  if body.isEmpty then "" else String.ofList (body ++ ['\n'])

end Sheet

/-- A part of the discussion as Markdown. -/
def Part.markup : Part → String
  | .block b => b.markup
  | .callout c => "- " ++ Markup.field c.label.displayName 2 c.content

/-- A parameter as Markdown, without its bullet. -/
def Parameter.markup (parameter : Parameter) : String :=
  Markup.field parameter.name 4 parameter.content.text

/-- The written parts of a documentation record. -/
def Documentation.sheet (d : Documentation) : Sheet where
  summary := (d.summary.map Block.text).getD ""
  parts := d.discussion.map Part.markup
  parameters := d.parameters.map Parameter.markup
  throws := d.throws.map fun document => Markup.fieldBody 2 document.text
  returns := d.returns.map fun document => Markup.fieldBody 2 document.text

/-- A documentation record as Markdown. -/
def Documentation.markup (d : Documentation) : String :=
  d.sheet.markup

end DocComment
