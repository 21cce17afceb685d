import DocComment.Field
import DocComment.CalloutLabel

/-!
# Where a bullet item goes

Every bullet item has one destination, which depends on the field it states, on whether it stands
inside a `- Parameters:` section, and on how many sections may still be entered.
-/

namespace DocComment

/-- The destination of a bullet item. -/
inductive Destination where
  /-- No field: the item stays list content. -/
  | content
  /-- A field of an unknown name: the item stays list content. -/
  | unrecognized (name : String)
  /-- A `Parameters` section below the permitted depth: the item stays list content. -/
  | tooDeep
  /-- A parameter of this name; the description is its Markdown. -/
  | parameter (name description : String)
  /-- A `Parameters` section that is entered. -/
  | parameters
  /-- The returned value. -/
  | returns (description : String)
  /-- The thrown errors. -/
  | throws (description : String)
  /-- A callout. -/
  | callout (label : CalloutLabel) (content : String)
deriving Repr, DecidableEq

namespace Destination

/-- A field named "parameter": the real name stands in its description, if that states a field. -/
def ofParameterField (field : Field) : Destination :=
  if field.hasBlocks then .parameter field.name field.description
  else match Field.split? field.description with
    | some named => .parameter named.name named.description
    | none => .parameter field.name field.description

/-- The destination of a field outside any section, by its name in lower case. -/
def ofName (mayEnter : Bool) (field : Field) : Destination :=
  let name := String.ofList (Text.lowerLetters field.name.toList)
  if name = "parameters" then if mayEnter then .parameters else .tooDeep
  else if name = "parameter" then ofParameterField field
  else if name = "returns" then .returns field.description
  else if name = "throws" then .throws field.description
  else match CalloutLabel.lookup? field.name with
    | some label => .callout label field.description
    | none => .unrecognized field.name

/-- The destination of an item that states the given field, or none. -/
def ofField (inSection mayEnter : Bool) : Option Field → Destination
  | none => .content
  | some field =>
    if inSection || field.isParameter then .parameter field.name field.description
    else ofName mayEnter field

end Destination

end DocComment
