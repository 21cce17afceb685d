import DocComment.Json.Display
import DocComment.Payload.Basic
import DocComment.Text.Lines

/-!
# Looking into payloads

Nothing is known about the types inside a payload, so every look into one may fail, in one of two
ways: a part is asked for that the value does not have (`Fault.noPart`), or a value is used as
something that it is not (`Fault.wrongType`).
-/

namespace DocComment

/-- Why a payload cannot be used. -/
inductive Fault where
  | noPart
  | wrongType
deriving Repr, DecidableEq

namespace Payload

/-! ## Parts -/

/-- The value of a field among those of a schema. -/
def lookField (name : String) : List FieldSpec → List Payload → Option Payload
  | spec :: specs, value :: values =>
    if spec.name = name then some value else lookField name specs values
  | _, _ => none

/-- A field of a record. -/
def part (name : String) : Payload → Except Fault Payload
  | .record kind fields =>
    match lookField name kind.fields fields with
    | some value => .ok value
    | none => .error .noPart
  | _ => .error .noPart

/-- The kind of a record. -/
def kind? : Payload → Option RecordKind
  | .record kind _ => some kind
  | _ => none

/-- A text as the sequence of its characters. -/
def characters (s : String) : List Payload :=
  s.toList.map fun c => .str (String.singleton c)

/-- The elements of a sequence; a text counts as the sequence of its characters. -/
def elements : Payload → Except Fault (List Payload)
  | .seq values => .ok values
  | .str s => .ok (characters s)
  | _ => .error .wrongType

/-- Whether a value counts as something: not null, false, zero or empty. -/
def isTruthy : Payload → Bool
  | .null => false
  | .bool value => value
  | .int value => value != 0
  | .real literal => literal != "0.0"
  | .str value => !value.isEmpty
  | .seq values => !values.isEmpty
  | .label _ => true
  | .record _ _ => true

/-- Whether the value is null. -/
def isNull : Payload → Bool
  | .null => true
  | _ => false

/-- The text, where a text is needed. -/
def asText : Payload → Except Fault String
  | .str s => .ok s
  | _ => .error .wrongType

/-- Texts put together with a separator; anything else among them is a fault. -/
def joinTexts (separator : String) (values : List Payload) : Except Fault Payload := do
  return .str (Text.joined separator (← values.mapM asText))

/-! ## The text of a record -/

mutual

/-- The text of a record: its text, literal or markup, and for a list the texts of its items. -/
def text : Payload → Except Fault Payload
  | .record .paragraph [text] => .ok text
  | .record .heading [_, text] => .ok text
  | .record .code [_, literal] => .ok literal
  | .record .html [literal] => .ok literal
  | .record .thematicBreak [markup] => .ok markup
  | .record .quote [text, _] => .ok text
  | .record .item [text, _] => .ok text
  | .record .document [text, _] => .ok text
  | .record .list [_, items, _, _] =>
    match items with
    | .seq items => do
      let texts ← textAll items
      joinTexts "\n" texts
    | .str s => if s.isEmpty then .ok (.str "") else .error .noPart
    | _ => .error .wrongType
  | _ => .error .noPart

/-- The texts of records in order. -/
def textAll : List Payload → Except Fault (List Payload)
  | [] => .ok []
  | value :: values => do
    let first ← text value
    let rest ← textAll values
    return first :: rest

end

/-! ## Showing values -/

mutual

/-- A value as it is shown inside another one. -/
def shown : Payload → List Char
  | .null => "None".toList
  | .bool true => "True".toList
  | .bool false => "False".toList
  | .int value => Json.writeInt value
  | .real literal => literal.toList
  | .str value => Text.quoteChars value.toList
  | .seq [] => ['(', ')']
  | .seq [value] => '(' :: shown value ++ [',', ')']
  | .seq (value :: values) => '(' :: shown value ++ shownMore values ++ [')']
  | .label l =>
    "<CalloutDelimiter.".toList ++ l.identifier.toList ++ ':' :: ' '
      :: Text.quoteChars l.displayName.toList ++ ['>']
  | .record kind fields => kind.title.toList ++ '(' :: shownFields kind.fields fields ++ [')']

/-- The elements after the first. -/
def shownMore : List Payload → List Char
  | [] => []
  | value :: values => ',' :: ' ' :: shown value ++ shownMore values

/-- The fields of a record with their names. -/
def shownFields : List FieldSpec → List Payload → List Char
  | spec :: specs, value :: values =>
    spec.name.toList ++ '=' :: shown value
      ++ (if values.isEmpty then [] else [',', ' ']) ++ shownFields specs values
  | _, _ => []

end

mutual

/-- A value as it is written into a text: a text as it is, a callout and a parameter on their
bullets, all else as it is shown. -/
def written : Payload → Except Fault String
  | .str s => .ok s
  | .record .callout [.label l, content] => do
    return "- " ++ l.displayName ++ ": " ++ (← written content)
  | .record .parameter [name, content] => do
    let name ← written name
    return "- " ++ name ++ ": " ++ (← writtenText content)
  | value => .ok (String.ofList (shown value))

/-- The text of a record as it is written into a text. -/
def writtenText : Payload → Except Fault String
  | .record .paragraph [text] => written text
  | .record .heading [_, text] => written text
  | .record .code [_, literal] => written literal
  | .record .html [literal] => written literal
  | .record .thematicBreak [markup] => written markup
  | .record .quote [text, _] => written text
  | .record .item [text, _] => written text
  | .record .document [text, _] => written text
  | .record .list fields => do asText (← text (.record .list fields))
  | _ => .error .noPart

end

/-! ## Questions to particular kinds -/

/-- Whether the record is a list whose items carry bullets. -/
def isBulletList : Payload → Bool
  | .record .list (kind :: _) => kind == .str "bullet"
  | _ => false

/-- Whether a documentation record documents nothing: the single fields are null, the sequences
count as nothing. -/
def isEmptyDocumentation : Payload → Bool
  | .record .documentation [summary, discussion, parameters, returns, throws] =>
    summary.isNull && !discussion.isTruthy && !parameters.isTruthy
      && returns.isNull && throws.isNull
  | _ => false

end Payload

end DocComment
