import DocComment.Json.Parser
import DocComment.Payload.Decode

/-!
# Encoding records

`Payload.encode` is the inverse of decoding: a record becomes an object that starts with its tag and
holds every field of its kind.  `Payload.dump` and `Payload.load?` go on to JSON text; a text is
loaded only if it holds a documentation record.
-/

namespace DocComment

namespace Payload

mutual

/-- A payload as a JSON value. -/
def encode : Payload → Json
  | .null => .null
  | .bool value => .bool value
  | .int value => .int value
  | .real literal => .real literal
  | .str value => .str value
  | .seq elements => .arr (encodeAll elements)
  | .label l => .str l.displayName
  | .record kind fields => .obj (("type", .str kind.tag) :: encodeFields kind.fields fields)

/-- A sequence of payloads as JSON values. -/
def encodeAll : List Payload → List Json
  | [] => []
  | value :: values => encode value :: encodeAll values

/-- The fields of a record as members. -/
def encodeFields : List FieldSpec → List Payload → List (String × Json)
  | spec :: specs, value :: values => (spec.name, encode value) :: encodeFields specs values
  | _, _ => []

end

/-- The message about a value that is no record. -/
def cannotEncode (value : Json) : String :=
  "Cannot encode " ++ value.kindName

/-! ## Texts -/

/-- A record as JSON text. -/
def dump (layout : Json.Layout) (record : Payload) : String :=
  record.encode.render layout

end Payload

/-- Why a text is not loaded. -/
inductive LoadError where
  /-- The text is no JSON. -/
  | malformed
  /-- The value is no record. -/
  | decode (error : DecodeError)
  /-- The record is no documentation. -/
  | unexpected (kind : RecordKind)

/-- The message about a text that is not loaded. -/
def LoadError.message : LoadError → String
  | .malformed => "Malformed JSON"
  | .decode error => error.message
  | .unexpected kind => "Expected a documentation payload, got " ++ Text.quoted kind.tag

/-- Reads a documentation record from JSON text. -/
def Payload.load (text : String) : Except LoadError Payload :=
  match Json.parse? text with
  | none => .error .malformed
  | some value =>
    match Payload.decodeRecord value with
    | .error error => .error (.decode error)
    | .ok (.documentation, fields) => .ok (.record .documentation fields)
    | .ok (kind, _) => .error (.unexpected kind)

end DocComment
