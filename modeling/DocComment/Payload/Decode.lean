import DocComment.Payload.Basic
import DocComment.Json.Display

/-!
# Decoding records

`Payload.ofJson` decodes an encoded record.  The tag decides the kind; the fields of the kind are
decoded in the order of its schema; other members are ignored without being looked into.  Of several
faults the first in this order is reported: the tag, then the fields that are present, then the
missing ones.
-/

namespace DocComment

/-- Why an encoded record is refused. -/
inductive DecodeError where
  /-- A record was expected. -/
  | notObject (value : Json)
  /-- The tag is an array or an object, which no tag can be compared with. -/
  | compoundTag
  /-- The tag marks no kind; a missing tag counts as null. -/
  | unknownTag (tag : Json)
  /-- The delimiter of a callout is no label's display name. -/
  | unknownLabel (value : Json)
  /-- Fields without a default are absent. -/
  | missing (kind : RecordKind) (names : List String)

namespace DecodeError

/-- The names of missing fields as a message lists them. -/
def listNames : List String → String
  | [] => ""
  | [name] => Text.quoted name
  | [first, last] => Text.quoted first ++ " and " ++ Text.quoted last
  | first :: names => Text.quoted first ++ ", " ++ listNames names

/-- The message of a refusal. -/
def message : DecodeError → String
  | .notObject value => "Expected an object, got " ++ value.kindName
  | .compoundTag => "Unusable type tag"
  | .unknownTag tag => "Unknown type tag: " ++ tag.display
  | .unknownLabel value => "Unknown callout delimiter: " ++ value.display
  | .missing kind names =>
    "Malformed " ++ Text.quoted kind.tag ++ " payload: " ++ kind.title
      ++ ".__init__() missing " ++ toString names.length ++ " required positional argument"
      ++ (if names.length = 1 then "" else "s") ++ ": " ++ listNames names

end DecodeError

namespace Payload

/-! ## Selecting fields -/

/-- A member of an object with its decoded value. -/
structure Member where
  name : String
  raw : Json
  decoded : Except DecodeError Payload

/-- The kind that a record's tag marks. -/
def kindOf (members : List Member) : Except DecodeError RecordKind :=
  match (members.find? fun member => member.name == "type").map Member.raw with
  | none => .error (.unknownTag .null)
  | some (.arr _) => .error .compoundTag
  | some (.obj _) => .error .compoundTag
  | some (.str tag) =>
    match RecordKind.ofTag? tag with
    | some kind => .ok kind
    | none => .error (.unknownTag (.str tag))
  | some tag => .error (.unknownTag tag)

/-- A callout's label by its display name. -/
def decodeLabel (value : Json) : Except DecodeError Payload :=
  match value with
  | .str name =>
    match CalloutLabel.ofDisplayName? name with
    | some found => .ok (.label found)
    | none => .error (.unknownLabel value)
  | _ => .error (.unknownLabel value)

/-- The value of a field, if its member is there. -/
def fieldValue? (kind : RecordKind) (members : List Member) (spec : FieldSpec) :
    Except DecodeError (Option Payload) :=
  match members.find? fun member => member.name == spec.name with
  | none => .ok none
  | some member =>
    (if kind.holdsLabel spec.name then decodeLabel member.raw else member.decoded).map some

/-- The values of the fields in order; an absent field has none. -/
def fieldValues (kind : RecordKind) (members : List Member) :
    List FieldSpec → Except DecodeError (List (FieldSpec × Option Payload))
  | [] => .ok []
  | spec :: specs => do
    let value ← fieldValue? kind members spec
    let values ← fieldValues kind members specs
    return (spec, value) :: values

/-- Whether a field without a default is absent. -/
def isMissing (entry : FieldSpec × Option Payload) : Bool :=
  entry.2.isNone && entry.1.default?.isNone

/-- The kind and the fields of a record with the given members. -/
def ofMembers (members : List Member) : Except DecodeError (RecordKind × List Payload) := do
  let kind ← kindOf members
  let values ← fieldValues kind members kind.fields
  match values.filter isMissing with
  | [] => return (kind, values.map fun (spec, value) => value.getD (spec.default?.getD .null))
  | missing => throw (.missing kind (missing.map fun (spec, _) => spec.name))

/-! ## Decoding -/

mutual

/-- Decodes a value: objects are records, arrays are sequences, all else stays. -/
def decode : Json → Except DecodeError Payload
  | .null => .ok .null
  | .bool value => .ok (.bool value)
  | .int value => .ok (.int value)
  | .real literal => .ok (.real literal)
  | .str value => .ok (.str value)
  | .arr elements => (decodeAll elements).map .seq
  | .obj members => do
    let (kind, fields) ← ofMembers (decodeMembers members)
    return .record kind fields

/-- Decodes the elements of an array in order. -/
def decodeAll : List Json → Except DecodeError (List Payload)
  | [] => .ok []
  | element :: elements => do
    let value ← decode element
    let values ← decodeAll elements
    return value :: values

/-- Decodes the members of an object; a fault counts only if the member is a field. -/
def decodeMembers : List (String × Json) → List Member
  | [] => []
  | (name, value) :: members => ⟨name, value, decode value⟩ :: decodeMembers members

end

/-- Decodes the kind and the fields of an encoded record. -/
def decodeRecord : Json → Except DecodeError (RecordKind × List Payload)
  | .obj members => ofMembers (decodeMembers members)
  | value => .error (.notObject value)

/-- Decodes an encoded record. -/
def ofJson (value : Json) : Except DecodeError Payload := do
  let (kind, fields) ← decodeRecord value
  return .record kind fields

end Payload

end DocComment
