import DocComment.Json.Printer

/-!
# Values in messages

A message that reports a value names its kind (`kindName`) or shows it (`display`): strings quoted,
arrays in brackets, objects in braces, and the words `None`, `True` and `False` for the constants.
-/

namespace DocComment.Json

open Text

/-- The name of a value's kind in messages. -/
def kindName : Json → String
  | .null => "NoneType"
  | .bool _ => "bool"
  | .int _ => "int"
  | .real _ => "float"
  | .str _ => "str"
  | .arr _ => "list"
  | .obj _ => "dict"

mutual

/-- The characters of a shown value. -/
def shown : Json → List Char
  | .null => "None".toList
  | .bool true => "True".toList
  | .bool false => "False".toList
  | .int value => writeInt value
  | .real literal => literal.toList
  | .str value => quoteChars value.toList
  | .arr [] => ['[', ']']
  | .arr (element :: elements) => '[' :: shown element ++ showElements elements ++ [']']
  | .obj [] => ['{', '}']
  | .obj ((name, value) :: members) =>
    '{' :: quoteChars name.toList ++ ':' :: ' ' :: shown value ++ showMembers members ++ ['}']

/-- The elements after the first. -/
def showElements : List Json → List Char
  | [] => []
  | element :: elements => ',' :: ' ' :: shown element ++ showElements elements

/-- The members after the first. -/
def showMembers : List (String × Json) → List Char
  | [] => []
  | (name, value) :: members =>
    ',' :: ' ' :: quoteChars name.toList ++ ':' :: ' ' :: shown value ++ showMembers members

end

/-- A value as a message shows it. -/
def display (value : Json) : String :=
  String.ofList (shown value)

end DocComment.Json
