import DocComment.Json.Basic
import DocComment.Text.Quoted

/-!
# Writing JSON

`Json.render` writes a value as text.  Without an indentation everything stands on one line; with
one, every element and member has its own line, indented by its depth.  Characters beyond ASCII are
written as they are: only the quote, the backslash and the control characters below the space are
escaped.
-/

namespace DocComment.Json

open Text

/-! ## Layouts -/

/-- How the parts of arrays and objects are laid out. -/
inductive Layout where
  | compact
  | indented (width : Nat)
deriving Repr, DecidableEq

/-- The layout of an optional indentation; a negative width only starts new lines. -/
def Layout.ofIndent : Option Int → Layout
  | none => .compact
  | some width => .indented width.toNat

/-- What starts a new line at the given depth. -/
def Layout.lineStart : Layout → Nat → List Char
  | .compact, _ => []
  | .indented width, depth => '\n' :: List.replicate (width * depth) ' '

/-- What stands between two elements at the given depth. -/
def Layout.separator : Layout → Nat → List Char
  | .compact, _ => [',', ' ']
  | .indented width, depth => ',' :: Layout.lineStart (.indented width) depth

/-! ## Strings and numbers -/

/-- A character inside a string literal. -/
def escapeChar (c : Char) : List Char :=
  if c = '"' then ['\\', '"']
  else if c = '\\' then ['\\', '\\']
  else if c = '\n' then ['\\', 'n']
  else if c = '\r' then ['\\', 'r']
  else if c = '\t' then ['\\', 't']
  else if c = '\x08' then ['\\', 'b']
  else if c = '\x0c' then ['\\', 'f']
  else if c.toNat < 0x20 then '\\' :: 'u' :: hexDigits 4 c.toNat
  else [c]

/-- A string literal. -/
def writeString (s : String) : List Char :=
  '"' :: s.toList.flatMap escapeChar ++ ['"']

/-- An integer in decimal digits. -/
def writeInt : Int → List Char
  | .ofNat n => Nat.toDigits 10 n
  | .negSucc n => '-' :: Nat.toDigits 10 (n + 1)

/-! ## Values -/

mutual

/-- A value at the given depth. -/
def write (layout : Layout) (depth : Nat) : Json → List Char
  | .null => "null".toList
  | .bool true => "true".toList
  | .bool false => "false".toList
  | .int value => writeInt value
  | .real literal => literal.toList
  | .str value => writeString value
  | .arr [] => ['[', ']']
  | .arr (element :: elements) =>
    '[' :: layout.lineStart (depth + 1) ++ write layout (depth + 1) element
      ++ writeElements layout (depth + 1) elements ++ layout.lineStart depth ++ [']']
  | .obj [] => ['{', '}']
  | .obj ((name, value) :: members) =>
    '{' :: layout.lineStart (depth + 1) ++ writeString name ++ ':' :: ' '
      :: write layout (depth + 1) value
      ++ writeMembers layout (depth + 1) members ++ layout.lineStart depth ++ ['}']

/-- The elements after the first, each after a separator. -/
def writeElements (layout : Layout) (depth : Nat) : List Json → List Char
  | [] => []
  | element :: elements =>
    layout.separator depth ++ write layout depth element ++ writeElements layout depth elements

/-- The members after the first, each after a separator. -/
def writeMembers (layout : Layout) (depth : Nat) : List (String × Json) → List Char
  | [] => []
  | (name, value) :: members =>
    layout.separator depth ++ writeString name ++ ':' :: ' ' :: write layout depth value
      ++ writeMembers layout depth members

end

/-- The text of a value. -/
def render (layout : Layout) (value : Json) : String :=
  String.ofList (write layout 0 value)

end DocComment.Json
