import DocComment.Block.Basic
import DocComment.Text.Blank

/-!
# How blocks open

Most kinds of blocks show in the content of their first line.  Each recogniser here takes that
content and returns what the block needs to know about it.
-/

namespace DocComment.Markdown

open Text

/-! ## Fences -/

/-- The opening of a fenced code block. -/
structure Fence where
  mark : Char
  size : Nat
  info : List Char
deriving Repr, DecidableEq

/-- How many times the character stands at the start of the text. -/
def runLength (c : Char) (cs : List Char) : Nat :=
  (cs.takeWhile (· == c)).length

/-- The mark whose info text must not contain it. -/
def backtick : Char := '\x60'

/-- Three backticks or tildes or more open a fence.  The info text after backticks has no
backtick. -/
def fence? : List Char → Option Fence
  | [] => none
  | c :: cs =>
    let size := runLength c (c :: cs)
    let info := (c :: cs).dropWhile (· == c)
    if (c == backtick || c == '~') && 3 ≤ size && !(c == backtick && info.contains backtick) then
      some { mark := c, size, info }
    else none

/-- Whether the content closes a fence: at least as many marks, and nothing but spaces after
them. -/
def Fence.closedBy (fence : Fence) (body : List Char) : Bool :=
  fence.size ≤ runLength fence.mark body
    && (body.dropWhile (· == fence.mark)).all isIndent

/-! ## Thematic breaks and headings -/

/-- Three stars, hyphens or underscores or more, with spaces between them, are a thematic break.
Its markup has one mark more than was written. -/
def thematicBreak? : List Char → Option (List Char)
  | [] => none
  | c :: cs =>
    let count := (c :: cs).countP (· == c)
    if (c == '*' || c == '-' || c == '_') && cs.all (fun x => x == c || isIndent x)
        && 3 ≤ count then
      some (List.replicate (count + 1) c)
    else none

/-- The heading text without a closing run of number signs that stands after a space. -/
def withoutClosing (cs : List Char) : List Char :=
  let text := trimEnd isIndent cs
  let start := trimEnd (· == '#') text
  match start.getLast? with
  | some c => if isIndent c then start else text
  | none => text

/-- One to six number signs and a space open a heading; the result is its level and its text. -/
def heading? (body : List Char) : Option (Nat × List Char) :=
  let level := runLength '#' body
  let rest := body.dropWhile (· == '#')
  if 1 ≤ level && level ≤ 6 && (rest.take 1).all isIndent then some (level, withoutClosing rest)
  else none

/-- A run of equals signs or hyphens underlines a heading; the result is its level. -/
def underline? : List Char → Option Nat
  | [] => none
  | c :: cs =>
    if (c == '=' || c == '-') && (cs.dropWhile (· == c)).all isIndent then
      some (if c == '=' then 1 else 2)
    else none

/-! ## List markers -/

/-- The marker of a list item.  `sign` is the bullet, or the mark that ends the number; `size` is
the number of its characters, and `rest` what follows it. -/
structure Marker where
  kind : ListKind
  sign : Char
  number : Nat
  size : Nat
  rest : List Char
deriving Repr, DecidableEq

/-- Whether what follows a marker lets it be one: a space, or the end of the line. -/
def mayFollowMarker (rest : List Char) : Bool :=
  (rest.take 1).all isIndent

/-- A number of one to nine digits, ended by a point or a parenthesis. -/
def orderedMarker? (body : List Char) : Option Marker :=
  let digits := body.takeWhile Char.isDigit
  match body.dropWhile Char.isDigit with
  | sign :: rest =>
    if (sign == '.' || sign == ')') && 1 ≤ digits.length && digits.length ≤ 9
        && mayFollowMarker rest then
      let number := digits.foldl (fun n c => n * 10 + (c.toNat - '0'.toNat)) 0
      some { kind := .ordered, sign, number, size := digits.length + 1, rest }
    else none
  | [] => none

/-- A single star, hyphen or plus sign. -/
def bulletMarker? : List Char → Option Marker
  | sign :: rest =>
    if (sign == '*' || sign == '-' || sign == '+') && mayFollowMarker rest then
      some { kind := .bullet, sign, number := 1, size := 1, rest }
    else none
  | [] => none

/-- The list marker that the content opens with. -/
def marker? (body : List Char) : Option Marker :=
  (orderedMarker? body).or (bulletMarker? body)

end DocComment.Markdown
