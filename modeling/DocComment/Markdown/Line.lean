import DocComment.Text.Lines

/-!
# Lines of a Markdown text

The block structure is read line by line.  A `Line` keeps the whole source line beside the part of
it that the enclosing containers leave: `lead` is what stands before the content (the indentation,
and inside a list item also the marker), `body` is the content, and `width` says how far the content
is indented.  Tabs reach to multiples of four columns, counted from `column`.

A line that a quote takes along without its own `>` has the width -1: it continues a paragraph and
nothing else.
-/

namespace DocComment.Markdown

open Text

/-- A line as its enclosing container sees it. -/
structure Line where
  source : List Char
  lead : List Char
  body : List Char
  width : Int
  column : Nat := 0
  ended : Bool := true
deriving Repr, DecidableEq

/-! ## Columns -/

/-- The offset after one more character of the lead. -/
def stepOffset (column offset : Nat) (c : Char) : Nat :=
  if c = '\t' then offset + (4 - (offset + column) % 4) else offset + 1

/-- The offset after a lead. -/
def advance (column offset : Nat) (lead : List Char) : Nat :=
  lead.foldl (stepOffset column) offset

namespace Line

/-- Whether nothing but the lead is left. -/
def isEmpty (line : Line) : Bool :=
  line.body.isEmpty

/-- Whether the line is indented enough for a code block inside a container of the given
indentation. -/
def isCode (line : Line) (indent : Nat) : Bool :=
  4 ≤ line.width - indent

/-- Whether the line has left a container of the given indentation. -/
def isOutside (line : Line) (indent : Nat) : Bool :=
  line.width < indent

/-- The newline that ends the line, if one does. -/
def ending (line : Line) : List Char :=
  if line.ended then ['\n'] else []

/-! ## Reading source lines -/

/-- The character that stands for a null character in every text but the source. -/
def visible (c : Char) : Char :=
  if c = '\x00' then '\uFFFD' else c

/-- A source line outside all containers. -/
def ofSource (ended : Bool) (source : List Char) : Line :=
  let chars := source.map visible
  let lead := chars.takeWhile isIndent
  { source, lead, body := chars.dropWhile isIndent, width := advance 0 0 lead, ended }

end Line

/-- The lines of the parts between the newlines of a text.  A last part of spaces and tabs only is
no line. -/
def linesOfParts : List (List Char) → List Line
  | [] => []
  | [last] => if last.all isIndent then [] else [Line.ofSource false last]
  | part :: parts => Line.ofSource true part :: linesOfParts parts

/-- The lines of a text. -/
def linesOf (source : List Char) : List Line :=
  linesOfParts (splitNewlines source)

/-! ## Taking text out of lines -/

/-- Drops characters of the lead until the offset reaches the indentation; the result is the offset
reached and what is left of the lead. -/
def dropIndent (column indent : Nat) : Nat → List Char → Nat × List Char
  | offset, [] => (offset, [])
  | offset, c :: cs =>
    if offset < indent then dropIndent column indent (stepOffset column offset c) cs
    else (offset, c :: cs)

/-- The line without the given indentation.  A tab that reaches beyond it leaves spaces behind. -/
def Line.excerpt (indent : Nat) (line : Line) : List Char :=
  let (offset, rest) := dropIndent line.column indent 0 line.lead
  List.replicate (offset - indent) ' ' ++ rest ++ line.body

/-- The source that lines were read from: without the indentation they share, and without blanks at
the end. -/
def sourceText (lines : List Line) : String :=
  String.ofList (trimEnd isBlank (joinNewlines (dedent (lines.map Line.source))))

/-- The characters that are trimmed off the ends of a paragraph or heading. -/
def edgeRanges : List (Nat × Nat) := [
  (0x0009, 0x000D), (0x0020, 0x0020), (0x00A0, 0x00A0), (0x1680, 0x1680), (0x2000, 0x200A),
  (0x2028, 0x2029), (0x202F, 0x202F), (0x205F, 0x205F), (0x3000, 0x3000)]

/-- Whether a character is trimmed off the ends of a paragraph or heading. -/
def isEdge (c : Char) : Bool :=
  inRanges edgeRanges c

/-- The inline text of a paragraph or heading. -/
def inlineText (cs : List Char) : String :=
  String.ofList (trim isEdge cs)

/-- The inline text of the lines of a paragraph. -/
def paragraphText (indent : Nat) (lines : List Line) : String :=
  inlineText (joinNewlines (lines.map (Line.excerpt indent)))

end DocComment.Markdown
