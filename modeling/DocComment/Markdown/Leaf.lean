import DocComment.Markdown.Definition

/-!
# Leaf blocks

Each function here takes the line that opens a leaf block and the lines after it, and says which
block it is and how many lines it takes.  Code and HTML blocks stay within the lines of their
container; a paragraph may go on beyond them, as long as the lines continue it.
-/

namespace DocComment.Markdown

open Text

/-- Blocks that were read, and the number of lines they take. -/
structure Found where
  blocks : List Block
  used : Nat
deriving DecidableEq

/-! ## Code -/

/-- How many of the lines after an indented code line belong to it.  Empty lines do only before
another code line. -/
def indentedExtent (indent : Nat) : List Line → Nat
  | [] => 0
  | line :: lines =>
    if line.isEmpty then
      match indentedExtent indent lines with
      | 0 => 0
      | more => more + 1
    else if line.isCode indent then indentedExtent indent lines + 1
    else 0

/-- An indented code block. -/
def indentedCode (indent : Nat) (line : Line) (following : List Line) : Found :=
  let lines := line :: following.take (indentedExtent indent following)
  let literal := joinNewlines (lines.map (Line.excerpt (indent + 4))) ++ ['\n']
  { blocks := [.code "" (String.ofList literal)], used := lines.length }

/-- How many of the lines after an opening fence are code, and whether a closing fence follows them.
A line that has left the container ends the code, and so does an empty one at the very end of the
text. -/
def fencedExtent (indent : Nat) (fence : Fence) : List Line → Nat × Bool
  | [] => (0, false)
  | line :: lines =>
    if !line.isEmpty && line.isOutside indent then (0, false)
    else if line.isEmpty && !line.ended then (0, false)
    else if !line.isCode indent && fence.closedBy line.body then (0, true)
    else
      let (more, closed) := fencedExtent indent fence lines
      (more + 1, closed)

/-- The text of whole lines without the given indentation. -/
def literalText (indent : Nat) (lines : List Line) : List Char :=
  lines.flatMap fun line => line.excerpt indent ++ line.ending

/-- A fenced code block. -/
def fencedCode (indent : Nat) (fence : Fence) (line : Line) (following : List Line) : Found :=
  let (count, closed) := fencedExtent indent fence following
  let literal := literalText line.width.toNat (following.take count)
  { blocks := [.code (String.ofList (trim isBlank fence.info)) (String.ofList literal)]
    used := 1 + count + if closed then 1 else 0 }

/-! ## HTML -/

/-- How many of the lines after its first one belong to an HTML block. -/
def htmlExtent (indent : Nat) (kind : HtmlKind) : List Line → Nat
  | [] => 0
  | line :: lines =>
    if line.isOutside indent && (kind.endsBeforeBlank || !line.isEmpty) then 0
    else if kind.closedBy line.body then if line.isEmpty then 0 else 1
    else htmlExtent indent kind lines + 1

/-- An HTML block. -/
def htmlBlock (indent : Nat) (kind : HtmlKind) (line : Line) (following : List Line) : Found :=
  let more := if kind.closedBy line.body then 0 else htmlExtent indent kind following
  let lines := line :: following.take more
  { blocks := [.html (String.ofList (literalText indent lines))], used := lines.length }

/-! ## Paragraphs and headings -/

/-- The level of the heading that a line makes of the paragraph before it by underlining it. -/
def underlineLevel? (around : Surroundings) (line : Line) : Option Nat :=
  if line.isCode around.indent || line.isOutside around.indent then none else underline? line.body

/-- The level of the underline that makes the paragraph a heading, and the number of lines between
the first one and the underline. -/
def underlined? (around : Surroundings) : List Line → Option (Nat × Nat)
  | [] => none
  | line :: lines =>
    match underlineLevel? around line with
    | some level => some (level, 0)
    | none =>
      if continuesParagraph around .paragraph line then
        (underlined? around lines).map fun (level, count) => (level, count + 1)
      else none

/-- A paragraph, or the heading that an underline within the container makes of it. -/
def paragraph (around : Surroundings) (line : Line) (within following : List Line) : Found :=
  match underlined? around within with
  | some (level, count) =>
    let lines := line :: within.take count
    { blocks := [.heading level (paragraphText around.indent lines)], used := lines.length + 1 }
  | none =>
    let lines := line :: following.takeWhile (continuesParagraph around .paragraph)
    { blocks := [.paragraph (paragraphText around.indent lines)], used := lines.length }

/-- The leaf block that a line opens, where it opens neither a quote nor a list.  `within` are the
lines after it in the container, `following` all lines after it. -/
def leaf (around : Surroundings) (line : Line) (within following : List Line) : Found :=
  match definition? around (line :: following) with
  | some used => { blocks := [], used }
  | none =>
    match HtmlKind.opening? line.body with
    | some kind => htmlBlock around.indent kind line within
    | none =>
      match heading? line.body with
      | some (level, text) => { blocks := [.heading level (inlineText text)], used := 1 }
      | none => paragraph around line within following

end DocComment.Markdown
