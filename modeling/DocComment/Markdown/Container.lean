import DocComment.Markdown.Interrupt

/-!
# Container lines

Quotes and list items take their markers off the lines and leave the rest to be read again.  This
module says what is left: `Line.unquoted` and `quotedLines` for quotes, `itemContent` for list
items.
-/

namespace DocComment.Markdown

open Text

/-! ## Quotes -/

/-- A line after `taken` columns of its quote mark, with `rest` left.  `shift` moves the tab stops,
and `column` is where they are counted from inside the quote. -/
def quotedRest (line : Line) (taken shift column : Nat) (rest : List Char) : Line :=
  let lead := rest.takeWhile isIndent
  { line with
    lead
    body := rest.dropWhile isIndent
    width := advance (line.column + shift) taken lead - taken
    column }

/-- The line without its quote mark and the space after it.  Of a tab only one column belongs to the
mark, so the tab remains unless it is one column wide. -/
def Line.unquoted (line : Line) : Line :=
  let taken := line.width.toNat + 1
  match line.body with
  | '>' :: ' ' :: rest => quotedRest line (taken + 1) 0 (taken + 1) rest
  | '>' :: '\t' :: rest =>
    if (line.column + taken) % 4 = 3 then quotedRest line (taken + 1) 0 (taken + 1) rest
    else quotedRest line taken 1 (taken + 1) ('\t' :: rest)
  | '>' :: rest => quotedRest line taken 0 taken rest
  | _ => line

/-- The line as the lazy continuation of a quoted paragraph. -/
def Line.lazy (line : Line) : Line :=
  { line with width := -1 }

/-- The lines that continue a quote, as they are read inside it, and whether another block ends it.
`lastEmpty` says that the quoted line before is empty: then no paragraph is open that a line without
a mark could continue. -/
def quotedLines (around : Surroundings) (lastEmpty : Bool) : List Line → List Line × Bool
  | [] => ([], false)
  | line :: lines =>
    if line.isEmpty then ([], false)
    else if opensQuote line && !line.isOutside around.indent then
      let inner := line.unquoted
      let (more, ended) := quotedLines around inner.isEmpty lines
      (inner :: more, ended)
    else if lastEmpty then ([], false)
    else if interrupts around .quote line then ([], true)
    else
      let (more, ended) := quotedLines around false lines
      (line.lazy :: more, ended)

/-! ## List items -/

/-- The first line of a list item as it is read inside the item, and the indentation of the item's
content: that of the text after the marker, or one column where there is none or it is indented as
code. -/
def itemContent (line : Line) (marker : Marker) : Line × Nat :=
  let start := line.width.toNat + marker.size
  let gap := marker.rest.takeWhile isIndent
  let body := marker.rest.dropWhile isIndent
  let offset := advance line.column start gap
  let after := if body.isEmpty || 4 < offset - start then 1 else offset - start
  ({ line with lead := line.lead ++ line.body.take marker.size ++ gap, body, width := offset },
    start + after)

/-- The marker of a line that continues a list of the given kind and sign. -/
def nextMarker? (around : Surroundings) (kind : ListKind) (sign : Char) (line : Line) :
    Option Marker :=
  if line.isOutside around.indent || line.isCode around.indent || interrupts around .list line then
    none
  else (marker? line.body).filter fun marker => marker.kind == kind && marker.sign == sign

end DocComment.Markdown
