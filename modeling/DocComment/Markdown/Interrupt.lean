import DocComment.Markdown.Html
import DocComment.Markdown.Line
import DocComment.Markdown.Opener

/-!
# Lines that end a block

A paragraph, a link definition, a quote and a list go on from line to line until a line opens
something else.  `interrupts` decides whether a line does.
-/

namespace DocComment.Markdown

/-- The containers around the lines that are read: the indentation of the content, the indentation
of the enclosing list if there is one, and the number of open containers. -/
structure Surroundings where
  indent : Nat := 0
  listIndent : Option Nat := none
  level : Nat := 0
deriving Repr, DecidableEq

/-- The block that a line may end. -/
inductive Interrupted where
  | paragraph
  | definition
  | quote
  | list
deriving Repr, DecidableEq

/-- Whether the line is indented for a deeper list but has left it: then it opens no list item. -/
def isStrayItem (around : Surroundings) (line : Line) : Bool :=
  match around.listIndent with
  | some listIndent => 4 ≤ line.width - listIndent && line.isOutside around.indent
  | none => false

/-- The marker of the list item that a line opens. -/
def itemMarker? (around : Surroundings) (line : Line) : Option Marker :=
  if line.isCode around.indent || isStrayItem around line then none else marker? line.body

/-- Whether a list item of this marker may follow a paragraph without an empty line: an ordered one
only with the number one, and none without content. -/
def Marker.interruptsParagraph (marker : Marker) : Bool :=
  (marker.kind == .bullet || marker.number == 1) && !marker.rest.all Text.isIndent

/-- Whether a line opens a list item where another block would otherwise go on.  A line that has
left the containers of a paragraph opens one without further conditions. -/
def opensItem (around : Surroundings) (block : Interrupted) (line : Line) : Bool :=
  match itemMarker? around line with
  | none => false
  | some marker =>
    block != .paragraph || line.isOutside around.indent || marker.interruptsParagraph

/-- Whether a line opens an HTML block that may follow a paragraph. -/
def opensHtml (line : Line) : Bool :=
  (HtmlKind.opening? line.body).any HtmlKind.interruptsParagraph

/-- Whether a line opens a quote. -/
def opensQuote (line : Line) : Bool :=
  line.body.head? == some '>'

/-- Whether the line ends the block.  A list is not ended by its own kind of lines, nor by a heading
or an HTML block. -/
def interrupts (around : Surroundings) (block : Interrupted) (line : Line) : Bool :=
  if line.isCode around.indent then false
  else
    (fence? line.body).isSome || opensQuote line || (thematicBreak? line.body).isSome
      || (block != .list
        && (opensItem around block line || opensHtml line || (heading? line.body).isSome))

/-- Whether a line continues a paragraph: it is indented too far to open anything, or a quote took
it along, or it opens nothing. -/
def continuesParagraph (around : Surroundings) (block : Interrupted) (line : Line) : Bool :=
  !line.isEmpty
    && (line.isCode around.indent || line.width < 0 || !interrupts around block line)

end DocComment.Markdown
