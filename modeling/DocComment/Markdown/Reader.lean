import DocComment.Json.Display
import DocComment.Markdown.Container
import DocComment.Markdown.Leaf

/-!
# Reading Markdown

`Markdown.read` turns a text into a `Document`.  Lines are read from the top; a line that opens a
quote or a list item hands its lines to the same reader again, with the marker taken off.  Two
bounds apply to containers.  Inside more than `limit` levels nothing is read any more, which is no
failure; beyond `containerCapacity` containers reading fails.

The readers of containers take the reader of their content as an argument, so that the recursion is
on the number of containers that may still open.  All readers see every line that is left (`lines`)
and are told how many of them belong to their container (`count`): only a paragraph may go on beyond
those.
-/

namespace DocComment.Markdown

/-- Why a text cannot be read. -/
inductive ReadError where
  /-- The input is no text but a value of this kind. -/
  | notText (kind : String)
  /-- No limit of nesting is given, and there is something to read. -/
  | noLimit
  /-- Containers are nested too deep. -/
  | tooDeep
deriving Repr, DecidableEq

/-- The message about a text that cannot be read. -/
def ReadError.message : ReadError → String
  | .notText kind => "Markdown input must be text, not " ++ kind
  | .noLimit | .tooDeep => "Unable to parse Markdown"

/-- A reader of the content of a container. -/
abbrev ContentReader := Surroundings → List Line → (count : Nat) → Except ReadError Found

/-! ## Containers -/

/-- A quote that opens on the first of the lines. -/
def readQuote (read : ContentReader) (around : Surroundings) (line : Line) (following : List Line)
    (count : Nat) : Except ReadError Found := do
  let first := line.unquoted
  let (more, ended) := quotedLines around first.isEmpty (following.take (count - 1))
  let inner := first :: more
  let beyond := if ended then [] else following.drop more.length
  let inside := { around with indent := 0, level := around.level + 1 }
  let found ← read inside (inner ++ beyond) inner.length
  return {
    blocks := [.quote (sourceText ((line :: following).take found.used)) found.blocks]
    used := found.used }

/-- The content of a list item.  An item without content on its first line is over if an empty line
follows. -/
def readItem (read : ContentReader) (around : Surroundings) (line : Line) (marker : Marker)
    (following : List Line) (count : Nat) : Except ReadError Found :=
  let (first, indent) := itemContent line marker
  if first.isEmpty && following.head?.all Line.isEmpty then
    return { blocks := [], used := min 2 count }
  else
    let inside := { indent, listIndent := some around.indent, level := around.level + 2 }
    read inside (first :: following) count

/-- The items of a list from the given one on, in at most `bound` steps, and the lines they take. -/
def readItems (read : ContentReader) (around : Surroundings) :
    (bound : Nat) → Marker → List Line → (count : Nat) → Except ReadError (List ListItem × Nat)
  | bound + 1, marker, line :: following, count => do
    let found ← readItem read around line marker following count
    let item : ListItem :=
      { text := sourceText ((line :: following).take found.used), children := found.blocks }
    let rest := (line :: following).drop found.used
    let next := if found.used < count then rest.head? else none
    match next.bind (nextMarker? around marker.kind marker.sign) with
    | none => return ([item], found.used)
    | some next => do
      let (items, used) ← readItems read around bound next rest (count - found.used)
      return (item :: items, found.used + used)
  | _, _, _, _ => return ([], 0)

/-- A list that opens on the first of the lines. -/
def readList (read : ContentReader) (around : Surroundings) (marker : Marker) (lines : List Line)
    (count : Nat) : Except ReadError Found := do
  let (items, used) ← readItems read around count marker lines count
  let list : ListBlock := {
    kind := marker.kind
    items
    marker := String.singleton marker.sign
    start := if marker.number = 1 then none else some marker.number }
  return { blocks := [.list list], used }

/-! ## Blocks -/

/-- The block that a line opens. -/
def readBlock (read : ContentReader) (around : Surroundings) (line : Line) (following : List Line)
    (count : Nat) : Except ReadError Found :=
  let within := following.take (count - 1)
  if line.isCode around.indent then return indentedCode around.indent line within
  else match fence? line.body with
    | some fence => return fencedCode around.indent fence line within
    | none =>
      if opensQuote line then readQuote read around line following count
      else match thematicBreak? line.body with
        | some markup => return { blocks := [.thematicBreak (String.ofList markup)], used := 1 }
        | none =>
          match itemMarker? around line with
          | some marker => readList read around marker (line :: following) count
          | none => return leaf around line within following

/-- The lines a block takes, with the empty line after it if there is one in the container. -/
def withBlank (lines : List Line) (count used : Nat) : Nat :=
  if used < count && (lines.drop used).head?.any Line.isEmpty then used + 1 else used

/-- The blocks of the first `count` lines, in at most `bound` steps. -/
def readBlocks (limit : Option Int) (read : ContentReader) (around : Surroundings) :
    (bound : Nat) → List Line → (count : Nat) → Except ReadError Found
  | 0, _, _ => return { blocks := [], used := 0 }
  | bound + 1, lines, count =>
    let blank := (lines.takeWhile Line.isEmpty).length
    match lines.drop blank, count - blank with
    | line :: following, count + 1 =>
      if line.isOutside around.indent then return { blocks := [], used := blank }
      else match limit with
        | none => throw .noLimit
        | some limit =>
          if limit ≤ around.level then return { blocks := [], used := blank + (count + 1) }
          else do
            let found ← readBlock read around line following (count + 1)
            let used := withBlank (line :: following) (count + 1) found.used
            let rest ← readBlocks (some limit) read around bound ((line :: following).drop used)
              (count + 1 - used)
            return { blocks := found.blocks ++ rest.blocks, used := blank + used + rest.used }
    | _, _ => return { blocks := [], used := if count = 0 then 0 else blank }

/-- The reader of content inside at most `depth` more containers. -/
def readContent (limit : Option Int) : (depth : Nat) → ContentReader
  | 0 => fun _ _ _ => throw .tooDeep
  | depth + 1 => fun around lines count =>
    readBlocks limit (readContent limit depth) around count lines count

/-! ## Texts -/

/-- How many containers may enclose each other. -/
def containerCapacity : Nat := 400

/-- The blocks of a source text. -/
def readSource (limit : Option Int) (source : List Char) : Except ReadError (List Block) := do
  let lines := linesOf source
  let found ← readContent limit (containerCapacity + 1) {} lines lines.length
  return found.blocks

/-- Reads a Markdown text.  `limit` is the number of levels up to which containers are read: a quote
is one level, a list and its item are two. -/
def read (limit : Option Int) (text : String) : Except ReadError Document := do
  let source := Text.unifyNewlines text.toList
  return { text := String.ofList source, children := ← readSource limit source }

/-- Reads a JSON value, which has to be a text. -/
def readJson (limit : Option Int) : Json → Except ReadError Document
  | .str text => read limit text
  | value => throw (.notText value.kindName)

/-- The limit where none is given. -/
def defaultLimit : Option Int := some 20

end DocComment.Markdown
