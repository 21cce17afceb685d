import DocComment.Text.Blank

/-!
# Lines

A text is cut into lines in two ways.  Source text is cut at the newline alone (`splitNewlines`),
after the three newline conventions have been unified.  Prose is cut at every line break, with a
carriage return and the line feed after it counting as one (`splitLines`); `flow` then joins the
trimmed lines with single spaces, which is how a field's name and description are written down.

`dedent` takes the indentation that all lines share away from a block of source lines.
-/

namespace DocComment.Text

/-! ## Cutting -/

/-- Writes every newline convention as a single line feed. -/
def unifyNewlines : List Char → List Char
  | [] => []
  | '\r' :: '\n' :: cs => '\n' :: unifyNewlines cs
  | '\r' :: cs => '\n' :: unifyNewlines cs
  | c :: cs => c :: unifyNewlines cs

/-- The parts between the newlines; a text without a newline is its own single part. -/
def splitNewlines : List Char → List (List Char)
  | [] => [[]]
  | c :: cs =>
    if c = '\n' then [] :: splitNewlines cs
    else match splitNewlines cs with
      | [] => [[c]]
      | line :: lines => (c :: line) :: lines

/-- The lines of prose.  A final line break ends the last line and does not open another one. -/
def splitLines : List Char → List (List Char)
  | [] => []
  | '\r' :: '\n' :: cs => [] :: splitLines cs
  | c :: cs =>
    if isLineBreak c then [] :: splitLines cs
    else match splitLines cs with
      | [] => [[c]]
      | line :: lines => (c :: line) :: lines

/-- Source lines put back together, a newline between any two. -/
def joinNewlines (lines : List (List Char)) : List Char :=
  ['\n'].intercalate lines

/-- Strings put together with a separator between any two. -/
def joined (separator : String) (parts : List String) : String :=
  String.ofList (separator.toList.intercalate (parts.map String.toList))

/-! ## Flowing prose -/

/-- Trims each line and joins the non-empty ones with single spaces. -/
def flow (cs : List Char) : List Char :=
  [' '].intercalate (((splitLines cs).map (trim isBlank)).filter fun line => !line.isEmpty)

/-- Joins the trimmed lines of a string, as `flow` does. -/
def normalize (s : String) : String :=
  String.ofList (flow s.toList)

/-! ## Shared indentation -/

/-- The longest common beginning of two texts. -/
def commonStart : List Char → List Char → List Char
  | a :: as, b :: bs => if a = b then a :: commonStart as bs else []
  | _, _ => []

/-- The indentation that all texts share; nothing for no text at all. -/
def sharedIndent : List (List Char) → List Char
  | [] => []
  | [line] => line.takeWhile isIndent
  | line :: lines => commonStart (line.takeWhile isIndent) (sharedIndent lines)

/-- Empties the lines that hold indentation only and takes the shared indentation off the others. -/
def dedent (lines : List (List Char)) : List (List Char) :=
  let margin := sharedIndent (lines.filter fun line => !line.all isIndent)
  lines.map fun line => if line.all isIndent then [] else line.drop margin.length

end DocComment.Text
