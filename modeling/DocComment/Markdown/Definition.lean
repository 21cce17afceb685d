import DocComment.Markdown.Interrupt
import DocComment.Text.Letters

/-!
# Link definitions

A definition `[label]: destination "title"` stands where a paragraph could start and produces no
block.  It may spread over several lines, which are put together as one text, each line with its
newline; the reader here walks over that text and says how many lines the definition takes.
-/

namespace DocComment.Markdown

open Text

/-! ## Character references -/

/-- The characters of the named references that matter for the scheme of a destination: the blanks
and the marks that stand in a scheme. -/
def namedReferences : List (String × List Char) := [
  ("Tab", ['\t']), ("NewLine", ['\n']), ("colon", [':']), ("sol", ['/']), ("semi", [';']),
  ("nbsp", ['\u00A0']), ("NonBreakingSpace", ['\u00A0']), ("ensp", ['\u2002']),
  ("emsp", ['\u2003']), ("emsp13", ['\u2004']), ("emsp14", ['\u2005']), ("numsp", ['\u2007']),
  ("puncsp", ['\u2008']), ("thinsp", ['\u2009']), ("ThinSpace", ['\u2009']),
  ("hairsp", ['\u200A']), ("VeryThinSpace", ['\u200A']), ("MediumSpace", ['\u205F']),
  ("ThickSpace", ['\u205F', '\u200A'])]

/-- The value of digits in a base; nothing if one of them is no digit of it. -/
def digitsIn? (base : Nat) (digits : List Char) : Option Nat :=
  digits.foldlM (fun n c =>
    let value :=
      if c.isDigit then c.toNat - '0'.toNat
      else if c.isLower then c.toNat - 'a'.toNat + 10
      else if c.isUpper then c.toNat - 'A'.toNat + 10
      else base
    if value < base then some (n * base + value) else none) 0

/-- Whether a numeric reference may denote the code point. -/
def isReferable (n : Nat) : Bool :=
  !(0xD800 ≤ n && n ≤ 0xDFFF) && !(0xFDD0 ≤ n && n ≤ 0xFDEF)
    && n % 0x10000 != 0xFFFF && n % 0x10000 != 0xFFFE && !(n ≤ 0x08) && n != 0x0B
    && !(0x0E ≤ n && n ≤ 0x1F) && !(0x7F ≤ n && n ≤ 0x9F) && n ≤ 0x10FFFF

/-- The number of a numeric reference, decimal or after an x hexadecimal, of at most eight
digits. -/
def numericReference? : List Char → Option Nat
  | '#' :: x :: digits =>
    if x == 'x' || x == 'X' then
      if 1 ≤ digits.length && digits.length ≤ 8 then digitsIn? 16 digits else none
    else if (x :: digits).length ≤ 8 then digitsIn? 10 (x :: digits) else none
  | _ => none

/-- What the name between an ampersand and a semicolon denotes. -/
def reference? (name : List Char) : Option (List Char) :=
  match namedReferences.find? fun entry => entry.1.toList == name with
  | some (_, cs) => some cs
  | none =>
    match numericReference? name with
    | some n => if isReferable n then some [Char.ofNat n] else none
    | none => none

/-- Whether the character can be escaped with a backslash: the ASCII punctuation. -/
def isPunctuation (c : Char) : Bool :=
  let n := c.toNat
  (0x21 ≤ n && n ≤ 0x2F) || (0x3A ≤ n && n ≤ 0x40) || (0x5B ≤ n && n ≤ 0x60)
    || (0x7B ≤ n && n ≤ 0x7E)

/-- The text with its escapes and character references resolved; `skip` characters belong to a
reference that has been resolved already. -/
def resolve : (skip : Nat) → List Char → List Char
  | _, [] => []
  | skip + 1, _ :: cs => resolve skip cs
  | 0, '\\' :: cs =>
    match cs with
    | c :: _ => if isPunctuation c then c :: resolve 1 cs else '\\' :: resolve 0 cs
    | [] => ['\\']
  | 0, '&' :: cs =>
    let name := cs.takeWhile fun c => c.isAlphanum || c == '#'
    match (cs.drop name.length).head? == some ';', reference? name with
    | true, some text => text ++ resolve (name.length + 1) cs
    | _, _ => '&' :: resolve 0 cs
  | 0, c :: cs => c :: resolve 0 cs

/-! ## Destinations -/

/-- The schemes that no link may have. -/
def refusedSchemes : List (List Char) :=
  ["vbscript:", "javascript:", "file:", "data:"].map String.toList

/-- The beginnings that a link may have in spite of its scheme. -/
def allowedBeginnings : List (List Char) :=
  ["data:image/gif;", "data:image/png;", "data:image/jpeg;", "data:image/webp;"].map String.toList

/-- Whether a destination may be linked to. -/
def isAllowed (destination : List Char) : Bool :=
  let link := lowerLetters (trim isBlank (resolve 0 destination))
  !refusedSchemes.any (·.isPrefixOf link) || allowedBeginnings.any (·.isPrefixOf link)

/-- A part of a definition's text: the part, what follows it, and whether an escaped newline cut it
off before the next line, which then does not belong to the definition. -/
structure Cut where
  text : List Char
  rest : List Char
  atNewline : Bool := false
deriving Repr, DecidableEq

/-- Puts a character in front of the part that was read. -/
def Cut.push (c : Char) (cut : Cut) : Cut :=
  { cut with text := c :: cut.text }

/-- A destination between angle brackets, after the opening one. -/
def bracketed? : List Char → Option Cut
  | [] => none
  | '\n' :: _ => none
  | '<' :: _ => none
  | '>' :: cs => some { text := [], rest := cs }
  | '\\' :: '\n' :: _ => none
  | '\\' :: c :: cs => (bracketed? cs).map fun cut => (cut.push c).push '\\'
  | c :: cs => (bracketed? cs).map (Cut.push c)

/-- A destination without brackets, inside `depth` open parentheses.  It ends before a blank, a
control character or a parenthesis that it did not open; more than 32 open parentheses are too
many. -/
def bare? : (depth : Nat) → List Char → Option Cut
  | depth, [] => if depth = 0 then some { text := [], rest := [] } else none
  | depth, ['\\'] => if depth = 0 then some { text := ['\\'], rest := [] } else none
  | depth, '\\' :: ' ' :: cs =>
    if depth = 0 then some { text := [], rest := '\\' :: ' ' :: cs } else none
  | depth, '\\' :: '\n' :: cs =>
    if depth = 0 then some { text := ['\\', '\n'], rest := cs, atNewline := true } else none
  | depth, '\\' :: c :: cs => (bare? depth cs).map fun cut => (cut.push c).push '\\'
  | depth, '(' :: cs => if depth < 32 then (bare? (depth + 1) cs).map (Cut.push '(') else none
  | 0, ')' :: cs => some { text := [], rest := ')' :: cs }
  | depth + 1, ')' :: cs => (bare? depth cs).map (Cut.push ')')
  | depth, c :: cs =>
    if c.toNat ≤ 0x20 || c.toNat = 0x7F then
      if depth = 0 then some { text := [], rest := c :: cs } else none
    else (bare? depth cs).map (Cut.push c)

/-- The destination at the start of the text. -/
def destination? : List Char → Option Cut
  | '<' :: cs => bracketed? cs
  | cs => (bare? 0 cs).filter fun cut => !cut.text.isEmpty

/-! ## Labels and titles -/

/-- The label after the opening bracket, and what follows the closing one. -/
def label? : List Char → Option (List Char × List Char)
  | [] => none
  | '[' :: _ => none
  | ']' :: cs => some ([], cs)
  | '\\' :: c :: cs => (label? cs).map fun (label, rest) => ('\\' :: c :: label, rest)
  | c :: cs => (label? cs).map fun (label, rest) => (c :: label, rest)

/-- A title up to its closing mark, and what follows it.  Parentheses do not nest. -/
def titleBody? (mark : Char) : List Char → Option (List Char × List Char)
  | [] => none
  | '\\' :: c :: cs => (titleBody? mark cs).map fun (title, rest) => ('\\' :: c :: title, rest)
  | c :: cs =>
    if c = mark then some ([], cs)
    else if c = '(' ∧ mark = ')' then none
    else (titleBody? mark cs).map fun (title, rest) => (c :: title, rest)

/-- The title at the start of the text, in one of its three kinds of marks. -/
def title? : List Char → Option (List Char × List Char)
  | '"' :: cs => titleBody? '"' cs
  | '\'' :: cs => titleBody? '\'' cs
  | '(' :: cs => titleBody? ')' cs
  | _ => none

/-! ## The whole definition -/

/-- A space, a tab or a newline. -/
def isGap (c : Char) : Bool :=
  isIndent c || c == '\n'

/-- Whether nothing but spaces is left of the line. -/
def endsLine (rest : List Char) : Bool :=
  match rest.dropWhile isIndent with
  | [] => true
  | c :: _ => c == '\n'

/-- What follows the title of a definition, given what follows its destination; nothing if there is
no title, or if there is more on its line.  A title on the line of the destination has to stand
apart from it. -/
def afterTitle? (rest : List Char) : Option (List Char) :=
  let gap := rest.takeWhile isGap
  match title? (rest.dropWhile isGap) with
  | none => none
  | some (title, rest) =>
    if gap.isEmpty && !title.contains '\n' then none
    else if endsLine rest || title.isEmpty then some rest
    else none

/-- How much of the text a definition takes, as what follows it; the text starts after the opening
bracket. -/
def afterDefinition? (text : List Char) : Option (List Char) := do
  let (label, rest) ← label? text
  match rest with
  | ':' :: rest =>
    let cut ← destination? (rest.dropWhile isGap)
    if !isAllowed cut.text || (trim isEdge label).isEmpty then none
    else if cut.atNewline then some ('\n' :: cut.rest)
    else
      let rest := (afterTitle? cut.rest).getD cut.rest
      if endsLine rest then some rest else none
  | _ => none

/-- How many lines from the first one a definition could spread over. -/
def definitionLines (around : Surroundings) (lines : List Line) : List Line :=
  lines.take 1 ++ (lines.drop 1).takeWhile (continuesParagraph around .definition)

/-- The text of lines without their indentation. -/
def contentText (lines : List Line) : List Char :=
  lines.flatMap fun line => line.body ++ line.ending

/-- The number of lines of the link definition that the lines open with. -/
def definition? (around : Surroundings) (lines : List Line) : Option Nat :=
  match contentText (definitionLines around lines) with
  | '[' :: text =>
    (afterDefinition? text).map fun rest =>
      (text.take (text.length - rest.length)).count '\n' + 1
  | _ => none

end DocComment.Markdown
