import DocComment.Block.Markup
import DocComment.Text.Letters
import DocComment.Text.Word

/-!
# Fields

A bullet item of the form `- name: description` is a field.  `Field.split?` decides the form on the
item's source text:

* leading blanks, one list marker and the blanks after it are skipped;
* a name is made of word characters and blanks that do not break the line, and a colon ends it;
* the word "parameter" and a blank before a name mark a parameter field, in any letter case.

`ListItem.field?` takes the description from the blocks of the item where there is more than one.
-/

namespace DocComment

/-- A recognised field. -/
structure Field where
  isParameter : Bool
  name : String
  description : String
  hasBlocks : Bool := false
deriving Repr, DecidableEq

namespace Field

open Text

/-! ## Scanning -/

/-- The bullets that may open an item's source. -/
def isMarker (c : Char) : Bool :=
  c == '-' || c == '+' || c == '*'

/-- A character that may stand in a name: a word character, or a blank within the line. -/
def isNameChar (c : Char) : Bool :=
  isAlphanumeric c || c == '_' || (isBlank c && !isLineBreak c)

/-- What follows the leading blanks, the list marker if there is one, and the blanks after it. -/
def skipMarker (cs : List Char) : List Char :=
  match cs.dropWhile isBlank with
  | c :: rest => if isMarker c then rest.dropWhile isBlank else c :: rest
  | [] => []

/-- The word that announces a parameter. -/
def parameterWord : List Char := "parameter".toList

/-- What follows the word "parameter" and the blanks after it; at least one blank has to be
there. -/
def afterParameter? (cs : List Char) : Option (List Char) :=
  if lowerLetters (cs.take parameterWord.length) = parameterWord then
    match cs.drop parameterWord.length with
    | c :: rest => if isBlank c then some (rest.dropWhile isBlank) else none
    | [] => none
  else none

/-- The name at the start of the text and what follows its colon.  A name of blanks is none. -/
def scanName? (cs : List Char) : Option (List Char × List Char) :=
  match cs.dropWhile isNameChar with
  | ':' :: rest =>
    let name := flow (cs.takeWhile isNameChar)
    if name.isEmpty then none else some (name, rest)
  | _ => none

/-- The field that a scanned name and rest make. -/
def ofScan (isParameter : Bool) (scanned : List Char × List Char) : Field :=
  { isParameter, name := String.ofList scanned.1, description := String.ofList (flow scanned.2) }

/-- The field that a text opens with.  Without a usable name after it, the word "parameter" is part
of the name itself. -/
def split? (text : String) : Option Field :=
  let body := skipMarker text.toList
  match (afterParameter? body).bind scanName? with
  | some scanned => some (ofScan true scanned)
  | none => (scanName? body).map (ofScan false)

/-- The same field with the Markdown of whole blocks as its description. -/
def withBlocks (field : Field) (markups : List String) : Field :=
  { field with description := joined "\n\n" markups, hasBlocks := true }

end Field

/-- The field that an item states.  The blocks after the first, if any, are its description;
otherwise it is the text after the colon. -/
def ListItem.field? (item : ListItem) : Option Field :=
  (Field.split? item.text).map fun field =>
    match item.children.drop 1 with
    | [] => field
    | blocks => field.withBlocks (blocks.map Block.markup)

end DocComment
