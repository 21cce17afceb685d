import DocComment.Text.Blank
import DocComment.Text.Pattern

/-!
# HTML blocks

An HTML block opens in one of seven ways.  The first five end on a line that holds a closing text;
the other two, a tag of a block element and any complete tag that stands alone on its line, end
before an empty line.  A complete tag of the last kind cannot interrupt a paragraph.
-/

namespace DocComment.Markdown

open Text

/-- The ways in which an HTML block opens. -/
inductive HtmlKind where
  /-- An element whose content is not Markdown. -/
  | verbatim
  | comment
  | instruction
  | declaration
  | cdata
  /-- A tag of a block element. -/
  | element
  /-- Any complete tag that stands alone. -/
  | tag
deriving Repr, DecidableEq

namespace HtmlKind

/-! ## Words -/

/-- What follows the word at the start of the text, the case of ASCII letters apart. -/
def afterWord? (word cs : List Char) : Option (List Char) :=
  if (cs.take word.length).map Char.toLower = word then some (cs.drop word.length) else none

/-- Whether the word stands somewhere in the text, the case of ASCII letters apart. -/
def holdsWord (word : List Char) : List Char → Bool
  | [] => (afterWord? word []).isSome
  | c :: cs => (afterWord? word (c :: cs)).isSome || holdsWord word cs

/-! ## Tags -/

/-- An ASCII letter. -/
def isTagLetter (c : Char) : Bool := c.isAlpha

/-- A character of a tag name after the first. -/
def isTagChar (c : Char) : Bool := c.isAlphanum || c == '-'

/-- The first character of an attribute name. -/
def isAttributeStart (c : Char) : Bool := c.isAlpha || c == '_' || c == ':'

/-- A character of an attribute name after the first. -/
def isAttributeChar (c : Char) : Bool :=
  c.isAlphanum || c == ':' || c == '.' || c == '_' || c == '-'

/-- A character of an attribute value without quotes. -/
def isBareChar (c : Char) : Bool :=
  0x20 < c.toNat && c != '"' && c != '\'' && c != '=' && c != '<' && c != '>' && c != '\x60'

/-- A value between quotes. -/
def quotedValue (mark : Char) : Pattern :=
  .sequence [.char mark, .many (· != mark), .char mark]

/-- A value with or without quotes. -/
def attributeValue : Pattern :=
  .choice [.oneOrMore isBareChar, quotedValue '\'', quotedValue '"']

/-- An attribute with the blanks before it. -/
def tagAttribute : Pattern :=
  .sequence [
    .oneOrMore isBlank, .one isAttributeStart, .many isAttributeChar,
    .optional (.sequence [.many isBlank, .char '=', .many isBlank, attributeValue])]

/-- An opening tag and the blanks after it. -/
def openTag : Pattern :=
  .sequence [
    .char '<', .one isTagLetter, .many isTagChar,
    .repeated tagAttribute,
    .many isBlank, .optional (.char '/'), .char '>', .many isBlank]

/-- A closing tag and the blanks after it. -/
def closeTag : Pattern :=
  .sequence [
    .char '<', .char '/', .one isTagLetter, .many isTagChar,
    .many isBlank, .char '>', .many isBlank]

/-- The elements whose content is not Markdown. -/
def verbatimNames : List (List Char) :=
  ["script", "pre", "style", "textarea"].map String.toList

/-- The block elements. -/
def elementNames : List (List Char) :=
  ["address", "article", "aside", "base", "basefont", "blockquote", "body", "caption", "center",
    "col", "colgroup", "dd", "details", "dialog", "dir", "div", "dl", "dt", "fieldset",
    "figcaption", "figure", "footer", "form", "frame", "frameset", "h1", "h2", "h3", "h4", "h5",
    "h6", "head", "header", "hr", "html", "iframe", "legend", "li", "link", "main", "menu",
    "menuitem", "nav", "noframes", "ol", "optgroup", "option", "p", "param", "search", "section",
    "summary", "table", "tbody", "td", "tfoot", "th", "thead", "title", "tr", "track", "ul"].map
      String.toList

/-! ## Opening and closing -/

/-- Whether a tag name may end here: before a blank, the end of the tag, or the end of the line. -/
def endsName : List Char → Bool
  | [] => true
  | c :: _ => c == '>' || isBlank c

/-- The same, where a slash may stand before the end of the tag. -/
def endsElementName : List Char → Bool
  | '/' :: '>' :: _ => true
  | cs => endsName cs

/-- Whether one of the names stands at the start of the text and ends there. -/
def opensName (names : List (List Char)) (ends : List Char → Bool) (cs : List Char) : Bool :=
  names.any fun name => (afterWord? name cs).any ends

/-- The first way in which a line's content opens an HTML block. -/
def opening? : List Char → Option HtmlKind
  | '<' :: cs =>
    let afterSlash := match cs with
      | '/' :: rest => rest
      | _ => cs
    if opensName verbatimNames endsName cs then some .verbatim
    else if ['!', '-', '-'].isPrefixOf cs then some .comment
    else if ['?'].isPrefixOf cs then some .instruction
    else if ['!'].isPrefixOf cs && ((cs.drop 1).head?.any Char.isAlpha) then some .declaration
    else if "![CDATA[".toList.isPrefixOf cs then some .cdata
    else if opensName elementNames endsElementName afterSlash then some .element
    else if openTag.matchesAll ('<' :: cs) || closeTag.matchesAll ('<' :: cs) then some .tag
    else none
  | _ => none

/-- Whether the block may follow a paragraph without an empty line. -/
def interruptsParagraph (kind : HtmlKind) : Bool :=
  kind != .tag

/-- Whether the block ends before an empty line. -/
def endsBeforeBlank (kind : HtmlKind) : Bool :=
  kind == .element || kind == .tag

/-- Whether the content of a line ends the block. -/
def closedBy (kind : HtmlKind) (body : List Char) : Bool :=
  match kind with
  | .verbatim => verbatimNames.any fun name => holdsWord ('<' :: '/' :: name ++ ['>']) body
  | .comment => holdsWord ['-', '-', '>'] body
  | .instruction => holdsWord ['?', '>'] body
  | .declaration => body.contains '>'
  | .cdata => holdsWord [']', ']', '>'] body
  | .element | .tag => body.isEmpty

end HtmlKind

end DocComment.Markdown
