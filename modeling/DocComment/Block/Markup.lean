import DocComment.Block.Basic
import DocComment.CalloutLabel

/-!
# Blocks as Markdown

`Block.markup` writes a block down as Markdown again.  Most blocks are their own source.  A heading
is written with number signs, an HTML block without its final newlines, and a code block between
fences that are longer than every run of backticks inside it.
-/

namespace DocComment

namespace Markup

/-! ## Fences -/

/-- Whether the word stands somewhere in the text. -/
def occursIn (word : List Char) : List Char → Bool
  | [] => word.isEmpty
  | c :: cs => word.isPrefixOf (c :: cs) || occursIn word cs

/-- The shortest safe fence length from `length` on, looked for in at most `tries` steps: a run of
that many backticks does not stand in the literal. -/
def growFence (literal : List Char) : Nat → Nat → Nat
  | 0, length => length
  | tries + 1, length =>
    if occursIn (List.replicate length '\x60') literal then growFence literal tries (length + 1)
    else length

/-- The fence around a literal: three backticks, or as many more as it takes for the fence not to
stand in the literal.  A run longer than the literal cannot, so the search ends. -/
def fence (literal : String) : List Char :=
  List.replicate (growFence literal.toList literal.toList.length 3) '\x60'

/-! ## Kinds of blocks -/

/-- A heading on one line. -/
def heading (level : Int) (text : String) : String :=
  String.ofList (List.replicate level.toNat '#') ++ " " ++ text

/-- A code block between fences; a literal that does not end its last line gets a newline. -/
def code (info literal : String) : String :=
  let body := literal.toList
  let lines := if body.isEmpty || Text.endsWith body ['\n'] then body else body ++ ['\n']
  String.ofList (fence literal ++ info.toList ++ '\n' :: lines ++ fence literal)

/-- An HTML block without its final newlines. -/
def html (literal : String) : String :=
  String.ofList (Text.trimEnd (· == '\n') literal.toList)

/-- A callout on its bullet. -/
def callout (label : CalloutLabel) (content : String) : String :=
  "- " ++ label.displayName ++ ": " ++ content

end Markup

/-- The text of a block: its literal, markup or source. -/
def Block.text : Block → String
  | .paragraph text => text
  | .heading _ text => text
  | .code _ literal => literal
  | .html literal => literal
  | .thematicBreak markup => markup
  | .quote text _ => text
  | .list l => l.text

/-- The block as Markdown. -/
def Block.markup : Block → String
  | .heading level text => Markup.heading level text
  | .code info literal => Markup.code info literal
  | .html literal => Markup.html literal
  | block => block.text

end DocComment
