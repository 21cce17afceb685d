import DocComment.Text.Ranges

/-!
# Blanks, line breaks and trimming

Three classes of invisible characters occur in documentation comments and they are not the same set:

* `isBlank`: every character that separates words, the no-break and typographic spaces included;
* `isLineBreak`: the ten blanks that end a line of prose;
* `isIndent`: the space and the tab, the only characters that Markdown counts as indentation.

Trimming is generic in the class, because each reader trims by its own.
-/

namespace DocComment.Text

/-! ## Classes -/

/-- The blank characters, as ascending closed ranges of code points. -/
def blankRanges : List (Nat × Nat) := [
  (0x0009, 0x000D), (0x001C, 0x0020), (0x0085, 0x0085), (0x00A0, 0x00A0), (0x1680, 0x1680),
  (0x2000, 0x200A), (0x2028, 0x2029), (0x202F, 0x202F), (0x205F, 0x205F), (0x3000, 0x3000)]

/-- A character that separates words. -/
def isBlank (c : Char) : Bool :=
  inRanges blankRanges c

/-- The line breaks, as ascending closed ranges of code points. -/
def lineBreakRanges : List (Nat × Nat) := [
  (0x000A, 0x000D), (0x001C, 0x001E), (0x0085, 0x0085), (0x2028, 0x2029)]

/-- A blank that ends a line of prose. -/
def isLineBreak (c : Char) : Bool :=
  inRanges lineBreakRanges c

/-- A space or a tab. -/
def isIndent (c : Char) : Bool :=
  c == ' ' || c == '\t'

/-! ## Trimming -/

/-- Drops the longest suffix whose characters all satisfy `p`. -/
def trimEnd (p : Char → Bool) (cs : List Char) : List Char :=
  (cs.reverse.dropWhile p).reverse

/-- Drops the longest such prefix and suffix. -/
def trim (p : Char → Bool) (cs : List Char) : List Char :=
  trimEnd p (cs.dropWhile p)

/-- Whether the text ends with the given one. -/
def endsWith (cs suffix : List Char) : Bool :=
  suffix.isSuffixOf cs

end DocComment.Text
