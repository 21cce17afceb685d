/-!
# Character tables

A property of characters that a standard fixes by enumeration is kept as an ascending list of closed
ranges of code points; `inRanges` reads it.
-/

namespace DocComment.Text

/-- Whether the code point of `c` lies in one of the closed ranges. -/
def inRanges (table : List (Nat × Nat)) (c : Char) : Bool :=
  table.any fun range => range.1 ≤ c.toNat && c.toNat ≤ range.2

end DocComment.Text
