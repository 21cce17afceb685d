import DocComment.Text.Blank

/-!
# Comparing words without regard to case

Keywords (field names, callout labels, command line choices) are ASCII words, so what matters about
a label's letters is only which ASCII letter, if any, is their lower case.
-/

namespace DocComment.Text

/-- The lower case of a letter whose lower case is an ASCII letter: the ASCII capitals and the
Kelvin sign.  Every other character stays, since no keyword can contain its lower case anyway. -/
def lowerLetter (c : Char) : Char :=
  if c = '\u212A' then 'k' else c.toLower

/-- The key under which a keyword is compared. -/
def lowerLetters (cs : List Char) : List Char :=
  cs.map lowerLetter

/-- The key under which a label is compared: its letters in lower case, its blanks removed. -/
def labelKey (label : String) : List Char :=
  lowerLetters (label.toList.filter fun c => !isBlank c)

/-- The case-free key of a choice on the command line, where the long s counts as an s too. -/
def foldLetter (c : Char) : Char :=
  if c = '\u017F' then 's' else lowerLetter c

end DocComment.Text
