import DocComment.Text.Letters

/-!
# The vocabulary of callouts

A callout is a bullet item such as `- Note: ...` whose name is one of twenty fixed labels.  Labels
are compared by `Text.labelKey`, so letter case and blanks do not matter.
-/

namespace DocComment

/-- The labels that make a callout. -/
inductive CalloutLabel where
  | attention | author | authors | bug | complexity | copyright | date | experiment | important
  | invariant | note | precondition | postcondition | remark | requires | seeAlso | since | todo
  | version | warning
deriving Repr, DecidableEq

namespace CalloutLabel

/-- Every label. -/
def all : List CalloutLabel := [
  attention, author, authors, bug, complexity, copyright, date, experiment, important, invariant,
  note, precondition, postcondition, remark, requires, seeAlso, since, todo, version, warning]

/-- The label as it is displayed. -/
def displayName : CalloutLabel → String
  | attention => "Attention"
  | author => "Author"
  | authors => "Authors"
  | bug => "Bug"
  | complexity => "Complexity"
  | copyright => "Copyright"
  | date => "Date"
  | experiment => "Experiment"
  | important => "Important"
  | invariant => "Invariant"
  | note => "Note"
  | precondition => "Precondition"
  | postcondition => "Postcondition"
  | remark => "Remark"
  | requires => "Requires"
  | seeAlso => "See Also"
  | since => "Since"
  | todo => "To Do"
  | version => "Version"
  | warning => "Warning"

/-- The label as a constant's name: capitals, with an underscore between the words of "see also". -/
def identifier : CalloutLabel → String
  | attention => "ATTENTION"
  | author => "AUTHOR"
  | authors => "AUTHORS"
  | bug => "BUG"
  | complexity => "COMPLEXITY"
  | copyright => "COPYRIGHT"
  | date => "DATE"
  | experiment => "EXPERIMENT"
  | important => "IMPORTANT"
  | invariant => "INVARIANT"
  | note => "NOTE"
  | precondition => "PRECONDITION"
  | postcondition => "POSTCONDITION"
  | remark => "REMARK"
  | requires => "REQUIRES"
  | seeAlso => "SEE_ALSO"
  | since => "SINCE"
  | todo => "TODO"
  | version => "VERSION"
  | warning => "WARNING"

theorem mem_all (label : CalloutLabel) : label ∈ all := by
  cases label <;> decide

/-- The label with exactly this display name. -/
def ofDisplayName? (name : String) : Option CalloutLabel :=
  all.find? fun label => label.displayName == name

/-- The label that a field's name stands for, whatever its letter case and blanks. -/
def lookup? (name : String) : Option CalloutLabel :=
  let key := Text.labelKey name
  all.find? fun label => Text.labelKey label.displayName == key

end CalloutLabel

end DocComment
