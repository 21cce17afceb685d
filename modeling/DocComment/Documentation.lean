import DocComment.Block.Markup

/-!
# Documentation records

What a documentation comment says, sorted by destination: the summary, the discussion with its
callouts, the parameters, and the returns and throws fields.
-/

namespace DocComment

/-- A labelled annotation. -/
structure Callout where
  label : CalloutLabel
  content : String
deriving DecidableEq

/-- A part of a discussion. -/
inductive Part where
  | block (block : Block)
  | callout (callout : Callout)
deriving DecidableEq

/-- A documented parameter. -/
structure Parameter where
  name : String
  content : Document
deriving DecidableEq

/-- The documentation of one declaration.  A parsed summary is always a paragraph. -/
structure Documentation where
  summary : Option Block := none
  discussion : List Part := []
  parameters : List Parameter := []
  returns : Option Document := none
  throws : Option Document := none
deriving DecidableEq

namespace Documentation

/-- Whether nothing is documented. -/
def isEmpty (d : Documentation) : Bool :=
  d.summary.isNone && d.discussion.isEmpty && d.parameters.isEmpty
    && d.returns.isNone && d.throws.isNone

/-! ## Growing a record -/

/-- Adds a part to the discussion. -/
def addPart (d : Documentation) (part : Part) : Documentation :=
  { d with discussion := d.discussion ++ [part] }

/-- Adds a parameter. -/
def addParameter (d : Documentation) (parameter : Parameter) : Documentation :=
  { d with parameters := d.parameters ++ [parameter] }

/-- Keeps an item as list content.  It joins the list at the end of the discussion; if there is
none, it opens a new list of its parent's kind and marker. -/
def fold (d : Documentation) (item : ListItem) (parent : ListBlock) : Documentation :=
  match d.discussion.getLast? with
  | some (.block (.list last)) =>
    { d with discussion := d.discussion.dropLast ++ [.block (.list (last.push item))] }
  | _ =>
    d.addPart (.block (.list { kind := parent.kind, items := [item], marker := parent.marker }))

end Documentation

end DocComment
