import DocComment.Extraction.Basic
import DocComment.Extraction.Destination

/-!
# Reading sections

The section reader sorts the blocks of a comment.  A paragraph at the start is the summary.  Of the
rest, a bullet list is taken apart into its items, each of which goes to its `Destination`; every
other block stays in the discussion as it is.

A `- Parameters:` item opens a section: the items of the bullet lists in it are read in the stage
`parameters`, in which every field is a parameter.
-/

namespace DocComment

/-- What the section reader depends on: how Markdown is read, and how many sections may be
entered. -/
structure SectionReader (ε : Type) where
  markdown : String → Except ε Document
  maxDepth : Int := 8

namespace SectionReader

open Extraction

variable {ε : Type} (reader : SectionReader ε)

/-- Reads the description of a parameter and adds the parameter. -/
def addParameter (name description : String) : Extraction ε Unit := do
  let content ← Extraction.markdown reader.markdown description
  grow (·.addParameter { name, content })

mutual

/-- Reads an item in a stage, at a depth of sections; the result is the stage for what follows. -/
def visitItem (stage : Stage) (depth : Int) (parent : ListBlock) :
    ListItem → Extraction ε Stage
  | ⟨text, children⟩ => do
    if !stage.takesItems then throw (.misuse (.item stage))
    let item : ListItem := ⟨text, children⟩
    match Destination.ofField (stage == .parameters) (depth < reader.maxDepth) item.field? with
    | .content =>
      grow (·.fold item parent)
      return stage
    | .unrecognized name =>
      report (.unrecognizedField name)
      grow (·.fold item parent)
      return stage
    | .tooDeep =>
      report (.sectionTooDeep reader.maxDepth)
      grow (·.fold item parent)
      return stage
    | .parameter name description =>
      reader.addParameter name description
      return stage
    | .parameters =>
      visitSection (depth + 1) children
      return .discussion
    | .returns description =>
      let content ← Extraction.markdown reader.markdown description
      grow ({ · with returns := some content })
      return stage
    | .throws description =>
      let content ← Extraction.markdown reader.markdown description
      grow ({ · with throws := some content })
      return stage
    | .callout label content =>
      grow (·.addPart (.callout { label, content }))
      return stage

/-- Reads items one after the other. -/
def visitItems (stage : Stage) (depth : Int) (parent : ListBlock) :
    List ListItem → Extraction ε Stage
  | [] => return stage
  | item :: items => do
    let stage ← visitItem stage depth parent item
    visitItems stage depth parent items

/-- Reads the bullet lists among the blocks of a `Parameters` item. -/
def visitSection (depth : Int) : List Block → Extraction ε Unit
  | [] => return ()
  | .list ⟨kind, items, marker, start⟩ :: blocks => do
    if kind == .bullet then
      let _ ← visitItems .parameters depth ⟨kind, items, marker, start⟩ items
    visitSection depth blocks
  | _ :: blocks => visitSection depth blocks

end

/-- Reads a list; whatever follows it belongs to the discussion. -/
def visitList (stage : Stage) (depth : Int) (list : ListBlock) : Extraction ε Stage := do
  let _ ← reader.visitItems stage depth list list.items
  return .discussion

/-- Reads a top-level block. -/
def visitBlock (stage : Stage) (block : Block) : Extraction ε Stage := do
  match Stage.opening block.isParagraph stage with
  | .summary =>
    grow ({ · with summary := some block })
    return .discussion
  | .discussion =>
    match block.bulletList? with
    | some list => reader.visitList .discussion 0 list
    | none =>
      grow (·.addPart (.block block))
      return .discussion
  | stage => throw (.misuse (.block stage))

/-- Reads top-level blocks one after the other. -/
def visitBlocks (stage : Stage) : List Block → Extraction ε Stage
  | [] => return stage
  | block :: blocks => do
    let stage ← reader.visitBlock stage block
    visitBlocks stage blocks

/-- Reads a whole comment. -/
def visitComment (text : String) : Extraction ε Documentation := do
  let document ← Extraction.markdown reader.markdown text
  let _ ← reader.visitBlocks .initial document.children
  let progress ← get
  report (.finished progress.documentation.discussion.length
    progress.documentation.parameters.length)
  return progress.documentation

/-- A whole run: the outcome, and the Markdown calls and log records on the way.  A comment that is
absent documents nothing and needs no Markdown. -/
def run : Option String → Except (Failure ε) Documentation × Progress
  | none => (.ok {}, {})
  | some text => runFrom (reader.visitComment text) {}

/-- The documentation that a comment states. -/
def parse (comment : Option String) : Except (Failure ε) Documentation :=
  (reader.run comment).1

end SectionReader

end DocComment
