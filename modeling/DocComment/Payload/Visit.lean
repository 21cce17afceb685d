import DocComment.Extraction.Visit
import DocComment.Payload.Markup
import DocComment.Payload.Typed

/-!
# Reading sections of payloads

The section reader's steps on payloads.  Stages and destinations are those of typed comments; what
is new is that any record may stand in any place, so a step may also fail with a `Fault`, and that
the record which grows holds whatever was put into it.
-/

namespace DocComment

/-- A documentation record of payloads while it grows. -/
structure Draft where
  summary : Payload := .null
  discussion : List Payload := []
  parameters : List Payload := []
  returns : Payload := .null
  throws : Payload := .null

/-- The record as it stands. -/
def Draft.toPayload (draft : Draft) : Payload :=
  .record .documentation [
    draft.summary, .seq draft.discussion, .seq draft.parameters, draft.returns, draft.throws]

/-- Why a step on payloads fails. -/
inductive StepError (ε : Type) where
  | fault (fault : Fault)
  | misuse (misuse : Stage.Misuse)
  | markdown (error : ε)

/-- A step on payloads; the draft remains even where it fails. -/
abbrev DraftStep (ε α : Type) := ExceptT (StepError ε) (StateM Draft) α

namespace DraftStep

variable {ε : Type}

/-- Looks into a payload. -/
def look {α : Type} : Except Fault α → DraftStep ε α
  | .ok value => pure value
  | .error fault => throw (.fault fault)

/-- Hands a text to the Markdown reader. -/
def markdown (read : String → Except ε Document) (text : String) : DraftStep ε Payload :=
  match read text with
  | .ok document => pure document.toPayload
  | .error error => throw (.markdown error)

end DraftStep

/-! ## Folding -/

/-- A list with one more item at its end; the items have to be a sequence. -/
def Payload.pushItem (item : Payload) : Payload → Except Fault Payload
  | .record .list [kind, .seq items, marker, start] =>
    .ok (.record .list [kind, .seq (items ++ [item]), marker, start])
  | _ => .error .wrongType

/-- The draft with an item kept as list content.  It joins the list at the end of the discussion, or
opens a list of its parent's kind and marker. -/
def Draft.fold (draft : Draft) (item parent : Payload) : Except Fault Draft :=
  match draft.discussion.getLast? with
  | some (.record .list fields) => do
    let last ← Payload.pushItem item (.record .list fields)
    return { draft with discussion := draft.discussion.dropLast ++ [last] }
  | _ => do
    let kind ← parent.part "list_kind"
    let marker ← parent.part "marker"
    let list := Payload.record .list [kind, .seq [item], marker, .null]
    return { draft with discussion := draft.discussion ++ [list] }

namespace SectionReader

open DraftStep

variable {ε : Type} (reader : SectionReader ε)

/-- Keeps an item as list content. -/
def foldPayload (item parent : Payload) : DraftStep ε Unit := do
  set (← look ((← get).fold item parent))

/-- Reads the description of a parameter and adds the parameter. -/
def addParameterPayload (name description : String) : DraftStep ε Unit := do
  let content ← DraftStep.markdown reader.markdown description
  modify fun draft =>
    { draft with parameters := draft.parameters ++ [.record .parameter [.str name, content]] }

/-- The bullet lists among the children of a `Parameters` item. -/
def nestedLists (item : Payload) : Except Fault (List Payload) := do
  return (← (← item.part "children").elements).filter Payload.isBulletList

/-- Reads an item in a stage; `enter` reads the lists nested in a `Parameters` item. -/
def visitPayloadItem (enter : List Payload → DraftStep ε Unit) (stage : Stage) (depth : Int)
    (parent item : Payload) : DraftStep ε Stage := do
  if !stage.takesItems then throw (.misuse (.item stage))
  let field? ← look item.field?
  match Destination.ofField (stage == .parameters) (depth < reader.maxDepth) field? with
  | .content | .unrecognized _ | .tooDeep =>
    foldPayload item parent
    return stage
  | .parameter name description =>
    reader.addParameterPayload name description
    return stage
  | .parameters =>
    enter (← look (nestedLists item))
    return .discussion
  | .returns description =>
    let content ← DraftStep.markdown reader.markdown description
    modify ({ · with returns := content })
    return stage
  | .throws description =>
    let content ← DraftStep.markdown reader.markdown description
    modify ({ · with throws := content })
    return stage
  | .callout label content =>
    modify fun draft =>
      { draft with
        discussion := draft.discussion ++ [.record .callout [.label label, .str content]] }
    return stage

/-- Reads items one after the other by the given step. -/
def visitEach (visit : Stage → Payload → DraftStep ε Stage) (stage : Stage) :
    List Payload → DraftStep ε Stage
  | [] => return stage
  | item :: items => do visitEach visit (← visit stage item) items

/-- Reads the items of a list inside a section, where every field is a parameter and no further
section can open. -/
def visitSectionList (depth : Int) (list : Payload) : DraftStep ε Unit := do
  let items ← look (do (← list.part "items").elements)
  let _ ← visitEach (fun stage => reader.visitPayloadItem (fun _ => pure ()) stage depth list)
    .parameters items

/-- Reads an item of a list at a depth of sections. -/
def visitItemPayload (stage : Stage) (depth : Int) (parent item : Payload) :
    DraftStep ε Stage :=
  reader.visitPayloadItem (fun lists => lists.forM (reader.visitSectionList (depth + 1)))
    stage depth parent item

/-- Reads a list; whatever follows it belongs to the discussion. -/
def visitListPayload (stage : Stage) (depth : Int) (list : Payload) : DraftStep ε Stage := do
  let items ← look (do (← list.part "items").elements)
  let _ ← visitEach (fun stage => reader.visitItemPayload stage depth list) stage items
  return .discussion

/-- Reads a top-level record. -/
def visitBlockPayload (stage : Stage) (block : Payload) : DraftStep ε Stage := do
  match Stage.opening (block.kind? == some .paragraph) stage with
  | .summary =>
    modify ({ · with summary := block })
    return .discussion
  | .discussion =>
    if block.isBulletList then reader.visitListPayload .discussion 0 block
    else
      modify fun draft => { draft with discussion := draft.discussion ++ [block] }
      return .discussion
  | stage => throw (.misuse (.block stage))

end SectionReader

end DocComment
