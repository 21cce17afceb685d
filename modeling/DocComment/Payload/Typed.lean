import DocComment.Documentation
import DocComment.Payload.Basic

/-!
# Typed records as payloads

The blocks, fields and records of a comment are payloads whose fields have the right types.  This
module embeds each of them.
-/

namespace DocComment

/-- The name of a list's kind in its record. -/
def ListKind.name : ListKind → String
  | .bullet => "bullet"
  | .ordered => "ordered"

mutual

/-- A block as a payload. -/
def Block.toPayload : Block → Payload
  | .paragraph text => .record .paragraph [.str text]
  | .heading level text => .record .heading [.int level, .str text]
  | .code info literal => .record .code [.str info, .str literal]
  | .html literal => .record .html [.str literal]
  | .thematicBreak markup => .record .thematicBreak [.str markup]
  | .quote text children => .record .quote [.str text, .seq (Block.toPayloads children)]
  | .list l => ListBlock.toPayload l

/-- Blocks as payloads. -/
def Block.toPayloads : List Block → List Payload
  | [] => []
  | block :: blocks => Block.toPayload block :: Block.toPayloads blocks

/-- An item as a payload. -/
def ListItem.toPayload : ListItem → Payload
  | ⟨text, children⟩ => .record .item [.str text, .seq (Block.toPayloads children)]

/-- Items as payloads. -/
def ListItem.toPayloads : List ListItem → List Payload
  | [] => []
  | item :: items => ListItem.toPayload item :: ListItem.toPayloads items

/-- A list as a payload. -/
def ListBlock.toPayload : ListBlock → Payload
  | ⟨kind, items, marker, start⟩ =>
    .record .list [.str kind.name, .seq (ListItem.toPayloads items), .str marker,
      (start.map Payload.int).getD .null]

end

/-- A document as a payload. -/
def Document.toPayload (document : Document) : Payload :=
  .record .document [.str document.text, .seq (Block.toPayloads document.children)]

/-- A part of a discussion as a payload. -/
def Part.toPayload : Part → Payload
  | .block b => b.toPayload
  | .callout c => .record .callout [.label c.label, .str c.content]

/-- A parameter as a payload. -/
def Parameter.toPayload (parameter : Parameter) : Payload :=
  .record .parameter [.str parameter.name, parameter.content.toPayload]

/-- A documentation record as a payload. -/
def Documentation.toPayload (d : Documentation) : Payload :=
  .record .documentation [
    (d.summary.map Block.toPayload).getD .null,
    .seq (d.discussion.map Part.toPayload),
    .seq (d.parameters.map Parameter.toPayload),
    (d.returns.map Document.toPayload).getD .null,
    (d.throws.map Document.toPayload).getD .null]

end DocComment
