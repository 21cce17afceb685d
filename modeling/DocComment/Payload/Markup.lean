import DocComment.Documentation.Markup
import DocComment.Field
import DocComment.Payload.Access

/-!
# Payloads as Markdown

The fields and the Markdown of payloads, by the rules for typed records as far as the types go.  A
payload that lacks what the rules need is reported with its `Fault`.
-/

namespace DocComment.Payload

/-! ## Blocks -/

/-- The number of number signs of a heading. -/
def headingLevel : Payload → Except Fault Int
  | .int level => .ok level
  | .bool level => .ok (if level then 1 else 0)
  | _ => .error .wrongType

/-- The literal of a code block. -/
def codeLiteral : Payload → Except Fault String
  | .str literal => .ok literal
  | .seq _ => .error .noPart
  | _ => .error .wrongType

/-- A text whose ends can be trimmed. -/
def trimmable : Payload → Except Fault String
  | .str s => .ok s
  | _ => .error .noPart

/-- A record as Markdown. -/
def markup : Payload → Except Fault Payload
  | .record .heading [level, text] => do
    let level ← headingLevel level
    return .str (Markup.heading level (← text.written))
  | .record .code [info, literal] => do
    let literal ← codeLiteral literal
    return .str (Markup.code (← info.written) literal)
  | .record .html [literal] => do
    return .str (Markup.html (← trimmable literal))
  | .record .callout fields => do
    return .str (← written (.record .callout fields))
  | value => value.text

/-! ## Fields -/

/-- The text of an item, where a text can be scanned. -/
def scannable : Payload → Except Fault String
  | .str s => .ok s
  | .seq _ => .error .noPart
  | _ => .error .wrongType

/-- The field that an item states. -/
def field? (item : Payload) : Except Fault (Option Field) := do
  match Field.split? (← scannable (← item.text)) with
  | none => return none
  | some field =>
    match (← (← item.part "children").elements).drop 1 with
    | [] => return some field
    | blocks =>
      let markups ← blocks.mapM markup
      return some (field.withBlocks (← markups.mapM asText))

/-! ## Documentation records -/

/-- A part of a discussion as Markdown. -/
def partMarkup : Payload → Except Fault Payload
  | .record .callout [.label l, content] => do
    return .str ("- " ++ Markup.field l.displayName 2 (← trimmable content))
  | value => value.markup

/-- A parameter as Markdown, without its bullet. -/
def parameterMarkup (parameter : Payload) : Except Fault String := do
  let name ← (← parameter.part "name").written
  let content ← (← parameter.part "content").text
  return Markup.field name 4 (← trimmable content)

/-- The body of a closing field; null if it is absent. -/
def closingBody (document : Payload) : Except Fault (Option String) := do
  if document.isNull then return none
  return some (Markup.fieldBody 2 (← trimmable (← document.text)))

/-- The written summary; a text that counts as nothing is left out. -/
def summaryText (summary : Payload) : Except Fault Payload := do
  if summary.isNull then return .str ""
  let text ← summary.text
  return if text.isTruthy then text else .str ""

/-- The written parts of a documentation record. -/
def sheet (documentation : Payload) : Except Fault Sheet := do
  let summary ← summaryText (← documentation.part "summary")
  let parts ← (← (← documentation.part "discussion").elements).mapM partMarkup
  let parameters ← (← (← documentation.part "parameters").elements).mapM parameterMarkup
  let throws ← closingBody (← documentation.part "throws")
  let returns ← closingBody (← documentation.part "returns")
  return {
    summary := ← summary.written
    parts := ← parts.mapM written
    parameters, throws, returns }

/-- A documentation record as Markdown. -/
def documentationMarkup (documentation : Payload) : Except Fault String :=
  documentation.sheet.map Sheet.markup

end DocComment.Payload
