import DocComment.Extraction.Visit

/-!
# Extraction as a sequence of events

The section reader walks over blocks with a stage and a depth in hand.  None of that is needed to
say what it does: every block and every item contributes a fixed list of `Event`s, which can be read
off without looking at its neighbours, and a visit *is* the performance of these events in order.

`visitItem_discussion`, `visitItems_parameters`, `visitBlocks_discussion` and `visitBlocks_initial`
are equations between whole programs, so outcome, Markdown calls, log records and progress all
agree, on failure as well as on success.
-/

namespace DocComment

/-- What a block or an item contributes to a record.  A folded item carries the log record that is
written about it, if any. -/
inductive Event where
  | keep (block : Block)
  | fold (item : ListItem) (parent : ListBlock) (note : Option LogRecord)
  | parameter (name description : String)
  | returns (description : String)
  | throws (description : String)
  | callout (label : CalloutLabel) (content : String)

/-- The summary, which is a paragraph at the start, and the blocks behind it. -/
def Block.splitSummary : List Block → Option Block × List Block
  | .paragraph text :: blocks => (some (.paragraph text), blocks)
  | blocks => (none, blocks)

namespace Event

/-! ## Reading events off the blocks -/

/-- The event of an item inside a section: every field is a parameter, whatever its name. -/
def ofSectionItem (parent : ListBlock) (item : ListItem) : Event :=
  match item.field? with
  | some field => .parameter field.name field.description
  | none => .fold item parent none

/-- The events of a section: those of the items of its bullet lists. -/
def ofSection (blocks : List Block) : List Event :=
  (blocks.filterMap Block.bulletList?).flatMap fun list => list.items.map (ofSectionItem list)

theorem ofSection_cons (block : Block) (blocks : List Block) :
    ofSection (block :: blocks)
      = (block.bulletList?.elim [] fun list => list.items.map (ofSectionItem list))
          ++ ofSection blocks := by
  cases h : block.bulletList? <;> simp [ofSection, h]

/-- The event of a field named "parameter".  Its description may name the parameter, unless it is
made of whole blocks. -/
def ofParameterField (field : Field) : Event :=
  match if field.hasBlocks then none else Field.split? field.description with
  | some named => .parameter named.name named.description
  | none => .parameter field.name field.description

/-- The events of an item outside any section that states a field without a prefix, by the field's
name in lower case.  At top level the depth is zero. -/
def ofField (maxDepth depth : Int) (parent : ListBlock) (item : ListItem) (field : Field) :
    List Event :=
  let name := String.ofList (Text.lowerLetters field.name.toList)
  if name = "parameters" then
    if depth < maxDepth then ofSection item.children
    else [.fold item parent (some (.sectionTooDeep maxDepth))]
  else if name = "parameter" then [ofParameterField field]
  else if name = "returns" then [.returns field.description]
  else if name = "throws" then [.throws field.description]
  else match CalloutLabel.lookup? field.name with
    | some label => [.callout label field.description]
    | none => [.fold item parent (some (.unrecognizedField field.name))]

/-- The events of an item outside any section. -/
def ofItem (maxDepth depth : Int) (parent : ListBlock) (item : ListItem) : List Event :=
  match item.field? with
  | none => [.fold item parent none]
  | some field =>
    if field.isParameter then [.parameter field.name field.description]
    else ofField maxDepth depth parent item field

/-- The events of a block behind the summary. -/
def ofBlock (maxDepth : Int) (block : Block) : List Event :=
  match block.bulletList? with
  | some list => list.items.flatMap (ofItem maxDepth 0 list)
  | none => [.keep block]

/-- The events of the blocks behind the summary, in document order. -/
def ofBlocks (maxDepth : Int) (blocks : List Block) : List Event :=
  blocks.flatMap (ofBlock maxDepth)

theorem ofBlocks_cons (maxDepth : Int) (block : Block) (blocks : List Block) :
    ofBlocks maxDepth (block :: blocks) = ofBlock maxDepth block ++ ofBlocks maxDepth blocks :=
  List.flatMap_cons

/-! ## Performing events -/

/-- The text that an event hands to the Markdown reader. -/
def text? : Event → Option String
  | .parameter _ description => some description
  | .returns description => some description
  | .throws description => some description
  | _ => none

/-- The log record of an event. -/
def note? : Event → Option LogRecord
  | .fold _ _ note => note
  | _ => none

end Event

namespace SectionReader

open Extraction

variable {ε : Type} (reader : SectionReader ε)

/-- Performs an event. -/
def perform : Event → Extraction ε Unit
  | .keep block => grow (·.addPart (.block block))
  | .fold item parent none => grow (·.fold item parent)
  | .fold item parent (some note) => do
    report note
    grow (·.fold item parent)
  | .parameter name description => reader.addParameter name description
  | .returns description => do
    let content ← Extraction.markdown reader.markdown description
    grow ({ · with returns := some content })
  | .throws description => do
    let content ← Extraction.markdown reader.markdown description
    grow ({ · with throws := some content })
  | .callout label content => grow (·.addPart (.callout { label, content }))

/-- Performs events one after the other. -/
def performAll (events : List Event) : Extraction ε Unit :=
  events.forM reader.perform

@[simp]
theorem performAll_nil : reader.performAll [] = pure () := rfl

@[simp]
theorem performAll_cons (event : Event) (events : List Event) :
    reader.performAll (event :: events)
      = reader.perform event >>= fun _ => reader.performAll events :=
  rfl

theorem performAll_append (events more : List Event) :
    reader.performAll (events ++ more)
      = reader.performAll events >>= fun _ => reader.performAll more := by
  induction events with
  | nil => simp
  | cons event events ih => simp [ih]

/-! ## A visit performs its events -/

/-- In a section every item is one event, and the section goes on after it. -/
theorem visitItem_parameters (depth : Int) (parent : ListBlock) (item : ListItem) :
    reader.visitItem .parameters depth parent item
      = reader.perform (Event.ofSectionItem parent item) >>= fun _ => pure .parameters := by
  obtain ⟨text, children⟩ := item
  cases h : ListItem.field? ⟨text, children⟩ with
  | none => simp [visitItem, Stage.takesItems, Event.ofSectionItem, perform, Destination.ofField, h]
  | some field =>
      simp [visitItem, Stage.takesItems, Event.ofSectionItem, perform, Destination.ofField, h]

theorem visitItems_parameters (depth : Int) (parent : ListBlock) (items : List ListItem) :
    reader.visitItems .parameters depth parent items
      = reader.performAll (items.map (Event.ofSectionItem parent))
          >>= fun _ => pure .parameters := by
  induction items with
  | nil => simp [visitItems]
  | cons item items ih => simp [visitItems, visitItem_parameters, ih]

/-- Entering a section performs the events of its bullet lists; the depth does not matter any
more. -/
theorem visitSection_eq (depth : Int) (blocks : List Block) :
    reader.visitSection depth blocks = reader.performAll (Event.ofSection blocks) := by
  induction blocks with
  | nil => rfl
  | cons block blocks ih =>
      rw [Event.ofSection_cons]
      cases block with
      | list l =>
          obtain ⟨kind, items, marker, start⟩ := l
          cases kind with
          | bullet =>
              simp [visitSection, ih, visitItems_parameters, Block.bulletList?,
                ListBlock.isBullet, performAll_append]
          | ordered =>
              -- an ordered list is passed over on both sides
              simp [visitSection, ih, Block.bulletList?, ListBlock.isBullet]
      | _ => simp [visitSection, ih, Block.bulletList?]

/-- A field named "parameter" is read as one parameter, under the name found in its description if
there is one. -/
theorem ofParameterField_agrees (field : Field) :
    ∃ name description,
      Destination.ofParameterField field = .parameter name description
        ∧ Event.ofParameterField field = .parameter name description := by
  cases hb : field.hasBlocks with
  | true => exact ⟨field.name, field.description, by simp [Destination.ofParameterField, hb],
      by simp [Event.ofParameterField, hb]⟩
  | false =>
      cases hs : Field.split? field.description with
      | none => exact ⟨field.name, field.description,
          by simp [Destination.ofParameterField, hb, hs], by simp [Event.ofParameterField, hb, hs]⟩
      | some named => exact ⟨named.name, named.description,
          by simp [Destination.ofParameterField, hb, hs], by simp [Event.ofParameterField, hb, hs]⟩

/-- Outside a section an item may be several events, and the discussion goes on after them. -/
theorem visitItem_discussion (depth : Int) (parent : ListBlock) (item : ListItem) :
    reader.visitItem .discussion depth parent item
      = reader.performAll (Event.ofItem reader.maxDepth depth parent item)
          >>= fun _ => pure .discussion := by
  obtain ⟨text, children⟩ := item
  cases h : ListItem.field? ⟨text, children⟩ with
  | none => simp [visitItem, Stage.takesItems, Event.ofItem, perform, Destination.ofField, h]
  | some field =>
      by_cases hp : field.isParameter
      · simp [visitItem, Stage.takesItems, Event.ofItem, perform, Destination.ofField, h, hp]
      obtain ⟨name, description, hd, he⟩ := ofParameterField_agrees field
      simp only [visitItem, Stage.takesItems, Event.ofItem, Destination.ofField, h, hp,
        Destination.ofName, Event.ofField, hd, he]
      -- the keywords are tried in the same order on both sides
      by_cases hsection : String.ofList (Text.lowerLetters field.name.toList) = "parameters"
      · by_cases hroom : depth < reader.maxDepth <;>
          simp [hsection, hroom, visitSection_eq, perform]
      by_cases hparameter : String.ofList (Text.lowerLetters field.name.toList) = "parameter"
      · simp [hparameter, perform]
      by_cases hreturns : String.ofList (Text.lowerLetters field.name.toList) = "returns"
      · simp [hreturns, perform]
      by_cases hthrows : String.ofList (Text.lowerLetters field.name.toList) = "throws"
      · simp [hthrows, perform]
      cases CalloutLabel.lookup? field.name <;>
        simp [hsection, hparameter, hreturns, hthrows, perform]

theorem visitItems_discussion (depth : Int) (parent : ListBlock) (items : List ListItem) :
    reader.visitItems .discussion depth parent items
      = reader.performAll (items.flatMap (Event.ofItem reader.maxDepth depth parent))
          >>= fun _ => pure .discussion := by
  induction items with
  | nil => simp [visitItems]
  | cons item items ih => simp [visitItems, visitItem_discussion, performAll_append, ih]

/-- Behind the summary every block is read in the discussion, and leaves the reader there. -/
theorem visitBlock_discussion (block : Block) :
    reader.visitBlock .discussion block
      = reader.performAll (Event.ofBlock reader.maxDepth block) >>= fun _ => pure .discussion := by
  cases h : block.bulletList? <;>
    simp [visitBlock, visitList, Stage.opening, Event.ofBlock, visitItems_discussion, perform, h]

theorem visitBlocks_discussion (blocks : List Block) :
    reader.visitBlocks .discussion blocks
      = reader.performAll (Event.ofBlocks reader.maxDepth blocks)
          >>= fun _ => pure .discussion := by
  induction blocks with
  | nil => simp [visitBlocks, Event.ofBlocks]
  | cons block blocks ih =>
      rw [Event.ofBlocks_cons, performAll_append]
      simp [visitBlocks, visitBlock_discussion, ih]

/-- A first block that is no paragraph is discussion already. -/
theorem visitBlock_initial_of_not_paragraph {block : Block} (h : block.isParagraph = false) :
    reader.visitBlock .initial block = reader.visitBlock .discussion block := by
  simp only [visitBlock, Stage.opening, h, Bool.false_eq_true, if_false]

/-- Writes the summary down, if there is one. -/
def summarize : Option Block → Extraction ε Unit
  | some summary => grow ({ · with summary := some summary })
  | none => pure ()

/-- From the start a visit writes the summary down and performs the events of the other blocks. -/
theorem visitBlocks_initial {α : Type} (blocks : List Block) (next : Extraction ε α) :
    (reader.visitBlocks .initial blocks >>= fun _ => next)
      = summarize (Block.splitSummary blocks).1 >>= fun _ =>
          reader.performAll (Event.ofBlocks reader.maxDepth (Block.splitSummary blocks).2)
            >>= fun _ => next := by
  cases blocks with
  | nil => simp [visitBlocks, Block.splitSummary, summarize, Event.ofBlocks]
  | cons block blocks =>
      cases block with
      | paragraph text =>
          simp [visitBlocks, Block.splitSummary, summarize, visitBlock, Stage.opening,
            Block.isParagraph, visitBlocks_discussion]
      | _ =>
          simp only [visitBlocks, Block.splitSummary, summarize, pure_bind, bind_assoc,
            Event.ofBlocks_cons, performAll_append]
          rw [visitBlock_initial_of_not_paragraph reader rfl, visitBlock_discussion]
          simp [visitBlocks_discussion]

end SectionReader

end DocComment
