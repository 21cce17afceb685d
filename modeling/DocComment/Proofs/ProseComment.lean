import DocComment.Proofs.Meaning
import DocComment.Proofs.ProseRecord
import Mathlib

/-!
# Comments in prose are read back

A record in prose is written as its outline, and what is written is read as the blocks of that
outline. The items among these blocks are settled: each of them states a field, and so it states the
same wherever it stands (`Event.ofBlocks_blocks`).  Hence the blocks state the events of the record,
one for each part of the discussion and one for each field, and `parse_markup_of_prose` puts it
together: from the comment of a record in prose the same record is read, with its parameters under
their bare names, however many callouts and parameters there are.
-/

namespace DocComment

open Text Markdown

/-- A parameter under its bare name. -/
def Parameter.bare (parameter : Parameter) : Parameter :=
  { parameter with name := String.ofList (Field.bareName parameter.name.toList) }

/-- The record with its parameters under their bare names. -/
def Documentation.bare (d : Documentation) : Documentation :=
  { d with parameters := d.parameters.map Parameter.bare }

/-! ## What the outline states -/

namespace Event

/-- An item whose events do not depend on the list that it stands in. -/
def Settled (maxDepth : Int) (item : ListItem) : Prop :=
  ∀ parent other : ListBlock, ofItem maxDepth 0 parent item = ofItem maxDepth 0 other item

/-- The events of an entry, its item taken for one in an empty list. -/
def ofEntry (maxDepth : Int) : Entry → List Event
  | .paragraph _ text => [.keep (.paragraph (String.ofList (joinNewlines text)))]
  | .item _ bullet => ofItem maxDepth 0 { kind := .bullet } bullet.toItem

theorem ofBlock_settled {maxDepth : Int} {items : List ListItem}
    (h : ∀ item ∈ items, Settled maxDepth item) (marker : String) (start : Option Int) :
    ofBlock maxDepth (.list ⟨.bullet, items, marker, start⟩)
      = items.flatMap (ofItem maxDepth 0 { kind := .bullet }) :=
  List.flatMap_congr fun item hitem => h item hitem _ _

/-- The events of an outline are those of its entries, if its items are settled. -/
theorem ofBlocks_blocks {maxDepth : Int} {es : List Entry}
    (h : ∀ gap bullet, .item gap bullet ∈ es → Settled maxDepth bullet.toItem) :
    ofBlocks maxDepth (Entry.blocks es) = es.flatMap (ofEntry maxDepth)
      ∧ ∀ list blocks, Entry.blocks es = .list list :: blocks →
        list.kind = .bullet ∧ ∀ item ∈ list.items, Settled maxDepth item := by
  induction es with
  | nil => exact ⟨rfl, by simp⟩
  | cons e es ih =>
      obtain ⟨hevents, hitems⟩ := ih fun gap bullet hm => h gap bullet (List.mem_cons_of_mem e hm)
      cases e with
      | paragraph gap text =>
          rw [Entry.blocks_paragraph, ofBlocks_cons, hevents, List.flatMap_cons]
          exact ⟨rfl, by simp⟩
      | item gap bullet =>
          have hbullet := h gap bullet List.mem_cons_self
          show ofBlocks maxDepth (consItem bullet.toItem (Entry.blocks es)) = _
            ∧ ∀ list blocks, consItem bullet.toItem (Entry.blocks es) = .list list :: blocks → _
          rw [List.flatMap_cons, ← hevents]
          unfold consItem
          split
          · -- the item joins the list in front, whose items are settled too
            next items marker start blocks heq =>
              have hjoined : ∀ item ∈ bullet.toItem :: items, Settled maxDepth item :=
                List.forall_mem_cons.mpr ⟨hbullet, (hitems _ _ heq).2⟩
              rw [heq, ofBlocks_cons, ofBlocks_cons, ofBlock_settled hjoined,
                ofBlock_settled (hitems _ _ heq).2, List.flatMap_cons, List.append_assoc]
              refine ⟨rfl, ?_⟩
              rintro _ _ ⟨⟩
              exact ⟨rfl, hjoined⟩
          · have hsingle : ∀ item ∈ [bullet.toItem], Settled maxDepth item :=
              List.forall_mem_cons.mpr ⟨hbullet, by simp⟩
            rw [ofBlocks_cons, ofBlock_settled hsingle, List.flatMap_singleton]
            refine ⟨rfl, ?_⟩
            rintro _ _ ⟨⟩
            exact ⟨rfl, hsingle⟩

/-- A body in prose below a name states the field of the bare name. -/
theorem field?_prose {name : String} (hname : IsName name.toList) {text : String}
    (h : IsProseBody text) :
    ∃ hasBlocks, (Bullet.field name.toList (bodyTexts text)).toItem.field? = some {
      isParameter := (Field.afterParameter? name.toList).isSome
      name := String.ofList (Field.bareName name.toList)
      description := text
      hasBlocks } := by
  obtain ⟨htexts, htext⟩ := h.spec
  have hfield := field?_field hname htexts
  rwa [htext] at hfield

/-- Outside a section, the field counts by its name unless that announces a parameter. -/
theorem ofItem_field (maxDepth : Int) (parent : ListBlock) {name : String}
    (hname : IsName name.toList) (hown : Field.afterParameter? name.toList = none) {text : String}
    (h : IsProseBody text) :
    ∃ hasBlocks, ofItem maxDepth 0 parent (Bullet.field name.toList (bodyTexts text)).toItem
      = ofField maxDepth 0 parent (Bullet.field name.toList (bodyTexts text)).toItem
          { isParameter := false, name, description := text, hasBlocks } := by
  obtain ⟨hasBlocks, hfield⟩ := field?_prose hname h
  rw [Field.bareName, hown, Option.getD_none, String.ofList_toList] at hfield
  exact ⟨hasBlocks, by simp [ofItem, hfield]⟩

/-- A label is written under a name that is read as itself. -/
theorem afterParameter?_displayName (label : CalloutLabel) :
    Field.afterParameter? label.displayName.toList = none := by
  cases label <;> rfl

theorem lookup?_displayName (label : CalloutLabel) :
    CalloutLabel.lookup? label.displayName = some label := by
  cases label <;> decide

/-- No label has the name of another field. -/
theorem displayName_ne_keyword (label : CalloutLabel) :
    ∀ keyword ∈ ["parameters", "parameter", "returns", "throws"],
      String.ofList (lowerLetters label.displayName.toList) ≠ keyword := by
  cases label <;> decide

theorem ofItem_callout (maxDepth : Int) (parent : ListBlock) (label : CalloutLabel) {text : String}
    (h : IsProseBody text) :
    ofItem maxDepth 0 parent
        (Bullet.field label.displayName.toList (bodyTexts text)).toItem
      = [.callout label text] := by
  obtain ⟨hasBlocks, hitem⟩ :=
    ofItem_field maxDepth parent (isName_displayName label) (afterParameter?_displayName label) h
  have hkey := displayName_ne_keyword label
  simp only [List.forall_mem_cons] at hkey
  obtain ⟨hsection, hparameter, hreturns, hthrows, -⟩ := hkey
  simp [hitem, ofField, lookup?_displayName, hsection, hparameter, hreturns, hthrows]

theorem ofItem_throws (maxDepth : Int) (parent : ListBlock) {text : String} (h : IsProseBody text) :
    ofItem maxDepth 0 parent (Bullet.field "Throws".toList (bodyTexts text)).toItem
      = [.throws text] := by
  obtain ⟨hasBlocks, hitem⟩ := ofItem_field maxDepth parent isName_throws rfl h
  have hkey : String.ofList (lowerLetters "Throws".toList) = "throws" := by decide
  simp only [hitem, ofField, hkey]
  rfl

theorem ofItem_returns (maxDepth : Int) (parent : ListBlock) {text : String}
    (h : IsProseBody text) :
    ofItem maxDepth 0 parent (Bullet.field "Returns".toList (bodyTexts text)).toItem
      = [.returns text] := by
  obtain ⟨hasBlocks, hitem⟩ := ofItem_field maxDepth parent isName_returns rfl h
  have hkey : String.ofList (lowerLetters "Returns".toList) = "returns" := by decide
  simp only [hitem, ofField, hkey]
  rfl

theorem ofSectionItem_parameter (parent : ListBlock) {parameter : Parameter}
    (h : IsName parameter.name.toList ∧ parameter.content.IsProse) :
    ofSectionItem parent parameter.bullet.toItem
      = .parameter parameter.bare.name parameter.content.text := by
  obtain ⟨hasBlocks, hfield⟩ := field?_prose h.1 h.2.spec.1
  rw [ofSectionItem, Parameter.bullet, hfield]
  rfl

/-- The list that the items of a section are. -/
def sectionList (parameters : List Parameter) : ListBlock where
  kind := .bullet
  items := parameters.map fun parameter => parameter.bullet.toItem

theorem blocks_section {parameters : List Parameter} (hne : parameters ≠ []) :
    Entry.blocks (sectionBullet parameters).inner = [.list (sectionList parameters)] := by
  obtain ⟨first, others, rfl⟩ := List.exists_cons_of_ne_nil hne
  have hrun := Entry.blocks_run 0 first.bullet
    (others.map fun parameter => (0, parameter.bullet)) (show ∀ e ∈ [].head?, _ by simp)
  rw [List.append_nil, Entry.run, List.map_map, List.map_map] at hrun
  exact hrun

/-- A section states its parameters. -/
theorem ofItem_section {maxDepth : Int} (hdepth : 0 < maxDepth) (parent : ListBlock)
    {parameters : List Parameter} (hne : parameters ≠ [])
    (h : ∀ parameter ∈ parameters, IsName parameter.name.toList ∧ parameter.content.IsProse) :
    ofItem maxDepth 0 parent (sectionBullet parameters).toItem
      = parameters.map fun parameter =>
          Event.parameter parameter.bare.name parameter.content.text := by
  have hlayout : Entry.layout (sectionBullet parameters).inner ≠ [] := by
    obtain ⟨first, others, rfl⟩ := List.exists_cons_of_ne_nil hne
    simp [sectionBullet, Entry.layout_cons, Entry.lines, Bullet.lines_eq]
  obtain ⟨rest, hrest⟩ := joinNewlines_bullet "Parameters".toList hlayout
  have htext : (sectionBullet parameters).toItem.text
      = String.ofList ('-' :: ' ' :: ("Parameters".toList ++ ':' :: rest)) := by
    rw [Bullet.toItem_eq, ← hrest]
    rfl
  have hchildren : (sectionBullet parameters).toItem.children
      = .paragraph (String.ofList (sectionBullet parameters).head)
        :: [.list (sectionList parameters)] := by
    rw [Bullet.toItem_eq, ← blocks_section hne]
  have hsplit := split?_bullet isName_parameters.isFieldName rest
  rw [← htext] at hsplit
  have hown : Field.afterParameter? "Parameters".toList = none := rfl
  have hkey : String.ofList (lowerLetters "Parameters".toList) = "parameters" := by decide
  have hevents (list : ListBlock) :
      (parameters.map fun parameter => parameter.bullet.toItem).map (ofSectionItem list)
        = parameters.map fun parameter =>
            Event.parameter parameter.bare.name parameter.content.text := by
    rw [List.map_map]
    refine List.map_congr_left fun parameter hm => ?_
    rw [Function.comp_apply, ofSectionItem_parameter list (h parameter hm)]
  rw [Field.bareName, hown, Option.getD_none] at hsplit
  simp only [ofItem, field?_of_blocks hsplit hchildren (by simp), Field.withBlocks, ofField,
    String.ofList_toList, hkey, hdepth, hchildren, ofSection_cons]
  simp [Block.bulletList?, ListBlock.isBullet, ofSection, sectionList, hevents]

/-- The events of bullets, each of them taken for an item of an empty list. -/
def ofBullets (maxDepth : Int) (bullets : List Bullet) : List Event :=
  bullets.flatMap fun bullet => ofItem maxDepth 0 { kind := .bullet } bullet.toItem

theorem ofBullets_append (maxDepth : Int) (bullets more : List Bullet) :
    ofBullets maxDepth (bullets ++ more) = ofBullets maxDepth bullets ++ ofBullets maxDepth more :=
  List.flatMap_append

/-- A field at the end of a record states its event, if it is there. -/
theorem ofBullets_closing {maxDepth : Int} {name : List Char} {event : String → Event}
    (hitem : ∀ {text}, IsProseBody text →
      ofItem maxDepth 0 { kind := .bullet } (Bullet.field name (bodyTexts text)).toItem
        = [event text])
    {document : Option Document} (h : ∀ d ∈ document, d.IsProse) :
    ofBullets maxDepth (document.toList.map fun d => Bullet.field name (bodyTexts d.text))
      = document.toList.map fun d => event d.text := by
  cases document with
  | none => rfl
  | some d => simp [ofBullets, hitem (h d rfl).spec.1]

/-- The event of a part of a discussion. -/
def ofPart : Part → Event
  | .block block => .keep block
  | .callout c => .callout c.label c.content

end Event

namespace Documentation

variable {d : Documentation}

/-- The events that a record states, its discussion first. -/
def events (d : Documentation) : List Event :=
  d.discussion.map Event.ofPart
    ++ (d.parameters.map (fun parameter => Event.parameter parameter.name parameter.content.text)
      ++ (d.throws.toList.map (fun document => Event.throws document.text)
        ++ d.returns.toList.map fun document => Event.returns document.text))

theorem settled_of_eq {maxDepth : Int} {item : ListItem} {events : List Event}
    (h : ∀ parent, Event.ofItem maxDepth 0 parent item = events) : Event.Settled maxDepth item :=
  fun parent other => (h parent).trans (h other).symm

/-- Every item of the outline is settled: a record in prose has no loose items. -/
theorem IsProse.settled (h : d.IsProse) {maxDepth : Int} (hdepth : 0 < maxDepth) :
    ∀ gap bullet, .item gap bullet ∈ d.outlineBelow → Event.Settled maxDepth bullet.toItem := by
  have hfields : ∀ bullet ∈ d.fieldBullets, Event.Settled maxDepth bullet.toItem := by
    intro bullet hbullet
    simp only [fieldBullets, List.mem_append, List.mem_map, Option.mem_toList] at hbullet
    obtain (hsection | ⟨document, hdocument, rfl⟩) | ⟨document, hdocument, rfl⟩ := hbullet
    · split at hsection
      · simp at hsection
      · next hne =>
          rw [List.mem_singleton.mp hsection]
          exact settled_of_eq fun parent =>
            Event.ofItem_section hdepth parent (by simpa using hne) h.parameters
    · exact settled_of_eq fun parent =>
        Event.ofItem_throws maxDepth parent (h.throws document hdocument).spec.1
    · exact settled_of_eq fun parent =>
        Event.ofItem_returns maxDepth parent (h.returns document hdocument).spec.1
  intro gap bullet hmem
  rcases List.mem_append.mp hmem with hmem | hmem
  · obtain ⟨part, hpart, heq⟩ := List.mem_map.mp hmem
    cases part with
    | callout c =>
        obtain ⟨rfl, rfl⟩ := Entry.item.inj heq
        exact settled_of_eq fun parent =>
          Event.ofItem_callout maxDepth parent c.label (h.discussion _ hpart)
    | block b => simp [Part.entry, Block.entry] at heq
  · cases hbullets : d.fieldBullets with
    | nil => simp [hbullets, bulletEntries] at hmem
    | cons first others =>
        rw [hbullets] at hmem hfields
        rcases List.mem_cons.mp hmem with heq | hmem
        · obtain ⟨rfl, rfl⟩ := Entry.item.inj heq
          exact hfields _ List.mem_cons_self
        · obtain ⟨other, hother, heq⟩ := List.mem_map.mp hmem
          obtain ⟨rfl, rfl⟩ := Entry.item.inj heq
          exact hfields _ (List.mem_cons_of_mem _ hother)

/-- Behind its summary, the outline of a record in prose states the events of the record. -/
theorem IsProse.ofBlocks_outline (h : d.IsProse) {maxDepth : Int} (hdepth : 0 < maxDepth) :
    Event.ofBlocks maxDepth (Entry.blocks d.outlineBelow) = d.bare.events := by
  have hparts : (d.discussion.map Part.entry).flatMap (Event.ofEntry maxDepth)
      = d.discussion.map Event.ofPart := by
    rw [List.flatMap_map, ← List.flatMap_pure_eq_map]
    refine List.flatMap_congr fun part hpart => ?_
    cases part with
    | callout c =>
        rw [Part.entry, Event.ofEntry,
          Event.ofItem_callout maxDepth _ c.label (h.discussion _ hpart)]
        rfl
    | block b =>
        cases b with
        | paragraph text =>
            simp [Part.entry, Block.entry, Event.ofEntry, Event.ofPart, Block.text,
              joinNewlines_splitNewlines]
        | _ => exact (h.discussion _ hpart).elim
  have hbullets : (bulletEntries d.fieldBullets).flatMap (Event.ofEntry maxDepth)
      = Event.ofBullets maxDepth d.fieldBullets := by
    cases d.fieldBullets with
    | nil => rfl
    | cons first others => simp [bulletEntries, Event.ofBullets, Event.ofEntry, List.flatMap_map]
  have hsection : Event.ofBullets maxDepth
      (if d.parameters.isEmpty then [] else [sectionBullet d.parameters])
        = d.parameters.map fun parameter =>
            Event.parameter parameter.bare.name parameter.content.text := by
    cases hparameters : d.parameters with
    | nil => rfl
    | cons first others =>
        rw [← hparameters, if_neg (by simp [hparameters]), Event.ofBullets, List.flatMap_singleton]
        exact Event.ofItem_section hdepth _ (by simp [hparameters]) h.parameters
  have hthrows :=
    Event.ofBullets_closing (Event.ofItem_throws maxDepth { kind := .bullet }) h.throws
  have hreturns :=
    Event.ofBullets_closing (Event.ofItem_returns maxDepth { kind := .bullet }) h.returns
  rw [(Event.ofBlocks_blocks (h.settled hdepth)).1, outlineBelow, List.flatMap_append, hparts,
    hbullets, fieldBullets, Event.ofBullets_append, Event.ofBullets_append, hsection, hthrows,
    hreturns, events, bare, List.map_map, List.append_assoc]
  rfl

theorem splitSummary_consItem (item : ListItem) (blocks : List Block) :
    Block.splitSummary (consItem item blocks) = (none, consItem item blocks) := by
  unfold consItem
  split <;> rfl

/-- The summary of a record in prose is found in front of its other blocks. -/
theorem IsProse.splitSummary (h : d.IsProse) :
    Block.splitSummary (Entry.blocks d.outline) = (d.summary, Entry.blocks d.outlineBelow) := by
  rw [outline]
  cases hsummary : d.summary with
  | some block =>
      obtain ⟨text, rfl, -⟩ := h.summary block hsummary
      simp [Block.entry, Entry.blocks_paragraph, Block.splitSummary, Block.text,
        joinNewlines_splitNewlines]
  | none =>
      show Block.splitSummary (Entry.blocks d.outlineBelow) = _
      rw [outlineBelow]
      cases hdiscussion : d.discussion with
      | nil =>
          cases d.fieldBullets with
          | nil => rfl
          | cons bullet bullets => exact splitSummary_consItem _ _
      | cons part parts =>
          obtain ⟨c, rfl⟩ := h.opening hsummary part (by rw [hdiscussion]; rfl)
          exact splitSummary_consItem _ _

/-- Every text of the events can be read. -/
theorem IsProse.read_events (h : d.IsProse) :
    ∀ event ∈ d.bare.events, ∀ text ∈ event.text?,
      Markdown.read defaultLimit text = .ok (bodyDocument text) := by
  intro event hevent text htext
  refine read_proseBody ?_
  simp only [events, bare, List.map_map, List.mem_append, List.mem_map, Option.mem_toList] at hevent
  obtain ⟨part, -, rfl⟩ | ⟨parameter, hparameter, rfl⟩ | ⟨document, hdocument, rfl⟩
    | ⟨document, hdocument, rfl⟩ := hevent
  · cases part <;> simp [Event.ofPart, Event.text?] at htext
  · cases htext
    exact (h.parameters parameter hparameter).2.spec.1
  · cases htext
    exact (h.throws document hdocument).spec.1
  · cases htext
    exact (h.returns document hdocument).spec.1

theorem foldl_extend_parts (parts : List Part) (before : List Part) :
    (parts.map Event.ofPart).foldl Event.extend before = before ++ parts := by
  induction parts generalizing before with
  | nil => simp
  | cons part parts ih =>
      rw [List.map_cons, List.foldl_cons, ih]
      cases part <;> simp [Event.ofPart, Event.extend]

/-- The events of a record without those of its discussion, which state no field. -/
theorem filterMap_events {α : Type} {field? : Event → Option α}
    (hparts : ∀ part, field? (Event.ofPart part) = none) (d : Documentation) :
    d.events.filterMap field?
      = d.parameters.filterMap (fun parameter =>
          field? (.parameter parameter.name parameter.content.text))
        ++ (d.throws.toList.filterMap (fun document => field? (.throws document.text))
          ++ d.returns.toList.filterMap fun document => field? (.returns document.text)) := by
  have hdiscussion : (d.discussion.map Event.ofPart).filterMap field? = [] := by
    rw [List.filterMap_map, List.filterMap_eq_nil_iff]
    exact fun part _ => hparts part
  rw [events, List.filterMap_append, List.filterMap_append, List.filterMap_append, hdiscussion,
    List.filterMap_map, List.filterMap_map, List.filterMap_map]
  rfl

/-- The events of a record in prose state the record. -/
theorem IsProse.ofEvents_events (h : d.IsProse) :
    Documentation.ofEvents bodyDocument d.summary d.bare.events = d.bare := by
  have hdiscussion : d.bare.events.foldl Event.extend [] = d.discussion := by
    rw [events, List.foldl_append, foldl_extend_parts]
    cases hthrows : d.throws <;> cases hreturns : d.returns <;>
      simp [bare, hthrows, hreturns, List.foldl_map, Event.extend]
  have hparameters : d.bare.events.filterMap (Event.parameter? bodyDocument)
      = d.parameters.map Parameter.bare := by
    have hcontent : d.parameters.map (fun parameter =>
        { name := parameter.bare.name, content := bodyDocument parameter.content.text })
          = d.parameters.map Parameter.bare := by
      refine List.map_congr_left fun parameter hm => ?_
      rw [(h.parameters parameter hm).2.spec.2]
      rfl
    rw [← hcontent, filterMap_events fun part => by cases part <;> rfl]
    simp [Event.parameter?, bare, Function.comp_def, Parameter.bare]
  have hreturns :
      (d.bare.events.filterMap Event.returns?).getLast?.map bodyDocument = d.returns := by
    rw [filterMap_events fun part => by cases part <;> rfl]
    cases hsome : d.returns with
    | none => simp [bare, hsome, Event.returns?]
    | some document => simp [bare, hsome, Event.returns?, (h.returns document hsome).spec.2]
  have hthrows : (d.bare.events.filterMap Event.throws?).getLast?.map bodyDocument = d.throws := by
    rw [filterMap_events fun part => by cases part <;> rfl]
    cases hsome : d.throws with
    | none => simp [bare, hsome, Event.throws?]
    | some document => simp [bare, hsome, Event.throws?, (h.throws document hsome).spec.2]
  rw [ofEvents, hdiscussion, hparameters, hreturns, hthrows]
  rfl

end Documentation

namespace SectionReader

/-- **What is written is read back, under bare names.**  From what was written of a record in prose,
the standard section reader finds the record again, except that a parameter whose name announces a
parameter loses the announcement. -/
theorem parse_markup_of_prose {d : Documentation} (h : d.IsProse) :
    standard.parse (some d.markup) = .ok d.bare := by
  have hevents : Event.ofBlocks standard.maxDepth (Entry.blocks d.outlineBelow) = d.bare.events :=
    h.ofBlocks_outline (show (0 : Int) < 8 by decide)
  have hparse := parse_of_readable standard h.read_markup (by
    rw [h.splitSummary, hevents]
    exact h.read_events)
  rw [hparse, Documentation.meaning, h.splitSummary]
  show Except.ok (Documentation.ofEvents bodyDocument d.summary (Event.ofBlocks standard.maxDepth
    (Entry.blocks d.outlineBelow))) = .ok d.bare
  rw [hevents, h.ofEvents_events]

end SectionReader

end DocComment
