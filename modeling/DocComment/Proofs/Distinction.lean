import DocComment.Proofs.Destination
import DocComment.Proofs.Discussion
import DocComment.Proofs.KeptFields
import Mathlib.Data.List.Basic

/-!
# What a record tells apart

Two block trees differ in one item of a top-level bullet list: when do their records differ?

* An item that enters a section contributes what the items in it do; every other item contributes
  one event, by its destination.
* That event can be read off the record again: a parameter from its place among the parameters, the
  last returns and the last throws field from theirs, a callout and a folded item from the
  discussion, which later events only append to (`Event.parameters_of_ofEvents_eq` and the lemmas
  behind it).
* `SectionReader.visitTree_eq_iff`: without a section, the records are the same exactly if the two
  versions of the item bring the same content to the same place.

**Boundary.**  The text after the colon is not always content.  Where blocks stand behind the first
one, they are the description; a section that is entered has none.  `visitTree_conflates` shows such
items, whose text is lost.
-/

namespace DocComment

/-! ## Records that differ in one event -/

namespace Event

variable {content : String → Document} {summary : Option Block} {before after : List Event}

/-- Events that do the same to every record can stand for each other. -/
theorem ofEvents_congr {events other : List Event}
    (h : ∀ d, events.foldl (apply content) d = other.foldl (apply content) d) :
    Documentation.ofEvents content summary (before ++ events ++ after)
      = Documentation.ofEvents content summary (before ++ other ++ after) := by
  rw [← foldl_apply_summary_only, ← foldl_apply_summary_only]
  simp only [List.foldl_append, h]

theorem parameters_of_ofEvents_eq {events other : List Event}
    (h : Documentation.ofEvents content summary (before ++ events ++ after)
      = Documentation.ofEvents content summary (before ++ other ++ after)) :
    events.filterMap (parameter? content) = other.filterMap (parameter? content) := by
  have hparameters := congrArg Documentation.parameters h
  simpa [Documentation.ofEvents] using hparameters

theorem returns_of_ofEvents_eq {text other : String} (hafter : after.filterMap returns? = [])
    (h : Documentation.ofEvents content summary (before ++ [.returns text] ++ after)
      = Documentation.ofEvents content summary (before ++ [.returns other] ++ after)) :
    content text = content other := by
  have hreturns := congrArg Documentation.returns h
  simpa [Documentation.ofEvents, returns?, hafter] using hreturns

theorem throws_of_ofEvents_eq {text other : String} (hafter : after.filterMap throws? = [])
    (h : Documentation.ofEvents content summary (before ++ [.throws text] ++ after)
      = Documentation.ofEvents content summary (before ++ [.throws other] ++ after)) :
    content text = content other := by
  have hthrows := congrArg Documentation.throws h
  simpa [Documentation.ofEvents, throws?, hafter] using hthrows

/-- A callout stays where it joined the discussion. -/
theorem callout_of_ofEvents_eq {label otherLabel : CalloutLabel} {text other : String}
    (h : Documentation.ofEvents content summary (before ++ [.callout label text] ++ after)
      = Documentation.ofEvents content summary (before ++ [.callout otherLabel other] ++ after)) :
    label = otherLabel ∧ text = other := by
  have hdiscussion := congrArg Documentation.discussion h
  simp only [Documentation.ofEvents, List.foldl_append, List.foldl_cons, List.foldl_nil,
    extend] at hdiscussion
  generalize before.foldl extend [] = parts at hdiscussion
  -- what comes later is appended, and a callout at the end absorbs nothing
  obtain ⟨more, hmore⟩ := foldl_extend_eq after (parts ++ [.callout { label, content := text }])
  obtain ⟨moreOther, hmoreOther⟩ :=
    foldl_extend_eq after (parts ++ [.callout { label := otherLabel, content := other }])
  rw [hmore, hmoreOther, absorbLast_callout, absorbLast_callout, List.append_assoc,
    List.append_assoc] at hdiscussion
  have hparts : (label = otherLabel ∧ text = other) ∧ more = moreOther := by
    simpa using List.append_cancel_left hdiscussion
  exact hparts.1

/-- A folded item stays where it joined a list. -/
theorem fold_of_ofEvents_eq {item other : ListItem} {parent : ListBlock}
    {note otherNote : Option LogRecord}
    (h : Documentation.ofEvents content summary (before ++ [.fold item parent note] ++ after)
      = Documentation.ofEvents content summary
          (before ++ [.fold other parent otherNote] ++ after)) :
    item = other := by
  have hdiscussion := congrArg Documentation.discussion h
  simp only [Documentation.ofEvents, List.foldl_append, List.foldl_cons,
    List.foldl_nil] at hdiscussion
  generalize before.foldl extend [] = parts at hdiscussion
  obtain ⟨more, hmore⟩ := foldl_extend_eq after (extend parts (.fold item parent note))
  obtain ⟨moreOther, hmoreOther⟩ :=
    foldl_extend_eq after (extend parts (.fold other parent otherNote))
  rw [hmore, hmoreOther] at hdiscussion
  -- either way there is one list to look at, and the same items are absorbed behind ours
  rcases ends_with_list_or parts with ⟨first, l, rfl⟩ | ⟨hlast, -⟩
  · rw [extend_fold_list, extend_fold_list, absorbLast_block, absorbLast_block,
      List.append_assoc, List.append_assoc] at hdiscussion
    have hparts : item = other ∧ more = moreOther := by
      simpa [Block.absorb, ListBlock.push] using List.append_cancel_left hdiscussion
    exact hparts.1
  · rw [extend_fold_of_not_list hlast, extend_fold_of_not_list hlast, absorbLast_block,
      absorbLast_block, List.append_assoc, List.append_assoc] at hdiscussion
    have hparts : item = other ∧ more = moreOther := by
      simpa [Block.absorb] using List.append_cancel_left hdiscussion
    exact hparts.1

end Event

/-! ## A place for an item -/

/-- A place for an item: a bullet list among the blocks of a comment, without the item itself. -/
structure Place where
  before : List Block := []
  first : List ListItem := []
  rest : List ListItem := []
  marker : String := "-"
  start : Option Int := none
  after : List Block := []

namespace Place

variable (place : Place)

/-- The blocks with the item in its place. -/
def blocks (item : ListItem) : List Block :=
  place.before ++ .list {
    kind := .bullet
    items := place.first ++ item :: place.rest
    marker := place.marker
    start := place.start } :: place.after

/-- The items of top-level bullet lists behind the place. -/
def later : List ListItem :=
  place.rest ++ (place.after.filterMap Block.bulletList?).flatMap ListBlock.items

/-- The list without its items. -/
def frame : ListBlock where
  kind := .bullet
  marker := place.marker

/-- The events in front of the item. -/
def eventsBefore (maxDepth : Int) : List Event :=
  Event.ofBlocks maxDepth (Block.splitSummary place.before).2
    ++ place.first.flatMap (Event.ofItem maxDepth 0 place.frame)

/-- The events behind the item. -/
def eventsAfter (maxDepth : Int) : List Event :=
  place.rest.flatMap (Event.ofItem maxDepth 0 place.frame) ++ Event.ofBlocks maxDepth place.after

theorem splitSummary_blocks (item : ListItem) :
    Block.splitSummary (place.blocks item)
      = ((Block.splitSummary place.before).1,
          (Block.splitSummary place.before).2 ++ (place.blocks item).drop place.before.length) := by
  rw [blocks, List.drop_left]
  cases place.before with
  | nil => rfl
  | cons block before => cases block <;> rfl

theorem ofBlocks_blocks (maxDepth : Int) (item : ListItem) :
    (Event.ofBlocks maxDepth (Block.splitSummary (place.blocks item)).2).map Event.detach
      = (place.eventsBefore maxDepth).map Event.detach
        ++ ((item.destination maxDepth).events maxDepth place.frame item).map Event.detach
        ++ (place.eventsAfter maxDepth).map Event.detach := by
  -- the list holds the item, so it is another list for another item; its kind and marker stay
  have hitems : ∀ (list : ListBlock) (items : List ListItem), list.kind = .bullet →
      list.marker = place.marker →
      (items.flatMap (Event.ofItem maxDepth 0 list)).map Event.detach
        = (items.flatMap (Event.ofItem maxDepth 0 place.frame)).map Event.detach := by
    intro list items hkind hmarker
    rw [List.map_flatMap, List.map_flatMap]
    exact List.flatMap_congr fun next _ => Event.map_detach_ofItem hkind hmarker maxDepth next
  rw [splitSummary_blocks, blocks, List.drop_left]
  simp only [Event.ofBlocks, List.flatMap_append, List.flatMap_cons, List.map_append, eventsBefore,
    eventsAfter, List.append_assoc]
  rw [Event.ofBlock]
  simp only [Block.bulletList?, ListBlock.isBullet, beq_self_eq_true, if_true]
  rw [hitems _ _ rfl rfl, ← Event.ofItem_eq]
  simp

/-- The record of the blocks, by what the item contributes. -/
theorem meaning_blocks (maxDepth : Int) (content : String → Document) (item : ListItem) :
    Documentation.meaning maxDepth content (place.blocks item)
      = Documentation.ofEvents content (Block.splitSummary place.before).1
          (place.eventsBefore maxDepth
            ++ (item.destination maxDepth).events maxDepth place.frame item
            ++ place.eventsAfter maxDepth) := by
  change Documentation.ofEvents content (Block.splitSummary (place.blocks item)).1
    (Event.ofBlocks maxDepth (Block.splitSummary (place.blocks item)).2) = _
  rw [← Event.ofEvents_map_detach, ofBlocks_blocks, ← List.map_append, ← List.map_append,
    Event.ofEvents_map_detach, splitSummary_blocks]

/-- A description that goes to the Markdown reader is the text of an event of the blocks. -/
theorem exists_event_of_text? {maxDepth : Int} {item : ListItem} {text : String}
    (h : text ∈ (item.destination maxDepth).text?) :
    ∃ event ∈ Event.ofBlocks maxDepth (Block.splitSummary (place.blocks item)).2,
      text ∈ event.text? := by
  have hevents (parent : ListBlock) :
      ∃ event ∈ Event.ofItem maxDepth 0 parent item, text ∈ event.text? := by
    rw [Event.ofItem_eq]
    cases hdestination : item.destination maxDepth with
    | parameter name description | returns description | throws description =>
        rw [hdestination] at h
        exact ⟨_, List.mem_singleton_self _, h⟩
    | _ => rw [hdestination] at h; cases h
  rw [splitSummary_blocks, blocks, List.drop_left]
  obtain ⟨event, hevent, htext⟩ := hevents {
    kind := .bullet
    items := place.first ++ item :: place.rest
    marker := place.marker
    start := place.start }
  refine ⟨event, List.mem_flatMap.mpr
    ⟨_, List.mem_append_right _ List.mem_cons_self, ?_⟩, htext⟩
  exact List.mem_flatMap.mpr ⟨item, by simp, hevent⟩

/-- What no later item states and no block brings is not among the events behind the item. -/
theorem filterMap_eventsAfter {stated? : Event → Option String} {maxDepth : Int}
    (hkeep : ∀ block, stated? (.keep block) = none)
    (hlater : ∀ next ∈ place.later, ∀ parent,
      ∀ event ∈ (next.destination maxDepth).events maxDepth parent next, stated? event = none) :
    (place.eventsAfter maxDepth).filterMap stated? = [] := by
  rw [List.filterMap_eq_nil_iff]
  intro event hevent
  rcases List.mem_append.mp hevent with hrest | hafter
  · obtain ⟨next, hnext, hstated⟩ := List.mem_flatMap.mp hrest
    rw [Event.ofItem_eq] at hstated
    exact hlater next (List.mem_append_left _ hnext) _ event hstated
  · obtain ⟨block, hblock, hstated⟩ := List.mem_flatMap.mp hafter
    rw [Event.ofBlock] at hstated
    split at hstated
    next list hlist =>
      obtain ⟨next, hnext, hstated⟩ := List.mem_flatMap.mp hstated
      rw [Event.ofItem_eq] at hstated
      refine hlater next (List.mem_append_right _ (List.mem_flatMap.mpr ⟨list, ?_, hnext⟩)) _ event
        hstated
      exact List.mem_filterMap.mpr ⟨block, hblock, hlist⟩
    next =>
      obtain rfl := List.mem_singleton.mp hstated
      exact hkeep block

end Place

/-! ## Two versions of an item -/

namespace ListItem

/-- Two versions of an item: fields of one name and with the same blocks behind the first one, whose
texts after the colon differ.  A field's own description is that text where there are no more
blocks; where there are, it takes in what follows, and no more is asked than that the items differ.
-/
structure Rewords (item other : ListItem) (field otherField : Field) : Prop where
  states : Field.split? item.text = some field
  otherStates : Field.split? other.text = some otherField
  name : field.name = otherField.name
  blocks : item.children.drop 1 = other.children.drop 1
  differs : item ≠ other
  text : item.children.drop 1 = [] → field.description ≠ otherField.description

/-- An item that brings its text after the colon to its destination.  A section that is entered has
no description, and a description may be made of the blocks behind the first one instead; an item
that is folded is kept as it is. -/
structure TakesText (maxDepth : Int) (item : ListItem) : Prop where
  not_section : item.destination maxDepth ≠ .parameters
  single : (item.destination maxDepth).folds = false → item.children.drop 1 = []

/-- Whether an item is a returns or throws field and one of the later items is one as well. -/
def Overridden (maxDepth : Int) (item : ListItem) (later : List ListItem) : Prop :=
  (∃ text, item.destination maxDepth = .returns text
      ∧ ∃ next ∈ later, (next.destination maxDepth).returns? ≠ none)
    ∨ ∃ text, item.destination maxDepth = .throws text
      ∧ ∃ next ∈ later, (next.destination maxDepth).throws? ≠ none

/-- Whether two items bring the same content to the same place, with descriptions read by
`content`. -/
def SameContribution (maxDepth : Int) (content : String → Document) (item other : ListItem) :
    Prop :=
  match item.destination maxDepth, other.destination maxDepth with
  | .parameter name text, .parameter otherName otherText =>
    name = otherName ∧ content text = content otherText
  | .returns text, .returns otherText => content text = content otherText
  | .throws text, .throws otherText => content text = content otherText
  | .callout label text, .callout otherLabel otherText => label = otherLabel ∧ text = otherText
  | _, _ => item = other

/-- The field that an item states has the name that its text gives; the description as well, if
there are no blocks behind the first one. -/
theorem field?_of_split? {item : ListItem} {field : Field}
    (h : Field.split? item.text = some field) :
    ∃ stated, item.field? = some stated ∧ stated.name = field.name
      ∧ (item.children.drop 1 = [] → stated = field) := by
  rw [ListItem.field?, h]
  cases hblocks : item.children.drop 1 with
  | nil => exact ⟨field, rfl, rfl, fun _ => rfl⟩
  | cons block blocks =>
      exact ⟨field.withBlocks ((block :: blocks).map Block.markup), rfl, rfl, by simp⟩

/-- Versions of an item that are no parameters go to the same place. -/
theorem Rewords.destination_eq {item other : ListItem} {field otherField : Field}
    (h : item.Rewords other field otherField) {maxDepth : Int}
    (hitem : ∀ name text, item.destination maxDepth ≠ .parameter name text)
    (hother : ∀ name text, other.destination maxDepth ≠ .parameter name text) :
    ∃ text, other.destination maxDepth = (item.destination maxDepth).withText text := by
  obtain ⟨stated, hstated, hname, -⟩ := field?_of_split? h.states
  obtain ⟨otherStated, hotherStated, hotherName, -⟩ := field?_of_split? h.otherStates
  simp only [destination, hstated, hotherStated] at hitem hother ⊢
  refine ⟨otherStated.description, ?_⟩
  exact Destination.ofField_of_name_eq (by rw [hname, hotherName, h.name]) _ hitem hother

/-- Items that bring the same content to the same place do the same to every record. -/
theorem SameContribution.foldl_apply {maxDepth : Int} {content : String → Document}
    {item other : ListItem} (h : item.SameContribution maxDepth content other) (parent : ListBlock)
    (d : Documentation) :
    ((item.destination maxDepth).events maxDepth parent item).foldl (Event.apply content) d
      = ((other.destination maxDepth).events maxDepth parent other).foldl
          (Event.apply content) d := by
  rw [SameContribution] at h
  split at h
  next name text otherName otherText hitem hother =>
    obtain ⟨rfl, htext⟩ := h
    simp [hitem, hother, Destination.events, Event.apply, htext]
  next text otherText hitem hother =>
    simp [hitem, hother, Destination.events, Event.apply, h]
  next text otherText hitem hother =>
    simp [hitem, hother, Destination.events, Event.apply, h]
  next label text otherLabel otherText hitem hother =>
    obtain ⟨rfl, rfl⟩ := h
    simp [hitem, hother, Destination.events]
  next => rw [h]

/-- Records that are the same show two versions of an item to bring the same content to the same
place. -/
theorem Rewords.sameContribution {item other : ListItem} {field otherField : Field}
    (h : item.Rewords other field otherField) {maxDepth : Int} {content : String → Document}
    {summary : Option Block} {before after : List Event} {parent : ListBlock}
    (hitem : item.destination maxDepth ≠ .parameters)
    (hother : other.destination maxDepth ≠ .parameters)
    (hreturns : ∀ text, item.destination maxDepth = .returns text →
      after.filterMap Event.returns? = [])
    (hthrows : ∀ text, item.destination maxDepth = .throws text →
      after.filterMap Event.throws? = [])
    (hsame : Documentation.ofEvents content summary
        (before ++ (item.destination maxDepth).events maxDepth parent item ++ after)
      = Documentation.ofEvents content summary
        (before ++ (other.destination maxDepth).events maxDepth parent other ++ after)) :
    item.SameContribution maxDepth content other := by
  have hparameters := Event.parameters_of_ofEvents_eq hsame
  -- the other version is a parameter only if this one is
  have hsent (hkind : ∀ name text, item.destination maxDepth ≠ .parameter name text)
      (hnone : ((item.destination maxDepth).events maxDepth parent item).filterMap
        (Event.parameter? content) = []) :
      ∃ text, other.destination maxDepth = (item.destination maxDepth).withText text := by
    refine h.destination_eq hkind fun name text hparameter => ?_
    rw [hnone, hparameter] at hparameters
    simp [Destination.events, Event.parameter?] at hparameters
  rw [SameContribution]
  cases hdestination : item.destination maxDepth with
  | parameters => exact absurd hdestination hitem
  | parameter name text =>
      rw [hdestination] at hparameters
      cases hotherDestination : other.destination maxDepth with
      | parameters => exact absurd hotherDestination hother
      | parameter otherName otherText =>
          simpa [hotherDestination, Destination.events, Event.parameter?] using hparameters
      | _ =>
          rw [hotherDestination] at hparameters
          exact absurd hparameters (List.cons_ne_nil _ _)
  | returns text =>
      rw [hdestination] at hsent hsame
      obtain ⟨otherText, hotherDestination⟩ := hsent (by simp) rfl
      rw [hotherDestination] at hsame ⊢
      exact Event.returns_of_ofEvents_eq (hreturns text hdestination) hsame
  | throws text =>
      rw [hdestination] at hsent hsame
      obtain ⟨otherText, hotherDestination⟩ := hsent (by simp) rfl
      rw [hotherDestination] at hsame ⊢
      exact Event.throws_of_ofEvents_eq (hthrows text hdestination) hsame
  | callout label text =>
      rw [hdestination] at hsent hsame
      obtain ⟨otherText, hotherDestination⟩ := hsent (by simp) rfl
      rw [hotherDestination] at hsame ⊢
      exact Event.callout_of_ofEvents_eq hsame
  | content | unrecognized name | tooDeep =>
      rw [hdestination] at hsent hsame
      obtain ⟨_, hotherDestination⟩ := hsent (by simp) rfl
      rw [hotherDestination] at hsame ⊢
      exact Event.fold_of_ofEvents_eq hsame

/-- An item that takes its text has it for its description. -/
theorem TakesText.destination_eq {item : ListItem} {maxDepth : Int} {field : Field}
    (h : item.TakesText maxDepth) (hfield : Field.split? item.text = some field) :
    item.destination maxDepth = (item.destination maxDepth).withText field.description
      ∧ (field.lowerName ≠ "parameter" → ∀ name text,
          item.destination maxDepth = .parameter name text → text = field.description) := by
  obtain ⟨stated, hstated, -, hsingle⟩ := field?_of_split? hfield
  have hown (hblocks : item.children.drop 1 = []) :
      item.destination maxDepth = (item.destination maxDepth).withText field.description
        ∧ (field.lowerName ≠ "parameter" → ∀ name text,
            item.destination maxDepth = .parameter name text → text = field.description) := by
    rw [destination, hstated, hsingle hblocks]
    exact Destination.ofField_text _ field
  -- a folded item has no description at its destination, so its blocks do not matter
  cases hfolds : (item.destination maxDepth).folds with
  | false => exact hown (h.single hfolds)
  | true =>
      cases hdestination : item.destination maxDepth with
      | content | unrecognized name | tooDeep => exact ⟨rfl, by simp⟩
      | _ =>
          rw [hdestination] at hfolds
          cases hfolds

/-- Descriptions that are taken from a text stand in one line. -/
theorem TakesText.notMem_text {item : ListItem} {maxDepth : Int} {field : Field}
    (h : item.TakesText maxDepth) (hfield : Field.split? item.text = some field) :
    ∀ text ∈ (item.destination maxDepth).text?, '\r' ∉ text.toList := by
  intro text htext
  have hfolds : (item.destination maxDepth).folds = false := by
    cases hdestination : item.destination maxDepth with
    | content | unrecognized name | tooDeep =>
        rw [hdestination] at htext
        cases htext
    | _ => rfl
  obtain ⟨stated, hstated, -, hsingle⟩ := field?_of_split? hfield
  rw [destination, hstated, hsingle (h.single hfolds)] at htext
  obtain ⟨source, named, hnamed, rfl⟩ := Destination.exists_split?_of_text? hfield htext
  exact Field.notMem_description hnamed

/-- Versions of an item that take their texts bring different content, where documents tell the
texts apart and the two do not state one parameter behind the word that announces it. -/
theorem Rewords.not_sameContribution {item other : ListItem} {field otherField : Field}
    (h : item.Rewords other field otherField) {maxDepth : Int} {content : String → Document}
    (hitem : item.TakesText maxDepth) (hother : other.TakesText maxDepth)
    (hstated : field.lowerName = "parameter" →
      item.destination maxDepth ≠ other.destination maxDepth)
    (hcontent : ∀ text ∈ (item.destination maxDepth).text?,
      ∀ otherText ∈ (other.destination maxDepth).text?,
        text ≠ otherText → content text ≠ content otherText) :
    ¬ item.SameContribution maxDepth content other := by
  obtain ⟨htake, hparameter⟩ := hitem.destination_eq h.states
  obtain ⟨hotherTake, hotherParameter⟩ := hother.destination_eq h.otherStates
  have htexts (hfolds : (item.destination maxDepth).folds = false) :
      field.description ≠ otherField.description := h.text (hitem.single hfolds)
  intro hsame
  rw [SameContribution] at hsame
  split at hsame
  next name text otherName otherText hsent hotherSent =>
    obtain ⟨rfl, hdocuments⟩ := hsame
    -- with the same description it would be the same parameter, which only announced ones can state
    by_cases htext : text = otherText
    · subst htext
      have hnamed : field.lowerName ≠ "parameter" :=
        fun hannounced => hstated hannounced (hsent.trans hotherSent.symm)
      have hotherNamed : otherField.lowerName ≠ "parameter" := by
        rwa [Field.lowerName, ← h.name]
      exact htexts (by rw [hsent]; rfl) ((hparameter hnamed _ _ hsent).symm.trans
        (hotherParameter hotherNamed _ _ hotherSent))
    · exact hcontent text (by simp [hsent, Destination.text?]) otherText
        (by simp [hotherSent, Destination.text?]) htext hdocuments
  next text otherText hsent hotherSent =>
    rw [hsent, Destination.withText, Destination.returns.injEq] at htake
    rw [hotherSent, Destination.withText, Destination.returns.injEq] at hotherTake
    have hne : text ≠ otherText := by
      rw [htake, hotherTake]
      exact htexts (by rw [hsent]; rfl)
    exact hcontent text (by simp [hsent, Destination.text?]) otherText
      (by simp [hotherSent, Destination.text?]) hne hsame
  next text otherText hsent hotherSent =>
    rw [hsent, Destination.withText, Destination.throws.injEq] at htake
    rw [hotherSent, Destination.withText, Destination.throws.injEq] at hotherTake
    have hne : text ≠ otherText := by
      rw [htake, hotherTake]
      exact htexts (by rw [hsent]; rfl)
    exact hcontent text (by simp [hsent, Destination.text?]) otherText
      (by simp [hotherSent, Destination.text?]) hne hsame
  next label text otherLabel otherText hsent hotherSent =>
    rw [hsent, Destination.withText, Destination.callout.injEq] at htake
    rw [hotherSent, Destination.withText, Destination.callout.injEq] at hotherTake
    exact htexts (by rw [hsent]; rfl) (by rw [← htake.2, ← hotherTake.2, hsame.2])
  next => exact h.differs hsame

end ListItem

namespace SectionReader

open Extraction

variable {ε : Type}

/-- The documentation that top-level blocks state, without a closing log record. -/
def visitTree (reader : SectionReader ε) (blocks : List Block) :
    Except (Failure ε) Documentation :=
  (runFrom (do
    let _ ← reader.visitBlocks .initial blocks
    let progress ← get
    return progress.documentation) {}).1

variable {reader : SectionReader ε}

/-- A visit that succeeds has read all its texts, and gives what the blocks mean. -/
theorem visitTree_ok {blocks : List Block} {d : Documentation}
    (h : reader.visitTree blocks = .ok d) :
    (∀ event ∈ Event.ofBlocks reader.maxDepth (Block.splitSummary blocks).2,
        ∀ text ∈ event.text?, reader.markdown text = .ok (reader.content text))
      ∧ d = Documentation.meaning reader.maxDepth reader.content blocks := by
  rw [visitTree, visitBlocks_initial, runFrom_bind, runFrom_summarize] at h
  dsimp only at h
  rw [runFrom_bind] at h
  have hreads : ∀ event ∈ Event.ofBlocks reader.maxDepth (Block.splitSummary blocks).2,
      ∀ text ∈ event.text?, reader.markdown text = .ok (reader.content text) := by
    obtain ⟨called, -, houtcome⟩ := performAll_handsOver reader
      (Event.ofBlocks reader.maxDepth (Block.splitSummary blocks).2)
      { documentation := { summary := (Block.splitSummary blocks).1 } }
    generalize runFrom (reader.performAll _) _ = result at h houtcome
    obtain ⟨outcome, after⟩ := result
    cases outcome with
    | error failure => cases h
    | ok done =>
        intro event hevent text htext
        exact (houtcome.reads text (List.mem_filterMap.mpr ⟨event, hevent, htext⟩)).markdown_eq
  refine ⟨hreads, ?_⟩
  rw [performAll_ok reader hreads] at h
  have hd := (Except.ok.inj h).symm
  rw [hd, Event.foldl_after, Event.foldl_apply_summary_only]
  rfl

variable {place : Place} {item other : ListItem} {field otherField : Field} {d e : Documentation}

/-- **What a record tells apart.**  Two versions of an item that enter no section and are not
overridden lead to the same record exactly if they bring the same content to the same place. -/
theorem visitTree_eq_iff (h : item.Rewords other field otherField)
    (hlater : ¬ item.Overridden reader.maxDepth place.later)
    (hitem : item.destination reader.maxDepth ≠ .parameters)
    (hother : other.destination reader.maxDepth ≠ .parameters)
    (hd : reader.visitTree (place.blocks item) = .ok d)
    (he : reader.visitTree (place.blocks other) = .ok e) :
    d = e ↔ item.SameContribution reader.maxDepth reader.content other := by
  rw [(visitTree_ok hd).2, (visitTree_ok he).2, place.meaning_blocks, place.meaning_blocks]
  constructor
  · refine h.sameContribution hitem hother (fun text htext => ?_) fun text htext => ?_
    · refine place.filterMap_eventsAfter (fun _ => rfl) fun next hnext _ event hevent => ?_
      rw [(Event.stated_of_mem_events event hevent).1]
      by_contra hreturns
      exact hlater (.inl ⟨text, htext, next, hnext, hreturns⟩)
    · refine place.filterMap_eventsAfter (fun _ => rfl) fun next hnext _ event hevent => ?_
      rw [(Event.stated_of_mem_events event hevent).2]
      by_contra hthrows
      exact hlater (.inr ⟨text, htext, next, hnext, hthrows⟩)
  · exact fun hsame => Event.ofEvents_congr fun record => hsame.foldl_apply place.frame record

/-- Whether the Markdown reader gives two texts different documents. -/
def TellsApart (reader : SectionReader ε) (text other : String) : Prop :=
  ∀ document, reader.markdown text = .ok document → reader.markdown other ≠ .ok document

/-- The standard reader tells texts apart, but for the newline conventions in them. -/
theorem standard_tellsApart {text other : String} (htext : '\r' ∉ text.toList)
    (hother : '\r' ∉ other.toList) (hne : text ≠ other) : standard.TellsApart text other := by
  intro document hread hotherRead
  obtain ⟨hcontent, hunified⟩ := standard_markdown text
  obtain ⟨hotherContent, hotherUnified⟩ := standard_markdown other
  rw [hcontent, Except.ok.injEq] at hread
  rw [hotherContent, Except.ok.injEq] at hotherRead
  rw [unified, Text.unifyNewlines_of_notMem htext, String.ofList_toList] at hunified
  rw [unified, Text.unifyNewlines_of_notMem hother, String.ofList_toList] at hotherUnified
  exact hne (by rw [← hunified, ← hotherUnified, hread, hotherRead])

/-- So it tells any two descriptions apart that items take from their texts. -/
theorem standard_tellsApart_of_takesText {maxDepth : Int}
    (h : item.Rewords other field otherField) (hitem : item.TakesText maxDepth)
    (hother : other.TakesText maxDepth) :
    ∀ text ∈ (item.destination maxDepth).text?, ∀ otherText ∈ (other.destination maxDepth).text?,
      text ≠ otherText → standard.TellsApart text otherText := by
  intro text htext otherText hotherText hne
  exact standard_tellsApart (hitem.notMem_text h.states text htext)
    (hother.notMem_text h.otherStates otherText hotherText) hne

/-- **What a field item says is not lost.**  Two comments differ in one item that states, in both of
them, a field of the same name, and that is not overridden.  Their records are the same exactly if
the two versions bring the same content to the same place.  So the records differ wherever the item
takes its text after the colon, if the Markdown reader tells the two descriptions apart and, behind
the word "parameter", the texts do not state one and the same parameter. -/
theorem visitTree_tells_apart (h : item.Rewords other field otherField)
    (hlater : ¬ item.Overridden reader.maxDepth place.later)
    (hd : reader.visitTree (place.blocks item) = .ok d)
    (he : reader.visitTree (place.blocks other) = .ok e) :
    (item.destination reader.maxDepth ≠ .parameters →
        other.destination reader.maxDepth ≠ .parameters →
          (d = e ↔ item.SameContribution reader.maxDepth reader.content other))
      ∧ (item.TakesText reader.maxDepth → other.TakesText reader.maxDepth →
          (field.lowerName = "parameter" →
            item.destination reader.maxDepth ≠ other.destination reader.maxDepth) →
          (∀ text ∈ (item.destination reader.maxDepth).text?,
            ∀ otherText ∈ (other.destination reader.maxDepth).text?,
              text ≠ otherText → reader.TellsApart text otherText) →
          d ≠ e) := by
  refine ⟨fun hitem hother => visitTree_eq_iff h hlater hitem hother hd he, ?_⟩
  intro hitem hother hstated hreader hsame
  have hcontribution :=
    (visitTree_eq_iff h hlater hitem.not_section hother.not_section hd he).mp hsame
  refine h.not_sameContribution hitem hother hstated ?_ hcontribution
  intro text htext otherText hotherText hne hdocuments
  obtain ⟨event, hevent, hcalled⟩ := place.exists_event_of_text? htext
  obtain ⟨otherEvent, hotherEvent, hotherCalled⟩ := place.exists_event_of_text? hotherText
  have hread := (visitTree_ok hd).1 event hevent text hcalled
  have hotherRead := (visitTree_ok he).1 otherEvent hotherEvent otherText hotherCalled
  exact hreader text htext otherText hotherText hne _ hread (hdocuments ▸ hotherRead)

/-- A list that holds other items beside a returns field. -/
def returnsPlace : Place where
  before := [.paragraph "Adds."]
  first := [{ text := "- loose", children := [.paragraph "loose"] }]
  rest := [{ text := "- Note: Fast.", children := [.paragraph "Note: Fast."] }]
  after := [.heading 1 "Head"]

/-- A returns field of one block. -/
def returnsItem (text : String) : ListItem where
  text := "- Returns: " ++ text
  children := [.paragraph ("Returns: " ++ text)]

/-- The record of a returns field in `returnsPlace`. -/
def returnsRecord (text : String) : Documentation where
  summary := some (.paragraph "Adds.")
  discussion := [
    .block (.list { kind := .bullet, items := [
      { text := "- loose", children := [.paragraph "loose"] }] }),
    .callout { label := .note, content := "Fast." },
    .block (.heading 1 "Head")]
  returns := some { text, children := [.paragraph text] }

theorem visitTree_tells_apart_returns :
    standard.visitTree (returnsPlace.blocks (returnsItem "sum")) = .ok (returnsRecord "sum")
      ∧ standard.visitTree (returnsPlace.blocks (returnsItem "total")) = .ok (returnsRecord "total")
      ∧ returnsRecord "sum" ≠ returnsRecord "total" := by
  have hsum : standard.visitTree (returnsPlace.blocks (returnsItem "sum"))
      = .ok (returnsRecord "sum") := by decide +kernel
  have htotal : standard.visitTree (returnsPlace.blocks (returnsItem "total"))
      = .ok (returnsRecord "total") := by decide +kernel
  have hrewords : (returnsItem "sum").Rewords (returnsItem "total")
      { isParameter := false, name := "Returns", description := "sum" }
      { isParameter := false, name := "Returns", description := "total" } :=
    ⟨by decide +kernel, by decide +kernel, rfl, rfl, by decide +kernel, fun _ => by decide⟩
  have hdestination : (returnsItem "sum").destination standard.maxDepth = .returns "sum" := by
    decide +kernel
  have hotherDestination : (returnsItem "total").destination standard.maxDepth
      = .returns "total" := by decide +kernel
  have hlater : ¬ (returnsItem "sum").Overridden standard.maxDepth returnsPlace.later := by
    rintro (⟨_, -, next, hnext, hreturns⟩ | ⟨_, hthrows, -⟩)
    · obtain rfl := List.mem_singleton.mp hnext
      exact hreturns (by decide +kernel)
    · rw [hdestination] at hthrows
      cases hthrows
  have hitem : (returnsItem "sum").TakesText standard.maxDepth :=
    ⟨by rw [hdestination]; simp, fun _ => rfl⟩
  have hother : (returnsItem "total").TakesText standard.maxDepth :=
    ⟨by rw [hotherDestination]; simp, fun _ => rfl⟩
  have happart := @visitTree_tells_apart _ standard returnsPlace _ _ _ _ _ _ hrewords hlater hsum
    htotal
  refine ⟨hsum, htotal, happart.2 hitem hother (fun hannounced => ?_)
    (standard_tellsApart_of_takesText hrewords hitem hother)⟩
  exact absurd hannounced (by decide +kernel)

/-- Whether two versions of an item, each on its own, lead to the same record. -/
def Conflates (reader : SectionReader ε) (item other : ListItem) : Prop :=
  ∃ field otherField d, item.Rewords other field otherField
    ∧ ¬ item.Overridden reader.maxDepth []
    ∧ reader.visitTree (({} : Place).blocks item) = .ok d
    ∧ reader.visitTree (({} : Place).blocks other) = .ok d

/-- A reader that gives every text the same document. -/
def indifferent : SectionReader String where
  markdown _ := .ok { text := "" }

/-- Texts after the colon that are lost: in front of more blocks, at a section that is entered,
where the same parameter is stated in two ways, and where the Markdown reader tells nothing apart.
-/
theorem visitTree_conflates :
    standard.Conflates
        { text := "- Returns: sum\n\n  More.", children := [.paragraph "Returns: sum",
          .paragraph "More."] }
        { text := "- Returns: total\n\n  More.", children := [.paragraph "Returns: total",
          .paragraph "More."] }
      ∧ standard.Conflates
        { text := "- Parameters: one\n  - x: first", children := [.paragraph "Parameters: one",
          .list { kind := .bullet, items := [
            { text := "- x: first", children := [.paragraph "x: first"] }] }] }
        { text := "- Parameters: two\n  - x: first", children := [.paragraph "Parameters: two",
          .list { kind := .bullet, items := [
            { text := "- x: first", children := [.paragraph "x: first"] }] }] }
      ∧ standard.Conflates
        { text := "- Parameter: x: first", children := [.paragraph "Parameter: x: first"] }
        { text := "- Parameter: parameter x: first", children := [
          .paragraph "Parameter: parameter x: first"] }
      ∧ indifferent.Conflates
        { text := "- Returns: sum", children := [.paragraph "Returns: sum"] }
        { text := "- Returns: total", children := [.paragraph "Returns: total"] } := by
  have hnone (maxDepth : Int) (item : ListItem) : ¬ item.Overridden maxDepth [] := by
    simp [ListItem.Overridden]
  refine ⟨?_, ?_, ?_, ?_⟩
  · exact ⟨{ isParameter := false, name := "Returns", description := "sum More." },
      { isParameter := false, name := "Returns", description := "total More." },
      { returns := some { text := "More.", children := [.paragraph "More."] } },
      ⟨by decide +kernel, by decide +kernel, rfl, rfl, by decide +kernel, fun _ => by decide⟩,
      hnone _ _, by decide +kernel, by decide +kernel⟩
  · exact ⟨{ isParameter := false, name := "Parameters", description := "one - x: first" },
      { isParameter := false, name := "Parameters", description := "two - x: first" },
      { parameters := [
        { name := "x", content := { text := "first", children := [.paragraph "first"] } }] },
      ⟨by decide +kernel, by decide +kernel, rfl, rfl, by decide +kernel, fun _ => by decide⟩,
      hnone _ _, by decide +kernel, by decide +kernel⟩
  · exact ⟨{ isParameter := false, name := "Parameter", description := "x: first" },
      { isParameter := false, name := "Parameter", description := "parameter x: first" },
      { parameters := [
        { name := "x", content := { text := "first", children := [.paragraph "first"] } }] },
      ⟨by decide +kernel, by decide +kernel, rfl, rfl, by decide +kernel, fun _ => by decide⟩,
      hnone _ _, by decide +kernel, by decide +kernel⟩
  · exact ⟨{ isParameter := false, name := "Returns", description := "sum" },
      { isParameter := false, name := "Returns", description := "total" },
      { returns := some { text := "" } },
      ⟨by decide +kernel, by decide +kernel, rfl, rfl, by decide +kernel, fun _ => by decide⟩,
      hnone _ _, by decide +kernel, by decide +kernel⟩

end SectionReader

end DocComment
