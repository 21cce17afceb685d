import DocComment.Proofs.Destination
import DocComment.Proofs.Discussion
import Mathlib.Data.List.Chain

/-!
# The shape of a discussion

Items reach a discussion from four places: without a field, without a field inside a section, at a
section that may not be entered, and with a field of an unknown name.  They get there in two ways: a
new list is opened for them, or they join the list that is there.

However these are mixed with blocks and callouts, the discussion keeps a shape, `WellShaped`: bullet
lists have something between them, none of them is empty or numbered, and every item of a bullet
list is loose, which means that its field, if it states one, has no destination but the discussion
(`ListItem.isLoose_iff`).

One event keeps the shape (`WellShaped.extend`), so a whole comment has it
(`SectionReader.parse_wellShaped`).
-/

namespace DocComment

open Text

/-! ## Loose items -/

namespace CalloutLabel

theorem lowerLetter_of_isBlank {c : Char} (h : isBlank c = true) : lowerLetter c = c := by
  have hkelvin : c ≠ '\u212A' := by
    rintro rfl
    exact absurd h (by decide)
  rcases toLower_eq_self_or c with hlower | ⟨halpha, -⟩
  · rw [lowerLetter, if_neg hkelvin, hlower]
  · rw [isBlank_of_isAlpha halpha] at h
    cases h

/-- The keyword of a section is no callout label. -/
theorem lookup?_of_lowerName {field : Field} (h : field.lowerName = "parameters") :
    lookup? field.name = none := by
  have hletters : lowerLetters field.name.toList = "parameters".toList := by
    rw [← h, Field.lowerName, String.toList_ofList]
  have hvisible : ∀ c ∈ field.name.toList, isBlank c = false := by
    intro c hc
    by_contra hblank
    rw [Bool.not_eq_false] at hblank
    have hmem : lowerLetter c ∈ lowerLetters field.name.toList := List.mem_map_of_mem hc
    rw [hletters, lowerLetter_of_isBlank hblank] at hmem
    have hall : ("parameters".toList.all fun d => !isBlank d) = true := by decide
    have hc := List.all_eq_true.mp hall c hmem
    simp [hblank] at hc
  have hkey : labelKey field.name = "parameters".toList := by
    rw [labelKey, List.filter_eq_self.mpr fun c hc => by simp [hvisible c hc], hletters]
  rw [lookup?, hkey, List.find?_eq_none]
  decide

end CalloutLabel

/-- An item that is list content: it states no field, or one without a prefix whose name is neither
a keyword nor a callout label.  A section is list content where none may be entered. -/
def ListItem.IsLoose (maxDepth : Int) (item : ListItem) : Prop :=
  ∀ field ∈ item.field?, field.isParameter = false
    ∧ field.lowerName ∉ ["parameter", "returns", "throws"]
    ∧ (field.lowerName = "parameters" → maxDepth ≤ 0)
    ∧ CalloutLabel.lookup? field.name = none

/-- Loose items are those that have no destination but the discussion. -/
theorem ListItem.isLoose_iff {maxDepth : Int} {item : ListItem} :
    item.IsLoose maxDepth ↔ (item.destination maxDepth).folds = true := by
  unfold IsLoose destination
  cases item.field? with
  | none => simp [Destination.ofField, Destination.folds]
  | some field =>
      cases hprefix : field.isParameter with
      | true => simp [Destination.ofField, Destination.folds, hprefix]
      | false =>
          obtain ⟨name, description, hparameter, -⟩ :=
            SectionReader.ofParameterField_agrees field
          simp only [Destination.ofField, hprefix, Destination.ofName, hparameter,
            Option.mem_some_iff, forall_eq', Bool.or_self, Bool.false_eq_true, if_false, true_and,
            decide_eq_true_eq]
          show _ ↔ Destination.folds (if field.lowerName = "parameters" then _
            else if field.lowerName = "parameter" then _
            else if field.lowerName = "returns" then _
            else if field.lowerName = "throws" then _ else _) = true
          by_cases hsection : field.lowerName = "parameters"
          · have hlabel := CalloutLabel.lookup?_of_lowerName hsection
            by_cases hroom : 0 < maxDepth
            · simp [hsection, hroom, Destination.folds]
            · simp [hsection, hroom, hlabel, Destination.folds]
              omega
          by_cases hannounced : field.lowerName = "parameter"
          · simp [hannounced, Destination.folds]
          by_cases hreturns : field.lowerName = "returns"
          · simp [hreturns, Destination.folds]
          by_cases hthrows : field.lowerName = "throws"
          · simp [hthrows, Destination.folds]
          cases CalloutLabel.lookup? field.name with
          | none => simp [hsection, hannounced, hreturns, hthrows, Destination.folds]
          | some label => simp [hsection, hannounced, hreturns, hthrows, Destination.folds]

namespace Event

/-- An event that folds a loose item, if it folds one. -/
def FoldsLoose (maxDepth : Int) : Event → Prop
  | .fold item _ _ => item.IsLoose maxDepth
  | _ => True

/-- In a section, the items without a field are folded. -/
theorem foldsLoose_ofSectionItem (maxDepth : Int) (parent : ListBlock) (item : ListItem) :
    (ofSectionItem parent item).FoldsLoose maxDepth := by
  unfold ofSectionItem
  split
  · trivial
  next hfield =>
    show item.IsLoose maxDepth
    intro field hmem
    rw [hfield] at hmem
    cases hmem

/-- An item of a top-level list is folded only if it is loose, and so are the items in it. -/
theorem foldsLoose_of_mem_ofItem {maxDepth : Int} {parent : ListBlock} {item : ListItem} :
    ∀ event ∈ ofItem maxDepth 0 parent item, event.FoldsLoose maxDepth := by
  intro event hevent
  rw [ofItem_eq] at hevent
  have hloose := @ListItem.isLoose_iff maxDepth item
  cases hdestination : item.destination maxDepth with
  | parameters =>
      rw [hdestination] at hevent
      obtain ⟨list, -, hlist⟩ := List.mem_flatMap.mp hevent
      obtain ⟨inner, -, rfl⟩ := List.mem_map.mp hlist
      exact foldsLoose_ofSectionItem maxDepth list inner
  | content | unrecognized name | tooDeep =>
      rw [hdestination] at hevent hloose
      obtain rfl := List.mem_singleton.mp hevent
      exact hloose.mpr rfl
  | _ =>
      rw [hdestination] at hevent
      obtain rfl := List.mem_singleton.mp hevent
      trivial

theorem foldsLoose_of_mem_ofBlocks {maxDepth : Int} {blocks : List Block} :
    ∀ event ∈ ofBlocks maxDepth blocks, event.FoldsLoose maxDepth := by
  intro event hevent
  obtain ⟨block, -, hblock⟩ := List.mem_flatMap.mp hevent
  unfold ofBlock at hblock
  split at hblock
  · obtain ⟨item, -, hitem⟩ := List.mem_flatMap.mp hblock
    exact foldsLoose_of_mem_ofItem event hitem
  · obtain rfl := List.mem_singleton.mp hblock
    trivial

end Event

/-! ## The shape -/

/-- The list that a part of a discussion is, if it is one. -/
def Part.list? : Part → Option ListBlock
  | .block (.list l) => some l
  | _ => none

/-- Whether the second part may stand right behind the first: no bullet list behind a list. -/
def Part.MayPrecede (part next : Part) : Prop :=
  ∀ l ∈ part.list?, ∀ m ∈ next.list?, m.isBullet = false

/-- The shape of a discussion. -/
structure WellShaped (maxDepth : Int) (discussion : List Part) : Prop where
  /-- No bullet list stands right behind another list. -/
  apart : discussion.IsChain Part.MayPrecede
  /-- A bullet list has an item, has no number, and holds loose items only. -/
  bullets : ∀ part ∈ discussion, ∀ l ∈ part.list?, l.isBullet = true →
    l.items ≠ [] ∧ l.start = none ∧ ∀ item ∈ l.items, item.IsLoose maxDepth

namespace WellShaped

variable {maxDepth : Int} {parts : List Part}

theorem nil : WellShaped maxDepth [] where
  apart := List.isChain_nil
  bullets := by simp

/-- A part that is no bullet list may join at any time. -/
theorem addPart (h : WellShaped maxDepth parts) {part : Part}
    (hpart : ∀ l ∈ part.list?, l.isBullet = false) : WellShaped maxDepth (parts ++ [part]) where
  apart := by
    refine List.isChain_append.mpr ⟨h.apart, List.isChain_singleton part, ?_⟩
    rintro last - _ ⟨⟩
    exact fun _ _ => hpart
  bullets := by
    intro other hother l hl hbullet
    rcases List.mem_append.mp hother with hother | hother
    · exact h.bullets other hother l hl hbullet
    · obtain rfl := List.mem_singleton.mp hother
      rw [hpart l hl] at hbullet
      cases hbullet

/-- A list of one loose item may be opened where no list ends the discussion. -/
theorem open_list (h : WellShaped maxDepth parts)
    (hlast : ∀ l, parts.getLast? ≠ some (.block (.list l))) {item : ListItem}
    (hitem : item.IsLoose maxDepth) (kind : ListKind) (marker : String) :
    WellShaped maxDepth (parts ++ [.block (.list { kind, items := [item], marker })]) where
  apart := by
    refine List.isChain_append.mpr ⟨h.apart, List.isChain_singleton _, ?_⟩
    rintro last hmem _ - l hl
    -- the last part of the discussion is no list
    cases last with
    | callout c => cases hl
    | block b =>
        cases b with
        | list l => exact absurd hmem (hlast l)
        | _ => cases hl
  bullets := by
    intro other hother l hl hbullet
    rcases List.mem_append.mp hother with hother | hother
    · exact h.bullets other hother l hl hbullet
    · obtain rfl := List.mem_singleton.mp hother
      obtain rfl := Option.mem_some.mp hl
      refine ⟨by simp, rfl, ?_⟩
      simpa using hitem

/-- A loose item may join the list that ends the discussion. -/
theorem push_item {before : List Part} {l : ListBlock}
    (h : WellShaped maxDepth (before ++ [.block (.list l)])) {item : ListItem}
    (hitem : item.IsLoose maxDepth) :
    WellShaped maxDepth (before ++ [.block (.list (l.push item))]) where
  apart := by
    obtain ⟨hbefore, -, hlast⟩ := List.isChain_append.mp h.apart
    refine List.isChain_append.mpr ⟨hbefore, List.isChain_singleton _, ?_⟩
    rintro last hmem _ ⟨⟩ first hfirst _ ⟨⟩
    exact hlast last hmem _ rfl first hfirst l rfl
  bullets := by
    intro other hother m hm hbullet
    rcases List.mem_append.mp hother with hother | hother
    · exact h.bullets other (List.mem_append_left _ hother) m hm hbullet
    · obtain rfl := List.mem_singleton.mp hother
      obtain rfl := Option.mem_some.mp hm
      obtain ⟨-, hstart, hitems⟩ := h.bullets (.block (.list l)) (by simp) l rfl hbullet
      refine ⟨by simp [ListBlock.push], hstart, fun other hother => ?_⟩
      rcases List.mem_append.mp hother with hother | hother
      · exact hitems other hother
      · obtain rfl := List.mem_singleton.mp hother
        exact hitem

/-- One event of a comment keeps the shape. -/
theorem extend (h : WellShaped maxDepth parts) {event : Event} (hblock : event.OfBlock)
    (hloose : event.FoldsLoose maxDepth) : WellShaped maxDepth (event.extend parts) := by
  cases event with
  | keep block =>
      refine h.addPart fun l hl => ?_
      cases block with
      | list m =>
          obtain rfl := Option.mem_some.mp hl
          have hnone : Block.bulletList? (.list m) = none := hblock
          simpa [Block.bulletList?] using hnone
      | _ => cases hl
  | callout label content => exact h.addPart fun l hl => by cases hl
  | fold item parent note =>
      rcases Event.ends_with_list_or parts with ⟨before, l, rfl⟩ | ⟨hlast, -⟩
      · rw [Event.extend_fold_list]
        exact h.push_item hloose
      · rw [Event.extend_fold_of_not_list hlast]
        exact h.open_list hlast hloose parent.kind parent.marker
  | parameter name description | returns description | throws description => exact h

/-- So do the events of a whole comment. -/
theorem foldl_extend {events : List Event} (hblock : ∀ event ∈ events, event.OfBlock)
    (hloose : ∀ event ∈ events, event.FoldsLoose maxDepth) (h : WellShaped maxDepth parts) :
    WellShaped maxDepth (events.foldl Event.extend parts) := by
  induction events generalizing parts with
  | nil => exact h
  | cons event events ih =>
      refine ih (fun other hm => hblock other (List.mem_cons_of_mem event hm))
        (fun other hm => hloose other (List.mem_cons_of_mem event hm)) ?_
      exact h.extend (hblock event List.mem_cons_self) (hloose event List.mem_cons_self)

end WellShaped

namespace SectionReader

variable {ε : Type} {reader : SectionReader ε}

/-- **The shape of every discussion.**  Whatever Markdown is read by and whatever the limit is, in
the discussion of a comment no bullet list stands right behind another list, every bullet list has
an item and no number, and no item of a bullet list states a field that has another destination. -/
theorem parse_wellShaped {text : String} {d : Documentation}
    (h : reader.parse (some text) = .ok d) : WellShaped reader.maxDepth d.discussion := by
  obtain ⟨document, -, rfl⟩ := parse_ok h
  show WellShaped reader.maxDepth
    ((Event.ofBlocks reader.maxDepth (Block.splitSummary document.children).2).foldl
      Event.extend [])
  exact WellShaped.nil.foldl_extend Event.ofBlock_of_mem_ofBlocks Event.foldsLoose_of_mem_ofBlocks

theorem parse_wellShaped_listsComment :
    standard.parse (some listsComment) = .ok listsRecord
      ∧ WellShaped standard.maxDepth listsRecord.discussion := by
  have hparse : standard.parse (some listsComment) = .ok listsRecord := by decide +kernel
  exact ⟨hparse, parse_wellShaped hparse⟩

end SectionReader

end DocComment
