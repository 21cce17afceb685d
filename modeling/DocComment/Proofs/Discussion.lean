import DocComment.Proofs.Calls
import Mathlib.Data.List.Basic

/-!
# What becomes of the blocks of a discussion

Behind the summary, every block of a comment that is no bullet list goes to the discussion as it is,
and the items of bullet lists go where their fields say.  An item without a field is folded: it
joins the list that ends the discussion, if there is one.

That list may be an ordered one, which then does not stay as it was written.
`SectionReader.parse_keeps_blocks` says exactly what is kept: all blocks other than bullet lists, in
order and unchanged, but that an ordered list absorbs the items that are folded before another part
joins the discussion.
-/

namespace DocComment

/-! ## Blocks and events -/

/-- The block, if the part of a discussion is one and no bullet list. -/
def Part.other? : Part → Option Block
  | .block b => if b.bulletList?.isNone then some b else none
  | .callout _ => none

/-- The block with items at its end, if it is a list. -/
def Block.absorb (items : List ListItem) : Block → Block
  | .list l => .list { l with items := l.items ++ items }
  | block => block

theorem Block.bulletList?_eq_some {block : Block} {list : ListBlock}
    (h : block.bulletList? = some list) : block = .list list ∧ list.isBullet = true := by
  cases block with
  | list l =>
      rw [bulletList?] at h
      split at h
      · next hbullet =>
          cases h
          exact ⟨rfl, hbullet⟩
      · cases h
  | _ => cases h

@[simp]
theorem Block.absorb_nil (block : Block) : block.absorb [] = block := by
  cases block with
  | list l =>
      cases l
      simp [absorb]
  | _ => rfl

/-- A block that is no bullet list stays as it is, but for an ordered list that absorbs items. -/
theorem Block.absorb_eq_self_iff {block : Block} (h : block.bulletList? = none)
    (items : List ListItem) :
    block.absorb items = block ↔ ∀ l, block = .list l → l.isBullet = false → items = [] := by
  cases block with
  | list l =>
      have hordered : l.isBullet = false := by simpa [bulletList?] using h
      cases l
      simp [absorb, hordered]
  | _ => simp [absorb]

theorem Block.bulletList?_absorb {block : Block} (h : block.bulletList? = none)
    (items : List ListItem) : (block.absorb items).bulletList? = none := by
  cases block with
  | list l => simpa [absorb, bulletList?, ListBlock.isBullet] using h
  | _ => rfl

namespace Event

/-- An event that an item of a bullet list may contribute. -/
def OfItem : Event → Prop
  | .keep _ => False
  | .fold _ parent _ => parent.isBullet = true
  | _ => True

/-- An event that a block may contribute. -/
def OfBlock : Event → Prop
  | .keep block => block.bulletList? = none
  | event => event.OfItem

theorem OfItem.ofBlock {event : Event} (h : event.OfItem) : event.OfBlock := by
  cases event with
  | keep block => exact h.elim
  | _ => exact h

theorem ofItem_ofSectionItem {parent : ListBlock} (hparent : parent.isBullet = true)
    (item : ListItem) : (ofSectionItem parent item).OfItem := by
  rw [ofSectionItem]
  split
  · trivial
  · exact hparent

theorem ofItem_of_mem_ofSection (blocks : List Block) :
    ∀ event ∈ ofSection blocks, event.OfItem := by
  intro event h
  obtain ⟨list, hlist, hevent⟩ := List.mem_flatMap.mp h
  obtain ⟨block, -, hblock⟩ := List.mem_filterMap.mp hlist
  obtain ⟨item, -, rfl⟩ := List.mem_map.mp hevent
  exact ofItem_ofSectionItem (Block.bulletList?_eq_some hblock).2 item

theorem ofItem_ofParameterField (field : Field) : (ofParameterField field).OfItem := by
  rw [ofParameterField]
  split <;> trivial

theorem ofItem_of_mem_ofItem {maxDepth depth : Int} {parent : ListBlock}
    (hparent : parent.isBullet = true) (item : ListItem) :
    ∀ event ∈ ofItem maxDepth depth parent item, event.OfItem := by
  intro event h
  rw [ofItem] at h
  split at h
  · obtain rfl := List.mem_singleton.mp h
    exact hparent
  next field _ =>
    split at h
    · obtain rfl := List.mem_singleton.mp h
      trivial
    rw [ofField] at h
    split_ifs at h
    · exact ofItem_of_mem_ofSection item.children event h
    · obtain rfl := List.mem_singleton.mp h
      exact hparent
    · obtain rfl := List.mem_singleton.mp h
      exact ofItem_ofParameterField field
    · obtain rfl := List.mem_singleton.mp h
      trivial
    · obtain rfl := List.mem_singleton.mp h
      trivial
    · split at h
      · obtain rfl := List.mem_singleton.mp h
        trivial
      · obtain rfl := List.mem_singleton.mp h
        exact hparent

/-- The events of the blocks behind the summary keep no bullet list and fold from bullet lists
only. -/
theorem ofBlock_of_mem_ofBlocks {maxDepth : Int} {blocks : List Block} :
    ∀ event ∈ ofBlocks maxDepth blocks, event.OfBlock := by
  intro event h
  obtain ⟨block, -, hevent⟩ := List.mem_flatMap.mp h
  rw [ofBlock] at hevent
  split at hevent
  next list hlist =>
    obtain ⟨item, -, hitem⟩ := List.mem_flatMap.mp hevent
    exact (ofItem_of_mem_ofItem (Block.bulletList?_eq_some hlist).2 item event hitem).ofBlock
  next hlist =>
    obtain rfl := List.mem_singleton.mp hevent
    exact hlist

/-! ## What a list at the end of the discussion absorbs -/

/-- The items that are folded before another part joins the discussion. -/
def absorbed : List Event → List ListItem
  | [] => []
  | .fold item _ _ :: events => item :: absorbed events
  | .keep _ :: _ => []
  | .callout _ _ :: _ => []
  | _ :: events => absorbed events

/-- The kept blocks of events, each with what it absorbs. -/
def kept : List Event → List Block
  | [] => []
  | .keep block :: events => block.absorb (absorbed events) :: kept events
  | _ :: events => kept events

theorem kept_append_of_ofItem {events : List Event} (h : ∀ event ∈ events, event.OfItem)
    (more : List Event) : kept (events ++ more) = kept more := by
  induction events with
  | nil => rfl
  | cons event events ih =>
      have hrest := ih fun other hm => h other (List.mem_cons_of_mem event hm)
      cases event with
      | keep block => exact (h (.keep block) List.mem_cons_self).elim
      | _ => exact hrest

/-- The discussion with items at the end of the list that it ends with, if it does. -/
def absorbLast (items : List ListItem) (parts : List Part) : List Part :=
  match parts.getLast? with
  | some (.block block) => parts.dropLast ++ [.block (block.absorb items)]
  | _ => parts

@[simp]
theorem absorbLast_nil (parts : List Part) : absorbLast [] parts = parts := by
  rw [absorbLast]
  split
  · next block hlast => rw [Block.absorb_nil, List.dropLast_append_getLast? _ hlast]
  · rfl

@[simp]
theorem absorbLast_block (items : List ListItem) (parts : List Part) (block : Block) :
    absorbLast items (parts ++ [.block block]) = parts ++ [.block (block.absorb items)] := by
  rw [absorbLast, List.getLast?_concat]
  simp

@[simp]
theorem absorbLast_callout (items : List ListItem) (parts : List Part) (callout : Callout) :
    absorbLast items (parts ++ [.callout callout]) = parts ++ [.callout callout] := by
  rw [absorbLast, List.getLast?_concat]

/-- A discussion ends with a list, or absorbs nothing. -/
theorem ends_with_list_or (parts : List Part) :
    (∃ before l, parts = before ++ [.block (.list l)])
      ∨ (∀ l, parts.getLast? ≠ some (.block (.list l)))
        ∧ ∀ items, absorbLast items parts = parts := by
  rcases List.eq_nil_or_concat' parts with rfl | ⟨before, last, rfl⟩
  · exact .inr ⟨by simp, fun _ => rfl⟩
  cases last with
  | callout c => exact .inr ⟨by simp, fun items => absorbLast_callout items before c⟩
  | block b =>
      cases b with
      | list l => exact .inl ⟨before, l, rfl⟩
      | _ => exact .inr ⟨by simp, fun items => absorbLast_block items before _⟩

theorem extend_fold_list (before : List Part) (l : ListBlock) (item : ListItem)
    (parent : ListBlock) (note : Option LogRecord) :
    extend (before ++ [.block (.list l)]) (.fold item parent note)
      = before ++ [.block (.list (l.push item))] := by
  simp [extend]

theorem extend_fold_of_not_list {parts : List Part}
    (h : ∀ l, parts.getLast? ≠ some (.block (.list l))) (item : ListItem) (parent : ListBlock)
    (note : Option LogRecord) :
    extend parts (.fold item parent note) = parts ++
      [.block (.list { kind := parent.kind, items := [item], marker := parent.marker })] := by
  rw [extend]
  split
  · next l hlast => exact absurd hlast (h l)
  · rfl

/-- What events make of a discussion begins with it; only the list that it ends with may grow. -/
theorem foldl_extend_eq (events : List Event) (parts : List Part) :
    ∃ more, events.foldl extend parts = absorbLast (absorbed events) parts ++ more := by
  induction events generalizing parts with
  | nil => exact ⟨[], by simp [absorbed]⟩
  | cons event events ih =>
      obtain ⟨more, hmore⟩ := ih (event.extend parts)
      rw [List.foldl_cons, hmore]
      cases event with
      | keep block =>
          exact ⟨.block (block.absorb (absorbed events)) :: more, by simp [extend, absorbed]⟩
      | callout label content =>
          exact ⟨.callout { label, content } :: more, by simp [extend, absorbed]⟩
      | fold item parent note =>
          -- a list that is opened here starts with the item and is new behind the old discussion
          rcases ends_with_list_or parts with ⟨before, l, rfl⟩ | ⟨hlast, habsorb⟩
          · refine ⟨more, ?_⟩
            rw [extend_fold_list]
            simp [absorbed, Block.absorb, ListBlock.push]
          · rw [extend_fold_of_not_list hlast, habsorb]
            exact ⟨_, by rw [absorbLast_block, List.append_assoc]⟩
      | parameter name description | returns description | throws description => exact ⟨more, rfl⟩

/-- To fold an item is to let the list at the end absorb it, before what else it absorbs.  Where the
discussion does not end with a list, a bullet list is opened, which does not count. -/
theorem filterMap_absorbLast_fold {parent : ListBlock} (hparent : parent.isBullet = true)
    (item : ListItem) (note : Option LogRecord) (items : List ListItem) (parts : List Part) :
    (absorbLast items (extend parts (.fold item parent note))).filterMap Part.other?
      = (absorbLast (item :: items) parts).filterMap Part.other? := by
  rcases ends_with_list_or parts with ⟨before, l, rfl⟩ | ⟨hlast, habsorb⟩
  · rw [extend_fold_list, absorbLast_block, absorbLast_block]
    simp [Block.absorb, ListBlock.push]
  · rw [extend_fold_of_not_list hlast, absorbLast_block, habsorb, List.filterMap_append]
    have hopened : Block.bulletList? (Block.absorb items
        (.list { kind := parent.kind, items := [item], marker := parent.marker })) ≠ none := by
      simpa [Block.absorb, Block.bulletList?, ListBlock.isBullet] using hparent
    simp [Part.other?, hopened]

/-- **What is left of a discussion without its callouts and bullet lists.**  The events add the
blocks that they keep, each with what it absorbs; what is absorbed first goes to the list that the
discussion ends with so far. -/
theorem filterMap_foldl_extend_other {events : List Event} (h : ∀ event ∈ events, event.OfBlock)
    (parts : List Part) :
    (events.foldl extend parts).filterMap Part.other?
      = (absorbLast (absorbed events) parts).filterMap Part.other? ++ kept events := by
  induction events generalizing parts with
  | nil => simp [absorbed, kept]
  | cons event events ih =>
      rw [List.foldl_cons, ih fun other hm => h other (List.mem_cons_of_mem event hm)]
      have hevent := h event List.mem_cons_self
      cases event with
      | keep block =>
          have hkept : Part.other? (.block (block.absorb (absorbed events)))
              = some (block.absorb (absorbed events)) := by
            simp [Part.other?, Block.bulletList?_absorb hevent]
          simp [extend, absorbed, kept, hkept]
      | callout label content => simp [extend, absorbed, kept, Part.other?]
      | fold item parent note =>
          rw [filterMap_absorbLast_fold hevent]
          rfl
      | parameter name description | returns description | throws description =>
          simp [extend, absorbed, kept]

end Event

/-! ## What is kept of a comment -/

/-- The blocks other than bullet lists, an ordered list with the items that it absorbs from the
bullet lists behind it. -/
def Block.kept (maxDepth : Int) : List Block → List Block
  | [] => []
  | block :: blocks =>
    match block.bulletList? with
    | some _ => kept maxDepth blocks
    | none => block.absorb (Event.absorbed (Event.ofBlocks maxDepth blocks)) :: kept maxDepth blocks

theorem Event.kept_ofBlocks (maxDepth : Int) (blocks : List Block) :
    Event.kept (Event.ofBlocks maxDepth blocks) = Block.kept maxDepth blocks := by
  induction blocks with
  | nil => rfl
  | cons block blocks ih =>
      rw [Event.ofBlocks_cons, Event.ofBlock, Block.kept]
      cases hlist : block.bulletList? with
      | none => rw [← ih]; rfl
      | some list =>
          rw [← ih]
          refine Event.kept_append_of_ofItem (fun event hevent => ?_) _
          obtain ⟨item, -, hitem⟩ := List.mem_flatMap.mp hevent
          exact Event.ofItem_of_mem_ofItem (Block.bulletList?_eq_some hlist).2 item event hitem

/-- All blocks are kept as they are exactly if no ordered list absorbs anything. -/
theorem Block.kept_eq_filter_iff (maxDepth : Int) (blocks : List Block) :
    Block.kept maxDepth blocks = blocks.filter (·.bulletList?.isNone) ↔
      ∀ l after, .list l :: after <:+ blocks → l.isBullet = false →
        Event.absorbed (Event.ofBlocks maxDepth after) = [] := by
  induction blocks with
  | nil => simp [Block.kept]
  | cons block blocks ih =>
      -- the block itself comes with all blocks behind it; every other suffix is one of `blocks`
      have hsuffixes : (∀ l after, .list l :: after <:+ block :: blocks → l.isBullet = false →
            Event.absorbed (Event.ofBlocks maxDepth after) = [])
          ↔ (∀ l, block = .list l → l.isBullet = false →
              Event.absorbed (Event.ofBlocks maxDepth blocks) = [])
            ∧ ∀ l after, .list l :: after <:+ blocks → l.isBullet = false →
              Event.absorbed (Event.ofBlocks maxDepth after) = [] := by
        simp only [List.suffix_cons_iff, List.cons.injEq]
        constructor
        · exact fun h => ⟨fun l hl => h l blocks (.inl ⟨hl.symm, rfl⟩),
            fun l after hafter => h l after (.inr hafter)⟩
        · rintro ⟨hblock, hblocks⟩ l after (⟨hl, rfl⟩ | hafter)
          · exact hblock l hl.symm
          · exact hblocks l after hafter
      rw [Block.kept, hsuffixes, ← ih]
      cases hlist : block.bulletList? with
      | some list =>
          obtain ⟨rfl, hbullet⟩ := Block.bulletList?_eq_some hlist
          simp [hlist, hbullet]
      | none =>
          rw [List.filter_cons_of_pos (by simp [hlist]), List.cons.injEq,
            Block.absorb_eq_self_iff hlist]

namespace SectionReader

variable {ε : Type} {reader : SectionReader ε}

/-- **The discussion keeps the blocks of a comment.**  Without its callouts and bullet lists, the
discussion of a comment consists of the blocks behind the summary that are no bullet lists, one for
one and in order.  Each is the block that was written, with what it absorbs; so all of them are as
they were written exactly if no item is folded behind an ordered list before another block or a
callout joins the discussion. -/
theorem parse_keeps_blocks {text : String} {d : Documentation}
    (h : reader.parse (some text) = .ok d) :
    ∃ document, reader.markdown text = .ok document
      ∧ d.discussion.filterMap Part.other?
          = Block.kept reader.maxDepth (Block.splitSummary document.children).2
      ∧ (d.discussion.filterMap Part.other?
            = (Block.splitSummary document.children).2.filter (·.bulletList?.isNone)
          ↔ ∀ l after, .list l :: after <:+ (Block.splitSummary document.children).2 →
              l.isBullet = false →
              Event.absorbed (Event.ofBlocks reader.maxDepth after) = []) := by
  obtain ⟨document, hread, rfl⟩ := parse_ok h
  have hkept : (Documentation.meaning reader.maxDepth reader.content
        document.children).discussion.filterMap Part.other?
      = Block.kept reader.maxDepth (Block.splitSummary document.children).2 := by
    change ((Event.ofBlocks reader.maxDepth (Block.splitSummary document.children).2).foldl
      Event.extend []).filterMap Part.other? = _
    rw [Event.filterMap_foldl_extend_other Event.ofBlock_of_mem_ofBlocks, Event.kept_ofBlocks]
    rfl
  refine ⟨document, hread, hkept, ?_⟩
  rw [hkept]
  exact Block.kept_eq_filter_iff _ _

/-- A comment with an ordered list and loose items, some of them right behind it. -/
def listsComment : String :=
  "Adds.\n\n1. one\n\n- loose\n- Note: Fast.\n- more\n\n# Head"

/-- The record of `listsComment`. -/
def listsRecord : Documentation where
  summary := some (.paragraph "Adds.")
  discussion := [
    .block (.list { kind := .ordered, marker := ".", items := [
      { text := "1. one", children := [.paragraph "one"] },
      { text := "- loose", children := [.paragraph "loose"] }] }),
    .callout { label := .note, content := "Fast." },
    .block (.list { kind := .bullet, items := [
      { text := "- more", children := [.paragraph "more"] }] }),
    .block (.heading 1 "Head")]

theorem parse_keeps_blocks_listsComment :
    standard.parse (some listsComment) = .ok listsRecord
      ∧ ∃ document, standard.markdown listsComment = .ok document
        ∧ Block.kept standard.maxDepth (Block.splitSummary document.children).2 = [
            .list { kind := .ordered, marker := ".", items := [
              { text := "1. one", children := [.paragraph "one"] },
              { text := "- loose", children := [.paragraph "loose"] }] },
            .heading 1 "Head"] := by
  have hparse : standard.parse (some listsComment) = .ok listsRecord := by decide +kernel
  obtain ⟨document, hread, hkept, -⟩ := parse_keeps_blocks hparse
  exact ⟨hparse, document, hread, hkept.symm.trans rfl⟩

/-- A loose item right behind an ordered list joins that list, so that the block which was written
is not what the discussion holds. -/
theorem parse_changes_ordered_list :
    ∃ document d, standard.markdown "1. one\n\n- loose" = .ok document
      ∧ standard.parse (some "1. one\n\n- loose") = .ok d
      ∧ d.discussion.filterMap Part.other?
          ≠ (Block.splitSummary document.children).2.filter (·.bulletList?.isNone) := by
  have hread : standard.markdown "1. one\n\n- loose" = .ok {
      text := "1. one\n\n- loose"
      children := [
        .list { kind := .ordered, marker := ".", items := [
          { text := "1. one", children := [.paragraph "one"] }] },
        .list { kind := .bullet, items := [
          { text := "- loose", children := [.paragraph "loose"] }] }] } := by decide +kernel
  have hparse : standard.parse (some "1. one\n\n- loose") = .ok {
      discussion := [
        .block (.list { kind := .ordered, marker := ".", items := [
          { text := "1. one", children := [.paragraph "one"] },
          { text := "- loose", children := [.paragraph "loose"] }] })] } := by decide +kernel
  exact ⟨_, _, hread, hparse, by decide +kernel⟩

end SectionReader

end DocComment
