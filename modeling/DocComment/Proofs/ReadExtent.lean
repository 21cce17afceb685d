import DocComment.Proofs.Border
import Mathlib

/-!
# How far containers reach

The reader of a container takes the lines inside it and no others:

* it stays before the border behind the container, empty lines apart (`StaysWithin`,
  `readContent_stays`); where content is nested too deep to be read it takes all lines instead;
* it takes at least the lines that are indented as the content is (`TakesInside`,
  `readContent_takes`).

Both are one lemma for each reader, given the same of the reader of deeper content, and then an
induction on the depth.
-/

namespace DocComment

/-! ## Levels -/

mutual

/-- How many levels of containers there are in a block: a quote is one level, a list and its item
are two. -/
def Block.levels : Block → Nat
  | .quote _ children => Block.levelsAll children + 1
  | .list l => l.levels
  | _ => 0

/-- The greatest number of levels in any of the blocks. -/
def Block.levelsAll : List Block → Nat
  | [] => 0
  | block :: blocks => max block.levels (Block.levelsAll blocks)

/-- The levels of an item's blocks. -/
def ListItem.levels : ListItem → Nat
  | ⟨_, children⟩ => Block.levelsAll children

/-- The greatest number of levels in any of the items. -/
def ListItem.levelsAll : List ListItem → Nat
  | [] => 0
  | item :: items => max item.levels (ListItem.levelsAll items)

/-- The levels of a list. -/
def ListBlock.levels : ListBlock → Nat
  | ⟨_, items, _, _⟩ => ListItem.levelsAll items + 2

end

theorem Block.levelsAll_append (blocks more : List Block) :
    Block.levelsAll (blocks ++ more) = max (Block.levelsAll blocks) (Block.levelsAll more) := by
  induction blocks with
  | nil => exact (Nat.zero_max _).symm
  | cons block blocks ih => rw [List.cons_append, levelsAll, levelsAll, ih, Nat.max_assoc]

/-- No item has more levels than the list. -/
theorem ListItem.levels_le {item : ListItem} {items : List ListItem} (h : item ∈ items) :
    item.levels ≤ ListItem.levelsAll items := by
  induction items with
  | nil => cases h
  | cons other items ih =>
      rw [ListItem.levelsAll]
      rcases List.mem_cons.mp h with rfl | h
      · exact Nat.le_max_left _ _
      · exact (ih h).trans (Nat.le_max_right _ _)

namespace Markdown

open Text

/-! ## Reading stays within borders -/

/-- Whether a reader of content stays before the border of its container, the empty lines behind it
apart.  Where content is nested too deep to be read, the reader takes all lines instead. -/
def StaysWithin (limit : Int) (read : ContentReader) : Prop :=
  ∀ {around : Surroundings} {lines : List Line} {count border : Nat} {found : Found},
    Border around lines count border → read around lines count = .ok found →
      found.used ≤ reach lines border ∨ limit ≤ around.level + Block.levelsAll found.blocks

section Stays

variable {limit : Int} {read : ContentReader} {around : Surroundings} {line : Line}
  {following : List Line} {count border : Nat} (hread : StaysWithin limit read)

include hread

/-- A quote stays within the border behind it. -/
theorem readQuote_stays (hline : opensQuote line = true)
    (h : Border around (line :: following) (count + 1) (border + 1)) {found : Found}
    (hfound : readQuote read around line following (count + 1) = .ok found) :
    found.used ≤ reach (line :: following) (border + 1)
      ∨ limit ≤ around.level + Block.levelsAll found.blocks := by
  cases hquoted : quotedLines around line.unquoted.isEmpty (following.take count) with
  | mk more ended =>
      obtain ⟨inner, hinner, rfl⟩ := readQuote_ok hfound hquoted
      have hmore : more.length ≤ border := by
        have hle := h.quotedLines_le (isEmpty_of_opensQuote hline) line.unquoted.isEmpty
        rwa [hquoted] at hle
      rcases hread (h.quoted hline hquoted _) hinner with hused | hlimit
      · refine .inl (hused.trans ?_)
        -- empty lines behind the quote are empty lines behind it outside
        have hbehind :
            reach (line.unquoted :: more ++ if ended then [] else following.drop more.length)
            (more.length + 1) ≤ reach (line :: following) (more.length + 1) := by
          rw [List.cons_append, reach_cons, reach_cons]
          unfold reach
          rw [List.drop_left]
          split
          · simp
          · exact Nat.le_refl _
        exact hbehind.trans (reach_mono _ (Nat.succ_le_succ hmore))
      · refine .inr ?_
        simp only [Block.levelsAll, Block.levels, Nat.max_zero]
        push_cast at hlimit ⊢
        omega

/-- An item stays within the border behind it. -/
theorem readItem_stays {marker : Marker} (hmarker : marker? line.body = some marker)
    (hinside : line.isOutside around.indent = false)
    (h : Border around (line :: following) (count + 1) (border + 1)) {found : Found}
    (hfound : readItem read around line marker following (count + 1) = .ok found) :
    found.used ≤ reach (line :: following) (border + 1)
      ∨ limit ≤ around.level + 2 + Block.levelsAll found.blocks := by
  have hvisible : line.isEmpty = false := isEmpty_of_marker hmarker
  rcases readItem_ok hfound with ⟨-, hnext, rfl⟩ | hcontent
  · refine .inl (Nat.le_trans ?_ (le_reach _ _))
    dsimp only
    cases border with
    | succ border => omega
    | zero =>
        -- the line behind the item is empty, so it is not the one that ends the list
        cases count with
        | zero => exact Nat.min_le_right 2 1
        | succ count =>
            obtain ⟨stop, hstop, houtside⟩ := h.outside (by omega)
            have hhead : following.head? = some stop := by rw [List.head?_eq_getElem?]; exact hstop
            simp [hhead, houtside.visible] at hnext
  · rcases hread (h.item hmarker hvisible hinside _ rfl) hcontent with hused | hlimit
    · rw [reach_cons] at hused ⊢
      exact .inl hused
    · exact .inr hlimit

/-- The items of a list stay within the border behind them. -/
theorem readItems_stays {bound : Nat} {marker : Marker} (hmarker : marker? line.body = some marker)
    (hinside : line.isOutside around.indent = false)
    (h : Border around (line :: following) (count + 1) (border + 1)) {items : List ListItem}
    {used : Nat}
    (hitems : readItems read around bound marker (line :: following) (count + 1)
      = .ok (items, used)) :
    used ≤ reach (line :: following) (border + 1)
      ∨ limit ≤ around.level + 2 + ListItem.levelsAll items := by
  induction bound generalizing marker line following count border items used with
  | zero =>
      obtain ⟨-, rfl⟩ := Prod.mk.inj (Except.ok.inj hitems)
      exact .inl (Nat.zero_le _)
  | succ bound ih =>
      obtain ⟨found, item, hfound, rfl, hrest⟩ := readItems_ok hitems
      have hitem := readItem_stays hread hmarker hinside h hfound
      rcases hrest with ⟨rfl, rfl, -⟩
        | ⟨next, rest, other, more, usedMore, hlt, hdrop, hother, hmore, rfl, rfl⟩
      · simpa [ListItem.levelsAll, ListItem.levels] using hitem
      rcases hitem with hused | hlimit
      · obtain ⟨hnext, hmarked, -, -⟩ := nextMarker?_eq_some hother
        have hbefore : found.used < border + 1 :=
          h.used_lt hused hlt (by rw [hdrop]; rfl) (not_standsOutside hnext)
        have hborder := h.drop (Nat.le_of_lt hbefore)
        have hreach := reach_drop (line :: following) (Nat.le_of_lt hbefore)
        obtain ⟨left, hleft⟩ : ∃ left, count + 1 - found.used = left + 1 :=
          ⟨count - found.used, by omega⟩
        obtain ⟨behind, hbehind⟩ : ∃ behind, border + 1 - found.used = behind + 1 :=
          ⟨border - found.used, by omega⟩
        rw [hdrop, hleft, hbehind] at hborder
        rw [hdrop, hbehind] at hreach
        rw [hleft] at hmore
        rcases ih hmarked hnext hborder hmore with hused | hlimit
        · exact .inl (by omega)
        · refine .inr (hlimit.trans ?_)
          rw [ListItem.levelsAll]
          push_cast
          omega
      · refine .inr (hlimit.trans ?_)
        rw [ListItem.levelsAll, ListItem.levels]
        push_cast
        omega

/-- **A block stays within the border behind it.** -/
theorem readBlock_stays (hvisible : line.isEmpty = false)
    (hinside : line.isOutside around.indent = false)
    (h : Border around (line :: following) (count + 1) (border + 1)) {found : Found}
    (hfound : readBlock read around line following (count + 1) = .ok found) :
    found.used ≤ reach (line :: following) (border + 1)
      ∨ limit ≤ around.level + Block.levelsAll found.blocks := by
  have hleaf := h.leafStopsAt hvisible
  have hreach := le_reach (line :: following) (border + 1)
  unfold readBlock at hfound
  rw [Nat.add_sub_cancel] at hfound
  split at hfound
  · obtain rfl := Except.ok.inj hfound
    exact .inl ((indentedCode_used_le hleaf line).trans hreach)
  split at hfound
  · obtain rfl := Except.ok.inj hfound
    exact .inl ((fencedCode_used_le hleaf _ line).trans hreach)
  split at hfound
  · next hquote => exact readQuote_stays hread hquote h hfound
  split at hfound
  · obtain rfl := Except.ok.inj hfound
    refine .inl (Nat.le_trans ?_ hreach)
    exact Nat.succ_le_succ (Nat.zero_le border)
  split at hfound
  · next marker hmarker =>
      obtain ⟨items, used, hitems, rfl⟩ := readList_ok hfound
      rcases readItems_stays hread (marker?_of_itemMarker? hmarker) hinside h hitems with
        hused | hlimit
      · exact .inl hused
      · refine .inr ?_
        simp only [Block.levelsAll, Block.levels, ListBlock.levels, Nat.max_zero]
        push_cast
        omega
  · obtain rfl := Except.ok.inj hfound
    exact .inl ((leaf_used_le hleaf (h.single line List.mem_cons_self)).trans hreach)

/-- Blocks stay within the border behind them. -/
theorem readBlocks_stays {bound : Nat} {lines : List Line}
    (h : Border around lines count border) {found : Found}
    (hfound : readBlocks (some limit) read around bound lines count = .ok found) :
    found.used ≤ reach lines border
      ∨ limit ≤ around.level + Block.levelsAll found.blocks := by
  induction bound generalizing lines count border found with
  | zero =>
      obtain rfl := Except.ok.inj hfound
      exact .inl (Nat.zero_le _)
  | succ bound ih =>
      have hblank := length_takeWhile_le_reach lines border
      rcases hlines : lines.drop (lines.takeWhile Line.isEmpty).length with _ | ⟨line, following⟩
      · rw [readBlocks_gap hfound (.inl hlines)]
        refine .inl ?_
        dsimp only
        split <;> omega
      rcases hleft : count - (lines.takeWhile Line.isEmpty).length with _ | left
      · rw [readBlocks_gap hfound (.inr hleft)]
        refine .inl ?_
        dsimp only
        split <;> omega
      rcases readBlocks_ok hfound hlines hleft with ⟨-, rfl⟩ | ⟨-, hdeep, rfl⟩
        | ⟨hinside, -, first, more, hfirst, hmore, rfl⟩
      · exact .inl hblank
      · refine .inr (hdeep.trans ?_)
        exact Int.le_add_of_nonneg_right (Int.natCast_nonneg _)
      have hbefore : (lines.takeWhile Line.isEmpty).length < border :=
        h.used_lt hblank (by omega) (by rw [hlines]; rfl) (not_standsOutside hinside)
      obtain ⟨behind, hbehind⟩ :
          ∃ behind, border - (lines.takeWhile Line.isEmpty).length = behind + 1 :=
        ⟨border - (lines.takeWhile Line.isEmpty).length - 1, by omega⟩
      have hborder := h.drop (Nat.le_of_lt hbefore)
      have hreach := reach_drop lines (Nat.le_of_lt hbefore)
      rw [hlines, hleft, hbehind] at hborder
      rw [hlines, hbehind] at hreach
      have hvisible : line.isEmpty = false := isEmpty_behind_gap hlines
      rcases readBlock_stays hread hvisible hinside hborder hfirst with hused | hlimit
      · have hused' := hborder.withBlank_le hused
        generalize withBlank (line :: following) (left + 1) first.used = used at hused' hmore
        rcases hborder.le_or_nothing_left hused' with hwithin | hnothing
        · have hrest := reach_drop (line :: following) hwithin
          rcases ih (hborder.drop hwithin) hmore with hused'' | hlimit
          · exact .inl (by dsimp only; omega)
          · refine .inr (hlimit.trans ?_)
            rw [Block.levelsAll_append]
            push_cast
            omega
        · -- the block has taken empty lines behind all lines
          rw [hnothing] at hmore
          have hnone := readBlocks_zero hmore
          exact .inl (by dsimp only; omega)
      · refine .inr (hlimit.trans ?_)
        rw [Block.levelsAll_append]
        push_cast
        omega

end Stays

/-- **Reading stays within the border of the container**, at every depth. -/
theorem readContent_stays (limit : Int) (depth : Nat) :
    StaysWithin limit (readContent (some limit) depth) := by
  induction depth with
  | zero =>
      intro around lines count border found _ hfound
      cases hfound
  | succ depth ih =>
      intro around lines count border found h hfound
      exact readBlocks_stays ih h hfound

/-! ## What is inside is taken -/

/-- Whether the first lines, as many as this, are inside a container of the given indentation. -/
def InsideUpTo (indent : Nat) (lines : List Line) (border : Nat) : Prop :=
  ∀ i < border, ∀ line ∈ lines[i]?, line.isEmpty = false → line.isOutside indent = false

theorem InsideUpTo.drop {indent : Nat} {lines : List Line} {border : Nat}
    (h : InsideUpTo indent lines border) (used : Nat) :
    InsideUpTo indent (lines.drop used) (border - used) := by
  intro i hi line hline
  rw [List.getElem?_drop] at hline
  exact h (used + i) (by omega) line hline

theorem insideUpTo_one {indent : Nat} {line : Line} {lines : List Line}
    (h : line.isEmpty = false → line.isOutside indent = false) :
    InsideUpTo indent (line :: lines) 1 := by
  intro i hi other hother
  obtain rfl : i = 0 := by omega
  obtain rfl : line = other := Option.some.inj hother
  exact h

/-- Whether a reader of content takes the lines that are inside. -/
def TakesInside (read : ContentReader) : Prop :=
  ∀ {around : Surroundings} {lines : List Line} {count border : Nat} {found : Found},
    border ≤ count → border ≤ lines.length → InsideUpTo around.indent lines border →
      read around lines count = .ok found → border ≤ found.used

theorem le_advance (column offset : Nat) (lead : List Char) :
    offset ≤ advance column offset lead := by
  induction lead generalizing offset with
  | nil => exact Nat.le_refl offset
  | cons c lead ih =>
      refine Nat.le_trans ?_ (ih (stepOffset column offset c))
      unfold stepOffset
      split <;> omega

theorem width_unquoted {line : Line} (h : opensQuote line = true) : 0 ≤ line.unquoted.width := by
  have hrest (taken shift column : Nat) (rest : List Char) :
      0 ≤ (quotedRest line taken shift column rest).width := by
    have hle := le_advance (line.column + shift) taken (rest.takeWhile isIndent)
    show (0 : Int) ≤ advance (line.column + shift) taken (rest.takeWhile isIndent) - taken
    omega
  unfold Line.unquoted
  dsimp only
  split
  · exact hrest _ _ _ _
  · split <;> exact hrest _ _ _ _
  · exact hrest _ _ _ _
  · next hquote =>
      -- without a mark it would be no quote
      unfold opensQuote at h
      obtain ⟨rest, hbody⟩ := List.head?_eq_some_iff.mp (beq_iff_eq.mp h)
      exact absurd hbody (hquote rest)

/-- The first line of an item is inside the item. -/
theorem inside_itemContent (line : Line) (marker : Marker)
    (hvisible : (itemContent line marker).1.isEmpty = false) :
    (itemContent line marker).1.isOutside (itemContent line marker).2 = false := by
  have hle := le_advance line.column (line.width.toNat + marker.size)
    (marker.rest.takeWhile isIndent)
  have hbody : (marker.rest.dropWhile isIndent).isEmpty = false := hvisible
  simp only [itemContent, Line.isOutside, hbody, Bool.false_or, decide_eq_true_eq,
    decide_eq_false_iff_not]
  split <;> omega

section Takes

variable {limit : Int} {read : ContentReader} {around : Surroundings} {line : Line}
  {following : List Line} {count : Nat} (hread : TakesInside read)

include hread

/-- A quote takes its first line. -/
theorem readQuote_pos (hline : opensQuote line = true) {found : Found}
    (h : readQuote read around line following (count + 1) = .ok found) : 0 < found.used := by
  cases hquoted : quotedLines around line.unquoted.isEmpty (following.take count) with
  | mk more ended =>
      obtain ⟨inner, hinner, rfl⟩ := readQuote_ok h hquoted
      have hinside : line.unquoted.isOutside 0 = false := by
        have hwidth := width_unquoted hline
        simpa [Line.isOutside] using hwidth
      show 1 ≤ inner.used
      exact hread (Nat.succ_le_succ (Nat.zero_le _)) (by simp)
        (insideUpTo_one fun _ => hinside) hinner

/-- An item takes its first line. -/
theorem readItem_pos {marker : Marker} {found : Found}
    (h : readItem read around line marker following (count + 1) = .ok found) : 0 < found.used := by
  rcases readItem_ok h with ⟨-, -, rfl⟩ | hcontent
  · dsimp only
    omega
  · exact hread (Nat.succ_le_succ (Nat.zero_le _)) (by simp)
      (insideUpTo_one (inside_itemContent line marker)) hcontent

/-- **A block takes its first line.** -/
theorem readBlock_pos {found : Found}
    (h : readBlock read around line following (count + 1) = .ok found) : 0 < found.used := by
  unfold readBlock at h
  rw [Nat.add_sub_cancel] at h
  split at h
  · obtain rfl := Except.ok.inj h
    exact Nat.succ_pos _
  split at h
  · obtain rfl := Except.ok.inj h
    unfold fencedCode
    dsimp only
    omega
  split at h
  · next hquote => exact readQuote_pos hread hquote h
  split at h
  · obtain rfl := Except.ok.inj h
    exact Nat.one_pos
  split at h
  · obtain ⟨items, used, hitems, rfl⟩ := readList_ok h
    obtain ⟨found, item, hfound, -, hrest⟩ := readItems_ok hitems
    have hpos := readItem_pos hread hfound
    rcases hrest with ⟨-, rfl, -⟩ | ⟨next, rest, other, more, usedMore, -, -, -, -, -, rfl⟩
    · exact hpos
    · exact Nat.lt_of_lt_of_le hpos (Nat.le_add_right _ _)
  · obtain rfl := Except.ok.inj h
    exact leaf_used_pos line

/-- Blocks take the lines that are inside. -/
theorem readBlocks_takes {bound : Nat} {lines : List Line} {border : Nat} (hbound : border ≤ bound)
    (hcount : border ≤ count) (hlength : border ≤ lines.length)
    (hinside : InsideUpTo around.indent lines border) {found : Found}
    (hfound : readBlocks (some limit) read around bound lines count = .ok found) :
    border ≤ found.used := by
  induction bound generalizing lines count border found with
  | zero => exact Nat.le_trans hbound (Nat.zero_le _)
  | succ bound ih =>
      rcases hlines : lines.drop (lines.takeWhile Line.isEmpty).length with _ | ⟨line, following⟩
      · rw [readBlocks_gap hfound (.inl hlines)]
        have hall := List.drop_eq_nil_iff.mp hlines
        dsimp only
        split <;> omega
      rcases hleft : count - (lines.takeWhile Line.isEmpty).length with _ | left
      · rw [readBlocks_gap hfound (.inr hleft)]
        dsimp only
        split <;> omega
      rcases readBlocks_ok hfound hlines hleft with ⟨houtside, rfl⟩ | ⟨-, -, rfl⟩
        | ⟨-, -, first, more, hfirst, hmore, rfl⟩
      · -- the first line outside is none of these
        dsimp only
        by_contra hlt
        have hline : line ∈ lines[(lines.takeWhile Line.isEmpty).length]? := by
          rw [← List.head?_drop, hlines]
          rfl
        have hnot := hinside _ (by omega) line hline (isEmpty_behind_gap hlines)
        rw [houtside] at hnot
        cases hnot
      · dsimp only
        omega
      have hpos := readBlock_pos hread hfirst
      have hused : first.used ≤ withBlank (line :: following) (left + 1) first.used := by
        unfold withBlank
        split <;> omega
      generalize withBlank (line :: following) (left + 1) first.used = used at hused hmore
      have hlength' := congrArg List.length hlines
      rw [List.length_drop] at hlength'
      have hrest := (hinside.drop (lines.takeWhile Line.isEmpty).length).drop used
      rw [hlines] at hrest
      have htaken :=
        ih (by omega) (by omega) (by rw [List.length_drop, ← hlength']; omega) hrest hmore
      dsimp only
      omega

end Takes

/-- **Reading takes all lines that are inside the container**, at every depth. -/
theorem readContent_takes (limit : Int) (depth : Nat) :
    TakesInside (readContent (some limit) depth) := by
  induction depth with
  | zero =>
      intro around lines count border found _ _ _ hfound
      cases hfound
  | succ depth ih =>
      intro around lines count border found hcount hlength hinside hfound
      exact readBlocks_takes ih hcount hcount hlength hinside hfound

end Markdown

end DocComment
