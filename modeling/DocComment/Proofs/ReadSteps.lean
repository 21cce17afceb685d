import DocComment.Markdown.Reader
import Mathlib

/-!
# What the readers give

One lemma for each reader of containers says what it can have done where it gives a result, so that
no proof about reading unfolds a reader: a quote is read as its inner lines (`readQuote_ok`), an
item as its content (`readItem_ok`), a list as its items one after the other (`readItems_ok`,
`readList_ok`), and lines as a block and what stands behind it (`readBlocks_ok`, `readBlocks_gap`).
Where it is known which lines an item takes, `readItems_append` says what a list gives.
-/

namespace DocComment.Markdown

variable {limit : Int} {read : ContentReader} {around : Surroundings} {line : Line}
  {following : List Line} {count : Nat}

/-! ## Quotes -/

theorem isEmpty_of_opensQuote (h : opensQuote line = true) : line.isEmpty = false := by
  unfold opensQuote at h
  unfold Line.isEmpty
  cases hbody : line.body with
  | nil => simp [hbody] at h
  | cons c body => rfl

/-- What is read of a quote is what is read inside it. -/
theorem readQuote_ok {found : Found}
    (h : readQuote read around line following (count + 1) = .ok found) {more : List Line}
    {ended : Bool}
    (hquoted : quotedLines around line.unquoted.isEmpty (following.take count) = (more, ended)) :
    ∃ inner, read { around with indent := 0, level := around.level + 1 }
        (line.unquoted :: more ++ if ended then [] else following.drop more.length)
        (more.length + 1) = .ok inner
      ∧ found = {
          blocks := [.quote (sourceText ((line :: following).take inner.used)) inner.blocks]
          used := inner.used } := by
  unfold readQuote at h
  rw [Nat.add_sub_cancel] at h
  simp only [hquoted, List.length_cons] at h
  cases hinner : read { around with indent := 0, level := around.level + 1 }
      (line.unquoted :: more ++ if ended then [] else following.drop more.length)
      (more.length + 1) with
  | error error =>
      rw [hinner] at h
      cases h
  | ok inner =>
      rw [hinner] at h
      exact ⟨inner, rfl, (Except.ok.inj h).symm⟩

/-! ## Lists -/

theorem isEmpty_of_marker {marker : Marker} (h : marker? line.body = some marker) :
    line.isEmpty = false := by
  unfold Line.isEmpty
  cases hbody : line.body with
  | nil => simp [hbody, marker?, orderedMarker?, bulletMarker?] at h
  | cons c body => rfl

theorem marker?_of_itemMarker? {line : Line} {marker : Marker}
    (h : itemMarker? around line = some marker) : marker? line.body = some marker := by
  unfold itemMarker? at h
  split at h
  · cases h
  · exact h

/-- A marker that goes on with a list stands inside, and it is one of the same kind. -/
theorem nextMarker?_eq_some {kind : ListKind} {sign : Char} {marker : Marker}
    (h : nextMarker? around kind sign line = some marker) :
    line.isOutside around.indent = false ∧ marker? line.body = some marker
      ∧ marker.kind = kind ∧ marker.sign = sign := by
  unfold nextMarker? at h
  split at h
  · cases h
  · next hplace =>
      obtain ⟨hmarker, hsame⟩ := Option.filter_eq_some_iff.mp h
      rw [Bool.or_eq_true, Bool.or_eq_true, not_or, not_or] at hplace
      rw [Bool.and_eq_true, beq_iff_eq, beq_iff_eq] at hsame
      exact ⟨Bool.eq_false_iff.mpr hplace.1.1, hmarker, hsame.1, hsame.2⟩

/-- What is read of an item: nothing, if its first line has no content and an empty line follows,
and otherwise what is read of its content. -/
theorem readItem_ok {marker : Marker} {found : Found}
    (h : readItem read around line marker following count = .ok found) :
    ((itemContent line marker).1.isEmpty = true ∧ following.head?.all Line.isEmpty = true
        ∧ found = { blocks := [], used := min 2 count })
      ∨ read {
            indent := (itemContent line marker).2
            listIndent := some around.indent
            level := around.level + 2 }
          ((itemContent line marker).1 :: following) count = .ok found := by
  unfold readItem at h
  dsimp only at h
  split at h
  · next hempty =>
      rw [Bool.and_eq_true] at hempty
      exact .inl ⟨hempty.1, hempty.2, (Except.ok.inj h).symm⟩
  · exact .inr h

/-- What is read of a list from an item on: the item, and the items behind it if its marker is
followed by another one. -/
theorem readItems_ok {bound : Nat} {marker : Marker} {items : List ListItem}
    {used : Nat}
    (h : readItems read around (bound + 1) marker (line :: following) count = .ok (items, used)) :
    ∃ found item, readItem read around line marker following count = .ok found
      ∧ item = {
          text := sourceText ((line :: following).take found.used), children := found.blocks }
      ∧ (items = [item] ∧ used = found.used
          ∧ (if found.used < count then ((line :: following).drop found.used).head? else none).bind
            (nextMarker? around marker.kind marker.sign) = none
        ∨ ∃ next rest other more usedMore, found.used < count
          ∧ (line :: following).drop found.used = next :: rest
          ∧ nextMarker? around marker.kind marker.sign next = some other
          ∧ readItems read around bound other (next :: rest) (count - found.used)
            = .ok (more, usedMore)
          ∧ items = item :: more ∧ used = found.used + usedMore) := by
  rw [readItems] at h
  cases hfound : readItem read around line marker following count with
  | error error =>
      rw [hfound] at h
      cases h
  | ok found =>
      rw [hfound] at h
      refine ⟨found, _, rfl, rfl, ?_⟩
      dsimp only [bind, Except.bind] at h
      split at h
      · next hnext =>
          obtain ⟨rfl, rfl⟩ := Prod.mk.inj (Except.ok.inj h)
          exact .inl ⟨rfl, rfl, hnext⟩
      · next other hnext =>
          obtain ⟨next, hhead, hother⟩ := Option.bind_eq_some_iff.mp hnext
          split at hhead
          · next hlt =>
              obtain ⟨rest, hrest⟩ := List.head?_eq_some_iff.mp hhead
              rw [hrest] at h
              cases hmore :
                  readItems read around bound other (next :: rest) (count - found.used) with
              | error error =>
                  rw [hmore] at h
                  cases h
              | ok result =>
                  obtain ⟨more, usedMore⟩ := result
                  rw [hmore] at h
                  obtain ⟨rfl, rfl⟩ := Prod.mk.inj (Except.ok.inj h)
                  exact .inr
                    ⟨next, rest, other, more, usedMore, hlt, hrest, hother, hmore, rfl, rfl⟩
          · cases hhead

/-- Of lines that an item takes and those behind it, the item is read, and a list goes on behind it
if the first line behind it has a marker that goes on with the list. -/
theorem readItems_append (bound : Nat) {marker : Marker} {taken rest : List Line} {found : Found}
    (htaken : line :: following = taken ++ rest) (hused : found.used = taken.length)
    (hfound : readItem read around line marker following (following.length + 1) = .ok found) :
    readItems read around (bound + 1) marker (line :: following) (following.length + 1)
      = match rest.head?.bind (nextMarker? around marker.kind marker.sign) with
        | none => .ok ([{ text := sourceText taken, children := found.blocks }], taken.length)
        | some next => (readItems read around bound next rest rest.length).map fun (items, used) =>
          ({ text := sourceText taken, children := found.blocks } :: items,
            taken.length + used) := by
  have hcount : following.length + 1 = taken.length + rest.length := by
    rw [← List.length_cons, htaken, List.length_append]
  have hnext : (if taken.length < taken.length + rest.length then rest.head? else none)
      = rest.head? := by
    cases rest <;> simp
  simp only [readItems, hfound, bind, Except.bind, hused]
  rw [htaken, hcount, List.take_left, List.drop_left, hnext, Nat.add_sub_cancel_left]
  cases rest.head?.bind (nextMarker? around marker.kind marker.sign) with
  | none => rfl
  | some next => cases readItems read around bound next rest rest.length <;> rfl

/-- A list is read as its items. -/
theorem readList_ok {marker : Marker} {lines : List Line} {count : Nat} {found : Found}
    (h : readList read around marker lines count = .ok found) :
    ∃ items used, readItems read around count marker lines count = .ok (items, used)
      ∧ found = {
          blocks := [.list {
            kind := marker.kind
            items
            marker := String.singleton marker.sign
            start := if marker.number = 1 then none else some (marker.number : Int) }]
          used } := by
  unfold readList at h
  cases hitems : readItems read around count marker lines count with
  | error error =>
      rw [hitems] at h
      cases h
  | ok result =>
      rw [hitems] at h
      exact ⟨result.1, result.2, rfl, (Except.ok.inj h).symm⟩

/-! ## Blocks -/

/-- What is read of lines with something in them: nothing, if the first line that is not empty has
left the container or the level is too deep, and otherwise a block and the blocks behind it. -/
theorem readBlocks_ok {bound : Nat} {lines : List Line} {count : Nat} {found : Found}
    (h : readBlocks (some limit) read around (bound + 1) lines count = .ok found) {line : Line}
    {following : List Line} {left : Nat}
    (hlines : lines.drop (lines.takeWhile Line.isEmpty).length = line :: following)
    (hleft : count - (lines.takeWhile Line.isEmpty).length = left + 1) :
    line.isOutside around.indent = true
        ∧ found = { blocks := [], used := (lines.takeWhile Line.isEmpty).length }
      ∨ line.isOutside around.indent = false ∧ limit ≤ around.level
        ∧ found = { blocks := [], used := (lines.takeWhile Line.isEmpty).length + (left + 1) }
      ∨ line.isOutside around.indent = false ∧ around.level < limit
        ∧ ∃ first more, readBlock read around line following (left + 1) = .ok first
          ∧ readBlocks (some limit) read around bound
              ((line :: following).drop (withBlank (line :: following) (left + 1) first.used))
              (left + 1 - withBlank (line :: following) (left + 1) first.used) = .ok more
          ∧ found = {
              blocks := first.blocks ++ more.blocks
              used := (lines.takeWhile Line.isEmpty).length
                + withBlank (line :: following) (left + 1) first.used + more.used } := by
  simp only [readBlocks, hlines, hleft] at h
  split at h
  · next houtside => exact .inl ⟨houtside, (Except.ok.inj h).symm⟩
  next hinside =>
  have hinside : line.isOutside around.indent = false := Bool.eq_false_iff.mpr hinside
  split at h
  · next hdeep => exact .inr (.inl ⟨hinside, hdeep, (Except.ok.inj h).symm⟩)
  next hroom =>
  refine .inr (.inr ⟨hinside, by omega, ?_⟩)
  cases hfirst : readBlock read around line following (left + 1) with
  | error error =>
      rw [hfirst] at h
      cases h
  | ok first =>
      rw [hfirst] at h
      dsimp only [bind, Except.bind] at h
      cases hmore : readBlocks (some limit) read around bound
          ((line :: following).drop (withBlank (line :: following) (left + 1) first.used))
          (left + 1 - withBlank (line :: following) (left + 1) first.used) with
      | error error =>
          rw [hmore] at h
          cases h
      | ok more =>
          rw [hmore] at h
          exact ⟨first, more, rfl, hmore, (Except.ok.inj h).symm⟩

/-- Without lines, or with empty ones only, nothing but the empty lines is read. -/
theorem readBlocks_gap {bound : Nat} {lines : List Line} {count : Nat} {found : Found}
    (h : readBlocks (some limit) read around (bound + 1) lines count = .ok found)
    (hgap : lines.drop (lines.takeWhile Line.isEmpty).length = []
      ∨ count - (lines.takeWhile Line.isEmpty).length = 0) :
    found = {
      blocks := [], used := if count = 0 then 0 else (lines.takeWhile Line.isEmpty).length } := by
  unfold readBlocks at h
  dsimp only at h
  split at h
  · next hlines hleft =>
      rcases hgap with hgap | hgap
      · rw [hgap] at hlines
        cases hlines
      · rw [hgap] at hleft
        cases hleft
  · exact (Except.ok.inj h).symm

/-- Of no lines nothing is read. -/
theorem readBlocks_zero {bound : Nat} {lines : List Line} {found : Found}
    (h : readBlocks (some limit) read around bound lines 0 = .ok found) : found.used = 0 := by
  cases bound with
  | zero =>
      obtain rfl := Except.ok.inj h
      rfl
  | succ bound =>
      rw [readBlocks_gap h (.inr (Nat.zero_sub _)), if_pos rfl]

/-- The line behind all empty lines is not empty. -/
theorem isEmpty_behind_gap {lines : List Line} {line : Line} {following : List Line}
    (h : lines.drop (lines.takeWhile Line.isEmpty).length = line :: following) :
    line.isEmpty = false := by
  induction lines with
  | nil => cases h
  | cons first lines ih =>
      rw [List.takeWhile_cons] at h
      split at h
      · exact ih h
      · next hfirst =>
          obtain ⟨rfl, -⟩ := List.cons.inj h
          exact Bool.eq_false_iff.mpr hfirst

end DocComment.Markdown
