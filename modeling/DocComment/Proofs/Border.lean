import DocComment.Proofs.LeafExtent
import DocComment.Proofs.ReadSteps
import Mathlib

/-!
# Borders

Lines stand behind a container that do not belong to it, because they are indented less.  A `Border`
says where they start and that no paragraph of the container goes on there.  It is kept where lines
are read off the front (`Border.drop`), inside a quote (`Border.quoted`) and inside an item
(`Border.item`), and a leaf block in front of it ends before it (`Border.leafStopsAt`).

Empty lines behind a border may be taken along; `reach` is the border with these.
-/

namespace DocComment.Markdown

open Text

/-! ## Borders and what they reach -/

/-- A line that has left a container of the given indentation, and no list item is too far away to
be opened by it. -/
structure Line.StandsOutside (line : Line) (indent : Nat) : Prop where
  visible : line.isEmpty = false
  quoted : 0 ≤ line.width
  outside : line.width < indent
  near : line.width < 4

theorem Line.StandsOutside.isCode {line : Line} {indent : Nat} (h : line.StandsOutside indent) :
    line.isCode indent = false := by
  have hout := h.outside
  simp only [Line.isCode, decide_eq_false_iff_not]
  omega

/-- Where the content of a container ends: before `border`, of `count` lines at most.  If that is
before the last of them, then before a line that has left the container.  No paragraph goes on
beyond. -/
structure Border (around : Surroundings) (lines : List Line) (count border : Nat) : Prop where
  le : border ≤ count
  outside : border < count → ∃ line, lines[border]? = some line ∧ line.StandsOutside around.indent
  ends : border = 0 ∨ ∀ line ∈ lines[border]?, line.isEmpty = true
    ∨ (∃ last ∈ lines[border - 1]?, last.isEmpty = true)
    ∨ (border < count ∧ (marker? line.body).isSome = true)
  single : ∀ line ∈ lines, line.IsSingle

/-- The border with the empty lines behind it. -/
def reach (lines : List Line) (border : Nat) : Nat :=
  border + ((lines.drop border).takeWhile Line.isEmpty).length

theorem le_reach (lines : List Line) (border : Nat) : border ≤ reach lines border :=
  Nat.le_add_right _ _

theorem reach_cons (line : Line) (lines : List Line) (border : Nat) :
    reach (line :: lines) (border + 1) = reach lines border + 1 := by
  unfold reach
  rw [List.drop_succ_cons]
  omega

theorem reach_drop (lines : List Line) {used border : Nat} (h : used ≤ border) :
    used + reach (lines.drop used) (border - used) = reach lines border := by
  unfold reach
  rw [List.drop_drop, Nat.add_sub_cancel' h]
  omega

theorem reach_succ_le (lines : List Line) (border : Nat) :
    reach lines border ≤ reach lines (border + 1) := by
  unfold reach
  cases hdrop : lines.drop border with
  | nil =>
      rw [List.takeWhile_nil, List.length_nil]
      omega
  | cons line rest =>
      have hrest : lines.drop (border + 1) = rest := by
        rw [← List.drop_drop, hdrop]
        rfl
      rw [hrest, List.takeWhile_cons]
      split
      · rw [List.length_cons]
        omega
      · rw [List.length_nil]
        omega

theorem reach_mono (lines : List Line) {border other : Nat} (h : border ≤ other) :
    reach lines border ≤ reach lines other :=
  monotone_nat_of_le_succ (reach_succ_le lines) h

theorem length_takeWhile_le_reach (lines : List Line) (border : Nat) :
    (lines.takeWhile Line.isEmpty).length ≤ reach lines border := by
  have hmono := reach_mono lines (Nat.zero_le border)
  rwa [reach, List.drop_zero, Nat.zero_add] at hmono

section Borders

variable {around : Surroundings} {lines : List Line} {count border : Nat}

theorem Border.drop (h : Border around lines count border) {used : Nat} (hused : used ≤ border) :
    Border around (lines.drop used) (count - used) (border - used) where
  le := Nat.sub_le_sub_right h.le used
  outside := by
    intro hlt
    obtain ⟨line, hline, houtside⟩ := h.outside (by omega)
    refine ⟨line, ?_, houtside⟩
    rw [List.getElem?_drop, Nat.add_sub_cancel' hused, hline]
  ends := by
    rcases Nat.eq_or_lt_of_le hused with rfl | hlt
    · exact .inl (Nat.sub_self _)
    refine .inr fun line hline => ?_
    rw [List.getElem?_drop, Nat.add_sub_cancel' hused] at hline
    rcases h.ends with rfl | hends
    · omega
    rcases hends line hline with hempty | ⟨last, hlast, hempty⟩ | ⟨hcount, hmarker⟩
    · exact .inl hempty
    · refine .inr (.inl ⟨last, ?_, hempty⟩)
      rw [List.getElem?_drop]
      convert hlast using 2
      omega
    · exact .inr (.inr ⟨by omega, hmarker⟩)
  single := fun line hline => h.single line (List.mem_of_mem_drop hline)

/-- Empty lines never reach beyond a border that is a line. -/
theorem Border.reach_eq (h : Border around lines count border) (hlt : border < count) :
    reach lines border = border := by
  obtain ⟨line, hline, houtside⟩ := h.outside hlt
  obtain ⟨hbound, hget⟩ := List.getElem?_eq_some_iff.mp hline
  unfold reach
  rw [List.drop_eq_getElem_cons hbound, hget,
    List.takeWhile_cons_of_neg (by simp [houtside.visible]), List.length_nil, Nat.add_zero]

/-- Beyond the border only empty lines behind all lines can be taken. -/
theorem Border.le_or_nothing_left (h : Border around lines count border) {used : Nat}
    (hused : used ≤ reach lines border) : used ≤ border ∨ count - used = 0 := by
  rcases Nat.eq_or_lt_of_le h.le with rfl | hlt
  · omega
  · rw [h.reach_eq hlt] at hused
    exact .inl hused

/-- What ends in front of a line that is not the one outside ends before the border. -/
theorem Border.used_lt {lines : List Line} {border count used : Nat}
    (h : Border around lines count border) (hused : used ≤ reach lines border) (hlt : used < count)
    {next : Line} (hnext : (lines.drop used).head? = some next)
    (hstays : ¬next.StandsOutside around.indent) : used < border := by
  rcases Nat.eq_or_lt_of_le h.le with rfl | hborder
  · exact hlt
  rw [h.reach_eq hborder] at hused
  refine Nat.lt_of_le_of_ne hused ?_
  rintro rfl
  obtain ⟨stop, hstop, houtside⟩ := h.outside hborder
  rw [List.head?_drop] at hnext
  obtain rfl : stop = next := Option.some.inj (hstop.symm.trans hnext)
  exact hstays houtside

theorem not_standsOutside {line : Line} {indent : Nat} (hinside : line.isOutside indent = false) :
    ¬line.StandsOutside indent := by
  intro houtside
  rw [Line.isOutside, decide_eq_true houtside.outside] at hinside
  cases hinside

/-- The empty line that goes with a block stays within the border. -/
theorem Border.withBlank_le {lines : List Line} {border count used : Nat}
    (h : Border around lines count border) (hused : used ≤ reach lines border) :
    withBlank lines count used ≤ reach lines border := by
  unfold withBlank
  split
  · next hblank =>
      rw [Bool.and_eq_true, decide_eq_true_eq] at hblank
      obtain ⟨hlt, hempty⟩ := hblank
      cases hnext : (lines.drop used).head? with
      | none => simp [hnext] at hempty
      | some next =>
          have hstays : ¬next.StandsOutside around.indent := by
            intro houtside
            simp [hnext, houtside.visible] at hempty
          exact Nat.le_trans (h.used_lt hused hlt hnext hstays) (le_reach lines border)
  · exact hused

/-- A line outside with a marker ends everything but a list. -/
theorem interrupts_of_outside {line : Line} (houtside : line.StandsOutside around.indent)
    (hmarker : (marker? line.body).isSome = true) {block : Interrupted} (hblock : block ≠ .list) :
    interrupts around block line = true := by
  have hcode : line.isCode around.indent = false := houtside.isCode
  have hstray : isStrayItem around line = false := by
    have hnear := houtside.near
    unfold isStrayItem
    split
    · simp only [Bool.and_eq_false_iff, decide_eq_false_iff_not]
      omega
    · rfl
  have hleft : line.isOutside around.indent = true := decide_eq_true houtside.outside
  obtain ⟨marker, hsome⟩ := Option.isSome_iff_exists.mp hmarker
  have hopens : opensItem around block line = true := by
    unfold opensItem itemMarker?
    simp [hcode, hstray, hsome, hleft]
  unfold interrupts
  simp [hcode, hopens, hblock]

/-- An empty line is not the first one, if that is not empty. -/
theorem exists_of_empty {line last : Line} {following : List Line} {n : Nat}
    (hline : line.isEmpty = false) (hlast : last ∈ (line :: following)[n]?)
    (hempty : last.isEmpty = true) : ∃ k, n = k + 1 ∧ last ∈ following[k]? := by
  cases n with
  | zero =>
      obtain rfl : line = last := Option.some.inj hlast
      rw [hline] at hempty
      cases hempty
  | succ k => exact ⟨k, rfl, hlast⟩

/-- A border behind the first line bounds the leaf block on it. -/
theorem Border.leafStopsAt {line : Line} {following : List Line} (hline : line.isEmpty = false)
    (h : Border around (line :: following) (count + 1) (border + 1)) :
    LeafStopsAt around following count border where
  container := by
    intro other hother
    rw [List.getElem?_take] at hother
    split at hother
    · next hlt =>
        obtain ⟨found, hfound, houtside⟩ := h.outside (Nat.succ_lt_succ hlt)
        obtain rfl : found = other := Option.some.inj (hfound.symm.trans hother)
        exact ⟨houtside.visible, decide_eq_true houtside.outside⟩
    · cases hother
  paragraph := by
    intro other hother
    rcases h.ends with hzero | hends
    · cases hzero
    rcases hends other hother with hempty | ⟨last, hlast, hempty⟩ | ⟨hlt, hmarker⟩
    · exact .inl fun block _ => by simp [continuesParagraph, hempty]
    · obtain ⟨k, hk, hlast⟩ := exists_of_empty hline hlast hempty
      exact .inr ⟨k, hk, last, hlast, hempty⟩
    · obtain ⟨found, hfound, houtside⟩ := h.outside hlt
      obtain rfl : found = other := Option.some.inj (hfound.symm.trans hother)
      refine .inl fun block hblock => ?_
      have hcode : found.isCode around.indent = false := houtside.isCode
      have hquoted : ¬found.width < 0 := by
        have hwidth := houtside.quoted
        omega
      simp [continuesParagraph, hcode, hquoted, interrupts_of_outside houtside hmarker hblock]
  single := fun other hother => h.single other (List.mem_cons_of_mem line hother)

end Borders

/-! ## Lines inside containers -/

theorem single_of_sublist {line other : Line} (h : line.IsSingle) (hbody : other.body ⊆ line.body) :
    other.IsSingle :=
  fun hmem => h (hbody hmem)

theorem single_unquoted {line : Line} (h : line.IsSingle) : line.unquoted.IsSingle := by
  -- what is left is a part of the content behind the mark
  have hrest (front : List Char) {rest : List Char} (hbody : line.body = front ++ rest)
      (taken shift column : Nat) :
      (quotedRest line taken shift column rest).IsSingle := by
    apply single_of_sublist h
    rw [hbody]
    exact List.Subset.trans (List.dropWhile_sublist isIndent).subset
      (List.subset_append_right front rest)
  unfold Line.unquoted
  dsimp only
  split
  · next rest hbody => exact hrest ['>', ' '] hbody _ _ _
  · next rest hbody =>
      split
      · exact hrest ['>', '\t'] hbody _ _ _
      · exact hrest ['>'] hbody _ _ _
  · next rest _ _ hbody => exact hrest ['>'] hbody _ _ _
  · exact h

/-- What follows a marker is a part of the content. -/
theorem marker?_rest {body : List Char} {marker : Marker} (h : marker? body = some marker) :
    marker.rest ⊆ body := by
  unfold marker? at h
  rcases Option.or_eq_some_iff.mp h with h | ⟨-, h⟩
  · unfold orderedMarker? at h
    dsimp only at h
    split at h
    · next sign rest hbody =>
        split at h
        · obtain rfl := Option.some.inj h
          have hdrop : sign :: rest ⊆ body := by
            rw [← hbody]
            exact (List.dropWhile_sublist Char.isDigit).subset
          exact List.Subset.trans (List.subset_cons_self sign rest) hdrop
        · cases h
    · cases h
  · unfold bulletMarker? at h
    split at h
    · split at h
      · obtain rfl := Option.some.inj h
        exact List.subset_cons_self _ _
      · cases h
    · cases h

theorem single_itemContent {line : Line} (h : line.IsSingle) {marker : Marker}
    (hmarker : marker? line.body = some marker) : (itemContent line marker).1.IsSingle := by
  apply single_of_sublist h
  exact List.Subset.trans (List.dropWhile_sublist isIndent).subset (marker?_rest hmarker)

section QuotedLines

variable {around : Surroundings} {lastEmpty : Bool} {lines : List Line}

theorem single_quotedLines (hsingle : ∀ line ∈ lines, line.IsSingle) :
    ∀ line ∈ (quotedLines around lastEmpty lines).1, line.IsSingle := by
  induction lines generalizing lastEmpty with
  | nil => exact fun line hline => nomatch hline
  | cons line lines ih =>
      have hothers : ∀ other ∈ lines, other.IsSingle :=
        fun other hm => hsingle other (List.mem_cons_of_mem line hm)
      have hline : line.IsSingle := hsingle line List.mem_cons_self
      unfold quotedLines
      split
      · exact fun line hline => nomatch hline
      split
      · exact List.forall_mem_cons.mpr ⟨single_unquoted hline, ih hothers⟩
      split
      · exact fun line hline => nomatch hline
      split
      · exact fun line hline => nomatch hline
      · exact List.forall_mem_cons.mpr ⟨hline, ih hothers⟩

/-- The lines of a quote end before an empty line, and before a line outside that opens something.
-/
theorem quotedLines_le {n : Nat} (h : ∀ line ∈ lines[n]?, line.isEmpty = true
      ∨ line.isOutside around.indent = true ∧ interrupts around .quote line = true) :
    (quotedLines around lastEmpty lines).1.length ≤ n := by
  induction lines generalizing n lastEmpty with
  | nil => exact Nat.zero_le n
  | cons line lines ih =>
      unfold quotedLines
      cases n with
      | zero =>
          rcases h line rfl with hempty | ⟨houtside, hinterrupts⟩
          · simp [hempty]
          · simp only [houtside, hinterrupts, Bool.not_true, Bool.and_false, Bool.false_eq_true,
              if_false, if_true]
            split
            · exact Nat.le_refl 0
            · split <;> exact Nat.le_refl 0
      | succ n =>
          split
          · exact Nat.zero_le _
          split
          · exact Nat.succ_le_succ (ih h)
          split
          · exact Nat.zero_le _
          split
          · exact Nat.zero_le _
          · exact Nat.succ_le_succ (ih h)

/-- Where no other block ends a quote, its last line is empty or an empty line follows. -/
theorem quotedLines_ends {first : Line} (hfirst : first.isEmpty = lastEmpty)
    (hended : (quotedLines around lastEmpty lines).2 = false) :
    ∀ line ∈ lines[(quotedLines around lastEmpty lines).1.length]?, line.isEmpty = true
      ∨ ∃ last ∈ (first :: (quotedLines around lastEmpty lines).1)[
          (quotedLines around lastEmpty lines).1.length]?, last.isEmpty = true := by
  induction lines generalizing first lastEmpty with
  | nil => exact fun line hline => nomatch hline
  | cons line lines ih =>
      unfold quotedLines at hended ⊢
      split at hended
      · next hempty =>
          rw [if_pos hempty]
          rintro _ ⟨⟩
          exact .inl hempty
      next hempty =>
      rw [if_neg hempty]
      split at hended
      · next hquoted =>
          rw [if_pos hquoted]
          exact ih rfl hended
      next hquoted =>
      rw [if_neg hquoted]
      split at hended
      · next hlast =>
          rw [if_pos hlast]
          exact fun _ _ => .inr ⟨first, rfl, hfirst.trans hlast⟩
      next hlast =>
      rw [if_neg hlast]
      split at hended
      · cases hended
      next hopens =>
      rw [if_neg hopens]
      exact ih (show line.lazy.isEmpty = false from Bool.eq_false_iff.mpr hempty) hended

end QuotedLines

/-! ## Borders inside containers -/

section Containers

variable {around : Surroundings} {line : Line} {following : List Line} {count border : Nat}

/-- A quote ends before an empty line. -/
theorem quotedLines_le_of_empty (around : Surroundings) (lastEmpty : Bool) {k : Nat}
    (hk : k < count) {last : Line} (hlast : last ∈ following[k]?) (hempty : last.isEmpty = true) :
    (quotedLines around lastEmpty (following.take count)).1.length ≤ k := by
  apply quotedLines_le
  intro other hother
  rw [List.getElem?_take, if_pos hk] at hother
  obtain rfl : last = other := Option.mem_unique hlast hother
  exact .inl hempty

/-- A quote ends before the border behind it. -/
theorem Border.quotedLines_le (hline : line.isEmpty = false)
    (h : Border around (line :: following) (count + 1) (border + 1)) (lastEmpty : Bool) :
    (quotedLines around lastEmpty (following.take count)).1.length ≤ border := by
  rcases Nat.lt_or_ge border count with hlt | hge
  · obtain ⟨stop, hstop, houtside⟩ := h.outside (Nat.succ_lt_succ hlt)
    rcases h.ends with hzero | hends
    · cases hzero
    rcases hends stop hstop with hempty | ⟨last, hlast, hempty⟩ | ⟨-, hmarker⟩
    · rw [houtside.visible] at hempty
      cases hempty
    · obtain ⟨k, rfl, hlast⟩ := exists_of_empty hline hlast hempty
      exact Nat.le_succ_of_le
        (quotedLines_le_of_empty around lastEmpty (Nat.lt_of_succ_lt hlt) hlast hempty)
    · apply Markdown.quotedLines_le
      intro other hother
      rw [List.getElem?_take, if_pos hlt] at hother
      obtain rfl : stop = other := Option.some.inj (hstop.symm.trans hother)
      exact .inr
        ⟨decide_eq_true houtside.outside, interrupts_of_outside houtside hmarker (by decide)⟩
  · have hall : (quotedLines around lastEmpty (following.take count)).1.length
        ≤ (following.take count).length := by
      apply Markdown.quotedLines_le
      intro other hother
      rw [List.getElem?_eq_none (Nat.le_refl _)] at hother
      cases hother
    have htake := List.length_take_le count following
    omega

section Quoted

variable {more : List Line} {ended : Bool}

/-- Behind a quote that takes all lines of its container there is an empty line, if any. -/
theorem Border.isEmpty_behind_quote (hvisible : line.isEmpty = false)
    (h : Border around (line :: following) (count + 1) (border + 1))
    (hquoted : quotedLines around line.unquoted.isEmpty (following.take count) = (more, ended))
    (hall : count ≤ more.length) : ∀ next ∈ following[more.length]?, next.isEmpty = true := by
  intro next hnext
  have hle : more.length ≤ border := by
    have hle := h.quotedLines_le hvisible line.unquoted.isEmpty
    rwa [hquoted] at hle
  have hborder := h.le
  obtain rfl : border = count := by omega
  obtain hmore : more.length = border := by omega
  rw [hmore] at hnext
  rcases h.ends with hzero | hends
  · cases hzero
  rcases hends next hnext with hempty | ⟨last, hlast, hempty⟩ | ⟨hlt, -⟩
  · exact hempty
  · obtain ⟨k, rfl, hlast⟩ := exists_of_empty hvisible hlast hempty
    have hk :=
      quotedLines_le_of_empty around line.unquoted.isEmpty (Nat.lt_succ_self k) hlast hempty
    rw [hquoted] at hk
    simp only at hk
    omega
  · omega

/-- Where no other block ends a quote, it ends at an empty line. -/
theorem Border.ends_quote (hvisible : line.isEmpty = false)
    (h : Border around (line :: following) (count + 1) (border + 1))
    (hquoted : quotedLines around line.unquoted.isEmpty (following.take count) = (more, false)) :
    ∀ next ∈ following[more.length]?, next.isEmpty = true
      ∨ ∃ last ∈ (line.unquoted :: more)[more.length]?, last.isEmpty = true := by
  intro next hnext
  rcases Nat.lt_or_ge more.length count with hlt | hge
  · have hends :=
      @quotedLines_ends around _ (following.take count) line.unquoted rfl (by rw [hquoted])
    rw [hquoted] at hends
    exact hends next (by rwa [List.getElem?_take, if_pos hlt])
  · exact .inl (h.isEmpty_behind_quote hvisible hquoted hge next hnext)

theorem single_insideQuote (hsingle : ∀ other ∈ line :: following, other.IsSingle)
    (hquoted : quotedLines around line.unquoted.isEmpty (following.take count) = (more, ended)) :
    ∀ other ∈ line.unquoted :: more ++ if ended then [] else following.drop more.length,
      other.IsSingle := by
  obtain ⟨hline, hfollowing⟩ := List.forall_mem_cons.mp hsingle
  have hmore : ∀ other ∈ more, other.IsSingle := by
    have hlines := @single_quotedLines around line.unquoted.isEmpty (following.take count)
      fun other hm => hfollowing other (List.mem_of_mem_take hm)
    rwa [hquoted] at hlines
  refine List.forall_mem_append.mpr ⟨List.forall_mem_cons.mpr ⟨single_unquoted hline, hmore⟩, ?_⟩
  split
  · exact fun other hm => nomatch hm
  · exact fun other hm => hfollowing other (List.mem_of_mem_drop hm)

/-- The lines inside a quote end where no paragraph goes on. -/
theorem Border.quoted (hline : opensQuote line = true)
    (h : Border around (line :: following) (count + 1) (border + 1))
    (hquoted : quotedLines around line.unquoted.isEmpty (following.take count) = (more, ended))
    (inside : Surroundings) :
    Border inside (line.unquoted :: more ++ if ended then [] else following.drop more.length)
      (more.length + 1) (more.length + 1) where
  le := Nat.le_refl _
  outside := fun hlt => absurd hlt (Nat.lt_irrefl _)
  ends := by
    refine .inr fun next hnext => ?_
    rw [List.getElem?_append_right (by simp)] at hnext
    cases ended with
    | true => simp at hnext
    | false =>
        have hfollows : next ∈ following[more.length]? := by simpa using hnext
        rcases h.ends_quote (isEmpty_of_opensQuote hline) hquoted next hfollows
          with hempty | ⟨last, hlast, hempty⟩
        · exact .inl hempty
        · refine .inr (.inl ⟨last, ?_, hempty⟩)
          rw [Nat.add_sub_cancel, List.getElem?_append_left (by simp)]
          exact hlast
  single := single_insideQuote h.single hquoted

end Quoted

/-- The content of an item is indented as far as the list at least. -/
theorem le_itemContent (marker : Marker) (hinside : line.isOutside around.indent = false) :
    around.indent ≤ (itemContent line marker).2 := by
  have hwidth : (around.indent : Int) ≤ line.width := by
    simpa [Line.isOutside] using hinside
  unfold itemContent
  dsimp only
  omega

/-- A border behind an item is a border behind its content. -/
theorem Border.item {marker : Marker} (hmarker : marker? line.body = some marker)
    (hvisible : line.isEmpty = false) (hinside : line.isOutside around.indent = false)
    (h : Border around (line :: following) (count + 1) (border + 1)) (inside : Surroundings)
    (hindent : inside.indent = (itemContent line marker).2) :
    Border inside ((itemContent line marker).1 :: following) (count + 1) (border + 1) where
  le := h.le
  outside := by
    intro hlt
    obtain ⟨stop, hstop, houtside⟩ := h.outside hlt
    have hdeeper := le_itemContent marker hinside
    have hleft := houtside.outside
    exact ⟨stop, hstop, houtside.visible, houtside.quoted, by omega, houtside.near⟩
  ends := by
    refine .inr fun other hother => ?_
    rcases h.ends with hzero | hends
    · cases hzero
    rcases hends other hother with hempty | ⟨last, hlast, hempty⟩ | hmarked
    · exact .inl hempty
    · obtain ⟨k, rfl, hlast⟩ := exists_of_empty hvisible hlast hempty
      exact .inr (.inl ⟨last, hlast, hempty⟩)
    · exact .inr (.inr hmarked)
  single := List.forall_mem_cons.mpr
    ⟨single_itemContent (h.single line List.mem_cons_self) hmarker,
      fun other hm => h.single other (List.mem_cons_of_mem line hm)⟩

end Containers

end DocComment.Markdown
