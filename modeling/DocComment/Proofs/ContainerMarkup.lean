import DocComment.Proofs.BlockLines
import Mathlib

/-!
# Quotes and lists in their source

A quote and a list are written as the source lines they were read from.  They are read from these
lines again where no line depends on what stood around them: every line of a quote has its own mark
(`QuoteText`), and every line of an item is indented as its content is (`ItemText`).  What is read
inside is left open; that no line is lost or gained follows from the bounds on reading alone.
-/

namespace DocComment.Markdown

open Text

variable {limit : Int} {read : ContentReader} {rest : List Line} {block : Block}

/-! ## All lines of a text -/

/-- Behind all lines nothing goes on. -/
theorem border_all {around : Surroundings} {lines : List Line}
    (hsingle : ∀ line ∈ lines, line.IsSingle) : Border around lines lines.length lines.length where
  le := Nat.le_refl _
  outside := fun hlt => absurd hlt (Nat.lt_irrefl _)
  ends := by
    refine .inr fun line hline => ?_
    rw [List.getElem?_eq_none (Nat.le_refl _)] at hline
    cases hline
  single := hsingle

theorem Behind.single (h : Behind block rest) : ∀ line ∈ rest, line.IsSingle := by
  cases h with
  | nothing => exact fun line hline => nomatch hline
  | other _ _ hsingle _ =>
      exact List.forall_mem_cons.mpr ⟨List.not_mem_nil, hsingle⟩

theorem single_sourceLines {text : List Char} {ended : Bool} :
    ∀ line ∈ sourceLines ended (splitNewlines text), line.IsSingle := by
  intro line hline
  obtain ⟨part, hpart, lineEnded, rfl⟩ := mem_sourceLines hline
  exact single_ofSource (notMem_splitNewlines hpart) lineEnded

/-! ## Quotes -/

/-- A text that is read as a quote: each line has its own mark, and the first one nothing in front
of it. -/
structure QuoteText (text : List Char) : Prop where
  flush : ∀ first ∈ (splitNewlines text).head?, first.head? = some '>'
  marked : ∀ part ∈ splitNewlines text, opensQuote (Line.ofSource true part) = true

/-- Lines with marks are all lines of a quote. -/
theorem quotedLines_marked {front : List Line} (hmarked : ∀ line ∈ front, opensQuote line = true)
    (hinside : ∀ line ∈ front, line.isOutside 0 = false) (lastEmpty : Bool)
    (hrest : Behind block rest) :
    quotedLines {} lastEmpty (front ++ rest) = (front.map Line.unquoted, false) := by
  induction front generalizing lastEmpty with
  | nil =>
      cases hrest with
      | nothing => rfl
      | other => rfl
  | cons line front ih =>
      have hline := hmarked line List.mem_cons_self
      have hin : line.isOutside ({} : Surroundings).indent = false :=
        hinside line List.mem_cons_self
      have hothers := ih (fun other hm => hmarked other (List.mem_cons_of_mem line hm))
        (fun other hm => hinside other (List.mem_cons_of_mem line hm)) line.unquoted.isEmpty
      rw [List.cons_append, quotedLines, isEmpty_of_opensQuote hline]
      simp [hline, hin, hothers]

/-- The empty lines behind a block are one at most. -/
theorem Behind.gap_le (h : Behind block rest) :
    (rest.takeWhile Line.isEmpty).length = if rest = [] then 0 else 1 := by
  cases h with
  | nothing => rfl
  | other hvisible =>
      rw [List.takeWhile_cons_of_pos isEmpty_emptyLine,
        List.takeWhile_cons_of_neg (by simp [hvisible])]
      simp

/-- A quote takes the lines with marks, and the empty line behind them at most. -/
theorem readQuote_exact (hstays : StaysWithin limit read) (htakes : TakesInside read) {line : Line}
    {front : List Line} (hmarked : ∀ other ∈ line :: front, opensQuote other = true)
    (hinside : ∀ other ∈ front, other.isOutside 0 = false)
    (hsingle : ∀ other ∈ line :: front, other.IsSingle) (hrest : Behind block rest) {found : Found}
    (hfound : readQuote read {} line (front ++ rest) ((front ++ rest).length + 1) = .ok found)
    (hlevels : Block.levelsAll found.blocks < limit) :
    (∃ text children, found.blocks = [.quote text children])
      ∧ (found.used = front.length + 1 ∨ found.used = front.length + 1 + 1 ∧ rest ≠ []) := by
  obtain ⟨hline, hfront⟩ := List.forall_mem_cons.mp hmarked
  have hquoted : quotedLines {} line.unquoted.isEmpty
      ((front ++ rest).take (front ++ rest).length) = (front.map Line.unquoted, false) := by
    rw [List.take_length]
    exact quotedLines_marked hfront hinside _ hrest
  obtain ⟨inner, hinner, rfl⟩ := readQuote_ok hfound hquoted
  have hborder : Border {} (line :: (front ++ rest)) ((front ++ rest).length + 1)
      ((front ++ rest).length + 1) := by
    apply border_all
    rw [← List.cons_append]
    exact List.forall_mem_append.mpr ⟨hsingle, hrest.single⟩
  have hcontent := hborder.quoted hline hquoted
    { ({} : Surroundings) with indent := 0, level := ({} : Surroundings).level + 1 }
  have hlength : (front.map Line.unquoted).length = front.length := List.length_map _
  have hbehind : (if false = true then ([] : List Line)
      else (front ++ rest).drop (front.map Line.unquoted).length) = rest := by
    rw [if_neg Bool.false_ne_true, hlength, List.drop_left]
  rw [hbehind, hlength] at hinner hcontent
  refine ⟨⟨_, _, rfl⟩, ?_⟩
  -- every line with a mark is inside, so the quote is not shorter
  have hall :
      InsideUpTo 0 (line.unquoted :: front.map Line.unquoted ++ rest) (front.length + 1) := by
    intro i hi other hother _
    rw [List.getElem?_append_left (by simpa using hi)] at hother
    obtain ⟨marked, hmem, rfl⟩ :=
      List.mem_map.mp
        (show other ∈ (line :: front).map Line.unquoted from List.mem_of_getElem? hother)
    have hwidth := width_unquoted (hmarked marked hmem)
    simpa [Line.isOutside] using hwidth
  have hlower := htakes (Nat.le_refl _) (by simp) hall hinner
  -- and it is not longer, because an empty line follows
  have hupper : inner.used ≤ front.length + 1 + (rest.takeWhile Line.isEmpty).length := by
    rcases hstays hcontent hinner with hused | hdeep
    · rw [reach, List.cons_append, List.drop_succ_cons, List.drop_left' hlength] at hused
      exact hused
    · simp only [Block.levelsAll, Block.levels, Nat.max_zero] at hlevels
      push_cast at hlevels hdeep
      omega
  rw [hrest.gap_le] at hupper
  dsimp only
  split at hupper
  · exact .inl (by omega)
  · next hne =>
      rcases Nat.eq_or_lt_of_le hlower with heq | hlt
      · exact .inl heq.symm
      · exact .inr ⟨by omega, hne⟩

/-- **A quote is read back.** -/
theorem readsLike_quote (hstays : StaysWithin limit read) (htakes : TakesInside read)
    {text : String} {children : List Block} (h : QuoteText text.toList) (ended : Bool)
    (hrest : Behind (.quote text children) rest) :
    ReadsLike limit read (.quote text children)
      (sourceLines ended (splitNewlines text.toList)) rest := by
  have hmarked :
      ∀ line ∈ sourceLines ended (splitNewlines text.toList), opensQuote line = true := by
    intro line hline
    obtain ⟨part, hpart, lineEnded, rfl⟩ := mem_sourceLines hline
    exact h.marked part hpart
  have hinside : ∀ line ∈ sourceLines ended (splitNewlines text.toList),
      line.isOutside 0 = false := by
    intro line hline
    obtain ⟨part, -, lineEnded, rfl⟩ := mem_sourceLines hline
    simp [Line.isOutside, Line.ofSource]
  have hsingle := @single_sourceLines text.toList ended
  obtain ⟨first, more, hsplit⟩ := List.exists_cons_of_ne_nil (splitNewlines_ne_nil text.toList)
  obtain ⟨firstEnded, hlines⟩ := sourceLines_cons ended first more
  have hfirst : first.head? = some '>' := h.flush first (by rw [hsplit]; rfl)
  have hline : (Line.ofSource firstEnded first).width = 0 := by
    rw [ofSource_flush firstEnded fun c hc => by
      rw [hfirst] at hc
      obtain rfl := Option.some.inj hc
      decide]
  rw [hsplit, hlines] at hmarked hinside hsingle ⊢
  generalize Line.ofSource firstEnded first = line at *
  generalize sourceLines ended more = front at *
  have hquote : opensQuote line = true := hmarked line List.mem_cons_self
  have hcode : line.isCode ({} : Surroundings).indent = false := by simp [Line.isCode, hline]
  have hfence : fence? line.body = none := by
    obtain ⟨body, hbody⟩ := List.head?_eq_some_iff.mp (beq_iff_eq.mp hquote)
    simp [hbody, fence?, backtick]
  refine ⟨line, front, rfl, isEmpty_of_opensQuote hquote, hline, fun found hfound hlevels => ?_⟩
  unfold readBlock at hfound
  simp only [hcode, hfence, hquote, Bool.false_eq_true, if_false, if_true] at hfound
  obtain ⟨⟨source, inner, hblocks⟩, hused⟩ := readQuote_exact hstays htakes hmarked
    (fun other hm => hinside other (List.mem_cons_of_mem line hm)) hsingle hrest hfound hlevels
  exact ⟨⟨_, hblocks, trivial⟩, hused⟩

/-! ## Items -/

/-- The lines of an item with this kind of marker: the marker stands on the first one with nothing
in front of it, and the others are empty or indented as the content is.  Where there is no content
on the first line, the second one is not empty. -/
structure ItemLines (kind : ListKind) (sign : Char) (line : Line) (front : List Line)
    (marker : Marker) : Prop where
  flush : line.width = 0
  marked : marker? line.body = some marker
  same : marker.kind = kind ∧ marker.sign = sign
  unbroken : thematicBreak? line.body = none
  inside : ∀ other ∈ front, other.isEmpty = false →
    other.isOutside (itemContent line marker).2 = false
  opening : (itemContent line marker).1.isEmpty = true →
    ∀ other ∈ front.head?, other.isEmpty = false

/-- What stands behind an item: nothing, another item, or something else behind an empty line.  The
number is that of the empty lines in between. -/
inductive EndsItem : List Line → Nat → Prop
  | nothing : EndsItem [] 0
  | item {next : Line} {more : List Line} (hflush : next.width = 0)
      (hmarker : (marker? next.body).isSome = true) : EndsItem (next :: more) 0
  | other {next : Line} {more : List Line} (hvisible : next.isEmpty = false)
      (hflush : next.width = 0) : EndsItem (emptyLine :: next :: more) 1

/-- A marker has a size. -/
theorem marker?_size_pos {body : List Char} {marker : Marker} (h : marker? body = some marker) :
    0 < marker.size := by
  unfold marker? at h
  rcases Option.or_eq_some_iff.mp h with h | ⟨-, h⟩
  · unfold orderedMarker? at h
    dsimp only at h
    split at h
    · split at h
      · obtain rfl := Option.some.inj h
        exact Nat.succ_pos _
      · cases h
    · cases h
  · unfold bulletMarker? at h
    split at h
    · split at h
      · obtain rfl := Option.some.inj h
        exact Nat.one_pos
      · cases h
    · cases h

theorem standsOutside_of_flush {line : Line} (hvisible : line.isEmpty = false)
    (hflush : line.width = 0) {indent : Nat} (hindent : 0 < indent) :
    line.StandsOutside indent := by
  refine ⟨hvisible, ?_, ?_, ?_⟩ <;> omega

section Item

variable {line : Line} {front : List Line} {marker : Marker} {gap : Nat}

/-- The content of an item ends where the item does. -/
theorem EndsItem.border (h : EndsItem rest gap) (hmarker : marker? line.body = some marker)
    (hsingle : ∀ other ∈ line :: (front ++ rest), other.IsSingle) {inside : Surroundings}
    (hindent : 0 < inside.indent) :
    Border inside ((itemContent line marker).1 :: (front ++ rest)) ((front ++ rest).length + 1)
      (front.length + 1 + gap) := by
  obtain ⟨hline, hothers⟩ := List.forall_mem_cons.mp hsingle
  have hall : ∀ other ∈ (itemContent line marker).1 :: (front ++ rest), other.IsSingle :=
    List.forall_mem_cons.mpr ⟨single_itemContent hline hmarker, hothers⟩
  cases h with
  | nothing =>
      have hborder := @border_all inside _ hall
      simpa using hborder
  | @item next more hflush hnext =>
      obtain ⟨other, hother⟩ := Option.isSome_iff_exists.mp hnext
      have houtside := standsOutside_of_flush (isEmpty_of_marker hother) hflush hindent
      have hget : ((itemContent line marker).1 :: (front ++ next :: more))[front.length + 1 + 0]?
          = some next := by simp
      refine ⟨by simp, fun _ => ⟨next, hget, houtside⟩, .inr fun found hfound => ?_, hall⟩
      obtain rfl : next = found := Option.some.inj (hget.symm.trans hfound)
      exact .inr (.inr ⟨by simp, hnext⟩)
  | @other next more hvisible hflush =>
      have houtside := standsOutside_of_flush hvisible hflush hindent
      have hget : ((itemContent line marker).1 :: (front ++ emptyLine :: next :: more))[
          front.length + 1 + 1]? = some next := by simp
      have hempty : ((itemContent line marker).1 :: (front ++ emptyLine :: next :: more))[
          front.length + 1 + 1 - 1]? = some emptyLine := by simp
      exact ⟨by simp, fun _ => ⟨next, hget, houtside⟩,
        .inr fun found _ => .inr (.inl ⟨emptyLine, hempty, isEmpty_emptyLine⟩), hall⟩

/-- No more empty lines stand behind an item. -/
theorem EndsItem.reach_eq (h : EndsItem rest gap) (first : Line) :
    reach (first :: (front ++ rest)) (front.length + 1 + gap) = front.length + 1 + gap := by
  rw [← List.cons_append, reach]
  cases h with
  | nothing => simp
  | item _ hmarked =>
      obtain ⟨other, hother⟩ := Option.isSome_iff_exists.mp hmarked
      rw [List.drop_left' (by simp),
        List.takeWhile_cons_of_neg (by simp [isEmpty_of_marker hother])]
      rfl
  | other hvisible =>
      rw [← List.drop_drop, List.drop_left' (by simp), List.drop_succ_cons, List.drop_zero,
        List.takeWhile_cons_of_neg (by simp [hvisible])]
      rfl

/-- The lines of an item are inside it, and so is an empty line behind them. -/
theorem EndsItem.insideUpTo (h : EndsItem rest gap) {first : Line} {indent : Nat}
    (hfirst : first.isEmpty = false → first.isOutside indent = false)
    (hinside : ∀ other ∈ front, other.isEmpty = false → other.isOutside indent = false) :
    InsideUpTo indent (first :: (front ++ rest)) (front.length + 1 + gap) := by
  intro i hi other hother hvisible
  cases i with
  | zero =>
      obtain rfl : first = other := Option.some.inj hother
      exact hfirst hvisible
  | succ i =>
      have hother : (front ++ rest)[i]? = some other := hother
      rcases Nat.lt_or_ge i front.length with hlt | hge
      · rw [List.getElem?_append_left hlt] at hother
        exact hinside other (List.mem_of_getElem? hother) hvisible
      · rw [List.getElem?_append_right hge] at hother
        cases h with
        | nothing => omega
        | item => omega
        | other =>
            obtain rfl : i = front.length := by omega
            rw [Nat.sub_self] at hother
            obtain rfl : emptyLine = other := Option.some.inj hother
            cases hvisible

/-- **An item takes its lines**, and the empty line behind them. -/
theorem readItem_exact (hstays : StaysWithin limit read) (htakes : TakesInside read)
    {kind : ListKind} {sign : Char} (hlines : ItemLines kind sign line front marker)
    (hsingle : ∀ other ∈ line :: (front ++ rest), other.IsSingle) (hrest : EndsItem rest gap)
    {found : Found}
    (hfound : readItem read {} line marker (front ++ rest) ((front ++ rest).length + 1) = .ok found)
    (hlevels : ((Block.levelsAll found.blocks + 2 : Nat) : Int) < limit) :
    found.used = front.length + 1 + gap := by
  rcases readItem_ok hfound with ⟨hempty, hnext, rfl⟩ | hcontent
  · -- without content on its first line the item has no other lines
    cases front with
    | cons next front =>
        have hvisible := hlines.opening hempty next rfl
        simp [hvisible] at hnext
    | nil =>
        cases hrest with
        | nothing => rfl
        | item hflush hmarked =>
            obtain ⟨other, hother⟩ := Option.isSome_iff_exists.mp hmarked
            simp [isEmpty_of_marker hother] at hnext
        | other => simp
  · have hindent : 0 < (itemContent line marker).2 := by
      have hsize := marker?_size_pos hlines.marked
      show 0 < line.width.toNat + marker.size + _
      omega
    have hborder := @EndsItem.border rest line front marker gap hrest hlines.marked hsingle {
      indent := (itemContent line marker).2
      listIndent := some ({} : Surroundings).indent
      level := ({} : Surroundings).level + 2 } hindent
    have hlower := htakes hborder.le
      (by rw [List.length_cons]; exact hborder.le)
      (hrest.insideUpTo (inside_itemContent line marker) hlines.inside) hcontent
    rcases hstays hborder hcontent with hused | hdeep
    · rw [hrest.reach_eq] at hused
      exact Nat.le_antisymm hused hlower
    · push_cast at hlevels hdeep
      omega

/-- A marker opens with a digit or a bullet. -/
theorem marker?_head {body : List Char} (h : marker? body = some marker) :
    ∃ c cs, body = c :: cs ∧ (c.isDigit = true ∨ c = '*' ∨ c = '-' ∨ c = '+') := by
  unfold marker? at h
  rcases Option.or_eq_some_iff.mp h with h | ⟨-, h⟩
  · unfold orderedMarker? at h
    dsimp only at h
    split at h
    · split at h
      · next hplace =>
          simp only [Bool.and_eq_true, decide_eq_true_eq] at hplace
          cases body with
          | nil => simp at hplace
          | cons c cs =>
              refine ⟨c, cs, rfl, .inl ?_⟩
              by_contra hdigit
              rw [List.takeWhile_cons_of_neg hdigit] at hplace
              simp at hplace
      · cases h
    · cases h
  · unfold bulletMarker? at h
    split at h
    · split at h
      · next hplace =>
          simp only [Bool.and_eq_true, Bool.or_eq_true, beq_iff_eq] at hplace
          refine ⟨_, _, rfl, .inr ?_⟩
          tauto
      · cases h
    · cases h

/-- What opens with another character opens no item. -/
theorem marker?_of_head {c : Char} (hdigit : c.isDigit = false)
    (hbullet : c ≠ '*' ∧ c ≠ '-' ∧ c ≠ '+') (cs : List Char) : marker? (c :: cs) = none := by
  by_contra hsome
  obtain ⟨marker, hmarker⟩ := Option.ne_none_iff_exists'.mp hsome
  obtain ⟨d, ds, hcons, hd⟩ := marker?_head hmarker
  obtain ⟨rfl, -⟩ := List.cons.inj hcons
  rcases hd with hd | hd
  · rw [hdigit] at hd
    cases hd
  · tauto

/-- What a marker opens with opens nothing else but a thematic break. -/
theorem marker?_unfenced {body : List Char} (h : marker? body = some marker) :
    fence? body = none ∧ body.head? ≠ some '>' := by
  obtain ⟨c, cs, rfl, -⟩ := marker?_head h
  have hne (d : Char) (hdigit : d.isDigit = false) (hbullet : d ≠ '*' ∧ d ≠ '-' ∧ d ≠ '+') :
      c ≠ d := by
    rintro rfl
    rw [marker?_of_head hdigit hbullet] at h
    cases h
  constructor
  · simp [fence?, hne backtick rfl (by decide), hne '~' rfl (by decide)]
  · simpa using hne '>' rfl (by decide)

/-- The first line of an item goes on with the list before it. -/
theorem ItemLines.nextMarker? {kind : ListKind} {sign : Char}
    (h : ItemLines kind sign line front marker) :
    Markdown.nextMarker? {} kind sign line = some marker := by
  obtain ⟨hfence, hquote⟩ := marker?_unfenced h.marked
  have hcode : line.isCode ({} : Surroundings).indent = false := by
    simp [Line.isCode, h.flush]
  have hinside : line.isOutside ({} : Surroundings).indent = false := by
    simp [Line.isOutside, h.flush]
  have hinterrupts : interrupts {} .list line = false := by
    simp [interrupts, hcode, hfence, opensQuote, hquote, h.unbroken]
  simp [Markdown.nextMarker?, hcode, hinside, hinterrupts, h.marked, h.same]

end Item

/-! ## Lists -/

/-- Parts that are read as an item, whether or not a newline ends the last of them. -/
def ItemText (kind : ListKind) (sign : Char) (parts : List (List Char)) : Prop :=
  ∀ ended, ∃ line front marker, sourceLines ended parts = line :: front
    ∧ ItemLines kind sign line front marker

/-- A list that is read from the lines of its items. -/
structure ListText (l : ListBlock) : Prop where
  ne_nil : l.items ≠ []
  items : ∃ sign, l.marker = String.singleton sign
    ∧ ∀ item ∈ l.items, ItemText l.kind sign (splitNewlines item.text.toList)

/-- Behind the last item of a list stands what stands behind the list. -/
theorem Behind.endsItem (h : Behind block rest) : EndsItem rest (if rest = [] then 0 else 1) := by
  cases h with
  | nothing => exact .nothing
  | other hvisible hflush => exact .other hvisible hflush

section List

variable {kind : ListKind} {sign : Char}

theorem ItemText.ne_nil {parts : List (List Char)} (h : ItemText kind sign parts) : parts ≠ [] := by
  rintro rfl
  obtain ⟨line, front, marker, hlines, -⟩ := h true
  cases hlines

/-- The lines of the first item, and those of the others. -/
theorem exists_sourceLines_flatten {parts : List (List Char)} {texts : List (List (List Char))}
    (htexts : ∀ other ∈ texts, ItemText kind sign other) (ended : Bool) :
    ∃ firstEnded, sourceLines ended (parts :: texts).flatten
      = sourceLines firstEnded parts ++ sourceLines ended texts.flatten := by
  cases texts with
  | nil => exact ⟨ended, by simp [sourceLines]⟩
  | cons next texts =>
      refine ⟨true, ?_⟩
      have hne : (next :: texts).flatten ≠ [] := by
        have hnext := (htexts next List.mem_cons_self).ne_nil
        simp [hnext]
      rw [List.flatten_cons, sourceLines_append ended parts hne, sourceLines_true]

/-- Items open with the lines of the first one. -/
theorem exists_first_item {parts : List (List Char)} {texts : List (List (List Char))}
    (htexts : ∀ other ∈ parts :: texts, ItemText kind sign other) (ended : Bool) :
    ∃ line front marker, sourceLines ended (parts :: texts).flatten
        = line :: (front ++ sourceLines ended texts.flatten)
      ∧ ItemLines kind sign line front marker := by
  obtain ⟨firstEnded, hflatten⟩ := @exists_sourceLines_flatten kind sign parts texts
    (fun other hm => htexts other (List.mem_cons_of_mem parts hm)) ended
  obtain ⟨line, front, marker, hfirst, hitem⟩ := htexts parts List.mem_cons_self firstEnded
  exact ⟨line, front, marker, by rw [hflatten, hfirst, List.cons_append], hitem⟩

theorem single_flatten {texts : List (List (List Char))}
    (hsingle : ∀ parts ∈ texts, ∀ part ∈ parts, '\n' ∉ part) (ended : Bool) :
    ∀ line ∈ sourceLines ended texts.flatten, line.IsSingle := by
  intro line hline
  obtain ⟨part, hpart, lineEnded, rfl⟩ := mem_sourceLines hline
  obtain ⟨parts, hparts, hpart⟩ := List.mem_flatten.mp hpart
  exact single_ofSource (hsingle parts hparts part hpart) lineEnded

/-- What is in one item of a list lies less deep than the list. -/
theorem levelsAll_children_lt {item : ListItem} {items : List ListItem} (hmem : item ∈ items)
    (hlevels : ((ListItem.levelsAll items + 2 : Nat) : Int) < limit) :
    ((Block.levelsAll item.children + 2 : Nat) : Int) < limit := by
  have hle := ListItem.levels_le hmem
  cases item
  rw [ListItem.levels] at hle
  push_cast at hlevels ⊢
  omega

/-- The last item of a list takes its lines, and the empty line behind them. -/
theorem readItems_last (hstays : StaysWithin limit read) (htakes : TakesInside read) {line : Line}
    {front : List Line} {marker : Marker} (hitem : ItemLines kind sign line front marker)
    (hsingle : ∀ other ∈ line :: (front ++ rest), other.IsSingle) (hrest : Behind block rest)
    (hapart : ∀ next ∈ rest.tail.head?, nextMarker? {} kind sign next = none) {bound : Nat}
    {items : List ListItem} {used : Nat}
    (hitems : readItems read {} (bound + 1) marker (line :: (front ++ rest))
      ((front ++ rest).length + 1) = .ok (items, used))
    (hlevels : ((ListItem.levelsAll items + 2 : Nat) : Int) < limit) :
    used = front.length + 1 + if rest = [] then 0 else 1 := by
  obtain ⟨found, item, hfound, rfl, ⟨rfl, rfl, -⟩
    | ⟨next, behind, other, more, usedMore, -, hdrop, hother, -, rfl, -⟩⟩ := readItems_ok hitems
  · exact readItem_exact hstays htakes hitem hsingle hrest.endsItem hfound
      (levelsAll_children_lt List.mem_cons_self hlevels)
  · -- behind the last item no marker goes on with the list
    have hused := readItem_exact hstays htakes hitem hsingle hrest.endsItem hfound
      (levelsAll_children_lt List.mem_cons_self hlevels)
    have htail : rest.tail = next :: behind := by
      rw [← hrest.drop_eq (line :: front), List.length_cons, ← hused, ← hdrop]
      rfl
    have hnone := hapart next (by rw [htail]; rfl)
    rw [hitem.same.1, hitem.same.2, hnone] at hother
    cases hother

/-- An item with another one behind it takes its own lines, and the other goes on with the list. -/
theorem readItems_next (hstays : StaysWithin limit read) (htakes : TakesInside read)
    {line next : Line} {front nextFront behind : List Line} {marker nextMarker : Marker}
    (hitem : ItemLines kind sign line front marker)
    (hnext : ItemLines kind sign next nextFront nextMarker)
    (hsingle : ∀ other ∈ line :: (front ++ next :: behind), other.IsSingle) {bound : Nat}
    {items : List ListItem} {used : Nat}
    (hitems : readItems read {} (bound + 1) marker (line :: (front ++ next :: behind))
      ((front ++ next :: behind).length + 1) = .ok (items, used))
    (hlevels : ((ListItem.levelsAll items + 2 : Nat) : Int) < limit) :
    ∃ more usedMore, readItems read {} bound nextMarker (next :: behind) (behind.length + 1)
        = .ok (more, usedMore)
      ∧ ((ListItem.levelsAll more + 2 : Nat) : Int) < limit
      ∧ used = front.length + 1 + usedMore := by
  obtain ⟨found, item, hfound, hread, hcases⟩ := readItems_ok hitems
  have hmem : item ∈ items := by
    rcases hcases with ⟨rfl, -⟩ | ⟨_, _, _, _, _, _, _, _, _, rfl, -⟩ <;> exact List.mem_cons_self
  have hchildren := levelsAll_children_lt hmem hlevels
  rw [hread] at hchildren
  have hends : EndsItem (next :: behind) 0 := .item hnext.flush (by rw [hnext.marked]; rfl)
  have hused : found.used = front.length + 1 := readItem_exact hstays htakes hitem hsingle hends
    hfound hchildren
  have hdrop : (line :: (front ++ next :: behind)).drop found.used = next :: behind := by
    rw [hused, ← List.cons_append, List.drop_left' List.length_cons]
  rcases hcases with
    ⟨-, -, hnone⟩ | ⟨_, _, other, more, usedMore, -, hdrop', hother, hmore, rfl, rfl⟩
  · -- the marker of the other item goes on with the list
    have hlt : found.used < (front ++ next :: behind).length + 1 := by simp [hused]
    rw [if_pos hlt, hdrop, hitem.same.1, hitem.same.2] at hnone
    simp [hnext.nextMarker?] at hnone
  · obtain ⟨rfl, rfl⟩ := List.cons.inj (hdrop.symm.trans hdrop')
    rw [hitem.same.1, hitem.same.2, hnext.nextMarker?] at hother
    obtain rfl := Option.some.inj hother
    have hleft : (front ++ next :: behind).length + 1 - found.used = behind.length + 1 := by
      simp [hused]
    rw [hleft] at hmore
    rw [ListItem.levelsAll] at hlevels
    refine ⟨more, usedMore, hmore, ?_, by rw [hused]⟩
    push_cast at hlevels ⊢
    omega

/-- **A list takes the lines of its items**, and the empty line behind them. -/
theorem readItems_exact (hstays : StaysWithin limit read) (htakes : TakesInside read)
    {texts : List (List (List Char))} (hne : texts ≠ [])
    (htexts : ∀ parts ∈ texts, ItemText kind sign parts)
    (hsingle : ∀ parts ∈ texts, ∀ part ∈ parts, '\n' ∉ part) (ended : Bool)
    (hrest : Behind block rest)
    (hapart : ∀ next ∈ rest.tail.head?, nextMarker? {} kind sign next = none)
    {bound : Nat} (hbound : texts.length ≤ bound) {line : Line} {following : List Line}
    {marker : Marker} (hlines : sourceLines ended texts.flatten ++ rest = line :: following)
    (hmarker : nextMarker? {} kind sign line = some marker) {items : List ListItem} {used : Nat}
    (hitems : readItems read {} bound marker (line :: following) (following.length + 1)
      = .ok (items, used))
    (hlevels : ((ListItem.levelsAll items + 2 : Nat) : Int) < limit) :
    used = (sourceLines ended texts.flatten).length + if rest = [] then 0 else 1 := by
  induction texts generalizing bound line following marker items used with
  | nil => exact absurd rfl hne
  | cons parts texts ih =>
      have hothers : ∀ other ∈ texts, ItemText kind sign other :=
        fun other hm => htexts other (List.mem_cons_of_mem parts hm)
      have hsingles := single_flatten hsingle ended
      obtain ⟨first, front, firstMarker, hfirst, hitem⟩ := exists_first_item htexts ended
      rw [hfirst] at hlines hsingles ⊢
      have hall : ∀ other ∈ first :: (front ++ (sourceLines ended texts.flatten ++ rest)),
          other.IsSingle := by
        rw [← List.append_assoc, ← List.cons_append]
        exact List.forall_mem_append.mpr ⟨hsingles, hrest.single⟩
      rw [List.cons_append, List.append_assoc] at hlines
      obtain ⟨rfl, rfl⟩ := List.cons.inj hlines
      obtain rfl : firstMarker = marker := Option.some.inj (hitem.nextMarker?.symm.trans hmarker)
      obtain ⟨bound, rfl⟩ : ∃ b, bound = b + 1 := ⟨bound - 1, by simp at hbound; omega⟩
      cases texts with
      | nil =>
          rw [readItems_last hstays htakes hitem hall hrest hapart hitems hlevels]
          simp [sourceLines]
      | cons next texts =>
          obtain ⟨nextLine, nextFront, nextMarker, hnext, hnextitem⟩ :=
            exists_first_item hothers ended
          have hbehind : sourceLines ended (next :: texts).flatten ++ rest
              = nextLine :: ((nextFront ++ sourceLines ended texts.flatten) ++ rest) := by
            rw [hnext, List.cons_append]
          rw [hbehind] at hall hitems
          obtain ⟨more, usedMore, hmore, hmorelevels, rfl⟩ :=
            readItems_next hstays htakes hitem hnextitem hall hitems hlevels
          rw [ih (by simp) hothers (fun other hm => hsingle other (List.mem_cons_of_mem parts hm))
            (by simpa using hbound) hbehind hnextitem.nextMarker? hmore hmorelevels]
          simp only [List.length_append, List.length_cons]
          omega

/-- There are as many lines as items at least. -/
theorem length_le_flatten {texts : List (List (List Char))}
    (htexts : ∀ parts ∈ texts, ItemText kind sign parts) : texts.length ≤ texts.flatten.length := by
  induction texts with
  | nil => exact Nat.le_refl 0
  | cons parts texts ih =>
      have hparts := List.length_pos_iff.mpr (htexts parts List.mem_cons_self).ne_nil
      have hothers := ih fun other hm => htexts other (List.mem_cons_of_mem parts hm)
      rw [List.flatten_cons, List.length_append, List.length_cons]
      omega

end List

/-- The source of a list is cut into the lines of its items. -/
theorem splitNewlines_text {l : ListBlock} (h : l.items ≠ []) :
    splitNewlines l.text.toList
      = (l.items.map fun item => splitNewlines item.text.toList).flatten := by
  have htexts : (l.items.map ListItem.text).map String.toList ≠ [] := by simpa using h
  have htext : l.text.toList = joinNewlines ((l.items.map ListItem.text).map String.toList) := by
    rw [ListBlock.text, joined, String.toList_ofList]
    rfl
  rw [htext, splitNewlines_joinNewlines_texts htexts, List.map_map, List.flatMap_map]
  rfl

/-- A list opens with its first item. -/
theorem ListText.exists_first {l : ListBlock} (h : ListText l) (ended : Bool) :
    ∃ sign line front behind marker, l.marker = String.singleton sign
      ∧ sourceLines ended (splitNewlines l.text.toList) = line :: (front ++ behind)
      ∧ ItemLines l.kind sign line front marker := by
  obtain ⟨sign, hsign, hitems⟩ := h.items
  obtain ⟨item, others, hl⟩ := List.exists_cons_of_ne_nil h.ne_nil
  have htexts : ∀ parts ∈ (item :: others).map fun item => splitNewlines item.text.toList,
      ItemText l.kind sign parts := by
    rw [← hl]
    exact List.forall_mem_map.mpr hitems
  obtain ⟨line, front, marker, hlines, hitem⟩ := exists_first_item htexts ended
  have htext : splitNewlines l.text.toList
      = ((item :: others).map fun item => splitNewlines item.text.toList).flatten := by
    rw [splitNewlines_text h.ne_nil, hl]
  exact ⟨sign, line, front, _, marker, hsign, (congrArg (sourceLines ended) htext).trans hlines,
    hitem⟩

/-- **A list is read back**, as one of the same kind. -/
theorem readsLike_list (hstays : StaysWithin limit read) (htakes : TakesInside read) {l : ListBlock}
    (h : ListText l) (ended : Bool) (hrest : Behind (.list l) rest) :
    ReadsLike limit read (.list l) (sourceLines ended (splitNewlines l.text.toList)) rest := by
  obtain ⟨sign, hsign, hitems⟩ := h.items
  have hapart : ∀ next ∈ rest.tail.head?, nextMarker? {} l.kind sign next = none := by
    cases hrest with
    | nothing => exact fun next hnext => nomatch hnext
    | other _ _ _ hapart =>
        rintro next ⟨⟩
        exact hapart l sign rfl hsign
  obtain ⟨_, line, front, behind, marker, hsame, hlines, hitem⟩ := h.exists_first ended
  obtain rfl : sign = _ := by simpa [hsign] using hsame
  obtain ⟨hfence, hquote⟩ := marker?_unfenced hitem.marked
  have hcode : line.isCode ({} : Surroundings).indent = false := by simp [Line.isCode, hitem.flush]
  have hopens : itemMarker? {} line = some marker := by
    simp [itemMarker?, isStrayItem, hcode, hitem.marked]
  have hquoted : opensQuote line = false := by simp [opensQuote, hquote]
  refine ⟨line, _, hlines, isEmpty_of_marker hitem.marked, hitem.flush,
    fun found hfound hlevels => ?_⟩
  unfold readBlock at hfound
  simp only [hcode, hfence, hquoted, hitem.unbroken, hopens, Bool.false_eq_true, if_false] at hfound
  obtain ⟨items, used, hread, rfl⟩ := readList_ok hfound
  rw [splitNewlines_text h.ne_nil] at hlines ⊢
  have htexts : ∀ parts ∈ l.items.map (fun item => splitNewlines item.text.toList),
      ItemText l.kind sign parts := List.forall_mem_map.mpr hitems
  have hsingle : ∀ parts ∈ l.items.map (fun item => splitNewlines item.text.toList),
      ∀ part ∈ parts, '\n' ∉ part := by
    intro parts hparts part hpart
    obtain ⟨item, -, rfl⟩ := List.mem_map.mp hparts
    exact notMem_splitNewlines hpart
  have hne : l.items.map (fun item => splitNewlines item.text.toList) ≠ [] := by
    simpa using h.ne_nil
  have hbound : (l.items.map fun item => splitNewlines item.text.toList).length
      ≤ ((front ++ behind) ++ rest).length + 1 := by
    have hle := length_le_flatten htexts
    rw [← length_sourceLines ended, hlines] at hle
    simp only [List.length_cons, List.length_append] at hle ⊢
    omega
  have hused := readItems_exact hstays htakes hne htexts hsingle ended hrest hapart hbound
    (by rw [hlines, List.cons_append]) hitem.nextMarker? hread
    (by simpa [Block.levelsAll, Block.levels, ListBlock.levels] using hlevels)
  refine ⟨⟨_, rfl, hitem.same.1.symm⟩, ?_⟩
  dsimp only
  split at hused
  · exact .inl (by rw [hused]; rfl)
  · next hbehind => exact .inr ⟨hused, hbehind⟩

end DocComment.Markdown
