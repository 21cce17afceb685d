import DocComment.Proofs.Outline
import DocComment.Proofs.ReadSteps
import Mathlib

/-!
# Reading outlines

`readsAs_outline` is the statement about the reader: laid out at any indentation, an outline is read
as its blocks, up to whatever follows it outside of that indentation.  It goes by induction on how
deep the outline is nested, and at each depth on the number of its entries; a run of items is one
list, so it is taken off the front as a whole (`readsAs_run`).  `read_outline` is the case of a
whole text.
-/

namespace DocComment.Markdown

open Text Markup

/-! ## What stands behind an outline -/

/-- A line with a bullet and text behind it. -/
def OpensBullet (line : Line) : Prop :=
  ∃ c cs, line.body = '-' :: ' ' :: c :: cs ∧ c.isAlpha = true

/-- Whether an outline at the indentation is over, an empty line or more behind it, before the given
lines: the first of them has text further left.  Without an empty line before it, it has to be a
bullet, since other text would continue a paragraph. -/
def Closes (indent gap : Nat) (lines : List Line) : Prop :=
  ∀ line ∈ lines.head?, line.body ≠ [] ∧ 0 ≤ line.width ∧ line.width < indent
    ∧ (gap = 0 → OpensBullet line)

theorem Closes.mono {indent deeper gap : Nat} {lines : List Line} (h : Closes indent gap lines)
    (hle : indent ≤ deeper) : Closes deeper gap lines := by
  intro line hline
  obtain ⟨hbody, hnonneg, hwidth, hbullet⟩ := h line hline
  exact ⟨hbody, hnonneg, by omega, hbullet⟩

/-- Surroundings whose list, if there is one, is not much further left than the content. -/
def Surroundings.Regular (around : Surroundings) : Prop :=
  ∀ listIndent ∈ around.listIndent, around.indent ≤ listIndent + 4

theorem itemMarker?_bullet {around : Surroundings} (hregular : around.Regular) {line : Line}
    {c : Char} {cs : List Char} (hbody : line.body = '-' :: ' ' :: c :: cs) (hc : c.isAlpha = true)
    (hwidth : line.width ≤ around.indent) : itemMarker? around line = some (hyphen (c :: cs)) := by
  have hcode : line.isCode around.indent = false := by
    simp [Line.isCode]
    omega
  have hstray : isStrayItem around line = false := by
    unfold isStrayItem
    split
    · next listIndent hlist =>
        have hle := hregular listIndent hlist
        simp [Line.isOutside]
        omega
    · rfl
  rw [itemMarker?, hcode, hstray, hbody, (opens_item hc cs).2.2.2]
  rfl

/-- A bullet ends a paragraph, inside its container as well as further left. -/
theorem endsParagraph_bullet {around : Surroundings} (hregular : around.Regular) {line : Line}
    (hbullet : OpensBullet line) (hnonneg : 0 ≤ line.width) (hwidth : line.width ≤ around.indent)
    (lines : List Line) : EndsParagraph around (line :: lines) := by
  rintro _ ⟨⟩
  obtain ⟨c, cs, hbody, hc⟩ := hbullet
  have hmarker := itemMarker?_bullet hregular hbody hc hwidth
  have hcode : line.isCode around.indent = false := by
    simp [Line.isCode]
    omega
  have hneg : ¬line.width < 0 := by omega
  have hvisible := isIndent_of_isBlank (isBlank_of_isAlpha hc)
  constructor
  · simp [continuesParagraph, interrupts, opensItem, hcode, hneg, hmarker,
      Marker.interruptsParagraph, hyphen, hvisible]
  · rw [underlineLevel?, hbody, (opens_item hc cs).2.2.1]
    simp

/-- A paragraph ends before lines that close its container. -/
theorem endsParagraph_closes {around : Surroundings} (hregular : around.Regular) {gap : Nat}
    {lines : List Line} (hcloses : Closes around.indent gap lines) :
    EndsParagraph around (List.replicate gap emptyLine ++ lines) := by
  cases gap with
  | succ gap => exact endsParagraph_empty around _
  | zero =>
      cases lines with
      | nil => simp [EndsParagraph]
      | cons line lines =>
          obtain ⟨-, hnonneg, hwidth, hbullet⟩ := hcloses line rfl
          exact endsParagraph_bullet hregular (hbullet rfl) hnonneg (by omega) lines

/-- Empty lines in front are counted and change nothing else. -/
theorem readsAs_gap {limit : Int} {read : ContentReader} {around : Surroundings} (gap : Nat)
    {lines : List Line} {found : Found} (h : ReadsAs limit read around lines found) :
    ReadsAs limit read around (List.replicate gap emptyLine ++ lines)
      { found with used := found.used + gap } := by
  induction gap with
  | zero => exact h
  | succ gap ih => exact readsAs_empty (show emptyLine.isEmpty = true from rfl) ih

/-- Reading ends before lines that close the container. -/
theorem readsAs_closed {limit : Int} {read : ContentReader} {around : Surroundings} {gap : Nat}
    {lines : List Line} (hcloses : Closes around.indent gap lines) :
    ReadsAs limit read around lines { blocks := [], used := 0 } := by
  cases lines with
  | nil => exact readsAs_nil
  | cons line lines =>
      obtain ⟨hbody, -, hwidth, -⟩ := hcloses line rfl
      exact readsAs_outside (by simpa [Line.isEmpty] using hbody)
        (by simpa [Line.isOutside] using hwidth) lines

/-! ## Reading an outline -/

/-- The lines of an outline at an indentation. -/
def Entry.placed (indent : Nat) (es : List Entry) : List Line :=
  (Entry.layout es).map (lineAt indent)

/-- The lines of an item at an indentation. -/
def Bullet.placed (indent : Nat) (bullet : Bullet) : List Line :=
  bullet.lines.map (lineAt indent)

theorem lineAt_padLine (outer inner : Nat) (line : List Char) :
    lineAt outer (padLine inner line) = lineAt (outer + inner) line := by
  rw [lineAt, padLine_padLine, lineAt]

theorem Bullet.placed_eq (indent : Nat) (bullet : Bullet) :
    bullet.placed indent
      = lineAt indent ('-' :: ' ' :: bullet.head) :: Entry.placed (indent + 2) bullet.inner := by
  rw [Bullet.placed, Bullet.lines_eq, List.map_cons, List.map_map]
  simp [Entry.placed, Function.comp_def, lineAt_padLine]

theorem Entry.placed_paragraph (indent gap : Nat) (text : List (List Char)) (es : List Entry) :
    Entry.placed indent (.paragraph gap text :: es)
      = List.replicate gap emptyLine
        ++ (text.map (lineAt indent) ++ Entry.placed indent es) := by
  simp [Entry.placed, Entry.layout_cons, Entry.lines, lineAt_nil, emptyLine]

theorem Entry.placed_item (indent gap : Nat) (bullet : Bullet) (es : List Entry) :
    Entry.placed indent (.item gap bullet :: es)
      = List.replicate gap emptyLine ++ (bullet.placed indent ++ Entry.placed indent es) := by
  simp [Entry.placed, Bullet.placed, Entry.layout_cons, Entry.lines, lineAt_nil, emptyLine]

theorem Entry.placed_append (indent : Nat) (es more : List Entry) :
    Entry.placed indent (es ++ more) = Entry.placed indent es ++ Entry.placed indent more := by
  rw [Entry.placed, Entry.layout_append, List.map_append, Entry.placed, Entry.placed]

theorem lineAt_prose {cs : List Char} (h : Prose cs) (indent : Nat) :
    (lineAt indent cs).body = cs ∧ (lineAt indent cs).StartsAt indent := by
  obtain ⟨c, rest, rfl, hc⟩ := h.head
  have hblank := isBlank_of_isAlpha hc
  have hvisible : ∀ x ∈ c :: rest, x ≠ '\x00' := fun x hx => (h.visible x hx).1
  refine ⟨by rw [lineAt_cons indent hblank hvisible], ?_⟩
  rw [lineAt, padLine_cons indent hblank]
  exact startsAt_ofSource true indent hblank hvisible

theorem isTextAt_lineAt {text : List (List Char)} (h : ProseText text) (indent : Nat) :
    IsTextAt indent text (text.map (lineAt indent)) where
  bodies := by
    rw [List.map_map]
    exact (List.map_congr_left fun line hm => (lineAt_prose (h.prose line hm) indent).1).trans
      (List.map_id _)
  starts := by
    intro line hline
    obtain ⟨cs, hcs, rfl⟩ := List.mem_map.mp hline
    exact (lineAt_prose (h.prose cs hcs) indent).2

theorem lineAt_bullet {head : List Char} (h : Prose head) (indent : Nat) :
    lineAt indent ('-' :: ' ' :: head) = {
      source := List.replicate indent ' ' ++ '-' :: ' ' :: head
      lead := List.replicate indent ' '
      body := '-' :: ' ' :: head
      width := indent } := by
  refine lineAt_cons indent (by decide) fun x hx => ?_
  rcases List.mem_cons.mp hx with rfl | hx
  · decide
  rcases List.mem_cons.mp hx with rfl | hx
  · decide
  exact (h.visible x hx).1

theorem opensBullet_lineAt {head : List Char} (h : Prose head) (indent : Nat) :
    OpensBullet (lineAt indent ('-' :: ' ' :: head)) := by
  obtain ⟨c, cs, rfl, hc⟩ := h.head
  exact ⟨c, cs, by rw [lineAt_bullet h], hc⟩

/-- A paragraph ends before entries that stand apart from it. -/
theorem endsParagraph_placed {around : Surroundings} (hregular : around.Regular) {depth gap : Nat}
    {es : List Entry} {lines : List Line} (hfits : ∀ e ∈ es, e.Fits depth)
    (hapart : ∀ e ∈ es, e.Apart) (hcloses : Closes around.indent gap lines) :
    EndsParagraph around
      (Entry.placed around.indent es ++ (List.replicate gap emptyLine ++ lines)) := by
  cases es with
  | nil => exact endsParagraph_closes hregular hcloses
  | cons e es =>
      have he := hfits e List.mem_cons_self
      cases he with
      | @paragraph _ space text prose =>
          have hspace : 0 < space := hapart _ List.mem_cons_self
          obtain ⟨space, rfl⟩ : ∃ n, space = n + 1 := ⟨space - 1, by omega⟩
          rw [Entry.placed_paragraph]
          exact endsParagraph_empty around _
      | @item _ space bullet prose _ _ =>
          rw [Entry.placed_item]
          cases space with
          | succ space => exact endsParagraph_empty around _
          | zero =>
              rw [Bullet.placed_eq]
              have hwidth : (lineAt around.indent ('-' :: ' ' :: bullet.head)).width
                  = around.indent := by rw [lineAt_bullet prose]
              exact endsParagraph_bullet hregular (opensBullet_lineAt prose around.indent)
                (by omega) (by omega) _

/-- Whether outlines with lists nested so deep are read as their blocks, wherever they stand and
whatever closes them, as long as that many lists may still be entered. -/
def ReadsOutlines (limit : Int) (depth : Nat) : Prop :=
  ∀ (capacity : Nat) (around : Surroundings) (es : List Entry) (gap : Nat) (rest : List Line),
    depth ≤ capacity → around.level + 2 * depth < limit → around.Regular →
    (∀ e ∈ es, e.Fits depth) → (∀ e ∈ es.tail, e.Apart) → Closes around.indent gap rest →
    ReadsAs limit (readContent (some limit) capacity) around
      (Entry.placed around.indent es ++ (List.replicate gap emptyLine ++ rest))
      { blocks := Entry.blocks es, used := (Entry.placed around.indent es).length + gap }

/-- The text behind a bullet at an indentation, as the first line of the item's content. -/
def behindBullet (indent : Nat) (head : List Char) : Line where
  source := List.replicate indent ' ' ++ '-' :: ' ' :: head
  lead := List.replicate indent ' ' ++ ['-', ' ']
  body := head
  width := (indent + 2 : Nat)

theorem itemContent_bullet {head : List Char} (h : Prose head) (indent : Nat) :
    itemContent (lineAt indent ('-' :: ' ' :: head)) (hyphen head)
      = (behindBullet indent head, indent + 2) := by
  obtain ⟨c, cs, rfl, hc⟩ := h.head
  have hvisible := isIndent_of_isBlank (isBlank_of_isAlpha hc)
  have htake : (' ' :: c :: cs).takeWhile isIndent = [' '] := by
    rw [List.takeWhile_cons_of_pos rfl, List.takeWhile_cons_of_neg (by simp [hvisible])]
  have hdrop : (' ' :: c :: cs).dropWhile isIndent = c :: cs := by
    rw [List.dropWhile_cons_of_pos rfl, List.dropWhile_cons_of_neg (by simp [hvisible])]
  rw [lineAt_bullet h]
  simp [itemContent, behindBullet, hyphen, htake, hdrop, advance, stepOffset]
  omega

theorem isTextAt_behindBullet (indent : Nat) (head : List Char) :
    IsTextAt (indent + 2) [head] [behindBullet indent head] := by
  refine ⟨rfl, fun line hline => ?_⟩
  obtain rfl := List.mem_singleton.mp hline
  refine ⟨rfl, by simp [behindBullet], fun x hx => ?_⟩
  rcases List.mem_append.mp hx with hx | hx
  · rw [List.eq_of_mem_replicate hx]
    decide
  · rcases List.mem_cons.mp hx with rfl | hx
    · decide
    · rw [List.mem_singleton.mp hx]
      decide

/-- The surroundings of what is in an item with a bullet. -/
def Surroundings.behindBullet (around : Surroundings) : Surroundings where
  indent := around.indent + 2
  listIndent := some around.indent
  level := around.level + 2

theorem Surroundings.regular_behindBullet (around : Surroundings) :
    around.behindBullet.Regular := by
  rintro _ ⟨⟩
  show around.indent + 2 ≤ around.indent + 4
  omega

/-- Whether no item of the list goes on with the first of the lines. -/
def EndsList (around : Surroundings) (lines : List Line) : Prop :=
  ∀ line ∈ lines.head?, nextMarker? around .bullet '-' line = none

theorem nextMarker?_bullet (around : Surroundings) {head : List Char} (h : Prose head) :
    nextMarker? around .bullet '-' (lineAt around.indent ('-' :: ' ' :: head))
      = some (hyphen head) := by
  obtain ⟨c, cs, rfl, hc⟩ := h.head
  obtain ⟨hfence, hbreak, -, hmarker⟩ := opens_item hc cs
  rw [lineAt_bullet h]
  simp [nextMarker?, Line.isOutside, Line.isCode, interrupts, hfence, opensQuote, hbreak, hmarker]
  simp [hyphen]

section Items

variable {limit : Int} {depth : Nat} (hreads : ReadsOutlines limit depth)
  {capacity : Nat} (hcapacity : depth + 1 ≤ capacity) {around : Surroundings}
  (hlevel : around.level + 2 * (depth + 1) < limit)

include hreads hcapacity hlevel

/-- The content of an item is the paragraph on its line and the outline in it. -/
theorem readItem_bullet {bullet : Bullet} {space : Nat}
    (hfits : (Entry.item space bullet).Fits (depth + 1)) {gap : Nat} {rest : List Line}
    (hcloses : Closes (around.indent + 2) gap rest) {following : List Line}
    (hfollowing : following
      = Entry.placed (around.indent + 2) bullet.inner ++ (List.replicate gap emptyLine ++ rest)) :
    readItem (readContent (some limit) capacity) around
        (lineAt around.indent ('-' :: ' ' :: bullet.head)) (hyphen bullet.head) following
        (following.length + 1)
      = .ok { blocks := bullet.toItem.children
              used := (bullet.placed around.indent).length + gap } := by
  obtain ⟨capacity, rfl⟩ : ∃ n, capacity = n + 1 := ⟨capacity - 1, by omega⟩
  cases hfits with
  | item prose hapart hinner =>
      have hdeeper : around.behindBullet.level + 2 * (depth : Int) < limit := by
        simp only [Surroundings.behindBullet]
        push_cast
        omega
      -- the outline in the item, without the paragraph on its line
      have hmore := hreads capacity around.behindBullet bullet.inner gap rest (by omega) hdeeper
        around.regular_behindBullet hinner (fun e he => hapart e (List.mem_of_mem_tail he)) hcloses
      have hends := endsParagraph_placed around.regular_behindBullet hinner hapart hcloses
      have hread := readsAs_prose prose.text (isTextAt_behindBullet around.indent bullet.head) hends
        (by omega) hmore _ (le_refl _)
      rw [joinNewlines_singleton] at hread
      obtain ⟨c, cs, hhead, -⟩ := prose.head
      have hvisible : (behindBullet around.indent bullet.head).isEmpty = false := by
        rw [hhead]
        rfl
      rw [readItem, itemContent_bullet prose, hfollowing]
      simp only [hvisible, Bool.false_and, Bool.false_eq_true, if_false]
      rw [Bullet.toItem_eq, Bullet.placed_eq]
      refine hread.trans ?_
      simp [Surroundings.behindBullet]
      omega

/-- The first item of a list takes the empty lines behind it, and the list goes on if another item
follows. -/
theorem readItems_bullet {bullet : Bullet} {space : Nat}
    (hfits : (Entry.item space bullet).Fits (depth + 1)) {gap : Nat} {rest : List Line}
    (hcloses : Closes (around.indent + 2) gap rest) (bound : Nat) :
    readItems (readContent (some limit) capacity) around (bound + 1) (hyphen bullet.head)
        (bullet.placed around.indent ++ (List.replicate gap emptyLine ++ rest))
        (bullet.placed around.indent ++ (List.replicate gap emptyLine ++ rest)).length
      = match rest.head?.bind (nextMarker? around .bullet '-') with
        | none => .ok ([bullet.toItem], (bullet.placed around.indent).length + gap)
        | some next =>
          (readItems (readContent (some limit) capacity) around bound next rest rest.length).map
            fun (items, used) =>
              (bullet.toItem :: items, (bullet.placed around.indent).length + gap + used) := by
  have hitem := readItem_bullet hreads hcapacity hlevel hfits hcloses rfl
  have htext : sourceText (bullet.placed around.indent ++ List.replicate gap emptyLine)
      = String.ofList (joinNewlines bullet.lines) := by
    rw [← sourceText_bullet hfits around.indent gap]
    simp [Bullet.placed, lineAt_nil, emptyLine]
  have hlength : (bullet.placed around.indent ++ List.replicate gap emptyLine).length
      = (bullet.placed around.indent).length + gap := by simp
  have htaken : lineAt around.indent ('-' :: ' ' :: bullet.head)
        :: (Entry.placed (around.indent + 2) bullet.inner ++ (List.replicate gap emptyLine ++ rest))
      = bullet.placed around.indent ++ List.replicate gap emptyLine ++ rest := by
    rw [Bullet.placed_eq]
    simp
  have hitems := readItems_append bound htaken hlength.symm hitem
  rw [← List.length_cons, htaken, List.append_assoc, htext, hlength, Bullet.toItem_eq] at hitems
  rw [Bullet.toItem_eq]
  exact hitems

/-- A run of items is read as one list, with the empty lines behind it. -/
theorem readItems_run {bullets : List (Nat × Bullet)} {gap : Nat}
    {rest : List Line} (hcloses : Closes (around.indent + 2) gap rest)
    (hends : EndsList around rest) (hfits : ∀ e ∈ Entry.run bullets, e.Fits (depth + 1))
    (bound : Nat) {space : Nat} {bullet : Bullet}
    (hfirst : (Entry.item space bullet).Fits (depth + 1))
    {lines : List Line}
    (hlines : lines = bullet.placed around.indent
      ++ (Entry.placed around.indent (Entry.run bullets) ++ (List.replicate gap emptyLine ++ rest)))
    (hbound : lines.length ≤ bound) :
    readItems (readContent (some limit) capacity) around bound (hyphen bullet.head) lines
        lines.length
      = .ok (bullet.toItem :: bullets.map (fun b => b.2.toItem),
        (bullet.placed around.indent).length
          + (Entry.placed around.indent (Entry.run bullets)).length + gap) := by
  subst hlines
  induction bullets generalizing bullet space bound with
  | nil =>
      obtain ⟨bound, rfl⟩ : ∃ b, bound = b + 1 :=
        ⟨bound - 1, by simp [Bullet.placed_eq] at hbound; omega⟩
      have hnone : rest.head?.bind (nextMarker? around .bullet '-') = none := by
        cases rest with
        | nil => rfl
        | cons line rest => exact hends line rfl
      have hlast := readItems_bullet hreads hcapacity hlevel hfirst hcloses bound
      rw [hnone] at hlast
      exact hlast
  | cons b bullets ih =>
      obtain ⟨between, next⟩ := b
      have hnext : (Entry.item between next).Fits (depth + 1) := hfits _ List.mem_cons_self
      have hprose := hnext.prose
      have hrun : Entry.placed around.indent (Entry.run ((between, next) :: bullets))
          = List.replicate between emptyLine
            ++ (next.placed around.indent ++ Entry.placed around.indent (Entry.run bullets)) :=
        Entry.placed_item around.indent between next (Entry.run bullets)
      rw [hrun, List.append_assoc, List.append_assoc] at hbound ⊢
      obtain ⟨bound, rfl⟩ : ∃ b, bound = b + 1 :=
        ⟨bound - 1, by simp [Bullet.placed_eq] at hbound; omega⟩
      have hrest := ih (fun e he => hfits e (List.mem_cons_of_mem _ he)) bound hnext
        (by simp [Bullet.placed_eq] at hbound ⊢; omega)
      generalize htail : next.placed around.indent
        ++ (Entry.placed around.indent (Entry.run bullets)
          ++ (List.replicate gap emptyLine ++ rest)) = tail at hbound hrest ⊢
      rw [Bullet.placed_eq] at htail
      -- the next item closes the content of this one, and goes on with the list
      have hcloses : Closes (around.indent + 2) between tail := by
        subst htail
        rintro _ ⟨⟩
        have hopens := opensBullet_lineAt hprose around.indent
        rw [lineAt_bullet hprose] at hopens ⊢
        exact ⟨by simp, by simp, by simp, fun _ => hopens⟩
      have hmarker :
          tail.head?.bind (nextMarker? around .bullet '-') = some (hyphen next.head) := by
        subst htail
        exact nextMarker?_bullet around hprose
      rw [readItems_bullet hreads hcapacity hlevel hfirst hcloses, hmarker]
      simp only [hrest, Except.map, List.map_cons, List.length_append, List.length_replicate]
      congr 2
      omega

/-- A run of items opens a list. -/
theorem readBlock_run (hregular : around.Regular)
    {bullets : List (Nat × Bullet)} {gap : Nat} {rest : List Line}
    (hcloses : Closes (around.indent + 2) gap rest) (hends : EndsList around rest)
    (hfits : ∀ e ∈ Entry.run bullets, e.Fits (depth + 1)) {space : Nat} {bullet : Bullet}
    (hfirst : (Entry.item space bullet).Fits (depth + 1)) (following : List Line)
    (hlines : lineAt around.indent ('-' :: ' ' :: bullet.head) :: following
      = bullet.placed around.indent
        ++ (Entry.placed around.indent (Entry.run bullets)
          ++ (List.replicate gap emptyLine ++ rest))) :
    readBlock (readContent (some limit) capacity) around
        (lineAt around.indent ('-' :: ' ' :: bullet.head)) following (following.length + 1)
      = .ok {
          blocks := [.list {
            kind := .bullet, items := bullet.toItem :: bullets.map fun b => b.2.toItem }]
          used := (bullet.placed around.indent).length
            + (Entry.placed around.indent (Entry.run bullets)).length + gap } := by
  have hprose := hfirst.prose
  obtain ⟨c, cs, hbody, hc⟩ := opensBullet_lineAt hprose around.indent
  have hhead : bullet.head = c :: cs := by
    rw [lineAt_bullet hprose] at hbody
    exact (List.cons.inj (List.cons.inj hbody).2).2
  have hwidth : (lineAt around.indent ('-' :: ' ' :: bullet.head)).width = around.indent := by
    rw [lineAt_bullet hprose]
  obtain ⟨hfence, hbreak, -, -⟩ := opens_item hc cs
  have hmarker := itemMarker?_bullet hregular hbody hc (by omega)
  have hitems := readItems_run hreads hcapacity hlevel hcloses hends hfits _ hfirst hlines
    (le_refl _)
  rw [List.length_cons, hhead] at hitems
  rw [hhead] at hbody hwidth hmarker ⊢
  have hcode : (lineAt around.indent ('-' :: ' ' :: c :: cs)).isCode around.indent = false := by
    simp [Line.isCode, hwidth]
  have hquote : opensQuote (lineAt around.indent ('-' :: ' ' :: c :: cs)) = false := by
    rw [opensQuote, hbody]
    rfl
  simp only [readBlock, readList, hcode, hbody, hfence, hquote, hbreak, hmarker, hitems,
    Bool.false_eq_true, if_false]
  rfl

end Items

/-- Behind a run of items there are empty lines, and then a paragraph or the end of the outline.
Either closes the items and ends their list, and is read as what it is. -/
theorem exists_closes_behind_run {limit : Int} {read : ContentReader} {around : Surroundings}
    {depth gap : Nat} {others : List Entry} {rest : List Line}
    (hothers : ∀ e ∈ others.head?, ∃ space text, e = .paragraph space text)
    (hfits : ∀ e ∈ others, e.Fits depth) (hapart : ∀ e ∈ others, e.Apart)
    (hcloses : Closes around.indent gap rest)
    (hread : ReadsAs limit read around
      (Entry.placed around.indent (Entry.flush others) ++ (List.replicate gap emptyLine ++ rest))
      { blocks := Entry.blocks others
        used := (Entry.placed around.indent (Entry.flush others)).length + gap }) :
    ∃ space tail used,
      Entry.placed around.indent others ++ (List.replicate gap emptyLine ++ rest)
        = List.replicate space emptyLine ++ tail
      ∧ Closes (around.indent + 2) space tail ∧ EndsList around tail
      ∧ space + used = (Entry.placed around.indent others).length + gap
      ∧ ReadsAs limit read around tail { blocks := Entry.blocks others, used } := by
  cases others with
  | nil =>
      refine ⟨gap, rest, 0, rfl, hcloses.mono (by omega), fun line hline => ?_, by
        simp [Entry.placed], readsAs_closed hcloses⟩
      obtain ⟨-, -, hwidth, -⟩ := hcloses line hline
      have houtside : line.isOutside around.indent = true := by
        simpa [Line.isOutside] using hwidth
      simp [nextMarker?, houtside]
  | cons e after =>
      obtain ⟨space, text, rfl⟩ := hothers e rfl
      have hprose : ProseText text := by
        cases hfits _ List.mem_cons_self with
        | paragraph prose => exact prose
      have hspace : 0 < space := hapart _ List.mem_cons_self
      obtain ⟨line, lines, rfl⟩ := List.exists_cons_of_ne_nil hprose.ne_nil
      have hline := hprose.prose line List.mem_cons_self
      obtain ⟨hbody, hstart⟩ := lineAt_prose hline around.indent
      obtain ⟨c, cs, htext, hc⟩ := hline.head
      have hflush :
          Entry.placed around.indent (Entry.flush (.paragraph space (line :: lines) :: after))
          = (line :: lines).map (lineAt around.indent) ++ Entry.placed around.indent after :=
        Entry.placed_paragraph around.indent 0 (line :: lines) after
      rw [hflush] at hread
      refine ⟨space, _, _, ?_, ?_, ?_, ?_, hread⟩
      · rw [Entry.placed_paragraph, List.append_assoc]
      · rintro _ ⟨⟩
        have hvisible : (lineAt around.indent line).body ≠ [] := by
          rw [hbody, htext]
          simp
        -- the paragraph stands apart, so nothing is asked of it without an empty line
        exact ⟨hvisible, by rw [hstart.width]; omega, by rw [hstart.width]; omega,
          fun hzero => absurd hzero (by omega)⟩
      · rintro _ ⟨⟩
        have hmarker : marker? (lineAt around.indent line).body = none := by
          rw [hbody, htext, (opens_nothing hc cs).2.2.1]
        rw [nextMarker?, hmarker]
        split <;> rfl
      · rw [Entry.placed_paragraph]
        simp
        omega

/-- A run of items in front of what is read of the other entries is read as one list in front of
their blocks. -/
theorem readsAs_run {limit : Int} {depth : Nat} (hreads : ReadsOutlines limit depth)
    {capacity : Nat} (hcapacity : depth + 1 ≤ capacity) {around : Surroundings}
    (hlevel : around.level + 2 * (depth + 1) < limit) (hregular : around.Regular)
    {bullets : List (Nat × Bullet)} (hfits : ∀ e ∈ Entry.run bullets, e.Fits (depth + 1))
    {space : Nat} {bullet : Bullet} (hfirst : (Entry.item space bullet).Fits (depth + 1))
    {others : List Entry}
    (hothers : ∀ e ∈ others.head?, ∃ space text, e = .paragraph space text)
    (hotherfits : ∀ e ∈ others, e.Fits (depth + 1)) (hotherapart : ∀ e ∈ others, e.Apart)
    {gap : Nat} {rest : List Line} (hcloses : Closes around.indent gap rest)
    (hflush : ReadsAs limit (readContent (some limit) capacity) around
      (Entry.placed around.indent (Entry.flush others) ++ (List.replicate gap emptyLine ++ rest))
      { blocks := Entry.blocks others
        used := (Entry.placed around.indent (Entry.flush others)).length + gap }) :
    ReadsAs limit (readContent (some limit) capacity) around
      (Entry.placed around.indent (.item space bullet :: (Entry.run bullets ++ others))
        ++ (List.replicate gap emptyLine ++ rest))
      { blocks := Entry.blocks (.item space bullet :: (Entry.run bullets ++ others))
        used := (Entry.placed around.indent
          (.item space bullet :: (Entry.run bullets ++ others))).length + gap } := by
  obtain ⟨between, tail, used, htail, hclosestail, hends, hused, hread⟩ :=
    exists_closes_behind_run hothers hotherfits hotherapart hcloses hflush
  -- the lines that the list takes behind its first one
  obtain ⟨front, hfront⟩ : ∃ front, front = Entry.placed (around.indent + 2) bullet.inner
    ++ (Entry.placed around.indent (Entry.run bullets) ++ List.replicate between emptyLine) :=
      ⟨_, rfl⟩
  have htaken : lineAt around.indent ('-' :: ' ' :: bullet.head) :: (front ++ tail)
      = bullet.placed around.indent ++ (Entry.placed around.indent (Entry.run bullets)
        ++ (List.replicate between emptyLine ++ tail)) := by
    simp [hfront, Bullet.placed_eq]
  have hlines : Entry.placed around.indent (.item space bullet :: (Entry.run bullets ++ others))
        ++ (List.replicate gap emptyLine ++ rest)
      = List.replicate space emptyLine
        ++ lineAt around.indent ('-' :: ' ' :: bullet.head) :: (front ++ tail) := by
    rw [htaken]
    simp [Entry.placed_item, Entry.placed_append, htail]
  have hlength : (bullet.placed around.indent).length
      + (Entry.placed around.indent (Entry.run bullets)).length + between = front.length + 1 := by
    simp [hfront, Bullet.placed_eq]
    omega
  have hblock := readBlock_run hreads hcapacity hlevel hregular hclosestail hends hfits hfirst
    (front ++ tail) htaken
  have hempty : (lineAt around.indent ('-' :: ' ' :: bullet.head)).isEmpty = false := by
    rw [lineAt_bullet hfirst.prose]
    rfl
  have hinside : (lineAt around.indent ('-' :: ' ' :: bullet.head)).isOutside around.indent
      = false := by
    rw [lineAt_bullet hfirst.prose]
    simp [Line.isOutside]
  rw [hlines]
  refine (readsAs_gap space
    (readsAs_cons front hempty hinside (by omega) hblock hlength hread)).of_eq ?_ ?_
  · rw [Entry.blocks_run space bullet bullets hothers]
    rfl
  · simp [Entry.placed_item, Entry.placed_append]
    omega

/-- **Outlines are read as their blocks.** -/
theorem readsAs_outline (limit : Int) (depth : Nat) : ReadsOutlines limit depth := by
  -- on the depth for what is in the items, and within a depth on the number of entries
  induction depth using Nat.strong_induction_on with
  | _ depth ihdepth =>
  intro capacity around es gap rest hcapacity hlevel hregular hfits hapart hcloses
  induction hlength : es.length using Nat.strong_induction_on generalizing es with
  | _ n ih =>
  subst hlength
  cases es with
  | nil =>
      have hread : ReadsAs limit (readContent (some limit) capacity) around
          (List.replicate gap emptyLine ++ rest) { blocks := [], used := 0 + gap } :=
        readsAs_gap gap (readsAs_closed hcloses)
      simpa [Entry.placed] using hread
  | cons e es =>
      have hrestfits : ∀ e ∈ es, e.Fits depth := fun e he => hfits e (List.mem_cons_of_mem _ he)
      cases hfits e List.mem_cons_self with
      | @paragraph _ space text prose =>
          have hmore := ih es.length (by simp) es hrestfits
            (fun e he => hapart e (List.mem_of_mem_tail he)) rfl
          have hread := readsAs_gap space (readsAs_prose prose (isTextAt_lineAt prose around.indent)
            (endsParagraph_placed hregular hrestfits hapart hcloses) (by omega) hmore)
          rw [Entry.placed_paragraph, List.append_assoc, List.append_assoc]
          refine hread.of_eq rfl ?_
          simp
          omega
      | @item depth space bullet prose hinside hinner =>
          obtain ⟨bullets, others, rfl, hothers⟩ := Entry.exists_run es
          have hotherfits : ∀ e ∈ others, e.Fits (depth + 1) :=
            fun e he => hrestfits e (List.mem_append_right _ he)
          have hotherapart : ∀ e ∈ others, e.Apart :=
            fun e he => hapart e (List.mem_append_right _ he)
          have hfewer : (Entry.flush others).length < (Entry.item space bullet
              :: (Entry.run bullets ++ others)).length := by
            rw [Entry.length_flush, List.length_cons, List.length_append]
            omega
          -- behind the list the entries are read as if no empty lines were in front of them
          have hflush := ih (Entry.flush others).length hfewer (Entry.flush others)
            (Entry.fits_flush hotherfits)
            (fun e he => hotherapart e (List.mem_of_mem_tail (Entry.tail_flush others ▸ he))) rfl
          rw [Entry.blocks_flush] at hflush
          push_cast at hlevel
          exact readsAs_run (ihdepth depth (by omega)) hcapacity hlevel hregular
            (fun e he => hrestfits e (List.mem_append_left _ he)) (.item prose hinside hinner)
            hothers hotherfits hotherapart hcloses hflush

/-! ## Whole texts -/

theorem linesOf_unlines {lines : List (List Char)} (h : ∀ line ∈ lines, '\n' ∉ line) :
    linesOf (unlines lines) = lines.map (Line.ofSource true) := by
  -- behind the last newline there is a part too, but an empty part at the end is no line
  rw [linesOf, splitNewlines_unlines h, linesOfParts_append lines (by simp)]
  exact List.append_nil _

/-- **A text that lays an outline out is read as the blocks of the outline.** -/
theorem read_outline {limit : Int} {depth : Nat} (hcapacity : depth ≤ containerCapacity)
    (hlimit : 2 * (depth : Int) < limit) {es : List Entry} (hfits : ∀ e ∈ es, e.Fits depth)
    (hapart : ∀ e ∈ es.tail, e.Apart) :
    Markdown.read (some limit) (String.ofList (unlines (Entry.layout es)))
      = .ok { text := String.ofList (unlines (Entry.layout es)), children := Entry.blocks es } := by
  have hclean : ∀ line ∈ Entry.layout es, CleanLine line := Entry.cleanLine_of_mem_layout hfits
  have hnewline : ∀ line ∈ Entry.layout es, '\n' ∉ line :=
    fun line hline hc => ((hclean line hline).single _ hc).1 rfl
  have hcr : '\r' ∉ unlines (Entry.layout es) := by
    intro hc
    obtain hc | ⟨line, hline, hc⟩ := mem_unlines hc
    · exact absurd hc (by decide)
    · exact ((hclean line hline).single _ hc).2 rfl
  have hlines : linesOf (unlines (Entry.layout es)) = Entry.placed 0 es := by
    rw [linesOf_unlines hnewline]
    refine List.map_congr_left fun line hline => ?_
    rw [lineAt, padLine_zero (hclean line hline).neat]
  have hread := readsAs_outline limit depth containerCapacity {} es 0 [] hcapacity
    (by simpa using hlimit) (by simp [Surroundings.Regular]) hfits hapart (by simp [Closes])
  simp only [List.replicate_zero, List.append_nil, ← hlines] at hread
  exact read_of_readsAs hcr hread

end DocComment.Markdown
