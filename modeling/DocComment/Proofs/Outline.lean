import DocComment.Proofs.Prose
import Mathlib

/-!
# Outlines

An outline is the part of Markdown that a written record consists of: paragraphs, and bullet items
whose content is such an outline again.  `Entry.layout` lays an outline out, the content of an item
two columns to the right of its bullet, and `Entry.blocks` says which blocks it stands for: a run of
items without a paragraph between them is one list.

An outline that is made of prose (`Entry.Fits`) has a clean source.  Every line of it is empty or
visible, trimming takes the empty lines in front and nothing else (`Entry.trim_layout`), and the
source of an item can be found again at any indentation (`sourceText_bullet`).
-/

namespace DocComment.Markdown

open Text Markup

/-! ## Outlines -/

mutual

/-- A part of an outline, behind a number of empty lines. -/
inductive Entry where
  | paragraph (gap : Nat) (text : List (List Char))
  | item (gap : Nat) (bullet : Bullet)

/-- A bullet item: the text on the line of its bullet, and what else is in it. -/
structure Bullet where
  head : List Char
  inner : List Entry := []

end

mutual

/-- The source lines of an entry. -/
def Entry.lines : Entry → List (List Char)
  | .paragraph gap text => List.replicate gap [] ++ text
  | .item gap bullet => List.replicate gap [] ++ bullet.lines
termination_by structural e => e

/-- The source lines of an item from its bullet on. -/
def Bullet.lines : Bullet → List (List Char)
  | ⟨head, inner⟩ => ('-' :: ' ' :: head) :: (Entry.layout inner).map (padLine 2)
termination_by structural b => b

/-- The source lines of an outline. -/
def Entry.layout : List Entry → List (List Char)
  | [] => []
  | e :: es => e.lines ++ Entry.layout es
termination_by structural es => es

end

/-- The blocks with one more item in front: it joins a bullet list that they open with. -/
def consItem (item : ListItem) : List Block → List Block
  | .list ⟨.bullet, items, marker, start⟩ :: blocks =>
    .list ⟨.bullet, item :: items, marker, start⟩ :: blocks
  | blocks => .list { kind := .bullet, items := [item] } :: blocks

mutual

/-- The blocks with those of an entry in front. -/
def Entry.cons (blocks : List Block) : Entry → List Block
  | .paragraph _ text => .paragraph (String.ofList (joinNewlines text)) :: blocks
  | .item _ bullet => consItem bullet.toItem blocks
termination_by structural e => e

/-- The list item that a bullet stands for. -/
def Bullet.toItem : Bullet → ListItem
  | ⟨head, inner⟩ =>
    { text := String.ofList (joinNewlines (Bullet.lines ⟨head, inner⟩))
      children := .paragraph (String.ofList head) :: Entry.blocks inner }
termination_by structural b => b

/-- The blocks of an outline.  Items without a paragraph between them are one list. -/
def Entry.blocks : List Entry → List Block
  | [] => []
  | e :: es => e.cons (Entry.blocks es)
termination_by structural es => es

end

@[simp]
theorem Entry.layout_nil : Entry.layout [] = [] := rfl

theorem Entry.layout_cons (e : Entry) (es : List Entry) :
    Entry.layout (e :: es) = e.lines ++ Entry.layout es := rfl

theorem Entry.layout_append (es more : List Entry) :
    Entry.layout (es ++ more) = Entry.layout es ++ Entry.layout more := by
  induction es with
  | nil => rfl
  | cons e es ih => rw [List.cons_append, layout_cons, layout_cons, ih, List.append_assoc]

@[simp]
theorem Entry.blocks_nil : Entry.blocks [] = [] := rfl

theorem Entry.blocks_paragraph (gap : Nat) (text : List (List Char)) (es : List Entry) :
    Entry.blocks (.paragraph gap text :: es)
      = .paragraph (String.ofList (joinNewlines text)) :: Entry.blocks es := rfl

theorem Bullet.lines_eq (bullet : Bullet) :
    bullet.lines = ('-' :: ' ' :: bullet.head) :: (Entry.layout bullet.inner).map (padLine 2) := by
  obtain ⟨head, inner⟩ := bullet
  rfl

theorem Bullet.toItem_eq (bullet : Bullet) :
    bullet.toItem = {
      text := String.ofList (joinNewlines bullet.lines)
      children := .paragraph (String.ofList bullet.head) :: Entry.blocks bullet.inner } := by
  obtain ⟨head, inner⟩ := bullet
  rfl

/-! ## Runs of items -/

/-- A run of items without a paragraph between them. -/
def Entry.run (bullets : List (Nat × Bullet)) : List Entry :=
  bullets.map fun (gap, bullet) => .item gap bullet

/-- Every outline opens with a run of items, behind which it has a paragraph or nothing. -/
theorem Entry.exists_run (es : List Entry) :
    ∃ bullets others, es = Entry.run bullets ++ others
      ∧ ∀ e ∈ others.head?, ∃ gap text, e = .paragraph gap text := by
  induction es with
  | nil => exact ⟨[], [], rfl, by simp⟩
  | cons e es ih =>
      cases e with
      | paragraph gap text => exact ⟨[], .paragraph gap text :: es, rfl, by simp⟩
      | item gap bullet =>
          obtain ⟨bullets, others, rfl, hothers⟩ := ih
          exact ⟨(gap, bullet) :: bullets, others, rfl, hothers⟩

/-- The items of a run make one list. -/
theorem Entry.blocks_run (gap : Nat) (bullet : Bullet) (bullets : List (Nat × Bullet))
    {others : List Entry} (h : ∀ e ∈ others.head?, ∃ gap text, e = .paragraph gap text) :
    Entry.blocks (.item gap bullet :: (Entry.run bullets ++ others))
      = .list { kind := .bullet, items := bullet.toItem :: bullets.map fun b => b.2.toItem }
          :: Entry.blocks others := by
  induction bullets generalizing gap bullet with
  | nil =>
      show consItem bullet.toItem (Entry.blocks others) = _
      cases others with
      | nil => rfl
      | cons e others =>
          obtain ⟨gap, text, rfl⟩ := h e rfl
          rfl
  | cons b bullets ih =>
      obtain ⟨next, other⟩ := b
      show consItem bullet.toItem
        (Entry.blocks (.item next other :: (Entry.run bullets ++ others))) = _
      rw [ih next other]
      rfl

/-! ## Outlines that are read back -/

/-- Whether an entry stands apart from the line before it, so that it does not continue a
paragraph. -/
def Entry.Apart : Entry → Prop
  | .paragraph gap _ => 0 < gap
  | .item _ _ => True

/-- An entry that is made of prose, with lists nested in it at most so deep. -/
inductive Entry.Fits : Nat → Entry → Prop where
  | paragraph {depth gap : Nat} {text : List (List Char)} (prose : ProseText text) :
    Fits depth (.paragraph gap text)
  | item {depth gap : Nat} {bullet : Bullet} (prose : Prose bullet.head)
    (apart : ∀ e ∈ bullet.inner, e.Apart) (fits : ∀ e ∈ bullet.inner, Fits depth e) :
    Fits (depth + 1) (.item gap bullet)

theorem Entry.Fits.prose {depth gap : Nat} {bullet : Bullet}
    (h : (Entry.item gap bullet).Fits depth) :
    Prose bullet.head := by
  cases h with
  | item prose _ _ => exact prose

/-! ## The source of an outline -/

/-- A line that ends in something visible. -/
def EndsVisibly (line : List Char) : Prop :=
  ∃ c, line.getLast? = some c ∧ isBlank c = false

theorem Prose.endsVisibly {cs : List Char} (h : Prose cs) : EndsVisibly cs := by
  obtain ⟨c, rest, rfl, -⟩ := h.head
  exact ⟨_, List.getLast?_cons, h.last _ List.getLast?_cons⟩

theorem EndsVisibly.cons {line : List Char} (h : EndsVisibly line) (c : Char) :
    EndsVisibly (c :: line) := by
  obtain ⟨last, hlast, hvisible⟩ := h
  exact ⟨last, by simp [List.getLast?_cons, hlast], hvisible⟩

theorem EndsVisibly.padLine {line : List Char} (h : EndsVisibly line) (indent : Nat) :
    EndsVisibly (padLine indent line) := by
  obtain ⟨last, hlast, hvisible⟩ := h
  have hall : line.all isBlank = false := by
    rw [List.all_eq_false]
    exact ⟨last, List.mem_of_getLast? hlast, by simp [hvisible]⟩
  exact ⟨last, by simp [Markup.padLine, hall, List.getLast?_append, hlast], hvisible⟩

/-- A line that is empty or visible, and is one line. -/
structure CleanLine (line : List Char) : Prop where
  neat : Neat line
  single : ∀ c ∈ line, c ≠ '\n' ∧ c ≠ '\r'

theorem cleanLine_nil : CleanLine [] where
  neat := neat_nil
  single := by simp

theorem Prose.cleanLine {cs : List Char} (h : Prose cs) : CleanLine cs where
  neat := h.neat
  single := fun c hc => (h.visible c hc).2

theorem cleanLine_bullet {head : List Char} (h : Prose head) : CleanLine ('-' :: ' ' :: head) where
  neat := neat_cons (by decide) _
  single := by
    intro c hc
    rcases List.mem_cons.mp hc with rfl | hc
    · decide
    rcases List.mem_cons.mp hc with rfl | hc
    · decide
    exact (h.visible c hc).2

theorem CleanLine.padLine {line : List Char} (h : CleanLine line) (indent : Nat) :
    CleanLine (padLine indent line) where
  neat := neat_padLine indent line
  single := by
    intro c hc
    by_cases hall : line.all isBlank
    · simp [Markup.padLine, hall] at hc
    · simp only [Markup.padLine, hall, Bool.false_eq_true, if_false, List.mem_append] at hc
      rcases hc with hc | hc
      · rw [List.eq_of_mem_replicate hc]
        decide
      · exact h.single c hc

namespace Entry

theorem mem_layout {line : List Char} {es : List Entry} :
    line ∈ layout es ↔ ∃ e ∈ es, line ∈ e.lines := by
  induction es with
  | nil => simp
  | cons e es ih => simp [layout_cons, ih]

/-- Every line of an entry is empty or visible. -/
theorem Fits.cleanLine {depth : Nat} {e : Entry} (h : e.Fits depth) :
    ∀ line ∈ e.lines, CleanLine line := by
  induction h with
  | paragraph prose =>
      intro line hline
      rcases List.mem_append.mp hline with hline | hline
      · rw [List.eq_of_mem_replicate hline]
        exact cleanLine_nil
      · exact (prose.prose line hline).cleanLine
  | @item depth gap bullet prose _ _ ih =>
      intro line hline
      rcases List.mem_append.mp hline with hline | hline
      · rw [List.eq_of_mem_replicate hline]
        exact cleanLine_nil
      rw [Bullet.lines_eq] at hline
      rcases List.mem_cons.mp hline with rfl | hline
      · exact cleanLine_bullet prose
      obtain ⟨moved, hmoved, rfl⟩ := List.mem_map.mp hline
      obtain ⟨e, he, hmoved⟩ := mem_layout.mp hmoved
      exact (ih e he moved hmoved).padLine 2

theorem cleanLine_of_mem_layout {depth : Nat} {es : List Entry} (h : ∀ e ∈ es, e.Fits depth) :
    ∀ line ∈ layout es, CleanLine line := by
  intro line hline
  obtain ⟨e, he, hline⟩ := mem_layout.mp hline
  exact (h e he).cleanLine line hline

/-- The last line of an entry ends in something visible. -/
theorem Fits.last {depth : Nat} {e : Entry} (h : e.Fits depth) :
    ∃ line, e.lines.getLast? = some line ∧ EndsVisibly line := by
  induction h with
  | @paragraph depth gap text prose =>
      obtain ⟨before, line, rfl⟩ := (List.eq_nil_or_concat' text).resolve_left prose.ne_nil
      exact ⟨line, by simp [lines, List.getLast?_append], (prose.prose line (by simp)).endsVisibly⟩
  | @item depth gap bullet prose _ _ ih =>
      simp only [lines, Bullet.lines_eq, List.getLast?_append, List.getLast?_cons]
      rcases List.eq_nil_or_concat bullet.inner with hinner | ⟨before, e, hinner⟩
      · exact ⟨'-' :: ' ' :: bullet.head, by simp [hinner], (prose.endsVisibly.cons ' ').cons '-'⟩
      · obtain ⟨line, hline, hvisible⟩ := ih e (by simp [hinner])
        refine ⟨padLine 2 line, ?_, hvisible.padLine 2⟩
        simp [hinner, layout_append, layout_cons, hline]

/-- The outline without the empty lines in front of it. -/
def flush : List Entry → List Entry
  | [] => []
  | .paragraph _ text :: es => .paragraph 0 text :: es
  | .item _ bullet :: es => .item 0 bullet :: es

theorem layout_flush (es : List Entry) :
    ∃ gap, layout es = List.replicate gap [] ++ layout (flush es) := by
  cases es with
  | nil => exact ⟨0, rfl⟩
  | cons e es =>
      cases e with
      | paragraph gap text => exact ⟨gap, by simp [flush, layout_cons, lines]⟩
      | item gap bullet => exact ⟨gap, by simp [flush, layout_cons, lines]⟩

theorem blocks_flush (es : List Entry) : blocks (flush es) = blocks es := by
  match es with
  | [] => rfl
  | .paragraph _ _ :: _ => rfl
  | .item _ _ :: _ => rfl

theorem fits_flush {depth : Nat} {es : List Entry} (h : ∀ e ∈ es, e.Fits depth) :
    ∀ e ∈ flush es, e.Fits depth := by
  cases es with
  | nil => simp [flush]
  | cons e es =>
      have hrest : ∀ other ∈ es, other.Fits depth :=
        fun other hm => h other (List.mem_cons_of_mem e hm)
      cases h e List.mem_cons_self with
      | paragraph prose => exact List.forall_mem_cons.mpr ⟨.paragraph prose, hrest⟩
      | item prose hapart hfits => exact List.forall_mem_cons.mpr ⟨.item prose hapart hfits, hrest⟩

theorem length_flush (es : List Entry) : (flush es).length = es.length := by
  match es with
  | [] => rfl
  | .paragraph _ _ :: _ => rfl
  | .item _ _ :: _ => rfl

theorem tail_flush (es : List Entry) : (flush es).tail = es.tail := by
  match es with
  | [] => rfl
  | .paragraph _ _ :: _ => rfl
  | .item _ _ :: _ => rfl

/-- Without the empty lines in front, the source of an outline opens with something visible. -/
theorem head_layout_flush {depth : Nat} {es : List Entry} (hne : es ≠ [])
    (h : ∀ e ∈ es, e.Fits depth) :
    ∃ c cs more, layout (flush es) = (c :: cs) :: more ∧ isBlank c = false := by
  obtain ⟨e, es, rfl⟩ := List.exists_cons_of_ne_nil hne
  cases h e List.mem_cons_self with
  | paragraph prose =>
      obtain ⟨line, lines, rfl⟩ := List.exists_cons_of_ne_nil prose.ne_nil
      obtain ⟨c, cs, rfl, hc⟩ := (prose.prose line List.mem_cons_self).head
      exact ⟨c, cs, lines ++ layout es, rfl, isBlank_of_isAlpha hc⟩
  | @item _ _ bullet _ _ _ =>
      refine ⟨'-', ' ' :: bullet.head, (layout bullet.inner).map (padLine 2) ++ layout es, ?_,
        by decide⟩
      rw [flush, layout_cons, lines, Bullet.lines_eq]
      rfl

/-- The source of an outline ends in something visible. -/
theorem last_layout {depth : Nat} {es : List Entry} (hne : es ≠ [])
    (h : ∀ e ∈ es, e.Fits depth) : EndsVisibly (joinNewlines (layout es)) := by
  obtain ⟨before, e, rfl⟩ := (List.eq_nil_or_concat' es).resolve_left hne
  obtain ⟨line, hline, last, hlast, hvisible⟩ := (h e (by simp)).last
  have hwhole : (layout (before ++ [e])).getLast? = some line := by
    rw [layout_append, layout_cons, layout_nil, List.append_nil, List.getLast?_append, hline]
    rfl
  exact ⟨last, getLast?_joinNewlines hwhole hlast, hvisible⟩

/-- Trimming the source of an outline, with newlines around it, leaves the source without the empty
lines in front. -/
theorem trim_layout {depth : Nat} {es : List Entry} (hne : es ≠ []) (h : ∀ e ∈ es, e.Fits depth)
    {after : List Char} (hafter : ∀ c ∈ after, isBlank c = true) :
    trim isBlank (unlines (layout es) ++ after) = joinNewlines (layout (flush es)) := by
  obtain ⟨gap, hgap⟩ := layout_flush es
  obtain ⟨c, cs, more, hlines, hc⟩ := head_layout_flush hne h
  have hflush : flush es ≠ [] := by
    rintro hnil
    rw [hnil] at hlines
    simp at hlines
  obtain ⟨last, hlast, hvisible⟩ := last_layout hflush (fits_flush h)
  have hfirst : ∀ d ∈ (joinNewlines (layout (flush es))).head?, isBlank d = false := by
    intro d hd
    have hhead : (joinNewlines (layout (flush es))).head? = some c := by
      rw [hlines]
      cases more with
      | nil => simp
      | cons line more => simp [joinNewlines_cons_cons]
    rw [Option.mem_unique hd hhead]
    exact hc
  have hblank : ∀ n, ∀ d ∈ List.replicate n '\n', isBlank d = true := by
    intro n d hd
    rw [List.eq_of_mem_replicate hd]
    decide
  rw [hgap, unlines_append, unlines_replicate, unlines_eq_joinNewlines (by simp [hlines]),
    List.append_assoc, List.append_assoc]
  refine trim_append_append (hblank gap) (fun d hd => ?_) hfirst fun d hd => ?_
  · rcases List.mem_append.mp hd with hd | hd
    · exact hblank 1 d hd
    · exact hafter d hd
  · rw [Option.mem_unique hd hlast]
    exact hvisible

end Entry

/-- The lines of an item end in something visible. -/
theorem endsVisibly_bullet {depth gap : Nat} {bullet : Bullet}
    (h : (Entry.item gap bullet).Fits depth) : EndsVisibly (joinNewlines bullet.lines) := by
  obtain ⟨line, hline, c, hc, hvisible⟩ := h.last
  have hlines : bullet.lines.getLast? = some line := by
    simpa [Entry.lines, Bullet.lines_eq, List.getLast?_append, List.getLast?_cons] using hline
  exact ⟨c, getLast?_joinNewlines hlines hc, hvisible⟩

/-- The source of an item is found again among the lines that it takes, whatever its indentation and
however many empty lines it takes along. -/
theorem sourceText_bullet {depth gap : Nat} {bullet : Bullet}
    (h : (Entry.item gap bullet).Fits depth) (indent blanks : Nat) :
    sourceText ((bullet.lines ++ List.replicate blanks []).map (lineAt indent))
      = String.ofList (joinNewlines bullet.lines) := by
  have hclean : ∀ line ∈ bullet.lines, CleanLine line :=
    fun line hline => h.cleanLine line (List.mem_append_right _ hline)
  have hsource : ((bullet.lines ++ List.replicate blanks []).map (lineAt indent)).map Line.source
      = (bullet.lines ++ List.replicate blanks []).map (padLine indent) := by
    rw [List.map_map]
    rfl
  -- the line of the bullet has no margin of its own, so the indentation is the margin of the item
  have hdedent : dedent ((bullet.lines ++ List.replicate blanks []).map (padLine indent))
      = bullet.lines ++ List.replicate blanks [] := by
    rw [Bullet.lines_eq] at hclean ⊢
    refine dedent_map_padLine indent (by decide) fun line hline => ?_
    rcases List.mem_append.mp hline with hline | hline
    · exact (hclean line (List.mem_cons_of_mem _ hline)).neat
    · rw [List.eq_of_mem_replicate hline]
      exact neat_nil
  have hblank : ∀ c ∈ List.replicate blanks '\n', isBlank c = true := by
    intro c hc
    rw [List.eq_of_mem_replicate hc]
    decide
  obtain ⟨last, hlast, hvisible⟩ := endsVisibly_bullet h
  rw [sourceText, hsource, hdedent, joinNewlines_append_replicate (by simp [Bullet.lines_eq]),
    trimEnd_append_of_all _ hblank, trimEnd_of_last]
  rintro c hc
  rw [Option.mem_unique hc hlast]
  exact hvisible

end DocComment.Markdown
