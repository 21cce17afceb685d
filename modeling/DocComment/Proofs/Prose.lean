import DocComment.Markdown.Reader
import DocComment.Proofs.TextLayout
import Mathlib

/-!
# Reading prose

A line that opens with a letter opens no block but a paragraph, and a hyphen in front of it opens a
list item and nothing else.  This module settles what the reader makes of such lines:
`readBlock_prose` for the lines of one paragraph, and `readsAs_cons` for one block in front of
others, where empty lines between blocks are counted and change nothing.
-/

namespace DocComment.Markdown

open Text Markup

/-! ## Prose -/

/-- A line of prose: it opens with a letter, so that it opens no other block, and it ends before any
blank. -/
structure Prose (cs : List Char) : Prop where
  head : ∃ c rest, cs = c :: rest ∧ c.isAlpha = true
  last : ∀ c ∈ cs.getLast?, isBlank c = false
  visible : ∀ c ∈ cs, c ≠ '\x00' ∧ c ≠ '\n' ∧ c ≠ '\r'

theorem Prose.ne_nil {cs : List Char} (h : Prose cs) : cs ≠ [] := by
  obtain ⟨c, rest, rfl, -⟩ := h.head
  simp

theorem Prose.neat {cs : List Char} (h : Prose cs) : Neat cs := by
  obtain ⟨c, rest, rfl, hc⟩ := h.head
  exact neat_cons (isBlank_of_isAlpha hc) rest

theorem isEdge_of_isBlank {c : Char} (h : isBlank c = false) : isEdge c = false := by
  simp [isBlank, inRanges, blankRanges] at h
  simp [isEdge, inRanges, edgeRanges]
  omega

/-- A text of prose: lines of prose, one at least. -/
structure ProseText (text : List (List Char)) : Prop where
  ne_nil : text ≠ []
  prose : ∀ line ∈ text, Prose line

theorem Prose.text {cs : List Char} (h : Prose cs) : ProseText [cs] :=
  ⟨by simp, by simpa using h⟩

/-- Lines that open and end with prose open and end with something visible. -/
theorem ends_joinNewlines {lines : List (List Char)}
    (hfirst : ∃ line, lines.head? = some line ∧ Prose line)
    (hlast : ∃ line, lines.getLast? = some line ∧ Prose line) :
    (∀ c ∈ (joinNewlines lines).head?, isBlank c = false)
      ∧ ∀ c ∈ (joinNewlines lines).getLast?, isBlank c = false := by
  constructor
  · obtain ⟨line, hline, hprose⟩ := hfirst
    obtain ⟨lines, rfl⟩ := List.head?_eq_some_iff.mp hline
    obtain ⟨c, cs, rfl, hc⟩ := hprose.head
    intro d hd
    have hhead : (joinNewlines ((c :: cs) :: lines)).head? = some c := by
      cases lines with
      | nil => simp
      | cons next lines => simp [joinNewlines_cons_cons]
    rw [Option.mem_unique hd hhead]
    exact isBlank_of_isAlpha hc
  · obtain ⟨line, hline, hprose⟩ := hlast
    obtain ⟨c, cs, hcons, -⟩ := hprose.head
    obtain ⟨last, hlast⟩ : ∃ last, line.getLast? = some last :=
      ⟨_, by rw [hcons, List.getLast?_cons]⟩
    intro d hd
    rw [Option.mem_unique hd (getLast?_joinNewlines hline hlast)]
    exact hprose.last last hlast

theorem ProseText.head {text : List (List Char)} (h : ProseText text) :
    ∃ line, text.head? = some line ∧ Prose line := by
  obtain ⟨line, lines, rfl⟩ := List.exists_cons_of_ne_nil h.ne_nil
  exact ⟨line, rfl, h.prose line List.mem_cons_self⟩

theorem ProseText.last {text : List (List Char)} (h : ProseText text) :
    ∃ line, text.getLast? = some line ∧ Prose line := by
  obtain ⟨lines, line, rfl⟩ := (List.eq_nil_or_concat' text).resolve_left h.ne_nil
  exact ⟨line, by simp, h.prose line (by simp)⟩

/-- Prose has no edges to trim. -/
theorem inlineText_prose {text : List (List Char)} (h : ProseText text) :
    inlineText (joinNewlines text) = String.ofList (joinNewlines text) := by
  obtain ⟨hfirst, hlast⟩ := ends_joinNewlines h.head h.last
  rw [inlineText, trim_of_ends (fun c hc => isEdge_of_isBlank (hfirst c hc))
    fun c hc => isEdge_of_isBlank (hlast c hc)]

/-- Paragraphs of prose open and end with prose. -/
theorem spaced_ends {texts : List (List (List Char))} (hne : texts ≠ [])
    (h : ∀ text ∈ texts, ProseText text) :
    (∃ line, (spaced texts).head? = some line ∧ Prose line)
      ∧ ∃ line, (spaced texts).getLast? = some line ∧ Prose line := by
  induction texts with
  | nil => exact absurd rfl hne
  | cons text texts ih =>
      have htext := h text List.mem_cons_self
      cases texts with
      | nil =>
          rw [spaced_singleton]
          exact ⟨htext.head, htext.last⟩
      | cons next texts =>
          obtain ⟨-, last, hlast, hprose⟩ :=
            ih (by simp) fun other hm => h other (List.mem_cons_of_mem text hm)
          obtain ⟨first, hfirst, hfirstprose⟩ := htext.head
          rw [spaced_cons_cons]
          exact ⟨⟨first, by simp [List.head?_append, hfirst], hfirstprose⟩,
            ⟨last, by simp [List.getLast?_append, List.getLast?_cons, hlast], hprose⟩⟩

/-! ## Lines of an outline -/

/-- A source line moved to the right, as the reader sees it outside of all containers. -/
def lineAt (indent : Nat) (cs : List Char) : Line :=
  Line.ofSource true (padLine indent cs)

theorem advance_replicate (column offset n : Nat) :
    advance column offset (List.replicate n ' ') = offset + n := by
  induction n generalizing offset with
  | zero => rfl
  | succ n ih =>
      have hstep : stepOffset column offset ' ' = offset + 1 := by simp [stepOffset]
      rw [List.replicate_succ, advance, List.foldl_cons, hstep, ← advance, ih]
      omega

theorem lineAt_nil (indent : Nat) :
    lineAt indent [] = { source := [], lead := [], body := [], width := 0 } := rfl

theorem ofSource_replicate (ended : Bool) (indent : Nat) {c : Char} {cs : List Char}
    (hc : isBlank c = false) (hvisible : ∀ x ∈ c :: cs, x ≠ '\x00') :
    Line.ofSource ended (List.replicate indent ' ' ++ c :: cs) = {
      source := List.replicate indent ' ' ++ c :: cs
      lead := List.replicate indent ' '
      body := c :: cs
      width := indent
      ended } := by
  have hindent : ∀ x ∈ List.replicate indent ' ', isIndent x = true := by
    intro x hx
    rw [List.eq_of_mem_replicate hx]
    rfl
  have hmap : (List.replicate indent ' ' ++ c :: cs).map Line.visible
      = List.replicate indent ' ' ++ c :: cs := by
    refine (List.map_congr_left fun x hx => ?_).trans (List.map_id _)
    rcases List.mem_append.mp hx with hx | hx
    · rw [List.eq_of_mem_replicate hx]
      rfl
    · simp [Line.visible, hvisible x hx]
  -- nothing in the line is replaced, so its lead is the spaces in front
  simp only [Line.ofSource, hmap]
  rw [List.takeWhile_append_of_pos hindent, List.dropWhile_append_of_pos hindent,
    List.takeWhile_cons_of_neg (by simp [isIndent_of_isBlank hc]),
    List.dropWhile_cons_of_neg (by simp [isIndent_of_isBlank hc]), List.append_nil,
    advance_replicate]
  simp

theorem lineAt_cons (indent : Nat) {c : Char} {cs : List Char} (hc : isBlank c = false)
    (hvisible : ∀ x ∈ c :: cs, x ≠ '\x00') :
    lineAt indent (c :: cs) = {
      source := List.replicate indent ' ' ++ c :: cs
      lead := List.replicate indent ' '
      body := c :: cs
      width := indent } := by
  rw [lineAt, padLine_cons indent hc, ofSource_replicate true indent hc hvisible]

/-! ## What prose and bullets open -/

/-- A letter opens no block but a paragraph. -/
theorem opens_nothing {c : Char} (h : c.isAlpha = true) (cs : List Char) :
    fence? (c :: cs) = none ∧ thematicBreak? (c :: cs) = none ∧ marker? (c :: cs) = none
      ∧ heading? (c :: cs) = none ∧ HtmlKind.opening? (c :: cs) = none := by
  have hne : ∀ d : Char, d.isAlpha = false → c ≠ d := fun d hd => ne_of_isAlpha h hd
  have hdigit : c.isDigit = false := by
    have hc := toNat_of_isAlpha h
    simp [Char.isDigit, UInt32.le_iff_toNat_le]
    omega
  refine ⟨?_, ?_, ?_, ?_, ?_⟩
  · simp [fence?, backtick, hne '\x60' rfl, hne '~' rfl]
  · simp [thematicBreak?, hne '*' rfl, hne '-' rfl, hne '_' rfl]
  · simp [marker?, orderedMarker?, bulletMarker?, hdigit, hne '*' rfl, hne '-' rfl, hne '+' rfl]
  · have hlevel : runLength '#' (c :: cs) = 0 := by
      rw [runLength, List.takeWhile_cons_of_neg (by simp [hne '#' rfl]), List.length_nil]
    rw [heading?, hlevel]
    rfl
  · unfold HtmlKind.opening?
    split
    · next heq => exact absurd (List.cons.inj heq).1 (hne '<' rfl)
    · rfl

/-- The marker of the items of an outline. -/
def hyphen (head : List Char) : Marker :=
  { kind := .bullet, sign := '-', number := 1, size := 1, rest := ' ' :: head }

/-- A hyphen and a space in front of a letter open a list item and nothing else. -/
theorem opens_item {c : Char} (h : c.isAlpha = true) (cs : List Char) :
    fence? ('-' :: ' ' :: c :: cs) = none ∧ thematicBreak? ('-' :: ' ' :: c :: cs) = none
      ∧ underline? ('-' :: ' ' :: c :: cs) = none
      ∧ marker? ('-' :: ' ' :: c :: cs) = some (hyphen (c :: cs)) := by
  have hindent := isIndent_of_isBlank (isBlank_of_isAlpha h)
  have hhyphen : c ≠ '-' := ne_of_isAlpha h rfl
  refine ⟨?_, ?_, ?_, ?_⟩
  · simp [fence?, backtick]
  · simp [thematicBreak?, hindent, hhyphen]
  · simp [underline?, hindent]
  · simp [marker?, orderedMarker?, bulletMarker?, mayFollowMarker, isIndent, hyphen]

/-! ## A paragraph -/

/-- Whether a paragraph ends before the lines: there are none, or the first of them neither
continues nor underlines it. -/
def EndsParagraph (around : Surroundings) (lines : List Line) : Prop :=
  ∀ line ∈ lines.head?,
    continuesParagraph around .paragraph line = false ∧ underlineLevel? around line = none

/-- A lead without tabs is as wide as it is long, so that much indentation takes all of it. -/
theorem dropIndent_of_length (column : Nat) {lead : List Char} (htab : ∀ c ∈ lead, c ≠ '\t') :
    ∀ {offset indent : Nat}, offset + lead.length = indent →
      dropIndent column indent offset lead = (indent, []) := by
  induction lead with
  | nil => simp [dropIndent]
  | cons c lead ih =>
      intro offset indent h
      have hstep : stepOffset column offset c = offset + 1 := by
        simp [stepOffset, htab c List.mem_cons_self]
      have hbelow : offset < indent := by
        rw [List.length_cons] at h
        omega
      rw [dropIndent, if_pos hbelow, hstep]
      refine ih (fun d hd => htab d (List.mem_cons_of_mem c hd)) ?_
      rw [List.length_cons] at h
      omega

/-- A line whose content is indented by so many columns, all of them taken by characters of its
lead. -/
structure Line.StartsAt (line : Line) (indent : Nat) : Prop where
  width : line.width = indent
  lead : line.lead.length = indent
  tabless : ∀ c ∈ line.lead, c ≠ '\t'

theorem Line.StartsAt.excerpt {line : Line} {indent : Nat} (h : line.StartsAt indent) :
    line.excerpt indent = line.body := by
  have hdrop : dropIndent line.column indent 0 line.lead = (indent, []) :=
    dropIndent_of_length line.column h.tabless (by rw [h.lead, Nat.zero_add])
  simp [Line.excerpt, hdrop]

theorem startsAt_ofSource (ended : Bool) (indent : Nat) {c : Char} {cs : List Char}
    (hc : isBlank c = false) (hvisible : ∀ x ∈ c :: cs, x ≠ '\x00') :
    (Line.ofSource ended (List.replicate indent ' ' ++ c :: cs)).StartsAt indent := by
  rw [ofSource_replicate ended indent hc hvisible]
  refine ⟨rfl, by simp, fun x hx => ?_⟩
  rw [List.eq_of_mem_replicate hx]
  decide

theorem definition?_eq_none {around : Surroundings} {line : Line} {c : Char} {cs : List Char}
    (hbody : line.body = c :: cs) (hc : c.isAlpha = true) (following : List Line) :
    definition? around (line :: following) = none := by
  have htext : contentText (definitionLines around (line :: following))
      = c :: (cs ++ line.ending
          ++ contentText (following.takeWhile (continuesParagraph around .definition))) := by
    simp [definitionLines, contentText, hbody]
  -- a definition opens with a bracket
  rw [definition?, htext]
  split
  · next heq => exact absurd (List.cons.inj heq).1 (ne_of_isAlpha hc rfl)
  · rfl

/-- A line of prose goes on with a paragraph. -/
theorem continuesParagraph_prose {around : Surroundings} {line : Line} (hprose : Prose line.body)
    (hstart : line.StartsAt around.indent) :
    continuesParagraph around .paragraph line = true ∧ underlineLevel? around line = none := by
  obtain ⟨c, cs, hbody, hc⟩ := hprose.head
  obtain ⟨hfence, hbreak, hmarker, hheading, hhtml⟩ := opens_nothing hc cs
  have hcode : line.isCode around.indent = false := by simp [Line.isCode, hstart.width]
  have hquote : opensQuote line = false := by
    simp [opensQuote, hbody, ne_of_isAlpha hc (d := '>') rfl]
  have hitem : itemMarker? around line = none := by simp [itemMarker?, hbody, hmarker]
  constructor
  · simp [continuesParagraph, interrupts, opensItem, opensHtml, Line.isEmpty, hcode, hquote, hitem,
      hbody, hfence, hbreak, hheading, hhtml]
  · have hunderline : underline? (c :: cs) = none := by
      simp [underline?, ne_of_isAlpha hc (d := '=') rfl, ne_of_isAlpha hc (d := '-') rfl]
    rw [underlineLevel?, hbody, hunderline]
    simp

/-- The lines of a paragraph of this text, where the content is indented so far. -/
structure IsTextAt (indent : Nat) (text : List (List Char)) (lines : List Line) : Prop where
  bodies : lines.map Line.body = text
  starts : ∀ line ∈ lines, line.StartsAt indent

/-- A paragraph goes on as far as lines continue it and none underlines it. -/
theorem paragraph_of_continues {around : Surroundings} (line : Line) {more rest : List Line}
    (hmore : ∀ other ∈ more, continuesParagraph around .paragraph other = true
      ∧ underlineLevel? around other = none) (hends : EndsParagraph around rest) :
    paragraph around line (more ++ rest) (more ++ rest) = {
      blocks := [.paragraph (paragraphText around.indent (line :: more))]
      used := more.length + 1 } := by
  have hunderlined : underlined? around (more ++ rest) = none := by
    induction more with
    | nil =>
        cases rest with
        | nil => rfl
        | cons next rest =>
            obtain ⟨hstops, hunderline⟩ := hends next rfl
            simp [underlined?, hstops, hunderline]
    | cons other more ih =>
        have hrest := ih fun l hl => hmore l (List.mem_cons_of_mem other hl)
        obtain ⟨hcontinues, hunderline⟩ := hmore other List.mem_cons_self
        simp [underlined?, hunderline, hcontinues, hrest]
  have hrest : rest.takeWhile (continuesParagraph around .paragraph) = [] := by
    cases rest with
    | nil => rfl
    | cons next rest => exact List.takeWhile_cons_of_neg (by simp [(hends next rfl).1])
  rw [paragraph, hunderlined, List.takeWhile_append_of_pos fun other hm => (hmore other hm).1,
    hrest, List.append_nil]
  rfl

/-- A paragraph of prose goes on as far as there is prose. -/
theorem paragraph_prose {around : Surroundings} (line : Line) {more rest : List Line}
    (hprose : ∀ other ∈ more, Prose other.body)
    (hstart : ∀ other ∈ more, other.StartsAt around.indent) (hends : EndsParagraph around rest) :
    paragraph around line (more ++ rest) (more ++ rest) = {
      blocks := [.paragraph (paragraphText around.indent (line :: more))]
      used := more.length + 1 } :=
  paragraph_of_continues line
    (fun other hm => continuesParagraph_prose (hprose other hm) (hstart other hm)) hends

/-- Lines of prose are read as a paragraph of their own where the lines behind them end the
paragraph. -/
theorem readBlock_prose (read : ContentReader) {around : Surroundings} {line : Line}
    {more rest : List Line} {text : List (List Char)} (hprose : ProseText text)
    (htext : IsTextAt around.indent text (line :: more)) (hends : EndsParagraph around rest) :
    readBlock read around line (more ++ rest) ((more ++ rest).length + 1)
      = .ok { blocks := [.paragraph (String.ofList (joinNewlines text))]
              used := more.length + 1 } := by
  have hbodies : ∀ other ∈ line :: more, Prose other.body := by
    intro other hm
    apply hprose.prose
    rw [← htext.bodies]
    exact List.mem_map_of_mem hm
  have hline := hbodies line List.mem_cons_self
  have hstart := htext.starts line List.mem_cons_self
  obtain ⟨c, cs, hbody, hc⟩ := hline.head
  obtain ⟨hfence, hbreak, hmarker, hheading, hhtml⟩ := opens_nothing hc cs
  have hcode : line.isCode around.indent = false := by simp [Line.isCode, hstart.width]
  have hquote : opensQuote line = false := by
    simp [opensQuote, hbody, ne_of_isAlpha hc (d := '>') rfl]
  have hitem : itemMarker? around line = none := by simp [itemMarker?, hbody, hmarker]
  have hexcerpts : (line :: more).map (Line.excerpt around.indent) = text := by
    rw [← htext.bodies]
    exact List.map_congr_left fun other hm => (htext.starts other hm).excerpt
  have hparagraph := paragraph_prose line
    (fun other hm => hbodies other (List.mem_cons_of_mem line hm))
    (fun other hm => htext.starts other (List.mem_cons_of_mem line hm)) hends
  rw [paragraphText, hexcerpts, inlineText_prose hprose] at hparagraph
  have hwithin : (more ++ rest).take ((more ++ rest).length + 1 - 1) = more ++ rest := by simp
  rw [readBlock, hwithin]
  simp only [leaf, hcode, hquote, hitem, hbody, hfence, hbreak, hheading, hhtml,
    definition?_eq_none hbody hc, hparagraph, Bool.false_eq_true, if_false]
  rfl

/-! ## Blocks one after the other -/

section Sequence

variable {limit : Int} {read : ContentReader} {around : Surroundings} {bound : Nat}

/-- An empty line in front is counted and changes nothing else. -/
theorem readBlocks_empty {line : Line} (hempty : line.isEmpty = true) (lines : List Line) :
    readBlocks (some limit) read around (bound + 1) (line :: lines) (lines.length + 1)
      = (readBlocks (some limit) read around (bound + 1) lines lines.length).map
          fun found => { found with used := found.used + 1 } := by
  have htake : (line :: lines).takeWhile Line.isEmpty = line :: lines.takeWhile Line.isEmpty :=
    List.takeWhile_cons_of_pos hempty
  have hnone : lines.length = 0 → (lines.takeWhile Line.isEmpty).length = 0 := by
    intro h
    rw [List.eq_nil_of_length_eq_zero h]
    rfl
  simp only [readBlocks, htake, List.length_cons, List.drop_succ_cons, Nat.add_sub_add_right]
  split
  · next next following count _ hcount =>
      by_cases houtside : next.isOutside around.indent
      · simp [houtside, Except.map, pure, Except.pure]
      by_cases hroom : limit ≤ around.level
      · simp [houtside, hroom, Except.map, pure, Except.pure]
        omega
      simp only [houtside, hroom, if_false, Except.map, bind, Except.bind, pure, Except.pure,
        Bool.false_eq_true]
      cases readBlock read around next following (count + 1) with
      | error error => rfl
      | ok found =>
          simp only
          split <;> simp_all
          omega
  · by_cases hlines : lines.length = 0
    · simp [hlines, hnone hlines, Except.map, pure, Except.pure]
    · simp [hlines, Except.map, pure, Except.pure]

/-- Whether the lines, all of them in the container, are read so in any number of steps that is
enough for them. -/
def ReadsAs (limit : Int) (read : ContentReader) (around : Surroundings) (lines : List Line)
    (found : Found) : Prop :=
  ∀ bound, lines.length ≤ bound →
    readBlocks (some limit) read around bound lines lines.length = .ok found

/-- What is found may be written in another form. -/
theorem ReadsAs.of_eq {lines : List Line} {found : Found}
    (h : ReadsAs limit read around lines found) {blocks : List Block} {used : Nat}
    (hblocks : found.blocks = blocks) (hused : found.used = used) :
    ReadsAs limit read around lines { blocks, used } := by
  subst hblocks hused
  exact h

theorem readsAs_nil : ReadsAs limit read around [] { blocks := [], used := 0 } := by
  intro bound _
  cases bound <;> rfl

theorem readsAs_empty {line : Line} (hempty : line.isEmpty = true) {lines : List Line}
    {found : Found} (h : ReadsAs limit read around lines found) :
    ReadsAs limit read around (line :: lines) { found with used := found.used + 1 } := by
  intro bound hbound
  rw [List.length_cons] at hbound ⊢
  obtain ⟨bound, rfl⟩ : ∃ b, bound = b + 1 := ⟨bound - 1, by omega⟩
  rw [readBlocks_empty hempty, h (bound + 1) (by omega)]
  rfl

/-- Reading ends before a line that is outside. -/
theorem readsAs_outside {line : Line} (hempty : line.isEmpty = false)
    (houtside : line.isOutside around.indent = true) (lines : List Line) :
    ReadsAs limit read around (line :: lines) { blocks := [], used := 0 } := by
  intro bound _
  cases bound with
  | zero => rfl
  | succ bound =>
      have htake : (line :: lines).takeWhile Line.isEmpty = [] :=
        List.takeWhile_cons_of_neg (by simp [hempty])
      simp [readBlocks, htake, houtside]
      rfl

/-- One step: a block that takes its first line and the lines `front`, and then the blocks of the
lines behind them. -/
theorem readsAs_cons {line : Line} (front : List Line) {rest : List Line} {found more : Found}
    (hempty : line.isEmpty = false) (hinside : line.isOutside around.indent = false)
    (hroom : around.level < limit)
    (hblock : readBlock read around line (front ++ rest) ((front ++ rest).length + 1) = .ok found)
    (hused : found.used = front.length + 1) (hrest : ReadsAs limit read around rest more) :
    ReadsAs limit read around (line :: (front ++ rest))
      { blocks := found.blocks ++ more.blocks, used := found.used + more.used } := by
  intro bound hbound
  rw [List.length_cons] at hbound ⊢
  obtain ⟨bound, rfl⟩ : ∃ b, bound = b + 1 := ⟨bound - 1, by omega⟩
  have hbehind : rest.length ≤ bound := by
    rw [List.length_append] at hbound
    omega
  have hread := hrest bound hbehind
  have htake : (line :: (front ++ rest)).takeWhile Line.isEmpty = [] :=
    List.takeWhile_cons_of_neg (by simp [hempty])
  have hdrop : (line :: (front ++ rest)).drop (front.length + 1) = rest := by simp
  have hroom' : ¬limit ≤ around.level := by omega
  simp only [readBlocks, htake, List.length_nil, List.drop_zero, Nat.sub_zero, hinside,
    Bool.false_eq_true, if_false, hroom', hblock, bind, Except.bind]
  cases rest with
  | nil =>
      have hblank : withBlank (line :: (front ++ [])) ((front ++ []).length + 1) found.used
          = front.length + 1 := by simp [withBlank, hused]
      have hleft : (front ++ []).length + 1 - (front.length + 1) = ([] : List Line).length := by
        simp
      rw [hblank, hdrop, hleft, hread]
      simp [hused, pure, Except.pure]
  | cons next rest =>
      by_cases hnext : next.isEmpty
      · -- an empty line behind the block goes with it; it would be counted all the same
        have hblank : withBlank (line :: (front ++ next :: rest))
            ((front ++ next :: rest).length + 1) found.used = front.length + 1 + 1 := by
          simp [withBlank, hused, hnext]
        have hdrop' : (line :: (front ++ next :: rest)).drop (front.length + 1 + 1) = rest := by
          rw [← List.drop_drop, hdrop]
          rfl
        have hleft : (front ++ next :: rest).length + 1 - (front.length + 1 + 1) = rest.length := by
          simp
          omega
        obtain ⟨bound, rfl⟩ : ∃ b, bound = b + 1 := ⟨bound - 1, by simp at hbehind; omega⟩
        rw [List.length_cons, readBlocks_empty hnext] at hread
        rw [hblank, hdrop', hleft]
        cases htail : readBlocks (some limit) read around (bound + 1) rest rest.length with
        | error error => simp [htail, Except.map] at hread
        | ok tail =>
            obtain rfl : { tail with used := tail.used + 1 } = more := by
              simpa [htail, Except.map] using hread
            simp [hused, pure, Except.pure]
            omega
      · have hblank : withBlank (line :: (front ++ next :: rest))
            ((front ++ next :: rest).length + 1) found.used = front.length + 1 := by
          simp [withBlank, hused, hnext]
        have hleft : (front ++ next :: rest).length + 1 - (front.length + 1)
            = (next :: rest).length := by simp
        rw [hblank, hdrop, hleft, hread]
        simp [hused, pure, Except.pure]

/-- Lines of prose in front of lines that end the paragraph are read as a paragraph in front of
their blocks. -/
theorem readsAs_prose {text : List (List Char)} (hprose : ProseText text) {lines rest : List Line}
    {more : Found} (htext : IsTextAt around.indent text lines) (hends : EndsParagraph around rest)
    (hroom : around.level < limit) (hmore : ReadsAs limit read around rest more) :
    ReadsAs limit read around (lines ++ rest) {
      blocks := .paragraph (String.ofList (joinNewlines text)) :: more.blocks
      used := lines.length + more.used } := by
  cases lines with
  | nil => exact absurd htext.bodies.symm hprose.ne_nil
  | cons line lines =>
      obtain ⟨c, cs, hbody, -⟩ : ∃ c cs, line.body = c :: cs ∧ c.isAlpha = true := by
        apply (hprose.prose line.body _).head
        rw [← htext.bodies]
        exact List.mem_cons_self
      have hempty : line.isEmpty = false := by
        rw [Line.isEmpty, hbody]
        rfl
      have hinside : line.isOutside around.indent = false := by
        simp [Line.isOutside, (htext.starts line List.mem_cons_self).width]
      exact readsAs_cons lines hempty hinside hroom
        (readBlock_prose read hprose htext hends) rfl hmore

end Sequence

/-! ## Paragraphs one after the other -/

/-- An empty line, which is the same at every indentation. -/
def emptyLine : Line := lineAt 0 []

theorem endsParagraph_empty (around : Surroundings) (lines : List Line) :
    EndsParagraph around (emptyLine :: lines) := by
  rintro _ ⟨⟩
  constructor
  · rfl
  · rw [underlineLevel?]
    split <;> rfl

theorem ofSource_prose {cs : List Char} (h : Prose cs) (ended : Bool) :
    (Line.ofSource ended cs).body = cs ∧ (Line.ofSource ended cs).StartsAt 0 := by
  obtain ⟨c, rest, rfl, hc⟩ := h.head
  have hblank := isBlank_of_isAlpha hc
  have hvisible : ∀ x ∈ c :: rest, x ≠ '\x00' := fun x hx => (h.visible x hx).1
  constructor
  · exact congrArg Line.body (ofSource_replicate ended 0 hblank hvisible)
  · exact startsAt_ofSource ended 0 hblank hvisible

theorem linesOfParts_append (parts : List (List Char)) {more : List (List Char)} (h : more ≠ []) :
    linesOfParts (parts ++ more) = parts.map (Line.ofSource true) ++ linesOfParts more := by
  induction parts with
  | nil => rfl
  | cons part parts ih =>
      obtain ⟨next, rest, hnext⟩ := List.exists_cons_of_ne_nil
        (show parts ++ more ≠ [] by simp [h])
      rw [List.cons_append, List.map_cons, List.cons_append, ← ih, hnext]
      rfl

theorem isTextAt_ofSource {text : List (List Char)} (h : ∀ line ∈ text, Prose line) :
    IsTextAt 0 text (text.map (Line.ofSource true)) where
  bodies := by
    rw [List.map_map]
    exact (List.map_congr_left fun line hm => (ofSource_prose (h line hm) true).1).trans
      (List.map_id _)
  starts := by
    intro line hline
    obtain ⟨cs, hcs, rfl⟩ := List.mem_map.mp hline
    exact (ofSource_prose (h cs hcs) true).2

/-- At the end of a text the last line is not ended, which makes no difference to a paragraph. -/
theorem isTextAt_linesOfParts {text : List (List Char)} (h : ProseText text) :
    IsTextAt 0 text (linesOfParts text) := by
  obtain ⟨lines, last, rfl⟩ := (List.eq_nil_or_concat' text).resolve_left h.ne_nil
  have hlast := h.prose last (by simp)
  have hfront := isTextAt_ofSource fun line hm => h.prose line (List.mem_append_left [last] hm)
  obtain ⟨hbody, hstart⟩ := ofSource_prose hlast false
  have hvisible : last.all isIndent = false := hlast.neat.not_all_isIndent hlast.ne_nil
  have hline : linesOfParts [last] = [Line.ofSource false last] := by
    rw [linesOfParts, hvisible]
    rfl
  rw [linesOfParts_append lines (by simp), hline]
  constructor
  · rw [List.map_append, hfront.bodies, List.map_singleton, hbody]
  · intro line hm
    rcases List.mem_append.mp hm with hm | hm
    · exact hfront.starts line hm
    · rw [List.mem_singleton.mp hm]
      exact hstart

/-- Texts of prose with an empty line between any two are read as a paragraph each. -/
theorem readsAs_paragraphs {limit : Int} (read : ContentReader) {texts : List (List (List Char))}
    (hprose : ∀ text ∈ texts, ProseText text) (hlimit : 0 < limit) :
    ReadsAs limit read {} (linesOfParts (spaced texts)) {
      blocks := texts.map fun text => .paragraph (String.ofList (joinNewlines text))
      used := (linesOfParts (spaced texts)).length } := by
  induction texts with
  | nil => exact readsAs_nil
  | cons text texts ih =>
      have htext : ProseText text := hprose text List.mem_cons_self
      have hothers : ∀ other ∈ texts, ProseText other :=
        fun other hm => hprose other (List.mem_cons_of_mem _ hm)
      have hrest := ih hothers
      cases texts with
      | nil =>
          have hends : EndsParagraph {} [] := by simp [EndsParagraph]
          have hread := readsAs_prose htext (isTextAt_linesOfParts htext) hends hlimit hrest
          rw [List.append_nil] at hread
          rw [spaced_singleton]
          exact hread
      | cons next texts =>
          have hne : spaced (next :: texts) ≠ [] :=
            spaced_ne_nil (by simp) fun other hm => (hothers other hm).ne_nil
          have hlines : linesOfParts (spaced (text :: next :: texts))
              = text.map (Line.ofSource true)
                ++ emptyLine :: linesOfParts (spaced (next :: texts)) := by
            rw [spaced_cons_cons, linesOfParts_append text (by simp),
              ← List.singleton_append, linesOfParts_append [[]] hne]
            rfl
          have hread := readsAs_prose htext (isTextAt_ofSource htext.prose)
            (endsParagraph_empty {} _) hlimit
            (readsAs_empty (show emptyLine.isEmpty = true from rfl) hrest)
          rw [hlines]
          exact hread.of_eq rfl (by simp)

/-- Reading a text is reading its lines. -/
theorem read_of_readsAs {limit : Int} {source : List Char} {found : Found} (hcr : '\r' ∉ source)
    (h : ReadsAs limit (readContent (some limit) containerCapacity) {} (linesOf source) found) :
    Markdown.read (some limit) (String.ofList source)
      = .ok { text := String.ofList source, children := found.blocks } := by
  have hsource : readSource (some limit) source = .ok found.blocks := by
    rw [readSource]
    show (readBlocks (some limit) (readContent (some limit) containerCapacity) {}
      (linesOf source).length (linesOf source) (linesOf source).length >>= _) = _
    rw [h _ (le_refl _)]
    rfl
  rw [Markdown.read, String.toList_ofList, unifyNewlines_of_notMem hcr, hsource]
  rfl

/-- **Paragraphs of prose are read back.** -/
theorem read_paragraphs {limit : Int} (hlimit : 0 < limit) {texts : List (List (List Char))}
    (hprose : ∀ text ∈ texts, ProseText text) :
    Markdown.read (some limit) (String.ofList (joinNewlines (spaced texts)))
      = .ok { text := String.ofList (joinNewlines (spaced texts))
              children :=
                texts.map fun text => .paragraph (String.ofList (joinNewlines text)) } := by
  have hline : ∀ line ∈ spaced texts, '\n' ∉ line ∧ '\r' ∉ line := by
    intro line hmem
    rcases mem_spaced hmem with ⟨text, htext, hmem⟩ | rfl
    · have hvisible := ((hprose text htext).prose line hmem).visible
      exact ⟨fun hc => (hvisible _ hc).2.1 rfl, fun hc => (hvisible _ hc).2.2 rfl⟩
    · simp
  have hcr : '\r' ∉ joinNewlines (spaced texts) := by
    intro hc
    obtain hc | ⟨line, hmem, hc⟩ := mem_joinNewlines hc
    · exact absurd hc (by decide)
    · exact (hline line hmem).2 hc
  have hlines : linesOf (joinNewlines (spaced texts)) = linesOfParts (spaced texts) := by
    cases texts with
    | nil => rfl
    | cons text texts =>
        have hne := spaced_ne_nil (List.cons_ne_nil text texts) fun other hm =>
          (hprose other hm).ne_nil
        rw [linesOf, splitNewlines_joinNewlines hne fun line hmem => (hline line hmem).1]
  have hread := readsAs_paragraphs (readContent (some limit) containerCapacity) hprose hlimit
  rw [← hlines] at hread
  exact read_of_readsAs hcr hread

end DocComment.Markdown
