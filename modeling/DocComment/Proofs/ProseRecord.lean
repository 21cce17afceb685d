import DocComment.Documentation.Markup
import DocComment.Proofs.FieldText
import DocComment.Proofs.OutlineReader
import Mathlib

/-!
# Records in prose

A record is in prose if its texts are paragraphs whose lines open with letters.  Every such record
has an `outline`: a paragraph for its summary and for each paragraph of its discussion, and a bullet
for each callout and each field, the parameters in one section.

`Documentation.IsProse.markup_eq` says that writing the record down is laying this outline out, and
`Documentation.IsProse.read_markup` that the reader of Markdown finds the blocks of the outline
again.
-/

namespace DocComment

open Text Markdown

/-! ## Records in prose -/

/-- A text in prose: one paragraph, all lines of which are prose. -/
def IsProse (text : String) : Prop :=
  ProseText (splitNewlines text.toList)

/-- A body in prose: paragraphs with an empty line between any two. -/
def IsProseBody (text : String) : Prop :=
  ∃ texts, (∀ text ∈ texts, IsParagraph text) ∧ text = String.ofList (bodyText texts)

/-- A document in prose: a body in prose, and the paragraphs of the body. -/
def Document.IsProse (document : Document) : Prop :=
  ∃ texts, (∀ text ∈ texts, IsParagraph text) ∧ document = {
    text := String.ofList (bodyText texts)
    children := texts.map fun text => .paragraph (String.ofList (joinNewlines text)) }

/-- A part of a discussion in prose: a callout with such a body, or a paragraph. -/
def Part.IsProse : Part → Prop
  | .callout c => IsProseBody c.content
  | .block (.paragraph text) => DocComment.IsProse text
  | .block _ => False

/-- A record in prose.  Without a summary the discussion must not open with a paragraph, which would
be read as the summary. -/
structure Documentation.IsProse (d : Documentation) : Prop where
  summary : ∀ block ∈ d.summary, ∃ text, block = .paragraph text ∧ DocComment.IsProse text
  discussion : ∀ part ∈ d.discussion, part.IsProse
  opening : d.summary = none → ∀ part ∈ d.discussion.head?, ∃ callout, part = .callout callout
  parameters : ∀ parameter ∈ d.parameters,
    IsName parameter.name.toList ∧ parameter.content.IsProse
  returns : ∀ document ∈ d.returns, document.IsProse
  throws : ∀ document ∈ d.throws, document.IsProse

theorem IsProse.ne_empty {text : String} (h : IsProse text) : text ≠ "" := by
  rintro rfl
  exact (h.prose [] (by simp [splitNewlines])).ne_nil rfl

/-! ## Bodies -/

/-- The paragraphs of a body: its lines, cut at the empty ones. -/
def bodyTexts (text : String) : List (List (List Char)) :=
  ((splitNewlines text.toList).splitOn []).filter fun lines => !lines.isEmpty

/-- The document that a body is read as. -/
def bodyDocument (text : String) : Document where
  text := text
  children := (bodyTexts text).map fun lines => .paragraph (String.ofList (joinNewlines lines))

theorem bodyTexts_bodyText {texts : List (List (List Char))}
    (h : ∀ text ∈ texts, IsParagraph text) :
    bodyTexts (String.ofList (bodyText texts)) = texts := by
  have hne : ∀ text ∈ texts, text ≠ [] := fun text hm => (h text hm).ne_nil
  have hkept : texts.filter (fun lines => !lines.isEmpty) = texts := by
    rw [List.filter_eq_self]
    intro text hm
    simpa using hne text hm
  have hempty : ∀ text ∈ texts, [] ∉ text :=
    fun text hm hline => ((h text hm).lines [] hline).prose.ne_nil rfl
  have hlines : ∀ line ∈ spaced texts, '\n' ∉ line := by
    intro line hline
    rcases mem_spaced hline with ⟨text, htext, hline⟩ | rfl
    · exact ((h text htext).lines line hline).notMem_newline
    · simp
  rw [bodyTexts, String.toList_ofList]
  by_cases hsome : texts = []
  · rw [hsome]
    rfl
  · rw [bodyText, splitNewlines_joinNewlines (spaced_ne_nil hsome hne) hlines, spaced,
      List.splitOn_intercalate [] hempty hsome, hkept]

theorem IsProseBody.spec {text : String} (h : IsProseBody text) :
    (∀ lines ∈ bodyTexts text, IsParagraph lines)
      ∧ String.ofList (bodyText (bodyTexts text)) = text := by
  obtain ⟨texts, htexts, rfl⟩ := h
  rw [bodyTexts_bodyText htexts]
  exact ⟨htexts, rfl⟩

theorem IsProseBody.prose {text : String} (h : IsProseBody text) :
    ∀ lines ∈ bodyTexts text, ProseText lines :=
  fun lines hlines => (h.spec.1 lines hlines).prose

theorem Document.IsProse.spec {document : Document} (h : document.IsProse) :
    IsProseBody document.text ∧ bodyDocument document.text = document := by
  obtain ⟨texts, htexts, rfl⟩ := h
  refine ⟨⟨texts, htexts, rfl⟩, ?_⟩
  rw [bodyDocument, bodyTexts_bodyText htexts]

/-- A body in prose is read as its document. -/
theorem read_proseBody {text : String} (h : IsProseBody text) :
    Markdown.read defaultLimit text = .ok (bodyDocument text) := by
  have hread := read_paragraphs (show (0 : Int) < 20 by decide) h.prose
  rw [← bodyText, h.spec.2] at hread
  exact hread

/-! ## The outline of a record -/

/-- The entry of a paragraph. -/
def Block.entry (block : Block) : Entry :=
  .paragraph 1 (splitNewlines block.text.toList)

/-- The entry of a part of a discussion. -/
def Part.entry : Part → Entry
  | .callout c => .item 1 (.field c.label.displayName.toList (bodyTexts c.content))
  | .block b => b.entry

/-- The bullet of a parameter. -/
def Parameter.bullet (parameter : Parameter) : Bullet :=
  .field parameter.name.toList (bodyTexts parameter.content.text)

/-- The bullet of a section with these parameters. -/
def sectionBullet (parameters : List Parameter) : Bullet where
  head := "Parameters:".toList
  inner := parameters.map fun parameter => .item 0 parameter.bullet

/-- The bullets of the fields at the end of a record. -/
def Documentation.fieldBullets (d : Documentation) : List Bullet :=
  (if d.parameters.isEmpty then [] else [sectionBullet d.parameters])
    ++ d.throws.toList.map (fun document => Bullet.field "Throws".toList (bodyTexts document.text))
    ++ d.returns.toList.map
        (fun document => Bullet.field "Returns".toList (bodyTexts document.text))

/-- Bullets without empty lines between them, and with one in front of them. -/
def bulletEntries : List Bullet → List Entry
  | [] => []
  | bullet :: bullets => .item 1 bullet :: bullets.map (.item 0)

/-- The outline of a record below its summary. -/
def Documentation.outlineBelow (d : Documentation) : List Entry :=
  d.discussion.map Part.entry ++ bulletEntries d.fieldBullets

/-- The outline of a record. -/
def Documentation.outline (d : Documentation) : List Entry :=
  d.summary.toList.map Block.entry ++ d.outlineBelow

/-! ### What is in it -/

theorem isName_displayName (label : CalloutLabel) : IsName label.displayName.toList :=
  IsPlainLine.isName (by cases label <;> decide)

theorem isName_parameters : IsName "Parameters".toList :=
  IsPlainLine.isName (by decide)

theorem isName_throws : IsName "Throws".toList :=
  IsPlainLine.isName (by decide)

theorem isName_returns : IsName "Returns".toList :=
  IsPlainLine.isName (by decide)

theorem fits_sectionBullet {parameters : List Parameter}
    (h : ∀ parameter ∈ parameters, IsName parameter.name.toList ∧ parameter.content.IsProse)
    (gap : Nat) : (Entry.item gap (sectionBullet parameters)).Fits 2 := by
  refine .item (prose_colon isName_parameters.line.prose) (fun e he => ?_)
    (fun e he => ?_)
  · obtain ⟨parameter, -, rfl⟩ := List.mem_map.mp he
    trivial
  · obtain ⟨parameter, hparameter, rfl⟩ := List.mem_map.mp he
    obtain ⟨hname, hcontent⟩ := h parameter hparameter
    exact fits_field hname.line.prose hcontent.spec.1.prose 0 0

namespace Documentation

variable {d : Documentation}

theorem IsProse.fits_fieldBullets (h : d.IsProse) (gap : Nat) :
    ∀ bullet ∈ d.fieldBullets, (Entry.item gap bullet).Fits 2 := by
  intro bullet hbullet
  simp only [fieldBullets, List.mem_append, List.mem_map, Option.mem_toList] at hbullet
  obtain (hsection | ⟨document, hdocument, rfl⟩) | ⟨document, hdocument, rfl⟩ := hbullet
  · split at hsection
    · simp at hsection
    · rw [List.mem_singleton.mp hsection]
      exact fits_sectionBullet h.parameters gap
  · exact fits_field isName_throws.line.prose (h.throws document hdocument).spec.1.prose 1 gap
  · exact fits_field isName_returns.line.prose (h.returns document hdocument).spec.1.prose 1 gap

theorem fits_bulletEntries {bullets : List Bullet}
    (h : ∀ gap, ∀ bullet ∈ bullets, (Entry.item gap bullet).Fits 2) :
    ∀ e ∈ bulletEntries bullets, e.Fits 2 ∧ e.Apart := by
  cases bullets with
  | nil => simp [bulletEntries]
  | cons bullet bullets =>
      intro e he
      rcases List.mem_cons.mp he with rfl | he
      · exact ⟨h 1 bullet List.mem_cons_self, trivial⟩
      · obtain ⟨other, hother, rfl⟩ := List.mem_map.mp he
        exact ⟨h 0 other (List.mem_cons_of_mem bullet hother), trivial⟩

theorem fits_entry {part : Part} (h : part.IsProse) : part.entry.Fits 2 ∧ part.entry.Apart := by
  cases part with
  | callout c =>
      exact ⟨fits_field (isName_displayName c.label).line.prose (IsProseBody.prose h) 1 1, trivial⟩
  | block b =>
      cases b with
      | paragraph text => exact ⟨.paragraph h, Nat.one_pos⟩
      | _ => exact h.elim

/-- The outline of a record in prose is made of prose, with a section as the deepest list, and its
entries stand apart. -/
theorem IsProse.fits_outline (h : d.IsProse) : ∀ e ∈ d.outline, e.Fits 2 ∧ e.Apart := by
  intro e he
  rcases List.mem_append.mp he with he | he
  · obtain ⟨block, hblock, rfl⟩ := List.mem_map.mp he
    obtain ⟨text, rfl, htext⟩ := h.summary block (Option.mem_toList.mp hblock)
    exact ⟨.paragraph htext, Nat.one_pos⟩
  rcases List.mem_append.mp he with he | he
  · obtain ⟨part, hpart, rfl⟩ := List.mem_map.mp he
    exact fits_entry (h.discussion part hpart)
  · exact fits_bulletEntries h.fits_fieldBullets e he

end Documentation

/-! ### How it is written -/

theorem unlines_field (name : List Char) {texts : List (List (List Char))}
    (htexts : ∀ text ∈ texts, ProseText text) (indent : Nat) :
    unlines ((Bullet.field name texts).lines.map (Markup.padLine indent))
      = List.replicate indent ' ' ++ '-' :: ' ' :: (name ++ ':' ::
          ((Markup.fieldBody (indent + 2) (String.ofList (bodyText texts))).toList ++ ['\n'])) := by
  rw [unlines_eq_joinNewlines (by simp [Bullet.lines_eq]), ← field_markup name htexts indent]
  simp

theorem map_padLine_zero {depth gap : Nat} {bullet : Bullet}
    (h : (Entry.item gap bullet).Fits depth) :
    bullet.lines.map (Markup.padLine 0) = bullet.lines := by
  refine (List.map_congr_left fun line hline => ?_).trans (List.map_id _)
  exact padLine_zero (h.cleanLine line (List.mem_append_right _ hline)).neat

/-- A field with its bullet in the first column. -/
theorem unlines_topField {name : List Char} (hname : Prose name) {text : String}
    (h : IsProseBody text) :
    unlines (Bullet.field name (bodyTexts text)).lines
      = '-' :: ' ' :: (name ++ ':' :: ((Markup.fieldBody 2 text).toList ++ ['\n'])) := by
  have hwritten := unlines_field name h.prose 0
  rw [map_padLine_zero (fits_field hname h.prose 0 0), h.spec.2] at hwritten
  exact hwritten

/-- A parameter is written below the heading of its section. -/
theorem parameterLine_eq {parameter : Parameter} (h : parameter.content.IsProse) :
    Sheet.parameterLine parameter.markup
      = unlines (parameter.bullet.lines.map (Markup.padLine 2)) := by
  rw [Parameter.bullet, unlines_field parameter.name.toList h.spec.1.prose 2, h.spec.1.spec.2]
  simp only [Sheet.parameterLine, Parameter.markup, Markup.field, String.toList_append,
    List.append_assoc]
  rfl

theorem parameterSection_eq {parameters : List Parameter}
    (h : ∀ parameter ∈ parameters, parameter.content.IsProse) :
    Sheet.parameterSection (parameters.map Parameter.markup)
      = if parameters.isEmpty then [] else unlines (sectionBullet parameters).lines := by
  have hlines : (parameters.map Parameter.markup).flatMap Sheet.parameterLine
      = unlines ((Entry.layout (sectionBullet parameters).inner).map (Markup.padLine 2)) := by
    rw [sectionBullet]
    dsimp only
    induction parameters with
    | nil => rfl
    | cons parameter parameters ih =>
        have hrest := ih fun other hm => h other (List.mem_cons_of_mem parameter hm)
        rw [List.map_cons, List.flatMap_cons, parameterLine_eq (h parameter List.mem_cons_self),
          hrest, List.map_cons, Entry.layout_cons, List.map_append, unlines_append]
        rfl
  cases parameters with
  | nil => rfl
  | cons parameter parameters =>
      rw [Sheet.parameterSection, hlines, Bullet.lines_eq, unlines_cons]
      rfl

/-- A part of the discussion, with the empty line behind it. -/
theorem paragraph_part {part : Part} (h : part.IsProse) (rest : List Char) :
    '\n' :: (Sheet.paragraph part.markup ++ rest) = unlines part.entry.lines ++ '\n' :: rest := by
  cases part with
  | callout c =>
      have hwritten := unlines_topField (isName_displayName c.label).line.prose h
      simp [Part.entry, Entry.lines, hwritten, Sheet.paragraph, Part.markup, Markup.field]
  | block b =>
      cases b with
      | paragraph text =>
          simp [Part.entry, Block.entry, Entry.lines, Sheet.paragraph, Part.markup, Block.markup,
            Block.text, unlines_splitNewlines]
      | _ => exact h.elim

theorem paragraph_parts {parts : List Part} (h : ∀ part ∈ parts, part.IsProse) (rest : List Char) :
    '\n' :: ((parts.map Part.markup).flatMap Sheet.paragraph ++ rest)
      = unlines (Entry.layout (parts.map Part.entry)) ++ '\n' :: rest := by
  induction parts with
  | nil => rfl
  | cons part parts ih =>
      have hrest := ih fun other hm => h other (List.mem_cons_of_mem part hm)
      rw [List.map_cons, List.flatMap_cons, List.append_assoc,
        paragraph_part (h part List.mem_cons_self), hrest, List.map_cons, Entry.layout_cons,
        unlines_append, List.append_assoc]

theorem closing_eq (heading : String) {name : String} (hname : IsName name.toList)
    (hheading : heading = "- " ++ name ++ ":") {document : Option Document}
    (h : ∀ d ∈ document, d.IsProse) :
    Sheet.closing heading (document.map fun d => Markup.fieldBody 2 d.text)
      = (document.toList.map fun d => Bullet.field name.toList (bodyTexts d.text)).flatMap
          fun bullet => unlines bullet.lines := by
  cases document with
  | none => rfl
  | some d =>
      have hwritten := unlines_topField hname.line.prose (h d rfl).spec.1
      simp [Sheet.closing, hwritten, hheading]

namespace Documentation

variable {d : Documentation}

/-- The fields are written as the lines of their bullets. -/
theorem IsProse.fields_eq (h : d.IsProse) :
    Sheet.parameterSection d.sheet.parameters ++ Sheet.closing "- Throws:" d.sheet.throws
        ++ Sheet.closing "- Returns:" d.sheet.returns
      = d.fieldBullets.flatMap fun bullet => unlines bullet.lines := by
  have hparameters : Sheet.parameterSection d.sheet.parameters
      = (if d.parameters.isEmpty then [] else [sectionBullet d.parameters]).flatMap
          fun bullet => unlines bullet.lines := by
    rw [sheet, parameterSection_eq fun parameter hm => (h.parameters parameter hm).2]
    split <;> simp
  have hthrows := closing_eq "- Throws:" isName_throws rfl h.throws
  have hreturns := closing_eq "- Returns:" isName_returns rfl h.returns
  rw [fieldBullets, List.flatMap_append, List.flatMap_append, ← hparameters, ← hthrows, ← hreturns]
  rfl

theorem unlines_bulletEntries (bullets : List Bullet) :
    '\n' :: bullets.flatMap (fun bullet => unlines bullet.lines)
      = unlines (Entry.layout (bulletEntries bullets))
          ++ if bullets.isEmpty then ['\n'] else [] := by
  cases bullets with
  | nil => rfl
  | cons bullet bullets =>
      have hrest : unlines (Entry.layout (bullets.map (.item 0)))
          = bullets.flatMap fun bullet => unlines bullet.lines := by
        induction bullets with
        | nil => rfl
        | cons next bullets ih =>
            rw [List.map_cons, Entry.layout_cons, unlines_append, ih, List.flatMap_cons]
            rfl
      simp [bulletEntries, Entry.layout_cons, Entry.lines, hrest]

/-- Behind a newline, the written parts of a record in prose are the lines of its outline. -/
theorem IsProse.lines_sheet (h : d.IsProse) :
    '\n' :: d.sheet.lines
      = unlines (Entry.layout d.outline) ++ if d.fieldBullets.isEmpty then ['\n'] else [] := by
  have hparts := paragraph_parts h.discussion
    (d.fieldBullets.flatMap fun bullet => unlines bullet.lines)
  rw [unlines_bulletEntries] at hparts
  have hlines : d.sheet.lines
      = (if d.sheet.summary.isEmpty then [] else Sheet.paragraph d.sheet.summary)
        ++ (d.sheet.parts.flatMap Sheet.paragraph
          ++ d.fieldBullets.flatMap fun bullet => unlines bullet.lines) := by
    rw [← h.fields_eq, Sheet.lines]
    simp only [List.append_assoc]
  have hsummary : ∀ rest, '\n' :: ((if d.sheet.summary.isEmpty then [] else
      Sheet.paragraph d.sheet.summary) ++ rest)
        = unlines (Entry.layout (d.summary.toList.map Block.entry))
          ++ '\n' :: rest := by
    intro rest
    cases hsome : d.summary with
    | none => simp [sheet, hsome]
    | some block =>
        obtain ⟨text, rfl, htext⟩ := h.summary block hsome
        have hne : text.isEmpty = false := by simpa using htext.ne_empty
        simp [sheet, hsome, Block.text, hne, Sheet.paragraph, Entry.layout_cons, Block.entry,
          Entry.lines, unlines_splitNewlines]
  rw [hlines, hsummary, sheet, hparts, outline, outlineBelow, Entry.layout_append,
    Entry.layout_append, unlines_append, unlines_append, List.append_assoc, List.append_assoc]

/-- **A record in prose is written as its outline.** -/
theorem IsProse.markup_eq (h : d.IsProse) :
    d.markup = String.ofList (unlines (Entry.layout (Entry.flush d.outline))) := by
  have hnewline : trim isBlank d.sheet.lines = trim isBlank ('\n' :: d.sheet.lines) := by
    rw [trim, trim, List.dropWhile_cons_of_pos (by decide)]
  rw [markup, Sheet.markup, hnewline, h.lines_sheet]
  by_cases hempty : d.outline = []
  · -- an empty record is written as nothing at all
    have hfields : d.fieldBullets.isEmpty = true := by
      have hentries := (List.append_eq_nil_iff.mp (List.append_eq_nil_iff.mp hempty).2).2
      cases hbullets : d.fieldBullets with
      | nil => rfl
      | cons bullet bullets => simp [hbullets, bulletEntries] at hentries
    rw [hempty, hfields]
    rfl
  · have hfits := fun e he => (h.fits_outline e he).1
    have hafter : ∀ c ∈ (if d.fieldBullets.isEmpty then ['\n'] else []), isBlank c = true := by
      split
      · simp
        decide
      · simp
    obtain ⟨c, cs, more, hlines, -⟩ := Entry.head_layout_flush hempty hfits
    have hne : Entry.layout (Entry.flush d.outline) ≠ [] := by simp [hlines]
    have hsource : joinNewlines (Entry.layout (Entry.flush d.outline)) ≠ [] := by
      cases more with
      | nil => simp [hlines]
      | cons line more => simp [hlines, joinNewlines_cons_cons]
    rw [Entry.trim_layout hempty hfits hafter, unlines_eq_joinNewlines hne]
    simp [hsource]

/-- The blocks of a record in prose, read from what was written. -/
theorem IsProse.read_markup (h : d.IsProse) :
    Markdown.read defaultLimit d.markup
      = .ok { text := d.markup, children := Entry.blocks d.outline } := by
  have hfits := fun e he => (h.fits_outline e he).1
  have hread := read_outline (show 2 ≤ containerCapacity by decide)
    (show 2 * ((2 : Nat) : Int) < 20 by decide) (Entry.fits_flush hfits) (by
      rw [Entry.tail_flush]
      exact fun e he => (h.fits_outline e (List.mem_of_mem_tail he)).2)
  rw [← h.markup_eq, Entry.blocks_flush] at hread
  exact hread

end Documentation

end DocComment
