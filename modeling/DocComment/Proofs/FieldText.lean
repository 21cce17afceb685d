import DocComment.Proofs.FieldGrammar
import DocComment.Proofs.Outline
import Mathlib

/-!
# Fields in prose

A field is written as a bullet with its name and a colon, and its text either on the same line or
below it.  `Bullet.field` is that bullet as an entry of an outline.  Both directions meet here:
`field_markup` says that the writer of fields writes the lines of this bullet, at whatever
indentation, and `field?_field` says which field the item states that is read from them.

It states the same field again, but for one kind of name.  The word "parameter" and a blank in front
of a name announce a parameter, so a name that opens with them is read without them
(`Field.bareName`).
-/

namespace DocComment

open Text Markdown

/-! ## Lines of prose -/

/-- A line of prose that flows as it stands: nothing in it breaks the line. -/
structure IsProseLine (cs : List Char) : Prop where
  prose : Prose cs
  unbroken : ∀ c ∈ cs, isLineBreak c = false

theorem IsProseLine.notMem_newline {cs : List Char} (h : IsProseLine cs) : '\n' ∉ cs :=
  fun hc => (h.prose.visible _ hc).2.1 rfl

theorem Markdown.Prose.trim_eq {cs : List Char} (h : Prose cs) : trim isBlank cs = cs := by
  obtain ⟨c, rest, rfl, hc⟩ := h.head
  refine trim_of_ends (fun d hd => ?_) h.last
  rw [Option.mem_unique hd rfl]
  exact isBlank_of_isAlpha hc

theorem IsProseLine.flow_eq {cs : List Char} (h : IsProseLine cs) : flow cs = cs := by
  rw [flow_of_not_isLineBreak h.unbroken, h.prose.trim_eq]

/-! ## Names -/

/-- A name as a field carries it: a name part without blanks around it. -/
structure Field.IsFieldName (name : List Char) : Prop where
  isNamePart : Field.IsNamePart name
  first : ∀ c ∈ name.head?, isBlank c = false
  last : ∀ c ∈ name.getLast?, isBlank c = false

theorem Field.IsFieldName.flow_eq {name : List Char} (h : Field.IsFieldName name) :
    flow name = name :=
  flow_of_ends h.isNamePart.unbroken h.first h.last

/-- A name in prose: a line of prose of the characters that names are made of. -/
structure IsName (name : List Char) : Prop where
  line : IsProseLine name
  chars : ∀ c ∈ name, Field.isNameChar c = true

theorem isNameChar_of_isAlpha {c : Char} (h : c.isAlpha = true) : Field.isNameChar c = true := by
  have hc := toNat_of_isAlpha h
  have hascii : c.toNat < 0x80 := by omega
  simp [Field.isNameChar, isAlphanumeric, hascii, Char.isAlphanum, h]

theorem IsName.isFieldName {name : List Char} (h : IsName name) : Field.IsFieldName name where
  isNamePart := Field.isNamePart_of_flow h.chars (by
    rw [h.line.flow_eq]
    exact h.line.prose.ne_nil)
  first := by
    obtain ⟨c, rest, rfl, hc⟩ := h.line.prose.head
    intro d hd
    obtain rfl := Option.mem_some.mp hd
    exact isBlank_of_isAlpha hc
  last := h.line.prose.last

/-- A plain line: letters and spaces, a letter at either end. -/
structure IsPlainLine (cs : List Char) : Prop where
  chars : ∀ c ∈ cs, c.isAlpha = true ∨ c = ' '
  first : ∃ c, cs.head? = some c ∧ c.isAlpha = true
  last : ∃ c, cs.getLast? = some c ∧ c.isAlpha = true

instance (cs : List Char) : Decidable (IsPlainLine cs) :=
  decidable_of_iff ((cs.all fun c => c.isAlpha || c == ' ') = true
      ∧ cs.head?.any Char.isAlpha = true ∧ cs.getLast?.any Char.isAlpha = true) <| by
    simp only [List.all_eq_true, Bool.or_eq_true, beq_iff_eq, Option.any_eq_true]
    exact ⟨fun ⟨hchars, hfirst, hlast⟩ => ⟨hchars, hfirst, hlast⟩,
      fun h => ⟨h.chars, h.first, h.last⟩⟩

/-- A plain line is a name. -/
theorem IsPlainLine.isName {cs : List Char} (h : IsPlainLine cs) : IsName cs where
  line := {
    prose := {
      head := by
        obtain ⟨c, hc, halpha⟩ := h.first
        obtain ⟨rest, rfl⟩ := List.head?_eq_some_iff.mp hc
        exact ⟨c, rest, rfl, halpha⟩
      last := by
        obtain ⟨c, hc, halpha⟩ := h.last
        intro d hd
        rw [Option.mem_unique hd hc]
        exact isBlank_of_isAlpha halpha
      visible := by
        intro c hc
        rcases h.chars c hc with halpha | rfl
        · exact ⟨ne_of_isAlpha halpha rfl, ne_of_isAlpha halpha rfl, ne_of_isAlpha halpha rfl⟩
        · decide }
    unbroken := by
      intro c hc
      rcases h.chars c hc with halpha | rfl
      · exact isLineBreak_of_isBlank (isBlank_of_isAlpha halpha)
      · decide }
  chars := by
    intro c hc
    rcases h.chars c hc with halpha | rfl
    · exact isNameChar_of_isAlpha halpha
    · decide

/-! ## Announced parameters -/

/-- What a name is read as: a name that announces a parameter stands behind the announcement. -/
def Field.bareName (name : List Char) : List Char :=
  (Field.afterParameter? name).getD name

/-- Whether a parameter is announced does not depend on what follows the name. -/
theorem afterParameter?_colon (name rest : List Char) :
    Field.afterParameter? (name ++ ':' :: rest)
      = (Field.afterParameter? name).map (· ++ ':' :: rest) := by
  cases hafter : Field.afterParameter? name with
  | some bare =>
      obtain ⟨word, gap, rfl, hword, hgap, hblank, hbare⟩ :=
        Field.afterParameter?_eq_some_iff.mp hafter
      rw [Option.map_some, Field.afterParameter?_eq_some_iff]
      refine ⟨word, gap, by simp, hword, hgap, hblank, fun c hc => ?_⟩
      cases bare with
      | nil =>
          obtain rfl := Option.mem_some.mp hc
          decide
      | cons d bare => exact hbare c hc
  | none =>
      rw [Field.afterParameter?_eq_none_iff] at hafter
      rw [Option.map_none, Field.afterParameter?_eq_none_iff]
      rintro ⟨word, c, behind, htext, hword, hblank⟩
      have hcolon : c ≠ ':' := by
        rintro rfl
        exact absurd hblank (by decide)
      rcases List.append_eq_append_iff.mp htext with ⟨more, rfl, hmore⟩ | ⟨more, rfl, hmore⟩
      · -- the colon would be the blank, or one of the letters of the word
        cases more with
        | nil => exact hcolon (List.cons.inj hmore).1.symm
        | cons d more =>
            obtain ⟨rfl, -⟩ := List.cons.inj hmore
            have hletter : lowerLetter ':' ∈ lowerLetters (name ++ ':' :: more) :=
              List.mem_map_of_mem (by simp)
            rw [hword] at hletter
            exact absurd hletter (by decide)
      · cases more with
        | nil => exact hcolon (List.cons.inj hmore).1
        | cons d more =>
            obtain ⟨rfl, -⟩ := List.cons.inj hmore
            exact hafter ⟨word, c, more, rfl, hword, hblank⟩

/-- A name that announces a parameter is not read as it was written. -/
theorem bareName_eq_self_iff {name : List Char} (h : Field.IsFieldName name) :
    Field.bareName name = name ↔ Field.afterParameter? name = none := by
  cases hafter : Field.afterParameter? name with
  | none => simp [Field.bareName, hafter]
  | some rest =>
      obtain ⟨word, gap, rfl, -, hgap, -⟩ := Field.afterParameter?_spec hafter h.last
      have hne : rest ≠ word ++ (gap ++ rest) := fun heq => by
        have hlength := congrArg List.length heq
        have hpos := List.length_pos_of_ne_nil hgap
        simp only [List.length_append] at hlength
        omega
      simp [Field.bareName, hafter, hne]

/-- A bare name is a name again. -/
theorem isFieldName_bareName {name : List Char} (h : Field.IsFieldName name) :
    Field.IsFieldName (Field.bareName name) := by
  cases hafter : Field.afterParameter? name with
  | none =>
      rw [Field.bareName, hafter]
      exact h
  | some rest =>
      obtain ⟨word, gap, rfl, -, -, -, hfirst, hrest⟩ := Field.afterParameter?_spec hafter h.last
      obtain ⟨c, hc⟩ : ∃ c, rest.head? = some c := by
        obtain ⟨c, rest, rfl⟩ := List.exists_cons_of_ne_nil hrest
        exact ⟨c, rfl⟩
      rw [Field.bareName, hafter, Option.getD_some]
      refine ⟨⟨fun d hd => h.isNamePart.chars d (by simp [hd]), c, List.mem_of_head? hc,
        hfirst c hc⟩, hfirst, fun d hd => h.last d ?_⟩
      rwa [← List.append_assoc, List.getLast?_append_of_ne_nil _ hrest]

/-! ## Recognising a field -/

/-- A bullet with a name and a colon states a field of that name, or of the bare name if the name
announces a parameter. -/
theorem split?_bullet {name : List Char} (h : Field.IsFieldName name) (rest : List Char) :
    Field.split? (String.ofList ('-' :: ' ' :: (name ++ ':' :: rest))) = some {
      isParameter := (Field.afterParameter? name).isSome
      name := String.ofList (Field.bareName name)
      description := String.ofList (flow rest) } := by
  have hbare := isFieldName_bareName h
  have hscan : Field.scanName? (Field.bareName name ++ ':' :: rest)
      = some (Field.bareName name, rest) :=
    Field.scanName?_eq_some_iff.mpr ⟨⟨_, rest, hbare.isNamePart⟩, rfl, hbare.flow_eq, rfl⟩
  -- the marker of the item and the space behind it are passed over
  have hskip : Field.skipMarker ('-' :: ' ' :: (name ++ ':' :: rest)) = name ++ ':' :: rest := by
    have hhead : (name ++ ':' :: rest).head? = name.head? :=
      List.head?_append_of_ne_nil _ h.isNamePart.ne_nil
    have hbody : Field.IsBody ([] ++ '-' :: ([' '] ++ (name ++ ':' :: rest)))
        (name ++ ':' :: rest) :=
      .marked (List.forall_mem_nil _) (by decide)
        (fun c hc => by rw [List.mem_singleton.mp hc]; decide)
        (fun c hc => h.first c (hhead ▸ hc))
    exact hbody.eq_skipMarker.symm
  rw [Field.split?, String.toList_ofList, hskip, afterParameter?_colon]
  unfold Field.bareName at hscan ⊢
  cases hafter : Field.afterParameter? name with
  | none =>
      rw [hafter, Option.getD_none] at hscan
      simp [hscan, Field.ofScan]
  | some bare =>
      rw [hafter, Option.getD_some] at hscan
      simp [hscan, Field.ofScan]

/-- Under a name that announces nothing, that is the field. -/
theorem split?_bullet_of_not_announces {name : List Char} (h : Field.IsFieldName name)
    (hplain : ¬Field.Announces name) (rest : List Char) :
    Field.split? (String.ofList ('-' :: ' ' :: (name ++ ':' :: rest))) = some {
      isParameter := false
      name := String.ofList name
      description := String.ofList (flow rest) } := by
  rw [split?_bullet h, Field.bareName, Field.afterParameter?_eq_none_iff.mpr hplain]
  rfl

/-! ## Bodies -/

/-- A paragraph of a body in prose: lines of prose that flow as they stand, one at least. -/
structure IsParagraph (text : List (List Char)) : Prop where
  ne_nil : text ≠ []
  lines : ∀ line ∈ text, IsProseLine line

theorem IsParagraph.prose {text : List (List Char)} (h : IsParagraph text) : ProseText text :=
  ⟨h.ne_nil, fun line hm => (h.lines line hm).prose⟩

/-- The body that consists of these paragraphs, an empty line between any two. -/
def bodyText (texts : List (List (List Char))) : List Char :=
  joinNewlines (spaced texts)

@[simp]
theorem bodyText_nil : bodyText [] = [] := rfl

@[simp]
theorem bodyText_line (line : List Char) : bodyText [[line]] = line := by
  simp [bodyText]

theorem trim_bodyText {texts : List (List (List Char))} (h : ∀ text ∈ texts, ProseText text) :
    trim (· == '\n') (bodyText texts) = bodyText texts := by
  by_cases hne : texts = []
  · rw [hne]
    rfl
  · obtain ⟨hfirst, hlast⟩ := spaced_ends hne h
    obtain ⟨hopens, hends⟩ := ends_joinNewlines hfirst hlast
    have hnewline : ∀ c : Char, isBlank c = false → (c == '\n') = false := by
      intro c hc
      rw [beq_eq_false_iff_ne]
      rintro rfl
      exact absurd hc (by decide)
    exact trim_of_ends (fun c hc => hnewline c (hopens c hc)) fun c hc => hnewline c (hends c hc)

/-- The bullet that a field is written as.  A single line of text stays on the bullet's line; more
than that becomes paragraphs below it. -/
def Markdown.Bullet.field (name : List Char) : List (List (List Char)) → Bullet
  | [] => { head := name ++ [':'] }
  | [[line]] => { head := name ++ ':' :: ' ' :: line }
  | texts => { head := name ++ [':'], inner := texts.map (.paragraph 1) }

/-- The three forms of a field: without a text, with a line of text, and with paragraphs. -/
theorem field_cases (name : List Char) {texts : List (List (List Char))}
    (h : ∀ text ∈ texts, text ≠ []) :
    texts = [] ∨ (∃ line, texts = [[line]])
      ∨ (texts ≠ [] ∧ 1 < (spaced texts).length
        ∧ Bullet.field name texts
          = { head := name ++ [':'], inner := texts.map (.paragraph 1) }) := by
  match texts, h with
  | [], _ => exact .inl rfl
  | [[line]], _ => exact .inr (.inl ⟨line, rfl⟩)
  | [] :: _, h => exact absurd rfl (h [] List.mem_cons_self)
  | [line :: next :: lines], _ => exact .inr (.inr ⟨by simp, by simp, rfl⟩)
  | (line :: lines) :: next :: texts, _ =>
      refine .inr (.inr ⟨by simp, one_lt_length_spaced _ next texts (by simp), ?_⟩)
      cases lines <;> rfl

theorem Markdown.Prose.append_plain {cs ds : List Char} (h : Prose cs)
    (hvisible : ∀ c ∈ ds, c ≠ '\x00' ∧ c ≠ '\n' ∧ c ≠ '\r')
    (hlast : ∃ c, ds.getLast? = some c ∧ isBlank c = false) : Prose (cs ++ ds) where
  head := by
    obtain ⟨c, rest, rfl, hc⟩ := h.head
    exact ⟨c, rest ++ ds, rfl, hc⟩
  last := by
    obtain ⟨c, hc, hblank⟩ := hlast
    intro d hd
    rw [List.getLast?_append, hc] at hd
    cases hd
    exact hblank
  visible := by
    intro c hc
    rcases List.mem_append.mp hc with hc | hc
    · exact h.visible c hc
    · exact hvisible c hc

theorem prose_colon {name : List Char} (h : Prose name) : Prose (name ++ [':']) :=
  h.append_plain (by simp) ⟨':', rfl, by decide⟩

theorem prose_colon_text {name text : List Char} (h : Prose name) (ht : Prose text) :
    Prose (name ++ ':' :: ' ' :: text) := by
  obtain ⟨c, hc, hvisible⟩ := ht.endsVisibly
  refine h.append_plain (fun d hd => ?_) ⟨c, by simp [List.getLast?_cons, hc], hvisible⟩
  rcases List.mem_cons.mp hd with rfl | hd
  · decide
  rcases List.mem_cons.mp hd with rfl | hd
  · decide
  · exact ht.visible d hd

theorem fits_field {name : List Char} {texts : List (List (List Char))} (h : Prose name)
    (htexts : ∀ text ∈ texts, ProseText text) (depth gap : Nat) :
    (Entry.item gap (.field name texts)).Fits (depth + 1) := by
  obtain rfl | ⟨line, rfl⟩ | ⟨-, -, hfield⟩ :=
    field_cases name fun text hm => (htexts text hm).ne_nil
  · exact .item (prose_colon h) (by simp [Bullet.field]) (by simp [Bullet.field])
  · have hline : Prose line := (htexts [line] List.mem_cons_self).prose line List.mem_cons_self
    exact .item (prose_colon_text h hline) (by simp [Bullet.field]) (by simp [Bullet.field])
  · rw [hfield]
    refine .item (prose_colon h) (fun e he => ?_) (fun e he => ?_)
    · obtain ⟨text, -, rfl⟩ := List.mem_map.mp he
      exact Nat.one_pos
    · obtain ⟨text, htext, rfl⟩ := List.mem_map.mp he
      exact .paragraph (htexts text htext)

theorem blocks_paragraphs (gap : Nat) (texts : List (List (List Char))) :
    Entry.blocks (texts.map (.paragraph gap))
      = texts.map fun text => .paragraph (String.ofList (joinNewlines text)) := by
  induction texts with
  | nil => rfl
  | cons text texts ih => rw [List.map_cons, Entry.blocks_paragraph, ih, List.map_cons]

theorem layout_paragraphs {texts : List (List (List Char))} (h : texts ≠ []) :
    Entry.layout (texts.map (.paragraph 1)) = [] :: spaced texts := by
  induction texts with
  | nil => exact absurd rfl h
  | cons text texts ih =>
      cases texts with
      | nil => simp [Entry.layout_cons, Entry.lines]
      | cons next texts =>
          rw [List.map_cons, Entry.layout_cons, ih (by simp), spaced_cons_cons]
          rfl

theorem field?_of_line {item : ListItem} {field : Field} {first : Block}
    (hsplit : Field.split? item.text = some field) (hchildren : item.children = [first]) :
    item.field? = some field := by
  rw [ListItem.field?, hsplit, hchildren]
  rfl

theorem field?_of_blocks {item : ListItem} {field : Field} {first : Block} {blocks : List Block}
    (hsplit : Field.split? item.text = some field) (hchildren : item.children = first :: blocks)
    (hne : blocks ≠ []) : item.field? = some (field.withBlocks (blocks.map Block.markup)) := by
  obtain ⟨block, blocks, rfl⟩ := List.exists_cons_of_ne_nil hne
  rw [ListItem.field?, hsplit, hchildren]
  rfl

/-- Below a bullet with a name and a colon, the text of the item goes on behind the colon. -/
theorem joinNewlines_bullet (name : List Char) {inner : List Entry} (h : Entry.layout inner ≠ []) :
    ∃ rest, joinNewlines (Bullet.lines { head := name ++ [':'], inner })
      = '-' :: ' ' :: (name ++ ':' :: rest) := by
  rw [Bullet.lines_eq, joinNewlines_cons _ (List.map_eq_nil_iff.not.mpr h)]
  exact ⟨_, by rw [List.cons_append, List.cons_append, List.append_assoc]; rfl⟩

/-- The item of a written field states the field under its bare name. -/
theorem field?_field {name : List Char} {texts : List (List (List Char))} (h : IsName name)
    (htexts : ∀ text ∈ texts, IsParagraph text) :
    ∃ hasBlocks, (Bullet.field name texts).toItem.field? = some {
      isParameter := (Field.afterParameter? name).isSome
      name := String.ofList (Field.bareName name)
      description := String.ofList (bodyText texts)
      hasBlocks } := by
  have hne : ∀ text ∈ texts, text ≠ [] := fun text hm => (htexts text hm).ne_nil
  obtain rfl | ⟨line, rfl⟩ | ⟨hsome, -, hfield⟩ := field_cases name hne
  · refine ⟨false, ?_⟩
    rw [Bullet.toItem_eq, Bullet.lines_eq]
    refine field?_of_line ?_ rfl
    have hempty : bodyText [] = flow [] := rfl
    simpa [Bullet.field, hempty] using split?_bullet h.isFieldName []
  · have hline : IsProseLine line :=
      (htexts [line] List.mem_cons_self).lines line List.mem_cons_self
    have hflow : flow (' ' :: line) = line := by
      rw [flow_of_not_isLineBreak, trim, List.dropWhile_cons_of_pos (by decide), ← trim,
        hline.prose.trim_eq]
      intro c hc
      rcases List.mem_cons.mp hc with rfl | hc
      · decide
      · exact hline.unbroken c hc
    refine ⟨false, ?_⟩
    rw [Bullet.toItem_eq, Bullet.lines_eq]
    refine field?_of_line ?_ rfl
    simpa [Bullet.field, bodyText, hflow] using split?_bullet h.isFieldName (' ' :: line)
  · -- the paragraphs below the bullet are the description, as Markdown again
    have hlayout : Entry.layout (texts.map (.paragraph 1)) ≠ [] := by
      rw [layout_paragraphs hsome]
      simp
    obtain ⟨rest, hrest⟩ := joinNewlines_bullet name hlayout
    have htext : (Bullet.field name texts).toItem.text
        = String.ofList ('-' :: ' ' :: (name ++ ':' :: rest)) := by
      rw [hfield, Bullet.toItem_eq, ← hrest]
    have hchildren : (Bullet.field name texts).toItem.children
        = .paragraph (String.ofList (name ++ [':']))
          :: texts.map fun text => .paragraph (String.ofList (joinNewlines text)) := by
      rw [hfield, Bullet.toItem_eq, ← blocks_paragraphs 1]
    have hmarkups : (texts.map fun text => Block.paragraph (String.ofList (joinNewlines text))).map
        Block.markup = texts.map fun text => String.ofList (joinNewlines text) := by
      rw [List.map_map]
      rfl
    have hjoined : joined "\n\n" (texts.map fun text => String.ofList (joinNewlines text))
        = String.ofList (bodyText texts) := by
      rw [joined, List.map_map, bodyText, ← intercalate_joinNewlines hne]
      simp [Function.comp_def]
    have hsplit := split?_bullet h.isFieldName rest
    rw [← htext] at hsplit
    refine ⟨true, ?_⟩
    rw [field?_of_blocks hsplit hchildren (by simpa using hsome), Field.withBlocks, hmarkups,
      hjoined]

/-! ## Writing a field -/

/-- The writer of fields writes the lines of the bullet, its text two columns to the right of the
bullet, wherever that stands. -/
theorem field_markup (name : List Char) {texts : List (List (List Char))}
    (htexts : ∀ text ∈ texts, ProseText text) (indent : Nat) :
    List.replicate indent ' ' ++ '-' :: ' ' ::
        (name ++ ':' :: (Markup.fieldBody (indent + 2) (String.ofList (bodyText texts))).toList)
      = joinNewlines ((Bullet.field name texts).lines.map (Markup.padLine indent)) := by
  have hne : ∀ text ∈ texts, text ≠ [] := fun text hm => (htexts text hm).ne_nil
  have hbullet : ∀ head : List Char, Markup.padLine indent ('-' :: ' ' :: head)
      = List.replicate indent ' ' ++ '-' :: ' ' :: head :=
    fun head => padLine_cons indent (by decide) (' ' :: head)
  rw [Bullet.lines_eq, List.map_cons, hbullet, Markup.fieldBody, String.toList_ofList,
    trim_bodyText htexts]
  obtain rfl | ⟨line, rfl⟩ | ⟨hsome, hmany, hfield⟩ := field_cases name hne
  · simp [Bullet.field]
  · have hline : Prose line := (htexts [line] List.mem_cons_self).prose line List.mem_cons_self
    have hnewline : '\n' ∉ line := fun hc => (hline.visible _ hc).2.1 rfl
    simp [Bullet.field, hline.ne_nil, hnewline]
  · have hlines : ∀ line ∈ spaced texts, '\n' ∉ line := by
      intro line hline hc
      rcases mem_spaced hline with ⟨text, htext, hline⟩ | rfl
      · exact (((htexts text htext).prose line hline).visible _ hc).2.1 rfl
      · simp at hc
    have hsplit : splitNewlines (bodyText texts) = spaced texts :=
      splitNewlines_joinNewlines (spaced_ne_nil hsome hne) hlines
    have hnewline : '\n' ∈ bodyText texts := newline_mem_joinNewlines hmany
    have hbody : bodyText texts ≠ [] := List.ne_nil_of_mem hnewline
    have hpadded : (spaced texts).map (Markup.padLine (indent + 2)) ≠ [] :=
      List.map_eq_nil_iff.not.mpr (spaced_ne_nil hsome hne)
    have hpad : ((spaced texts).map (Markup.padLine 2)).map (Markup.padLine indent)
        = (spaced texts).map (Markup.padLine (indent + 2)) := by
      rw [List.map_map]
      exact List.map_congr_left fun line _ => padLine_padLine indent 2 line
    simp only [hfield, layout_paragraphs hsome, hsplit]
    rw [if_neg (by simpa using hbody), if_pos (by simpa using hnewline), List.map_cons,
      List.map_cons, hpad, padLine_nil, padLine_nil, joinNewlines_cons _ (by simp),
      joinNewlines_cons _ hpadded]
    simp

end DocComment
