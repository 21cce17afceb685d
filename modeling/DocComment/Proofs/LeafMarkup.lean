import DocComment.Proofs.BlockLines
import DocComment.Proofs.Fence
import Mathlib

/-!
# Leaf blocks in their Markdown

What a leaf block has to look like for its Markdown to be read as the same block again:

* `ParagraphText`: no line of the text opens or underlines anything, and it has no edges to trim;
* `HeadingText`: the text is on one line and does not end in number signs that would close it;
* `CodeText`: the info text is trimmed and has no backtick, and the last line of the literal is
  ended;
* `HtmlText`: the first line opens an HTML block that ends with the last line;
* `BreakText`: three marks of one kind or more.

Each comes with the theorem that says so, such as `readsLike_paragraph`.  Code is even read as a
document of its own (`read_code`): the fence does not stand in the literal, so that no line of it
closes the fence and all of them come back.  Other code changes on the way: a last line that is not
ended comes back with a newline, and an info text comes back trimmed.
-/

namespace DocComment.Markdown

open Text Markup

variable {limit : Int} {read : ContentReader} {rest : List Line}

/-! ## What a line does not open -/

/-- A line that opens neither code nor a container is read as a leaf block. -/
theorem readBlock_leaf {line : Line} {following : List Line} {c : Char} {body : List Char}
    (hbody : line.body = c :: body) (hwidth : line.width = 0)
    (hfence : fence? (c :: body) = none) (hquote : c ≠ '>')
    (hbreak : thematicBreak? (c :: body) = none) (hmarker : marker? (c :: body) = none) :
    readBlock read {} line following (following.length + 1)
      = .ok (leaf {} line following following) := by
  have hcode : line.isCode ({} : Surroundings).indent = false := by simp [Line.isCode, hwidth]
  have hquoted : opensQuote line = false := by simp [opensQuote, hbody, hquote]
  have hitem : itemMarker? {} line = none := by simp [itemMarker?, hbody, hmarker]
  rw [readBlock]
  simp only [Nat.add_sub_cancel, List.take_length, hcode, hbody, hfence, hquoted, hbreak, hitem,
    Bool.false_eq_true, if_false]
  rfl

/-- Only a bracket opens a definition. -/
theorem definition?_of_head {line : Line} {c : Char} {body : List Char}
    (hbody : line.body = c :: body) (hc : c ≠ '[') (around : Surroundings) (following : List Line) :
    definition? around (line :: following) = none := by
  have htext : contentText (definitionLines around (line :: following))
      = c :: (body ++ line.ending
          ++ contentText (following.takeWhile (continuesParagraph around .definition))) := by
    simp [definitionLines, contentText, hbody]
  rw [definition?, htext]
  split
  · next heq => exact absurd (List.cons.inj heq).1 hc
  · rfl

/-! ## Paragraphs -/

/-- Whether a line's content opens no block but a paragraph, link definitions apart. -/
structure OpensNothing (body : List Char) : Prop where
  fence : fence? body = none
  quote : body.head? ≠ some '>'
  thematicBreak : thematicBreak? body = none
  marker : marker? body = none
  html : HtmlKind.opening? body = none
  heading : heading? body = none

/-- A text that is read as a paragraph. -/
structure ParagraphText (text : List Char) : Prop where
  ne_nil : text ≠ []
  visible : '\x00' ∉ text
  trimmed : trim isEdge text = text
  opens : ∀ first ∈ (splitNewlines text).head?, OpensNothing first
  definition : ∀ ended, definition? {} (sourceLines ended (splitNewlines text)) = none
  continues : ∀ part ∈ (splitNewlines text).tail,
    continuesParagraph {} .paragraph (Line.ofSource true part) = true
      ∧ underlineLevel? {} (Line.ofSource true part) = none

theorem isIndent_of_isEdge {c : Char} (h : isEdge c = false) : isIndent c = false := by
  have hspace : c ≠ ' ' := by
    rintro rfl
    exact absurd h (by decide)
  have htab : c ≠ '\t' := by
    rintro rfl
    exact absurd h (by decide)
  simp [isIndent, hspace, htab]

/-- The first line of a trimmed text starts with its first character. -/
theorem ParagraphText.exists_first {text : List Char} (h : ParagraphText text) :
    ∃ c cs more, splitNewlines text = (c :: cs) :: more
      ∧ (∀ d ∈ (c :: cs).head?, isIndent d = false) ∧ '\x00' ∉ c :: cs := by
  obtain ⟨c, rest, rfl⟩ := List.exists_cons_of_ne_nil h.ne_nil
  have hedge : isEdge c = false := head?_trim (c :: rest) c (by rw [h.trimmed]; rfl)
  have hnewline : c ≠ '\n' := by
    rintro rfl
    exact absurd hedge (by decide)
  obtain ⟨cs, more, hsplit⟩ := splitNewlines_cons hnewline rest
  refine ⟨c, cs, more, hsplit, ?_, fun hnull => h.visible ?_⟩
  · rintro _ ⟨⟩
    exact isIndent_of_isEdge hedge
  have hmem : c :: cs ∈ splitNewlines (c :: rest) := by
    rw [hsplit]
    exact List.mem_cons_self
  exact subset_of_mem_splitNewlines hmem hnull

/-- A definition does not go on behind the lines of a block. -/
theorem definition?_append (line : Line) (front : List Line) {block : Block}
    (hrest : Behind block rest) :
    definition? {} (line :: (front ++ rest)) = definition? {} (line :: front) := by
  have hnone : rest.takeWhile (continuesParagraph {} .definition) = [] := by
    cases hrest with
    | nothing => rfl
    | other => exact List.takeWhile_cons_of_neg (by decide)
  have hlines :
      definitionLines {} (line :: (front ++ rest)) = definitionLines {} (line :: front) := by
    unfold definitionLines
    simp only [List.take_succ_cons, List.take_zero, List.drop_succ_cons, List.drop_zero]
    rw [List.takeWhile_append, hnone, List.append_nil]
    split
    · next hall =>
        have hkept := List.takeWhile_prefix (continuesParagraph {} .definition) (l := front)
        rw [hkept.eq_of_length hall]
    · rfl
  rw [definition?, definition?, hlines]

/-- Lines without null characters are a paragraph of their text. -/
theorem paragraphText_sourceLines (ended : Bool) {text : List Char} (hvisible : '\x00' ∉ text) :
    paragraphText 0 (sourceLines ended (splitNewlines text)) = inlineText text := by
  have hexcerpts : (sourceLines ended (splitNewlines text)).map (Line.excerpt 0)
      = splitNewlines text := by
    rw [map_sourceLines (Line.excerpt 0) (fun _ _ => rfl)]
    refine (List.map_congr_left fun part hpart => ?_).trans (List.map_id _)
    exact excerpt_ofSource true fun hnull => hvisible (subset_of_mem_splitNewlines hpart hnull)
  rw [paragraphText, hexcerpts, joinNewlines_splitNewlines]

/-- **A paragraph is read back.** -/
theorem readsLike_paragraph {text : String} (h : ParagraphText text.toList) (ended : Bool)
    (hrest : Behind (.paragraph text) rest) :
    ReadsLike limit read (.paragraph text)
      (sourceLines ended (splitNewlines text.toList)) rest := by
  obtain ⟨c, cs, more, hsplit, hindent, hvisible⟩ := h.exists_first
  obtain ⟨firstEnded, hlines⟩ := sourceLines_cons ended (c :: cs) more
  have hopens : OpensNothing (c :: cs) := h.opens (c :: cs) (by rw [hsplit]; rfl)
  have hline := ofSource_plain firstEnded hindent hvisible
  have hbody : (Line.ofSource firstEnded (c :: cs)).body = c :: cs := by rw [hline]
  have hquote : c ≠ '>' := by
    rintro rfl
    exact hopens.quote rfl
  have htext := paragraphText_sourceLines ended h.visible
  have hdefinition := h.definition ended
  rw [hsplit, hlines] at htext hdefinition ⊢
  refine ⟨_, _, rfl, by rw [hline]; rfl, by rw [hline], fun found hfound _ => ?_⟩
  have hmore : ∀ other ∈ sourceLines ended more, continuesParagraph {} .paragraph other = true
      ∧ underlineLevel? {} other = none := by
    intro other hother
    obtain ⟨part, hpart, lineEnded, rfl⟩ := mem_sourceLines hother
    exact h.continues part (by rw [hsplit]; exact hpart)
  rw [readBlock_leaf hbody (by rw [hline]) hopens.fence hquote hopens.thematicBreak hopens.marker]
    at hfound
  rw [leaf, definition?_append _ _ hrest, hdefinition] at hfound
  simp only [hbody, hopens.html, hopens.heading, paragraph_of_continues _ hmore hrest.endsParagraph]
    at hfound
  obtain rfl := Except.ok.inj hfound
  refine ⟨⟨_, rfl, ?_⟩, .inl rfl⟩
  show text = paragraphText 0 _
  rw [htext, inlineText, h.trimmed, String.ofList_toList]

/-! ## Headings -/

/-- A heading that is read from one line of its level and text. -/
structure HeadingText (level : Int) (text : List Char) : Prop where
  one_le : 1 ≤ level
  le_six : level ≤ 6
  single : '\n' ∉ text
  visible : '\x00' ∉ text
  closing : inlineText (withoutClosing (' ' :: text)) = String.ofList text

/-- Number signs and a space open a heading. -/
theorem heading?_signs {n : Nat} (hpos : 1 ≤ n) (hle : n ≤ 6) (text : List Char) :
    heading? (List.replicate n '#' ++ ' ' :: text) = some (n, withoutClosing (' ' :: text)) := by
  obtain ⟨hrun, hdrop⟩ := @runLength_replicate '#' n (' ' :: text) (by simp)
  simp only [heading?, hrun, hdrop]
  simp [hpos, hle, isIndent]

/-- **A heading is read back.** -/
theorem readsLike_heading {level : Int} {text : String} (h : HeadingText level text.toList)
    (ended : Bool) :
    ReadsLike limit read (.heading level text)
      (sourceLines ended (splitNewlines (Markup.heading level text).toList)) rest := by
  obtain ⟨n, rfl⟩ : ∃ n : Nat, level = n := ⟨level.toNat, (Int.toNat_of_nonneg (by
    have hone := h.one_le
    omega)).symm⟩
  have hpos : 1 ≤ n := by
    have hone := h.one_le
    omega
  have hle : n ≤ 6 := by
    have hsix := h.le_six
    omega
  have hmarkup : (Markup.heading n text).toList = List.replicate n '#' ++ ' ' :: text.toList := by
    simp [Markup.heading]
  have hnewline : '\n' ∉ List.replicate n '#' ++ ' ' :: text.toList := by
    simp [h.single]
  have hvisible : '\x00' ∉ List.replicate n '#' ++ ' ' :: text.toList := by
    simp [h.visible]
  have hheading := heading?_signs hpos hle text.toList
  rw [hmarkup, splitNewlines_of_notMem hnewline]
  obtain ⟨m, rfl⟩ : ∃ m, n = m + 1 := ⟨n - 1, by omega⟩
  rw [List.replicate_succ, List.cons_append] at hvisible hheading ⊢
  generalize List.replicate m '#' ++ ' ' :: text.toList = body at hvisible hheading ⊢
  have hline := ofSource_plain ended (show ∀ c ∈ ('#' :: body).head?, isIndent c = false by
    rintro _ ⟨⟩
    decide) hvisible
  have hbody : (Line.ofSource ended ('#' :: body)).body = '#' :: body := by rw [hline]
  have hfence : fence? ('#' :: body) = none := by simp [fence?, backtick]
  have hbreak : thematicBreak? ('#' :: body) = none := by simp [thematicBreak?]
  have hmarker : marker? ('#' :: body) = none := by
    simp [marker?, orderedMarker?, bulletMarker?]
  have hhtml : HtmlKind.opening? ('#' :: body) = none := rfl
  refine ⟨_, _, rfl, by rw [hline]; rfl, by rw [hline], fun found hfound _ => ?_⟩
  rw [readBlock_leaf hbody (by rw [hline]) hfence (by decide) hbreak hmarker, leaf,
    definition?_of_head hbody (by decide)] at hfound
  simp only [hbody, hhtml, hheading] at hfound
  obtain rfl := Except.ok.inj hfound
  refine ⟨⟨_, rfl, rfl, ?_⟩, .inl rfl⟩
  rw [h.closing, String.ofList_toList]

/-! ## Code -/

/-- Code that is read from between fences. -/
structure CodeText (info literal : List Char) : Prop where
  trimmed : trim isBlank info = info
  unmarked : backtick ∉ info
  single : '\n' ∉ info
  visible : '\x00' ∉ info ++ literal
  ended : ∀ c ∈ literal.getLast?, c = '\n'

/-- Lines of a literal are code up to a fence that does not stand in it. -/
theorem fencedExtent_unlines {size : Nat} {info : List Char} {lines : List (List Char)}
    (hlines : ∀ line ∈ lines, ¬List.replicate size backtick <:+: line.map Line.visible)
    {closing : Line} (hvisible : closing.isEmpty = false) (hflush : closing.width = 0)
    (hclosed : Fence.closedBy { mark := backtick, size, info } closing.body = true)
    (behind : List Line) :
    fencedExtent 0 { mark := backtick, size, info }
        (lines.map (Line.ofSource true) ++ closing :: behind) = (lines.length, true) := by
  induction lines with
  | nil =>
      simp [fencedExtent, hvisible, hclosed, Line.isOutside, Line.isCode, hflush]
  | cons line lines ih =>
      have hline := hlines line List.mem_cons_self
      have hopen : Fence.closedBy { mark := backtick, size, info } (Line.ofSource true line).body
          = false :=
        closedBy_of_infix hline (List.dropWhile_suffix isIndent).isInfix
      have hinside : (Line.ofSource true line).isOutside 0 = false := by
        simp [Line.isOutside, Line.ofSource]
      have hended : (Line.ofSource true line).ended = true := rfl
      rw [List.map_cons, List.cons_append, fencedExtent,
        ih fun other hm => hlines other (List.mem_cons_of_mem line hm)]
      simp [hopen, hinside, hended]

theorem literalText_map_ofSource {lines : List (List Char)}
    (hvisible : ∀ line ∈ lines, '\x00' ∉ line) :
    literalText 0 (lines.map (Line.ofSource true)) = unlines lines := by
  induction lines with
  | nil => rfl
  | cons line lines ih =>
      have hline := excerpt_ofSource true (hvisible line List.mem_cons_self)
      have hrest := ih fun other hm => hvisible other (List.mem_cons_of_mem line hm)
      rw [unlines_cons, ← hrest]
      show (Line.ofSource true line).excerpt 0 ++ ['\n'] ++ _ = _
      rw [hline, List.append_assoc]
      rfl

/-- The Markdown of code whose last line is ended: the lines between two fences. -/
theorem toList_code {info literal : String} {lines : List (List Char)}
    (hliteral : literal.toList = unlines lines) (hended : ∀ c ∈ literal.toList.getLast?, c = '\n') :
    (Markup.code info literal).toList
      = (fence literal ++ info.toList) ++ '\n' :: (unlines lines ++ fence literal) := by
  rw [toList_code_eq, if_pos hended, hliteral]
  simp

/-- Code between fences, of which the closing one may end the text. -/
theorem readBlock_fenced {size : Nat} (hsize : 3 ≤ size) {info : List Char}
    (hinfo : backtick ∉ info)
    {lines : List (List Char)} (hvisible : ∀ line ∈ lines, '\x00' ∉ line)
    (hopen : ¬List.replicate size backtick <:+: unlines lines) {opening closing : Line}
    (hopening : opening.body = List.replicate size backtick ++ info) (hwidth : opening.width = 0)
    (hclosing : closing.body = List.replicate size backtick) (hflush : closing.width = 0) :
    readBlock read {} opening (lines.map (Line.ofSource true) ++ closing :: rest)
        ((lines.map (Line.ofSource true) ++ closing :: rest).length + 1)
      = .ok {
          blocks := [.code (String.ofList (trim isBlank info)) (String.ofList (unlines lines))]
          used := lines.length + 2 } := by
  have hcode : opening.isCode ({} : Surroundings).indent = false := by
    simp [Line.isCode, hwidth]
  have hempty : closing.isEmpty = false := by
    obtain ⟨n, rfl⟩ : ∃ n, size = n + 1 := ⟨size - 1, by omega⟩
    rw [Line.isEmpty, hclosing]
    rfl
  have hlines : ∀ line ∈ lines, ¬List.replicate size backtick <:+: line.map Line.visible := by
    intro line hline hinfix
    rw [map_visible (hvisible line hline)] at hinfix
    obtain ⟨before, behind, rfl⟩ := List.append_of_mem hline
    apply hopen
    rw [unlines_append, unlines_cons]
    exact hinfix.trans ⟨unlines before, '\n' :: unlines behind, by simp⟩
  have hextent := fencedExtent_unlines hlines hempty hflush
    (by rw [hclosing]; exact closedBy_backticks size info) rest
  have hliteral := literalText_map_ofSource hvisible
  have htake : (lines.map (Line.ofSource true) ++ closing :: rest).take lines.length
      = lines.map (Line.ofSource true) := List.take_left' (List.length_map _)
  unfold readBlock
  simp only [Nat.add_sub_cancel, List.take_length, hcode, hopening, fence?_backticks hsize hinfo,
    Bool.false_eq_true, if_false]
  unfold fencedCode
  have hextent' : fencedExtent ({} : Surroundings).indent { mark := backtick, size, info }
      (lines.map (Line.ofSource true) ++ closing :: rest) = (lines.length, true) := hextent
  simp only [hextent', hwidth, Int.toNat_zero, htake, hliteral, if_true]
  rw [Nat.add_comm 1 lines.length]
  rfl

/-- The Markdown of code is cut into an opening fence with the info text, the lines of the literal,
and a closing fence. -/
theorem splitNewlines_code {info literal : String} (h : CodeText info.toList literal.toList) :
    ∃ size lines, 3 ≤ size ∧ literal.toList = unlines lines
      ∧ ¬List.replicate size backtick <:+: literal.toList
      ∧ splitNewlines (Markup.code info literal).toList
          = (List.replicate size backtick ++ info.toList)
            :: (lines ++ [List.replicate size backtick]) := by
  obtain ⟨lines, hliteral, hlines⟩ := exists_unlines h.ended
  obtain ⟨size, hsize, hfence, hnotIn⟩ := fence_spec literal
  have hmarks : '\n' ∉ List.replicate size backtick := notMem_backticks (by decide) size
  refine ⟨size, lines, hsize, hliteral, hnotIn, ?_⟩
  rw [toList_code hliteral h.ended, hfence,
    splitNewlines_append_newline (by
      rw [List.mem_append, not_or]
      exact ⟨hmarks, h.single⟩),
    splitNewlines_unlines_append hlines hmarks]

/-- **The lines of code are read as that code**, whatever stands behind them. -/
theorem readBlock_code (read : ContentReader) {info literal : String}
    (h : CodeText info.toList literal.toList) (ended : Bool) (rest : List Line) :
    ∃ line front,
      sourceLines ended (splitNewlines (Markup.code info literal).toList) = line :: front
        ∧ line.isEmpty = false ∧ line.width = 0
        ∧ readBlock read {} line (front ++ rest) ((front ++ rest).length + 1)
            = .ok { blocks := [.code info literal], used := front.length + 1 } := by
  obtain ⟨size, lines, hsize, hliteral, hnotIn, hsplit⟩ := splitNewlines_code h
  have hmarks : '\x00' ∉ List.replicate size backtick := notMem_backticks (by decide) size
  have hvisible := h.visible
  rw [List.mem_append, not_or] at hvisible
  have hcode : ∀ line ∈ lines, '\x00' ∉ line := by
    intro line hline hnull
    apply hvisible.2
    rw [hliteral]
    exact List.mem_flatMap.mpr ⟨line, hline, List.mem_append_left _ hnull⟩
  have hhead (cs : List Char) :
      ∀ c ∈ (List.replicate size backtick ++ cs).head?, isIndent c = false := by
    intro c hc
    obtain ⟨n, rfl⟩ : ∃ n, size = n + 1 := ⟨size - 1, by omega⟩
    obtain rfl : backtick = c := Option.some.inj hc
    decide
  have hopening := ofSource_plain true (hhead info.toList)
    (by rw [List.mem_append, not_or]; exact ⟨hmarks, hvisible.1⟩)
  have hclosing := ofSource_plain ended (by simpa using hhead []) hmarks
  have hread := @readBlock_fenced read rest size hsize info.toList h.unmarked lines hcode
    (by rw [← hliteral]; exact hnotIn) _ _ (congrArg Line.body hopening)
    (congrArg Line.width hopening) (congrArg Line.body hclosing) (congrArg Line.width hclosing)
  rw [h.trimmed, ← hliteral, String.ofList_toList, String.ofList_toList] at hread
  refine ⟨_, lines.map (Line.ofSource true) ++ [Line.ofSource ended (List.replicate size backtick)],
    by rw [hsplit, ← List.cons_append, sourceLines_concat, List.map_cons, List.cons_append], ?_,
    by rw [hopening], ?_⟩
  · rw [hopening]
    obtain ⟨n, rfl⟩ : ∃ n, size = n + 1 := ⟨size - 1, by omega⟩
    rfl
  · rw [List.append_assoc, List.singleton_append, hread]
    simp

/-- **Code is read back.** -/
theorem readsLike_code {info literal : String} (h : CodeText info.toList literal.toList)
    (ended : Bool) :
    ReadsLike limit read (.code info literal)
      (sourceLines ended (splitNewlines (Markup.code info literal).toList)) rest := by
  obtain ⟨line, front, hlines, hempty, hwidth, hread⟩ := readBlock_code read h ended rest
  refine ⟨line, front, hlines, hempty, hwidth, fun found hfound _ => ?_⟩
  rw [hread] at hfound
  obtain rfl := Except.ok.inj hfound
  exact ⟨⟨_, rfl, rfl, rfl⟩, .inl (by rw [hlines, List.length_cons])⟩

/-! ## Code as a whole document -/

/-- The lines of the Markdown of code. -/
theorem linesOf_code {info literal : String} (h : CodeText info.toList literal.toList) :
    linesOf (Markup.code info literal).toList
      = sourceLines false (splitNewlines (Markup.code info literal).toList) := by
  obtain ⟨size, lines, hsize, -, -, hsplit⟩ := splitNewlines_code h
  rw [linesOf, linesOfParts_eq]
  intro last hlast
  -- the last line is the closing fence
  rw [hsplit, ← List.cons_append, List.getLast?_concat] at hlast
  obtain rfl := Option.mem_some.mp hlast
  obtain ⟨n, rfl⟩ : ∃ n, size = n + 1 := ⟨size - 1, by omega⟩
  rfl

/-- A carriage return in the Markdown of code stands in the info text or in the literal. -/
theorem notMem_code {info literal : String} (h : CodeText info.toList literal.toList)
    (hunified : '\r' ∉ info.toList ++ literal.toList) :
    '\r' ∉ (Markup.code info literal).toList := by
  obtain ⟨lines, hliteral, -⟩ := exists_unlines h.ended
  obtain ⟨size, -, hfence, -⟩ := fence_spec literal
  have hmarks : '\r' ∉ List.replicate size backtick := notMem_backticks (by decide) size
  rw [List.mem_append, not_or] at hunified
  rw [toList_code hliteral h.ended, hfence, ← hliteral]
  simp [hmarks, hunified]

/-- **Code survives its Markdown.**  Let the info text be trimmed, on one line and without
backticks, let the last line of the literal be ended if there is one, and let neither hold a null
character or a carriage return.  Then the Markdown of the code is read, at any limit of one level or
more, as a document of just that code block. -/
theorem read_code {limit : Int} (hlimit : 1 ≤ limit) {info literal : String}
    (h : CodeText info.toList literal.toList) (hunified : '\r' ∉ info.toList ++ literal.toList) :
    Markdown.read (some limit) (Block.code info literal).markup
      = .ok { text := (Block.code info literal).markup, children := [.code info literal] } := by
  obtain ⟨line, front, hlines, hempty, hflush, hread⟩ :=
    readBlock_code (readContent (some limit) containerCapacity) h false []
  have hinside : line.isOutside ({} : Surroundings).indent = false := by
    simp [Line.isOutside, hflush]
  have hroom : ({} : Surroundings).level < limit := Int.lt_of_lt_of_le Int.zero_lt_one hlimit
  have hdocument := readsAs_cons front hempty hinside hroom hread rfl readsAs_nil
  rw [List.append_nil, ← hlines, ← linesOf_code h] at hdocument
  have hsource := read_of_readsAs (notMem_code h hunified) hdocument
  rw [String.ofList_toList] at hsource
  exact hsource

/-- Code with a fence of its own, blank lines, and lines that are indented by blanks and tabs. -/
def fencedLines : String := "\n~~~\n    \x60\x60\x60\n \n\t- \x60\x60\x60\x60 x\n# \x60\n"

theorem read_code_fencedLines :
    Markdown.read (some 1) (Block.code "swift  a" fencedLines).markup
        = .ok { text := (Block.code "swift  a" fencedLines).markup
                children := [.code "swift  a" fencedLines] }
      ∧ (Block.code "swift  a" fencedLines).markup
        = "\x60\x60\x60\x60\x60swift  a\n" ++ fencedLines ++ "\x60\x60\x60\x60\x60" := by
  have hlast : fencedLines.toList.getLast? = some '\n' := by decide +kernel
  have hcode : CodeText "swift  a".toList fencedLines.toList := {
    trimmed := by decide, unmarked := by decide, single := by decide, visible := by decide
    ended := fun c hc => Option.mem_unique hc hlast }
  exact ⟨read_code (by decide) hcode (by decide), by decide +kernel⟩

/-! ## Thematic breaks -/

/-- Marks that are read as a thematic break. -/
def BreakText (markup : List Char) : Prop :=
  ∃ mark n, markup = List.replicate (n + 3) mark ∧ (mark = '*' ∨ mark = '-' ∨ mark = '_')

theorem thematicBreak?_replicate (n : Nat) {mark : Char}
    (hmark : mark = '*' ∨ mark = '-' ∨ mark = '_') :
    thematicBreak? (List.replicate (n + 3) mark) = some (List.replicate (n + 4) mark) := by
  have hcount : (List.replicate (n + 3) mark).countP (· == mark) = n + 3 := by
    simp [List.countP_replicate]
  have hall : (List.replicate (n + 2) mark).all (fun c => c == mark || isIndent c) = true := by
    rw [List.all_eq_true]
    intro c hc
    rw [List.eq_of_mem_replicate hc, beq_self_eq_true, Bool.true_or]
  have hknown : (mark == '*' || mark == '-' || mark == '_') = true := by
    rcases hmark with rfl | rfl | rfl <;> rfl
  rw [List.replicate_succ] at hcount ⊢
  simp only [thematicBreak?, hcount, hall, hknown]
  rw [if_pos (by simp)]

/-- Marks stand on one line and open nothing but a thematic break. -/
theorem BreakText.opens {markup : List Char} (h : BreakText markup) (ended : Bool) :
    splitNewlines markup = [markup]
      ∧ Line.ofSource ended markup
        = { source := markup, lead := [], body := markup, width := 0, ended }
      ∧ fence? markup = none ∧ markup.head? ≠ some '>'
      ∧ ∃ opened, thematicBreak? markup = some opened := by
  obtain ⟨mark, n, rfl, hmark⟩ := h
  have hne : mark ≠ '\n' ∧ mark ≠ '\x00' ∧ mark ≠ backtick ∧ mark ≠ '~' ∧ mark ≠ '>'
      ∧ isIndent mark = false := by
    rcases hmark with rfl | rfl | rfl <;> decide
  obtain ⟨hnewline, hnull, hbacktick, htilde, hquote, hindent⟩ := hne
  have hmarks {c : Char} (hc : mark ≠ c) : c ∉ List.replicate (n + 3) mark :=
    fun hmem => hc (List.eq_of_mem_replicate hmem).symm
  refine ⟨splitNewlines_of_notMem (hmarks hnewline), ofSource_plain ended ?_ (hmarks hnull), ?_, ?_,
    _, thematicBreak?_replicate n hmark⟩
  · rintro _ ⟨⟩
    exact hindent
  · simp [List.replicate_succ, fence?, hbacktick, htilde]
  · simp [List.replicate_succ, hquote]

/-- **A thematic break is read back.** -/
theorem readsLike_thematicBreak {markup : String} (h : BreakText markup.toList) (ended : Bool) :
    ReadsLike limit read (.thematicBreak markup)
      (sourceLines ended (splitNewlines markup.toList)) rest := by
  obtain ⟨hsplit, hline, hfence, hquote, opened, hbreak⟩ := h.opens ended
  have hne : markup.toList ≠ [] := by
    intro hnil
    rw [hnil] at hbreak
    cases hbreak
  rw [hsplit]
  show ReadsLike limit read (.thematicBreak markup) [Line.ofSource ended markup.toList] rest
  rw [hline]
  refine ⟨_, _, rfl, List.isEmpty_eq_false_iff.mpr hne, rfl, fun found hfound _ => ?_⟩
  have hcode (body : List Char) : ({ source := markup.toList, lead := [], body, width := 0, ended }
      : Line).isCode ({} : Surroundings).indent = false := by
    simp [Line.isCode]
  unfold readBlock at hfound
  simp only [hcode, hfence, opensQuote, beq_eq_false_iff_ne.mpr hquote, hbreak, Bool.false_eq_true,
    if_false] at hfound
  obtain rfl := Except.ok.inj hfound
  exact ⟨⟨_, rfl, trivial⟩, .inl rfl⟩

/-! ## HTML -/

/-- A text that is read as an HTML block: the block that its first line opens takes the other lines
and ends before an empty one. -/
structure HtmlText (text : List Char) : Prop where
  visible : '\x00' ∉ text
  closed : ∃ first more kind, splitNewlines text = first :: more
    ∧ HtmlKind.opening? first = some kind
    ∧ ∀ ended, (if kind.closedBy first then 0
        else htmlExtent 0 kind (sourceLines ended more ++ [emptyLine])) = more.length

/-- An HTML block that ends before an empty line ends there whatever is behind it. -/
theorem htmlExtent_append {kind : HtmlKind} {more : List Line}
    (hinside : ∀ line ∈ more, line.isOutside 0 = false)
    (h : htmlExtent 0 kind (more ++ [emptyLine]) = more.length) {block : Block}
    (hrest : Behind block rest) : htmlExtent 0 kind (more ++ rest) = more.length := by
  induction more with
  | nil =>
      have hempty : emptyLine.isOutside 0 = false := rfl
      cases hrest with
      | nothing => rfl
      | other =>
          have hcloses : kind.closedBy emptyLine.body = true := by
            by_contra hopen
            rw [List.nil_append, htmlExtent, hempty, Bool.false_and, if_neg Bool.false_ne_true,
              if_neg hopen] at h
            cases h
          rw [List.nil_append, htmlExtent, hempty, Bool.false_and, if_neg Bool.false_ne_true,
            if_pos hcloses, if_pos isEmpty_emptyLine]
          rfl
  | cons line more ih =>
      have hline := hinside line List.mem_cons_self
      rw [List.cons_append, htmlExtent] at h ⊢
      rw [hline, Bool.false_and, if_neg Bool.false_ne_true] at h ⊢
      rw [List.length_cons] at h ⊢
      split at h
      · next hcloses =>
          rw [if_pos hcloses, h]
      · next hopen =>
          rw [if_neg hopen,
            ih (fun other hm => hinside other (List.mem_cons_of_mem line hm)) (by omega)]

/-- An HTML block that would take its lines in front of an empty one takes them, whatever is behind.
-/
theorem htmlBlock_used {kind : HtmlKind} {first : Line} {more : List (List Char)} {ended : Bool}
    (hextent : (if kind.closedBy first.body then 0
      else htmlExtent 0 kind (sourceLines ended more ++ [emptyLine])) = more.length)
    {block : Block} (hrest : Behind block rest) :
    (htmlBlock 0 kind first (sourceLines ended more ++ rest)).used = more.length + 1 := by
  have hinside : ∀ line ∈ sourceLines ended more, line.isOutside 0 = false := by
    intro line hm
    obtain ⟨part, -, lineEnded, rfl⟩ := mem_sourceLines hm
    simp [Line.isOutside, Line.ofSource]
  unfold htmlBlock
  dsimp only
  rw [List.length_cons, List.length_take, List.length_append, length_sourceLines]
  split at hextent
  · next hcloses =>
      rw [if_pos hcloses]
      omega
  · next hopen =>
      rw [← length_sourceLines ended more] at hextent
      rw [if_neg hopen, htmlExtent_append hinside hextent hrest, length_sourceLines]
      omega

/-- An HTML block opens with the sign of a tag. -/
theorem exists_of_opening? {first : List Char} {kind : HtmlKind}
    (h : HtmlKind.opening? first = some kind) : ∃ body, first = '<' :: body := by
  unfold HtmlKind.opening? at h
  split at h
  · exact ⟨_, rfl⟩
  · cases h

/-- **An HTML block is read back.** -/
theorem readsLike_html {literal : String} (h : HtmlText (Markup.html literal).toList) (ended : Bool)
    (hrest : Behind (.html literal) rest) :
    ReadsLike limit read (.html literal)
      (sourceLines ended (splitNewlines (Markup.html literal).toList)) rest := by
  obtain ⟨first, more, kind, hsplit, hkind, hextent⟩ := h.closed
  obtain ⟨body, rfl⟩ := exists_of_opening? hkind
  obtain ⟨firstEnded, hlines⟩ := sourceLines_cons ended ('<' :: body) more
  have hvisible : '\x00' ∉ '<' :: body := by
    intro hnull
    apply h.visible
    apply subset_of_mem_splitNewlines _ hnull
    rw [hsplit]
    exact List.mem_cons_self
  have hhead : ∀ c ∈ ('<' :: body).head?, isIndent c = false := by
    rintro _ ⟨⟩
    decide
  have hline := ofSource_plain firstEnded hhead hvisible
  have hbody : (Line.ofSource firstEnded ('<' :: body)).body = '<' :: body := by rw [hline]
  have hfence : fence? ('<' :: body) = none := by simp [fence?, backtick]
  have hbreak : thematicBreak? ('<' :: body) = none := by simp [thematicBreak?]
  have hmarker : marker? ('<' :: body) = none := by simp [marker?, orderedMarker?, bulletMarker?]
  rw [hsplit, hlines]
  refine ⟨_, _, rfl, by rw [hline]; rfl, by rw [hline], fun found hfound _ => ?_⟩
  rw [readBlock_leaf hbody (by rw [hline]) hfence (by decide) hbreak hmarker, leaf,
    definition?_of_head hbody (by decide)] at hfound
  simp only [hbody, hkind] at hfound
  obtain rfl := Except.ok.inj hfound
  refine ⟨⟨_, rfl, trivial⟩, .inl ?_⟩
  have hclosed := hextent ended
  rw [← hbody] at hclosed
  rw [List.length_cons, length_sourceLines]
  exact htmlBlock_used hclosed hrest

end DocComment.Markdown
