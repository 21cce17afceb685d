import DocComment.Proofs.TextLayout

/-!
# Flowing prose

A field's name and description are written down as flowing prose: cut at the line breaks, trimmed
line by line, and put together with single spaces.  `flowLines` are the lines that come together.

* `flowLines_append_break`: a line break parts the lines before it from those behind it.  Between a
  carriage return and the line feed behind it there is no line at all, so that nothing depends on
  their being one break.
* `flowLines_cons_of_isBlank`: a blank in front adds nothing.
* `flow_flow`: what has flowed stands in one line without blanks around it, and flows to itself.
* `normalize_joins_lines`: at the end of a line, texts flow on their own, and nothing visible is
  lost.
* `exists_flow_append`: a text in front, without blanks around it, stays in front of what flows.
-/

namespace DocComment.Text

/-! ## Single lines -/

theorem splitLines_of_not_isLineBreak {cs : List Char} (hne : cs ≠ [])
    (h : ∀ c ∈ cs, isLineBreak c = false) : splitLines cs = [cs] := by
  induction cs with
  | nil => exact absurd rfl hne
  | cons c cs ih =>
      have hc := h c List.mem_cons_self
      have hr : c ≠ '\r' := by
        rintro rfl
        exact absurd hc (by decide)
      cases cs with
      | nil =>
          rw [splitLines.eq_def]
          split <;> simp_all [splitLines]
      | cons d cs =>
          have hrest := ih (by simp) fun d hd => h d (List.mem_cons_of_mem c hd)
          rw [splitLines.eq_def]
          split <;> simp_all

/-- A single line flows to itself, trimmed. -/
theorem flow_of_not_isLineBreak {cs : List Char} (h : ∀ c ∈ cs, isLineBreak c = false) :
    flow cs = trim isBlank cs := by
  cases cs with
  | nil => rfl
  | cons c cs =>
      rw [flow, splitLines_of_not_isLineBreak (by simp) h]
      cases htrim : trim isBlank (c :: cs) with
      | nil => simp [htrim, List.intercalate]
      | cons d ds => simp [htrim, List.intercalate]

/-- A single line without blanks around it flows to itself. -/
theorem flow_of_ends {cs : List Char} (hunbroken : ∀ c ∈ cs, isLineBreak c = false)
    (hfirst : ∀ c ∈ cs.head?, isBlank c = false) (hlast : ∀ c ∈ cs.getLast?, isBlank c = false) :
    flow cs = cs :=
  (flow_of_not_isLineBreak hunbroken).trans (trim_of_ends hfirst hlast)

theorem isLineBreak_of_mem_splitLines (cs : List Char) :
    ∀ line ∈ splitLines cs, ∀ c ∈ line, isLineBreak c = false := by
  induction cs using splitLines.induct with
  | case1 => simp [splitLines]
  | case2 cs ih => simpa [splitLines] using ih
  | case3 c cs hreturn hbreak ih =>
      rw [splitLines, if_pos hbreak]
      · simpa using ih
      · exact hreturn
  | case4 c cs hreturn hbreak hnil ih =>
      rw [splitLines, if_neg hbreak, hnil]
      · simpa using hbreak
      · exact hreturn
  | case5 c cs hreturn hbreak line lines hlines ih =>
      rw [splitLines, if_neg hbreak, hlines]
      · rw [hlines, List.forall_mem_cons] at ih
        exact List.forall_mem_cons.mpr
          ⟨List.forall_mem_cons.mpr ⟨by simpa using hbreak, ih.1⟩, ih.2⟩
      · exact hreturn

/-- Flowing prose stands in one line. -/
theorem isLineBreak_of_mem_flow {cs : List Char} {c : Char} (h : c ∈ flow cs) :
    isLineBreak c = false := by
  rcases mem_intercalate h with hspace | ⟨line, hline, hc⟩
  · obtain rfl := List.mem_singleton.mp hspace
    decide
  · obtain ⟨source, hsource, rfl⟩ := List.mem_map.mp (List.mem_filter.mp hline).1
    exact isLineBreak_of_mem_splitLines cs source hsource c (mem_of_mem_trim hc)

/-! ## Lines that flow together -/

/-- Lines without the blanks around them, and without those that nothing is left of. -/
def trimmedLines (lines : List (List Char)) : List (List Char) :=
  (lines.map (trim isBlank)).filter fun line => !line.isEmpty

/-- The lines of a text that flow together. -/
def flowLines (cs : List Char) : List (List Char) :=
  trimmedLines (splitLines cs)

theorem flow_eq_intercalate (cs : List Char) : flow cs = [' '].intercalate (flowLines cs) := rfl

theorem trimmedLines_cons (line : List Char) (lines : List (List Char)) :
    trimmedLines (line :: lines) = trimmedLines [line] ++ trimmedLines lines := by
  rw [trimmedLines, trimmedLines, trimmedLines, List.map_cons, ← List.singleton_append,
    List.filter_append]
  rfl

theorem flowLines_nil : flowLines [] = [] := rfl

theorem flowLines_of_not_isLineBreak {cs : List Char} (h : ∀ c ∈ cs, isLineBreak c = false) :
    flowLines cs = trimmedLines [cs] := by
  cases cs with
  | nil => rfl
  | cons c cs => rw [flowLines, splitLines_of_not_isLineBreak (by simp) h]

/-- A line break ends an empty line, and takes the line feed behind a carriage return along. -/
theorem splitLines_cons_break {c : Char} (hc : isLineBreak c = true) (rest : List Char) :
    ∃ more, splitLines (c :: rest) = [] :: more
      ∧ (splitLines rest = more ∨ splitLines rest = [] :: more) := by
  rw [splitLines.eq_def]
  split
  · next heq => cases heq
  · next cs heq =>
      cases heq
      exact ⟨splitLines cs, rfl, .inr (by rw [splitLines.eq_def]; rfl)⟩
  · next _ _ _ heq =>
      cases heq
      exact ⟨splitLines rest, if_pos hc, .inl rfl⟩

/-- A line in front of a break is the first line. -/
theorem splitLines_line_append {line rest : List Char} {more : List (List Char)}
    (hline : ∀ c ∈ line, isLineBreak c = false) (hrest : splitLines rest = [] :: more) :
    splitLines (line ++ rest) = line :: more := by
  induction line with
  | nil => exact hrest
  | cons c line ih =>
      have hc := hline c List.mem_cons_self
      have hreturn : c ≠ '\r' := by
        rintro rfl
        exact absurd hc (by decide)
      have hline := ih fun d hd => hline d (List.mem_cons_of_mem c hd)
      rw [List.cons_append, splitLines, if_neg (by simp [hc]), hline]
      exact fun _ heq => absurd heq hreturn

theorem flowLines_line_break {line : List Char} (hline : ∀ c ∈ line, isLineBreak c = false)
    {c : Char} (hc : isLineBreak c = true) (rest : List Char) :
    flowLines (line ++ c :: rest) = flowLines line ++ flowLines rest := by
  obtain ⟨more, hmore, hrest⟩ := splitLines_cons_break hc rest
  have hbehind : flowLines rest = trimmedLines more := by
    rcases hrest with hrest | hrest
    · rw [flowLines, hrest]
    · rw [flowLines, hrest, trimmedLines_cons]
      rfl
  rw [flowLines, splitLines_line_append hline hmore, trimmedLines_cons, hbehind,
    flowLines_of_not_isLineBreak hline]

/-- A text is a single line, or a line and a break in front of a shorter text. -/
theorem breaks_induction {motive : List Char → Prop}
    (single : ∀ line, (∀ c ∈ line, isLineBreak c = false) → motive line)
    (step : ∀ line c rest, (∀ c ∈ line, isLineBreak c = false) → isLineBreak c = true →
      motive rest → motive (line ++ c :: rest)) (cs : List Char) : motive cs := by
  induction hlength : cs.length using Nat.strong_induction_on generalizing cs with
  | _ n ih =>
      have hline : ∀ c ∈ cs.takeWhile fun c => !isLineBreak c, isLineBreak c = false :=
        fun c hc => by simpa using List.mem_takeWhile_imp hc
      have hcs := List.takeWhile_append_dropWhile (p := fun c => !isLineBreak c) (l := cs)
      cases hdrop : cs.dropWhile fun c => !isLineBreak c with
      | nil =>
          rw [hdrop, List.append_nil] at hcs
          rw [← hcs]
          exact single _ hline
      | cons c rest =>
          have hc := List.head?_dropWhile_not (fun c => !isLineBreak c) cs
          rw [hdrop] at hc hcs
          rw [← hcs]
          refine step _ c rest hline (by simpa using hc) (ih rest.length ?_ rest rfl)
          rw [← hlength, ← hcs]
          simp only [List.length_append, List.length_cons]
          omega

/-- **Lines flow apart at a break.** -/
theorem flowLines_append_break {c : Char} (hc : isLineBreak c = true) (cs rest : List Char) :
    flowLines (cs ++ c :: rest) = flowLines cs ++ flowLines rest := by
  induction cs using breaks_induction with
  | single line hline => exact flowLines_line_break hline hc rest
  | step line d more hline hd ih =>
      rw [List.append_assoc, List.cons_append, flowLines_line_break hline hd,
        flowLines_line_break hline hd, ih, List.append_assoc]

/-- A blank in front of a text adds nothing. -/
theorem flowLines_cons_of_isBlank {c : Char} (hc : isBlank c = true) (cs : List Char) :
    flowLines (c :: cs) = flowLines cs := by
  by_cases hbreak : isLineBreak c = true
  · exact flowLines_append_break hbreak [] cs
  have htrim (line : List Char) : trimmedLines [c :: line] = trimmedLines [line] := by
    simp only [trimmedLines, List.map_cons, List.map_nil, trim_cons_of_pos hc]
  have hline {line : List Char} (h : ∀ d ∈ line, isLineBreak d = false) :
      ∀ d ∈ c :: line, isLineBreak d = false :=
    List.forall_mem_cons.mpr ⟨by simpa using hbreak, h⟩
  cases cs using breaks_induction with
  | single line h =>
      rw [flowLines_of_not_isLineBreak (hline h), flowLines_of_not_isLineBreak h, htrim]
  | step line d rest h hd =>
      rw [← List.cons_append, flowLines_line_break (hline h) hd, flowLines_line_break h hd,
        flowLines_of_not_isLineBreak (hline h), flowLines_of_not_isLineBreak h, htrim]

theorem flowLines_append_of_isBlank {before : List Char} (h : ∀ c ∈ before, isBlank c = true)
    (cs : List Char) : flowLines (before ++ cs) = flowLines cs := by
  induction before with
  | nil => rfl
  | cons c before ih =>
      rw [List.cons_append, flowLines_cons_of_isBlank (h c List.mem_cons_self),
        ih fun d hd => h d (List.mem_cons_of_mem c hd)]

/-- Nothing flows from blanks. -/
theorem flowLines_of_isBlank {cs : List Char} (h : ∀ c ∈ cs, isBlank c = true) :
    flowLines cs = [] := by
  simpa [flowLines_nil] using flowLines_append_of_isBlank h []

/-- Blanks in front of a text do not flow. -/
theorem flow_append_of_isBlank {before : List Char} (h : ∀ c ∈ before, isBlank c = true)
    (cs : List Char) : flow (before ++ cs) = flow cs := by
  rw [flow_eq_intercalate, flowLines_append_of_isBlank h, ← flow_eq_intercalate]

/-- Source lines put together flow one after the other. -/
theorem flowLines_joinNewlines (lines : List (List Char)) :
    flowLines (joinNewlines lines) = lines.flatMap flowLines := by
  induction lines with
  | nil => rfl
  | cons line lines ih =>
      cases lines with
      | nil => simp
      | cons next lines =>
          rw [joinNewlines_cons_cons, flowLines_append_break (by decide), ih]
          rfl

/-! ## What has flowed -/

/-- Texts put together open and end as the first and the last of them do. -/
theorem ends_intercalate {p : Char → Bool} {separator : List Char} {lines : List (List Char)}
    (h : ∀ line ∈ lines, line ≠ [] ∧ (∀ c ∈ line.head?, p c = false)
      ∧ ∀ c ∈ line.getLast?, p c = false) :
    (∀ c ∈ (separator.intercalate lines).head?, p c = false)
      ∧ ∀ c ∈ (separator.intercalate lines).getLast?, p c = false := by
  induction lines with
  | nil => simp
  | cons line lines ih =>
      obtain ⟨hne, hfirst, hlast⟩ := h line List.mem_cons_self
      cases lines with
      | nil => simpa using ⟨hfirst, hlast⟩
      | cons next lines =>
          have hothers := fun other hm => h other (List.mem_cons_of_mem line hm)
          obtain ⟨-, hrest⟩ := ih hothers
          have hnext : separator.intercalate (next :: lines) ≠ [] := by
            obtain ⟨hne, -⟩ := hothers next List.mem_cons_self
            cases lines with
            | nil => simpa using hne
            | cons last lines => simp [List.intercalate_cons_cons, hne]
          rw [List.intercalate_cons_cons, List.append_assoc]
          refine ⟨fun c hc => hfirst c ?_, fun c hc => hrest c ?_⟩
          · rwa [List.head?_append_of_ne_nil _ hne] at hc
          · rwa [List.getLast?_append_of_ne_nil _ (by simp [hnext]),
              List.getLast?_append_of_ne_nil _ hnext] at hc

/-- Flowing prose has no blanks around it. -/
theorem ends_flow (cs : List Char) :
    (∀ c ∈ (flow cs).head?, isBlank c = false) ∧ ∀ c ∈ (flow cs).getLast?, isBlank c = false := by
  rw [flow_eq_intercalate]
  refine ends_intercalate fun line hline => ?_
  obtain ⟨hline, hne⟩ := List.mem_filter.mp hline
  obtain ⟨source, -, rfl⟩ := List.mem_map.mp hline
  exact ⟨by simpa using hne, head?_trim source, getLast?_trim source⟩

/-- **What has flowed flows to itself.** -/
theorem flow_flow (cs : List Char) : flow (flow cs) = flow cs :=
  flow_of_ends (fun _ hc => isLineBreak_of_mem_flow hc) (ends_flow cs).1 (ends_flow cs).2

theorem normalize_normalize (text : String) : normalize (normalize text) = normalize text := by
  simp [Text.normalize, flow_flow]

/-! ## Prose put together -/

/-- The visible characters of a text, in order. -/
def visible (cs : List Char) : List Char :=
  cs.filter fun c => !isBlank c

/-- Two texts with a space between them, or the one that is left if the other is empty. -/
def spaceBetween (cs rest : List Char) : List Char :=
  if cs = [] then rest else if rest = [] then cs else cs ++ ' ' :: rest

/-- What ends a line of prose: a line break, or a carriage return and the line feed behind it. -/
inductive EndsLine : List Char → Prop where
  | single {c : Char} (h : isLineBreak c = true) : EndsLine [c]
  | pair : EndsLine ['\r', '\n']

theorem ne_nil_of_mem_flowLines {cs line : List Char} (h : line ∈ flowLines cs) : line ≠ [] := by
  simpa using (List.mem_filter.mp h).2

/-- Nothing flows from a text exactly if no line of it is left. -/
theorem flow_eq_nil_iff {cs : List Char} : flow cs = [] ↔ flowLines cs = [] := by
  rw [flow_eq_intercalate]
  cases h : flowLines cs with
  | nil => simp
  | cons line lines =>
      have hne : line ≠ [] := ne_nil_of_mem_flowLines (h ▸ List.mem_cons_self)
      cases lines with
      | nil => simpa using hne
      | cons next lines => simp [List.intercalate_cons_cons]

/-- **At the end of a line two texts flow on their own**, and are put together with a space. -/
theorem flow_append_endsLine {mark : List Char} (h : EndsLine mark) (cs rest : List Char) :
    flow (cs ++ mark ++ rest) = spaceBetween (flow cs) (flow rest) := by
  have hlines : flowLines (cs ++ mark ++ rest) = flowLines cs ++ flowLines rest := by
    cases h with
    | single hbreak => rw [List.append_assoc, List.singleton_append, flowLines_append_break hbreak]
    | pair =>
        -- the line feed is a blank in front of what follows
        rw [List.append_assoc, List.cons_append, flowLines_append_break (by decide),
          List.singleton_append, flowLines_cons_of_isBlank (by decide)]
  simp only [spaceBetween, flow_eq_nil_iff]
  rw [flow_eq_intercalate, hlines]
  split_ifs with hfirst hrest
  · rw [hfirst, List.nil_append, flow_eq_intercalate]
  · rw [hrest, List.append_nil, flow_eq_intercalate]
  · exact intercalate_append [' '] hfirst hrest

theorem visible_append (cs rest : List Char) : visible (cs ++ rest) = visible cs ++ visible rest :=
  List.filter_append cs rest

theorem visible_of_isBlank {cs : List Char} (h : ∀ c ∈ cs, isBlank c = true) : visible cs = [] :=
  List.filter_eq_nil_iff.mpr fun c hc => by simp [h c hc]

theorem visible_spaceBetween (cs rest : List Char) :
    visible (spaceBetween cs rest) = visible cs ++ visible rest := by
  unfold spaceBetween
  split_ifs with hcs hrest
  · rw [hcs, visible, visible, List.filter_nil, List.nil_append]
  · rw [hrest, visible, visible, List.filter_nil, List.append_nil]
  · rw [visible_append, visible, visible, visible,
      List.filter_cons_of_neg (by simp [isBlank_space])]

theorem visible_trim (cs : List Char) : visible (trim isBlank cs) = visible cs := by
  obtain ⟨before, after, heq, hbefore, hafter⟩ := exists_eq_trim isBlank cs
  generalize trim isBlank cs = kept at heq ⊢
  rw [heq, visible_append, visible_append, visible_of_isBlank hbefore, visible_of_isBlank hafter,
    List.nil_append, List.append_nil]

/-- **Flowing keeps what is visible.** -/
theorem visible_flow (cs : List Char) : visible (flow cs) = visible cs := by
  induction cs using breaks_induction with
  | single line hline => rw [flow_of_not_isLineBreak hline, visible_trim]
  | step line c rest hline hc ih =>
      have hblank : isBlank c = true := by
        by_contra hvisible
        rw [isLineBreak_of_isBlank (by simpa using hvisible)] at hc
        cases hc
      have hapart : flow (line ++ c :: rest) = spaceBetween (flow line) (flow rest) := by
        simpa using flow_append_endsLine (.single hc) line rest
      have hbreak : visible (c :: rest) = visible rest :=
        List.filter_cons_of_neg (by simp [hblank])
      rw [hapart, visible_spaceBetween, ih, flow_of_not_isLineBreak hline, visible_trim,
        visible_append, hbreak]

/-- **Prose is put together line by line, and nothing visible is lost.**  What is normalized stays
as it is; it stands in one line, without blanks around it; and its visible characters are those of
the text. Texts on both sides of the end of a line are normalized on their own and put together with
one space, or one of them is left where the other is empty. -/
theorem normalize_joins_lines (text first rest : String) {mark : String}
    (h : EndsLine mark.toList) :
    normalize (normalize text) = normalize text
      ∧ (∀ c ∈ (normalize text).toList, isLineBreak c = false)
      ∧ (∀ c ∈ (normalize text).toList.head?, isBlank c = false)
      ∧ (∀ c ∈ (normalize text).toList.getLast?, isBlank c = false)
      ∧ visible (normalize text).toList = visible text.toList
      ∧ (normalize (first ++ mark ++ rest)).toList
          = spaceBetween (normalize first).toList (normalize rest).toList := by
  obtain ⟨hfirst, hlast⟩ := ends_flow text.toList
  refine ⟨normalize_normalize text, ?_, ?_, ?_, ?_, ?_⟩ <;>
    simp only [Text.normalize, String.toList_ofList, String.toList_append]
  · exact fun c hc => isLineBreak_of_mem_flow hc
  · exact hfirst
  · exact hlast
  · exact visible_flow text.toList
  · exact flow_append_endsLine h first.toList rest.toList

/-- A line feed behind a carriage return and in front of another line feed. -/
theorem normalize_joins_lines_lineFeed :
    EndsLine "\n".toList
      ∧ visible (normalize "\u2028 a\u00a0b\t\r\n c").toList = ['a', 'b', 'c']
      ∧ (normalize ("a \r" ++ "\n" ++ "\n b")).toList = ['a', ' ', 'b'] := by
  have h : EndsLine "\n".toList := .single (by decide)
  obtain ⟨-, -, -, -, hvisible, hjoined⟩ :=
    normalize_joins_lines "\u2028 a\u00a0b\t\r\n c" "a \r" "\n b" h
  exact ⟨h, hvisible.trans (by decide +kernel), hjoined.trans (by decide +kernel)⟩

/-! ## What stands in front -/

/-- A text without blanks around it stays in front of a line, with blanks between it and what is
left of the line. -/
theorem intercalate_trimmedLines_append {front line : List Char} (hne : front ≠ [])
    (hfirst : ∀ c ∈ front.head?, isBlank c = false)
    (hlast : ∀ c ∈ front.getLast?, isBlank c = false)
    (lines : List (List Char)) :
    ∃ gap, (∀ c ∈ gap, isBlank c = true)
      ∧ [' '].intercalate (trimmedLines [front ++ line] ++ lines)
        = front ++ (gap ++ [' '].intercalate (trimmedLines [line] ++ lines)) := by
  obtain ⟨before, after, hline, hbefore, hafter⟩ := exists_eq_trim isBlank line
  have hnothing : ∀ c ∈ ([] : List Char), isBlank c = true := by simp
  have hkept {cs : List Char} (hcs : trim isBlank (front ++ line) = front ++ cs) :
      trimmedLines [front ++ line] = [front ++ cs] := by
    simp [trimmedLines, hcs, hne]
  cases htrim : trim isBlank line with
  | nil =>
      -- nothing of the line is left, so the lines behind it follow the front
      have hfront : trim isBlank (front ++ line) = front ++ [] := by
        rw [hline, htrim, List.nil_append, List.append_nil]
        refine trim_append_append hnothing (fun c hc => ?_) hfirst hlast
        exact (List.mem_append.mp hc).elim (hbefore c) (hafter c)
      have hnone : trimmedLines [line] = [] := by simp [trimmedLines, htrim]
      rw [hkept hfront, hnone, List.append_nil, List.nil_append, List.singleton_append]
      cases lines with
      | nil => exact ⟨[], by simp, by simp⟩
      | cons next lines =>
          exact ⟨[' '], by simp [isBlank_space], by simp [List.intercalate_cons_cons]⟩
  | cons c cs =>
      have hleft := getLast?_trim (p := isBlank) line
      rw [htrim] at hline hleft
      have hfront : trim isBlank (front ++ line) = front ++ (before ++ (c :: cs)) := by
        have hhead : ∀ d ∈ (front ++ (before ++ c :: cs)).head?, isBlank d = false := by
          rwa [List.head?_append_of_ne_nil _ hne]
        have hend : ∀ d ∈ (front ++ (before ++ c :: cs)).getLast?, isBlank d = false := by
          rwa [← List.append_assoc, List.getLast?_append_of_ne_nil _ (by simp)]
        have htaken := trim_append_append hnothing hafter hhead hend
        simpa [hline] using htaken
      have hsome : trimmedLines [line] = [c :: cs] := by simp [trimmedLines, htrim]
      refine ⟨before, hbefore, ?_⟩
      rw [hkept hfront, hsome, List.singleton_append, List.singleton_append,
        intercalate_append_cons, intercalate_append_cons]

/-- **A text within the line and without blanks around it stays in front** of what flows behind it,
whatever breaks the lines there. -/
theorem exists_flow_append {front : List Char} (hne : front ≠ [])
    (hunbroken : ∀ c ∈ front, isLineBreak c = false) (hfirst : ∀ c ∈ front.head?, isBlank c = false)
    (hlast : ∀ c ∈ front.getLast?, isBlank c = false) (rest : List Char) :
    ∃ gap, (∀ c ∈ gap, isBlank c = true) ∧ flow (front ++ rest) = front ++ (gap ++ flow rest) := by
  have hwhole {line : List Char} (hline : ∀ c ∈ line, isLineBreak c = false) :
      ∀ c ∈ front ++ line, isLineBreak c = false :=
    fun c hc => (List.mem_append.mp hc).elim (hunbroken c) (hline c)
  -- only the line in front of the first break matters
  cases rest using breaks_induction with
  | single _ hline =>
      have hfront := @intercalate_trimmedLines_append front rest hne hfirst hlast []
      rw [flow_eq_intercalate, flow_eq_intercalate, flowLines_of_not_isLineBreak (hwhole hline),
        flowLines_of_not_isLineBreak hline]
      simpa using hfront
  | step line c rest hline hc =>
      rw [flow_eq_intercalate, flow_eq_intercalate, ← List.append_assoc,
        flowLines_line_break (hwhole hline) hc, flowLines_line_break hline hc,
        flowLines_of_not_isLineBreak (hwhole hline), flowLines_of_not_isLineBreak hline]
      exact intercalate_trimmedLines_append hne hfirst hlast (flowLines rest)

end DocComment.Text
