import DocComment.Markdown.Reader
import DocComment.Proofs.TextLayout
import Mathlib

/-!
# How far a leaf block reaches

A leaf block takes lines from the top as long as they belong to it.  This module bounds their
number: code and HTML end before a line that has left the container (`indentedExtent_le`,
`fencedExtent_le`, `htmlExtent_le`), and a paragraph or a link definition ends where no line
continues it (`length_takeWhile_le`, `definition?_le`).  `leaf_used_le` puts the bounds together.

A definition is read from the text of its lines and says how many newlines it has passed.  It never
takes the newline that ends its last line, which `TakesFrom` keeps track of from part to part.
-/

namespace DocComment.Markdown

open Text

/-! ## What a definition leaves of its text -/

/-- Whether something has been taken from the front of a text, the last of it no newline. -/
def TakesFrom (text rest : List Char) : Prop :=
  ∃ taken last, last ≠ '\n' ∧ text = taken ++ last :: rest

theorem TakesFrom.append {text rest : List Char} (h : TakesFrom text rest) (front : List Char) :
    TakesFrom (front ++ text) rest := by
  obtain ⟨taken, last, hlast, rfl⟩ := h
  exact ⟨front ++ taken, last, hlast, by rw [List.append_assoc]⟩

theorem TakesFrom.cons {text rest : List Char} (h : TakesFrom text rest) (c : Char) :
    TakesFrom (c :: text) rest :=
  h.append [c]

theorem TakesFrom.trans {text middle rest : List Char} (h : TakesFrom text middle)
    (hrest : TakesFrom middle rest) : TakesFrom text rest := by
  obtain ⟨taken, last, -, rfl⟩ := h
  exact (hrest.cons last).append taken

theorem takesFrom_cons {c : Char} (hc : c ≠ '\n') (rest : List Char) : TakesFrom (c :: rest) rest :=
  ⟨[], c, hc, rfl⟩

/-- Blanks in front may be taken along. -/
theorem TakesFrom.of_dropWhile {p : Char → Bool} {text rest : List Char}
    (h : TakesFrom (text.dropWhile p) rest) : TakesFrom text rest := by
  have happend := h.append (text.takeWhile p)
  rwa [List.takeWhile_append_dropWhile] at happend

theorem takesFrom_label {text label rest : List Char} (h : label? text = some (label, rest)) :
    TakesFrom text rest := by
  induction text using label?.induct generalizing label with
  | case1 => simp [label?] at h
  | case2 cs => simp [label?] at h
  | case3 cs =>
      obtain ⟨-, rfl⟩ : [] = label ∧ cs = rest := by simpa [label?] using h
      exact takesFrom_cons (by decide) cs
  | case4 c cs ih =>
      obtain ⟨inner, hinner, -⟩ :
          ∃ inner, label? cs = some (inner, rest) ∧ '\\' :: c :: inner = label := by
        simpa [label?] using h
      exact ((ih hinner).cons c).cons '\\'
  | case5 c cs hopen hclose hescape ih =>
      rw [label?] at h
      · obtain ⟨inner, hinner, -⟩ :
            ∃ inner, label? cs = some (inner, rest) ∧ c :: inner = label := by
          simpa using h
        exact (ih hinner).cons c
      all_goals assumption

theorem takesFrom_titleBody {mark : Char} (hmark : mark ≠ '\n') {text title rest : List Char}
    (h : titleBody? mark text = some (title, rest)) : TakesFrom text rest := by
  fun_induction titleBody? mark text generalizing title with
  | case1 => cases h
  | case2 c cs ih =>
      obtain ⟨⟨inner, after⟩, hinner, heq⟩ := Option.map_eq_some_iff.mp h
      obtain ⟨-, rfl⟩ := Prod.mk.inj heq
      exact ((ih hinner).cons c).cons '\\'
  | case3 cs hescape =>
      obtain ⟨-, rfl⟩ := Prod.mk.inj (Option.some.inj h)
      exact takesFrom_cons hmark cs
  | case4 c cs hescape hc hparenthesis => cases h
  | case5 c cs hescape hc hparenthesis ih =>
      obtain ⟨⟨inner, after⟩, hinner, heq⟩ := Option.map_eq_some_iff.mp h
      obtain ⟨-, rfl⟩ := Prod.mk.inj heq
      exact (ih hinner).cons c

theorem takesFrom_title {text title rest : List Char} (h : title? text = some (title, rest)) :
    TakesFrom text rest := by
  unfold title? at h
  split at h
  · exact (takesFrom_titleBody (by decide) h).cons '"'
  · exact (takesFrom_titleBody (by decide) h).cons '\''
  · exact (takesFrom_titleBody (by decide) h).cons '('
  · cases h

/-- What follows a part on the lines of the definition and behind them. -/
def Cut.left (cut : Cut) : List Char :=
  if cut.atNewline then '\n' :: cut.rest else cut.rest

theorem takesFrom_bracketed {text : List Char} {cut : Cut} (h : bracketed? text = some cut) :
    TakesFrom text cut.left := by
  fun_induction bracketed? text generalizing cut with
  | case1 => cases h
  | case2 => cases h
  | case3 => cases h
  | case4 cs =>
      obtain rfl := Option.some.inj h
      exact takesFrom_cons (by decide) cs
  | case5 => cases h
  | case6 c cs hnewline ih =>
      obtain ⟨inner, hinner, rfl⟩ := Option.map_eq_some_iff.mp h
      exact ((ih hinner).cons c).cons '\\'
  | case7 c cs _ _ _ _ _ ih =>
      obtain ⟨inner, hinner, rfl⟩ := Option.map_eq_some_iff.mp h
      exact (ih hinner).cons c

/-- A destination without brackets takes nothing, or something that no newline ends. -/
theorem takesFrom_bare {depth : Nat} {text : List Char} {cut : Cut}
    (h : bare? depth text = some cut) :
    cut.text = [] ∧ cut.left = text ∨ TakesFrom text cut.left := by
  -- one character more in front of what has been taken
  have push (c : Char) {cs : List Char} {inner : Cut} (hc : c ≠ '\n')
      (hinner : inner.text = [] ∧ inner.left = cs ∨ TakesFrom cs inner.left) :
      TakesFrom (c :: cs) inner.left := by
    rcases hinner with ⟨-, rfl⟩ | htakes
    · exact takesFrom_cons hc _
    · exact htakes.cons c
  fun_induction bare? depth text generalizing cut with
  | case1 | case5 | case12 =>
      obtain rfl := Option.some.inj h
      exact .inl ⟨rfl, rfl⟩
  | case2 | case4 | case6 | case8 | case11 | case15 => cases h
  | case3 =>
      obtain rfl := Option.some.inj h
      exact .inr (takesFrom_cons (by decide) [])
  | case7 cs =>
      obtain rfl := Option.some.inj h
      exact .inr (takesFrom_cons (by decide) _)
  | case9 depth c cs hspace hnewline ih =>
      obtain ⟨inner, hinner, rfl⟩ := Option.map_eq_some_iff.mp h
      exact .inr ((push c hnewline (ih hinner)).cons '\\')
  | case10 depth cs hdepth ih =>
      obtain ⟨inner, hinner, rfl⟩ := Option.map_eq_some_iff.mp h
      have htakes := push '(' (by decide) (ih hinner)
      exact .inr htakes
  | case13 depth cs ih =>
      obtain ⟨inner, hinner, rfl⟩ := Option.map_eq_some_iff.mp h
      have htakes := push ')' (by decide) (ih hinner)
      exact .inr htakes
  | case14 => 
      obtain rfl := Option.some.inj h
      exact .inl ⟨rfl, rfl⟩
  | case16 depth c cs _ _ _ _ _ _ _ hcontrol ih =>
      obtain ⟨inner, hinner, rfl⟩ := Option.map_eq_some_iff.mp h
      have hc : c ≠ '\n' := by
        rintro rfl
        exact hcontrol (by decide)
      have htakes := push c hc (ih hinner)
      exact .inr htakes

theorem takesFrom_destination {text : List Char} {cut : Cut} (h : destination? text = some cut) :
    TakesFrom text cut.left := by
  unfold destination? at h
  split at h
  · exact (takesFrom_bracketed h).cons '<'
  · obtain ⟨hbare, hsome⟩ := Option.filter_eq_some_iff.mp h
    rcases takesFrom_bare hbare with ⟨hempty, -⟩ | htakes
    · simp [hempty] at hsome
    · exact htakes

theorem takesFrom_afterTitle {text rest : List Char} (h : afterTitle? text = some rest) :
    TakesFrom text rest := by
  unfold afterTitle? at h
  dsimp only at h
  split at h
  · cases h
  · next title after htitle =>
      have htakes : TakesFrom text after := (takesFrom_title htitle).of_dropWhile
      split at h
      · cases h
      split at h
      · obtain rfl := Option.some.inj h
        exact htakes
      · cases h

/-- A definition leaves the newline that ends its last line. -/
theorem takesFrom_afterDefinition {text rest : List Char} (h : afterDefinition? text = some rest) :
    TakesFrom text rest := by
  unfold afterDefinition? at h
  obtain ⟨⟨label, after⟩, hlabel, h⟩ := Option.bind_eq_some_iff.mp h
  dsimp only at h
  split at h
  · next after' =>
      obtain ⟨cut, hcut, h⟩ := Option.bind_eq_some_iff.mp h
      have hdestination : TakesFrom text cut.left :=
        (takesFrom_label hlabel).trans ((takesFrom_destination hcut).of_dropWhile.cons ':')
      split at h
      · cases h
      split at h
      · next hnewline =>
          obtain rfl := Option.some.inj h
          simpa [Cut.left, hnewline] using hdestination
      · next hnewline =>
          have hrest : TakesFrom text cut.rest := by simpa [Cut.left, hnewline] using hdestination
          split at h
          · obtain rfl := Option.some.inj h
            cases htitle : afterTitle? cut.rest with
            | none => exact hrest
            | some after => exact hrest.trans (takesFrom_afterTitle htitle)
          · cases h
  · cases h

/-! ## How many lines a definition takes -/

/-- A line whose content has no newline in it. -/
def Line.IsSingle (line : Line) : Prop :=
  '\n' ∉ line.body

theorem count_ending_le (line : Line) : line.ending.count '\n' ≤ 1 := by
  unfold Line.ending
  split <;> decide

/-- The text in front of a character of a line has no newline in it. -/
theorem notMem_of_body_eq {line : Line} (hsingle : line.IsSingle) {front more : List Char}
    {c : Char} (h : line.body ++ line.ending = front ++ c :: more) : '\n' ∉ front := by
  have hbody : ∃ kept, line.body = front ++ kept := by
    unfold Line.ending at h
    split at h
    · refine ⟨(c :: more).dropLast, ?_⟩
      have hlast := congrArg List.dropLast h
      rwa [List.dropLast_concat, List.dropLast_append_of_ne_nil (List.cons_ne_nil c more)] at hlast
    · exact ⟨c :: more, by rwa [List.append_nil] at h⟩
  obtain ⟨kept, hkept⟩ := hbody
  intro hmem
  apply hsingle
  rw [hkept]
  exact List.mem_append_left kept hmem

/-- In front of a character the text of lines has fewer newlines than there are lines. -/
theorem count_newline_lt {lines : List Line} (hsingle : ∀ line ∈ lines, line.IsSingle)
    {front rest : List Char} {c : Char} (htext : contentText lines = front ++ c :: rest) :
    front.count '\n' < lines.length := by
  induction lines generalizing front with
  | nil => simp [contentText] at htext
  | cons line lines ih =>
      have hline : line.IsSingle := hsingle line List.mem_cons_self
      have hothers : ∀ other ∈ lines, other.IsSingle :=
        fun other hm => hsingle other (List.mem_cons_of_mem line hm)
      have hcount : (line.body ++ line.ending).count '\n' ≤ 1 := by
        rw [List.count_append, List.count_eq_zero.mpr hline, Nat.zero_add]
        exact count_ending_le line
      have hsplit : (line.body ++ line.ending) ++ contentText lines = front ++ c :: rest := htext
      rw [List.length_cons]
      rcases List.append_eq_append_iff.mp hsplit with ⟨more, rfl, hmore⟩ | ⟨more, hfront, hmore⟩
      · -- the character stands on a later line
        have hlater := ih hothers hmore
        rw [List.count_append]
        omega
      · cases more with
        | nil =>
            -- the same, at the very start of the next line
            have hlater := @ih hothers [] hmore.symm
            rw [List.append_nil] at hfront
            rw [← hfront]
            omega
        | cons d more =>
            rw [List.count_eq_zero.mpr (notMem_of_body_eq hline hfront)]
            omega

theorem mem_of_mem_definitionLines {around : Surroundings} {lines : List Line} {line : Line}
    (h : line ∈ definitionLines around lines) : line ∈ lines := by
  rcases List.mem_append.mp h with h | h
  · exact List.mem_of_mem_take h
  · exact List.mem_of_mem_drop ((List.takeWhile_sublist _).subset h)

/-- A definition takes no more lines than it could spread over. -/
theorem definition?_le {around : Surroundings} {lines : List Line}
    (hsingle : ∀ line ∈ lines, line.IsSingle) {used : Nat}
    (h : definition? around lines = some used) : used ≤ (definitionLines around lines).length := by
  unfold definition? at h
  split at h
  · next text htext =>
      obtain ⟨rest, hrest, rfl⟩ := Option.map_eq_some_iff.mp h
      obtain ⟨taken, last, hlast, rfl⟩ := takesFrom_afterDefinition hrest
      have hcount := count_newline_lt
        (fun line hline => hsingle line (mem_of_mem_definitionLines hline))
        (show contentText _ = ('[' :: taken) ++ last :: rest from htext)
      have htake : (taken ++ last :: rest).take ((taken ++ last :: rest).length - rest.length)
          = taken ++ [last] := by
        rw [List.append_cons, List.length_append, Nat.add_sub_cancel, List.take_left]
      have hnewlines : (taken ++ [last]).count '\n' = taken.count '\n' := by
        rw [List.count_append, List.count_singleton, if_neg (by simpa using hlast), Nat.add_zero]
      rw [htake, hnewlines]
      rw [List.count_cons_of_ne (by decide)] at hcount
      omega
  · cases h

/-! ## Code and HTML -/

section Extents

variable {indent : Nat}

/-- Indented code ends before a line that is neither empty nor indented as code. -/
theorem indentedExtent_le {lines : List Line} {n : Nat}
    (h : ∀ line ∈ lines[n]?, line.isEmpty = false ∧ line.isCode indent = false) :
    indentedExtent indent lines ≤ n := by
  induction lines generalizing n with
  | nil => exact Nat.zero_le n
  | cons line lines ih =>
      unfold indentedExtent
      cases n with
      | zero =>
          obtain ⟨hempty, hcode⟩ := h line rfl
          simp [hempty, hcode]
      | succ n =>
          have hrest := ih (n := n) h
          split
          · split <;> omega
          split <;> omega

/-- Fenced code, its closing fence included, ends before a line outside. -/
theorem fencedExtent_le (fence : Fence) {lines : List Line} {n : Nat}
    (h : ∀ line ∈ lines[n]?, line.isEmpty = false ∧ line.isOutside indent = true) :
    (fencedExtent indent fence lines).1
      + (if (fencedExtent indent fence lines).2 then 1 else 0) ≤ n := by
  induction lines generalizing n with
  | nil => exact Nat.zero_le n
  | cons line lines ih =>
      unfold fencedExtent
      cases n with
      | zero =>
          obtain ⟨hempty, houtside⟩ := h line rfl
          simp [hempty, houtside]
      | succ n =>
          have hrest := ih (n := n) h
          split
          · simp
          split
          · simp
          split
          · simp
          · dsimp only
            omega

/-- HTML ends before a line outside. -/
theorem htmlExtent_le {kind : HtmlKind} {lines : List Line} {n : Nat}
    (h : ∀ line ∈ lines[n]?, line.isEmpty = false ∧ line.isOutside indent = true) :
    htmlExtent indent kind lines ≤ n := by
  induction lines generalizing n with
  | nil => exact Nat.zero_le n
  | cons line lines ih =>
      unfold htmlExtent
      cases n with
      | zero =>
          obtain ⟨hempty, houtside⟩ := h line rfl
          simp [hempty, houtside]
      | succ n =>
          have hrest := ih (n := n) h
          split
          · omega
          split
          · split <;> omega
          · omega

end Extents

/-! ## Paragraphs -/

/-- Whether no paragraph and no definition goes on beyond the first `n` lines: the line behind them
continues neither, or the last of them is empty. -/
def StopsAt (around : Surroundings) (lines : List Line) (n : Nat) : Prop :=
  ∀ line ∈ lines[n]?, (∀ block ≠ .list, continuesParagraph around block line = false)
    ∨ ∃ k, n = k + 1 ∧ ∃ last ∈ lines[k]?, last.isEmpty = true

theorem StopsAt.take {around : Surroundings} {lines : List Line} {n : Nat}
    (h : StopsAt around lines n) (count : Nat) : StopsAt around (lines.take count) n := by
  intro line hline
  rw [List.getElem?_take] at hline
  split at hline
  · next hcount =>
      rcases h line hline with hstops | ⟨k, rfl, last, hlast, hempty⟩
      · exact .inl hstops
      · refine .inr ⟨k, rfl, last, ?_, hempty⟩
        rwa [List.getElem?_take, if_pos (by omega)]
  · cases hline

theorem length_takeWhile_le {around : Surroundings} {lines : List Line} {n : Nat}
    (h : StopsAt around lines n) {block : Interrupted} (hblock : block ≠ .list) :
    (lines.takeWhile (continuesParagraph around block)).length ≤ n := by
  induction lines generalizing n with
  | nil => exact Nat.zero_le n
  | cons line lines ih =>
      cases hline : continuesParagraph around block line with
      | false =>
          rw [List.takeWhile_cons_of_neg (by simp [hline])]
          exact Nat.zero_le n
      | true =>
          rw [List.takeWhile_cons_of_pos hline, List.length_cons]
          cases n with
          | zero =>
              rcases h line rfl with hstops | ⟨k, hk, -⟩
              · simp [hstops block hblock] at hline
              · omega
          | succ n =>
              apply Nat.succ_le_succ
              apply ih
              intro next hnext
              rcases h next hnext with hstops | ⟨k, hk, last, hlast, hempty⟩
              · exact .inl hstops
              obtain rfl : n = k := by omega
              cases n with
              | zero =>
                  -- the last line before would be the first, which is not empty
                  obtain rfl : line = last := Option.some.inj hlast
                  simp [continuesParagraph, hempty] at hline
              | succ n => exact .inr ⟨n, rfl, last, hlast, hempty⟩

/-- An underline stands where the paragraph before it ends. -/
theorem underlined?_spec {around : Surroundings} {lines : List Line} {level count : Nat}
    (h : underlined? around lines = some (level, count)) :
    count ≤ (lines.takeWhile (continuesParagraph around .paragraph)).length
      ∧ ∃ line ∈ lines[count]?, line.isOutside around.indent = false := by
  induction lines generalizing level count with
  | nil => cases h
  | cons line lines ih =>
      unfold underlined? at h
      split at h
      · next other hunderline =>
          obtain ⟨-, rfl⟩ := Prod.mk.inj (Option.some.inj h)
          refine ⟨Nat.zero_le _, line, rfl, ?_⟩
          unfold underlineLevel? at hunderline
          split at hunderline
          · cases hunderline
          · next hplace =>
              rw [Bool.or_eq_true, not_or] at hplace
              exact Bool.eq_false_iff.mpr hplace.2
      · split at h
        · next hcontinues =>
            obtain ⟨⟨level', count'⟩, hinner, heq⟩ := Option.map_eq_some_iff.mp h
            obtain ⟨-, rfl⟩ := Prod.mk.inj heq
            obtain ⟨hcount, next, hnext, hinside⟩ := ih hinner
            rw [List.takeWhile_cons_of_pos hcontinues, List.length_cons]
            exact ⟨Nat.succ_le_succ hcount, next, hnext, hinside⟩
        · cases h

/-! ## Leaf blocks -/

/-- Whether a leaf block that opens before these lines, of which the container has the first
`count`, ends within the first `n` of them. -/
structure LeafStopsAt (around : Surroundings) (following : List Line) (count n : Nat) : Prop where
  container : ∀ line ∈ (following.take count)[n]?,
    line.isEmpty = false ∧ line.isOutside around.indent = true
  paragraph : StopsAt around following n
  single : ∀ line ∈ following, line.IsSingle

section Leaf

variable {around : Surroundings} {following : List Line} {count n : Nat}

theorem paragraph_used_le (h : LeafStopsAt around following count n) (line : Line) :
    (paragraph around line (following.take count) following).used ≤ n + 1 := by
  have hextent := length_takeWhile_le h.paragraph (show Interrupted.paragraph ≠ .list by decide)
  unfold paragraph
  split
  · next level before hunderlined =>
      obtain ⟨hbefore, underline, hunderline, hinside⟩ := underlined?_spec hunderlined
      have hcut := length_takeWhile_le (h.paragraph.take count)
        (show Interrupted.paragraph ≠ .list by decide)
      -- the underline is inside, so it is not the line behind the border
      have hne : before ≠ n := by
        rintro rfl
        have houtside := (h.container underline hunderline).2
        rw [hinside] at houtside
        cases houtside
      have htake := List.length_take_le before (following.take count)
      dsimp only
      rw [List.length_cons]
      omega
  · dsimp only
    rw [List.length_cons]
    omega

theorem htmlBlock_used_le (h : LeafStopsAt around following count n) (kind : HtmlKind)
    (line : Line) : (htmlBlock around.indent kind line (following.take count)).used ≤ n + 1 := by
  have hextent : htmlExtent around.indent kind (following.take count) ≤ n :=
    htmlExtent_le h.container
  have hmore : (if kind.closedBy line.body then 0
      else htmlExtent around.indent kind (following.take count)) ≤ n := by
    split <;> omega
  have htake := List.length_take_le
    (if kind.closedBy line.body then 0 else htmlExtent around.indent kind (following.take count))
    (following.take count)
  unfold htmlBlock
  dsimp only
  rw [List.length_cons]
  omega

theorem indentedCode_used_le (h : LeafStopsAt around following count n) (line : Line) :
    (indentedCode around.indent line (following.take count)).used ≤ n + 1 := by
  have hextent : indentedExtent around.indent (following.take count) ≤ n := by
    apply indentedExtent_le
    intro other hother
    obtain ⟨hempty, houtside⟩ := h.container other hother
    refine ⟨hempty, ?_⟩
    simp only [Line.isOutside, Line.isCode, decide_eq_true_eq,
      decide_eq_false_iff_not] at houtside ⊢
    omega
  have htake := List.length_take_le (indentedExtent around.indent (following.take count))
    (following.take count)
  unfold indentedCode
  dsimp only
  rw [List.length_cons]
  omega

theorem fencedCode_used_le (h : LeafStopsAt around following count n) (fence : Fence)
    (line : Line) :
    (fencedCode around.indent fence line (following.take count)).used ≤ n + 1 := by
  have hextent := fencedExtent_le fence h.container
  unfold fencedCode
  dsimp only
  omega

/-- **A leaf block ends within its lines.** -/
theorem leaf_used_le (h : LeafStopsAt around following count n) {line : Line}
    (hline : line.IsSingle) :
    (leaf around line (following.take count) following).used ≤ n + 1 := by
  unfold leaf
  split
  · next used hused =>
      have hspread := definition?_le (List.forall_mem_cons.mpr ⟨hline, h.single⟩) hused
      have hextent :=
        length_takeWhile_le h.paragraph (show Interrupted.definition ≠ .list by decide)
      simp only [definitionLines, List.take_succ_cons, List.take_zero, List.drop_succ_cons,
        List.drop_zero, List.length_append, List.length_singleton] at hspread
      dsimp only
      omega
  split
  · exact htmlBlock_used_le h _ line
  split
  · exact Nat.succ_le_succ (Nat.zero_le n)
  · exact paragraph_used_le h line

/-- A leaf block takes its first line. -/
theorem leaf_used_pos (line : Line) :
    0 < (leaf around line (following.take count) following).used := by
  unfold leaf
  split
  · next used hused =>
      unfold definition? at hused
      split at hused
      · obtain ⟨rest, -, rfl⟩ := Option.map_eq_some_iff.mp hused
        exact Nat.succ_pos _
      · cases hused
  split
  · exact Nat.succ_pos _
  split
  · exact Nat.one_pos
  · unfold paragraph
    split <;> exact Nat.succ_pos _

end Leaf

end DocComment.Markdown
