import DocComment.Block.Markup
import DocComment.Proofs.Prose
import DocComment.Proofs.ReadExtent
import Mathlib

/-!
# One block in front of others

The parts of a text are cut into lines (`sourceLines`).  `ReadsLike` says that lines are read as one
block like a given one (`Block.Agrees`), whatever stands behind them (`Behind`): nothing, or an
empty line and something that does not go on with the block.  One step of reading takes such lines
off, with the empty line behind them, and leaves the rest (`readBlocks_behind`).
-/

namespace DocComment

/-- Whether two blocks are of the same kind and say the same: paragraphs and headings the same text,
headings on the same level, code blocks the same code.  What is inside quotes and lists is left
out. -/
def Block.Agrees : Block → Block → Prop
  | .paragraph text, .paragraph other => text = other
  | .heading level text, .heading level' other => level = level' ∧ text = other
  | .code info literal, .code info' literal' => info = info' ∧ literal = literal'
  | .html _, .html _ => True
  | .thematicBreak _, .thematicBreak _ => True
  | .quote _ _, .quote _ _ => True
  | .list l, .list m => l.kind = m.kind
  | _, _ => False

namespace Markdown

open Text

/-! ## The lines of a text -/

/-- The lines of the parts between the newlines of a text; `ended` says whether a newline ends the
last one too. -/
def sourceLines (ended : Bool) : List (List Char) → List Line
  | [] => []
  | [last] => [Line.ofSource ended last]
  | part :: parts => Line.ofSource true part :: sourceLines ended parts

theorem sourceLines_concat (ended : Bool) (parts : List (List Char)) (last : List Char) :
    sourceLines ended (parts ++ [last])
      = parts.map (Line.ofSource true) ++ [Line.ofSource ended last] := by
  induction parts with
  | nil => rfl
  | cons part parts ih =>
      obtain ⟨next, rest, hnext⟩ := List.exists_cons_of_ne_nil
        (show parts ++ [last] ≠ [] by simp)
      rw [List.cons_append, List.map_cons, List.cons_append, ← ih, hnext]
      rfl

theorem sourceLines_append (ended : Bool) (parts : List (List Char)) {more : List (List Char)}
    (h : more ≠ []) :
    sourceLines ended (parts ++ more)
      = parts.map (Line.ofSource true) ++ sourceLines ended more := by
  obtain ⟨front, last, rfl⟩ := (List.eq_nil_or_concat' more).resolve_left h
  rw [← List.append_assoc, sourceLines_concat, sourceLines_concat, List.map_append,
    List.append_assoc]

theorem sourceLines_cons (ended : Bool) (first : List Char) (more : List (List Char)) :
    ∃ firstEnded, sourceLines ended (first :: more)
      = Line.ofSource firstEnded first :: sourceLines ended more := by
  cases more with
  | nil => exact ⟨ended, rfl⟩
  | cons next more => exact ⟨true, rfl⟩

theorem sourceLines_true (parts : List (List Char)) :
    sourceLines true parts = parts.map (Line.ofSource true) := by
  rcases List.eq_nil_or_concat' parts with rfl | ⟨front, last, rfl⟩
  · rfl
  · rw [sourceLines_concat, List.map_append]
    rfl

/-- What a line says apart from its end can be read off each part. -/
theorem map_sourceLines {α : Type} (f : Line → α) (hf : ∀ ended part,
      f (Line.ofSource ended part) = f (Line.ofSource true part)) (ended : Bool)
    (parts : List (List Char)) :
    (sourceLines ended parts).map f = parts.map fun part => f (Line.ofSource true part) := by
  rcases List.eq_nil_or_concat' parts with rfl | ⟨front, last, rfl⟩
  · rfl
  · rw [sourceLines_concat, List.map_append, List.map_append, List.map_map, List.map_singleton,
      List.map_singleton, hf]
    rfl

@[simp]
theorem length_sourceLines (ended : Bool) (parts : List (List Char)) :
    (sourceLines ended parts).length = parts.length := by
  rcases List.eq_nil_or_concat' parts with rfl | ⟨front, last, rfl⟩
  · rfl
  · simp [sourceLines_concat]

theorem mem_sourceLines {ended : Bool} {parts : List (List Char)} {line : Line}
    (h : line ∈ sourceLines ended parts) :
    ∃ part ∈ parts, ∃ lineEnded, line = Line.ofSource lineEnded part := by
  rcases List.eq_nil_or_concat' parts with rfl | ⟨front, last, rfl⟩
  · cases h
  · rw [sourceLines_concat] at h
    rcases List.mem_append.mp h with h | h
    · obtain ⟨part, hpart, rfl⟩ := List.mem_map.mp h
      exact ⟨part, List.mem_append_left [last] hpart, true, rfl⟩
    · obtain rfl := List.mem_singleton.mp h
      exact ⟨last, by simp, ended, rfl⟩

/-- At the end of a text the last line is not ended; it is a line if something is in it. -/
theorem linesOfParts_eq {parts : List (List Char)}
    (hlast : ∀ last ∈ parts.getLast?, last.all isIndent = false) :
    linesOfParts parts = sourceLines false parts := by
  rcases List.eq_nil_or_concat' parts with rfl | ⟨front, last, rfl⟩
  · rfl
  · have hvisible := hlast last (by simp)
    rw [linesOfParts_append front (by simp), sourceLines_concat, linesOfParts, hvisible]
    rfl

theorem visible_eq_newline {c : Char} (h : Line.visible c = '\n') : c = '\n' := by
  unfold Line.visible at h
  split at h
  · exact absurd h (by decide)
  · exact h

/-- A part between newlines is a single line. -/
theorem single_ofSource {part : List Char} (h : '\n' ∉ part) (ended : Bool) :
    (Line.ofSource ended part).IsSingle := by
  intro hmem
  obtain ⟨c, hc, hvisible⟩ := List.mem_map.mp ((List.dropWhile_sublist isIndent).subset hmem)
  rw [visible_eq_newline hvisible] at hc
  exact h hc

/-- The lines of a text that is read as it is written: without null characters. -/
theorem map_visible {cs : List Char} (h : '\x00' ∉ cs) : cs.map Line.visible = cs := by
  refine (List.map_congr_left fun c hc => ?_).trans (List.map_id cs)
  have hne : c ≠ '\x00' := by
    rintro rfl
    exact h hc
  simp [Line.visible, hne]

/-- A line that is not indented. -/
theorem ofSource_flush (ended : Bool) {cs : List Char}
    (hhead : ∀ c ∈ cs.head?, isIndent c = false) :
    Line.ofSource ended cs
      = { source := cs, lead := [], body := cs.map Line.visible, width := 0, ended } := by
  cases cs with
  | nil => rfl
  | cons c cs =>
      have hc : isIndent (Line.visible c) = false := by
        unfold Line.visible
        split
        · decide
        · exact hhead c rfl
      simp only [Line.ofSource, List.map_cons]
      rw [List.takeWhile_cons_of_neg (by simp [hc]), List.dropWhile_cons_of_neg (by simp [hc])]
      rfl

/-- A line that is not indented and has no null characters. -/
theorem ofSource_plain (ended : Bool) {cs : List Char} (hhead : ∀ c ∈ cs.head?, isIndent c = false)
    (hvisible : '\x00' ∉ cs) :
    Line.ofSource ended cs = { source := cs, lead := [], body := cs, width := 0, ended } := by
  rw [ofSource_flush ended hhead, map_visible hvisible]

/-- Without an indentation to take off, a line is what it was read from. -/
theorem excerpt_ofSource (ended : Bool) {part : List Char} (hvisible : '\x00' ∉ part) :
    (Line.ofSource ended part).excerpt 0 = part := by
  have hdrop (column : Nat) (lead : List Char) : dropIndent column 0 0 lead = (0, lead) := by
    cases lead <;> rfl
  simp only [Line.excerpt, Line.ofSource, map_visible hvisible, hdrop]
  exact List.takeWhile_append_dropWhile

theorem isEmpty_emptyLine : emptyLine.isEmpty = true := rfl

/-! ## A block and what stands behind it -/

/-- What stands behind a block: nothing, or an empty line and something that is not indented.
Behind a list that is no item of the same kind. -/
inductive Behind (block : Block) : List Line → Prop
  | nothing : Behind block []
  | other {next : Line} {more : List Line} (hvisible : next.isEmpty = false)
      (hflush : next.width = 0) (hsingle : ∀ line ∈ next :: more, line.IsSingle)
      (hapart : ∀ l sign, block = .list l → l.marker = String.singleton sign →
        nextMarker? {} l.kind sign next = none) : Behind block (emptyLine :: next :: more)

variable {limit : Int} {read : ContentReader} {block : Block} {lines rest : List Line}

theorem Behind.endsParagraph (h : Behind block rest) : EndsParagraph {} rest := by
  cases h with
  | nothing => simp [EndsParagraph]
  | other => exact endsParagraph_empty {} _

/-- Behind the lines of a block and the empty line stands what is read next. -/
theorem Behind.drop_eq (h : Behind block rest) (lines : List Line) :
    (lines ++ rest).drop (lines.length + if rest = [] then 0 else 1) = rest.tail := by
  cases h with
  | nothing => simp
  | other =>
      rw [← List.drop_drop, List.drop_left, if_neg (List.cons_ne_nil _ _), List.drop_one]

/-- The empty line goes with the block, whether or not the block has taken it already. -/
theorem Behind.withBlank_eq (h : Behind block rest) {used : Nat} (hused : used = lines.length
      ∨ used = lines.length + 1 ∧ rest ≠ []) :
    withBlank (lines ++ rest) (lines ++ rest).length used
      = lines.length + if rest = [] then 0 else 1 := by
  have hdrop := h.drop_eq lines
  cases h with
  | nothing =>
      obtain rfl : used = lines.length := hused.resolve_right fun ⟨_, hne⟩ => hne rfl
      simp [withBlank]
  | other hnext =>
      rw [if_neg (List.cons_ne_nil _ _)] at hdrop ⊢
      rcases hused with rfl | ⟨rfl, -⟩
      · simp [withBlank, isEmpty_emptyLine]
      · rw [withBlank, hdrop]
        simp [hnext]

/-- Whether lines are read as one block like this, where the rest stands behind them: the block
takes all of them, and no others but the empty line behind.  Where content is nested too deep to be
read this is left open. -/
def ReadsLike (limit : Int) (read : ContentReader) (block : Block) (lines rest : List Line) :
    Prop :=
  ∃ line front, lines = line :: front ∧ line.isEmpty = false ∧ line.width = 0
    ∧ ∀ found, readBlock read {} line (front ++ rest) ((front ++ rest).length + 1) = .ok found →
      Block.levelsAll found.blocks < limit →
        (∃ other, found.blocks = [other] ∧ block.Agrees other)
          ∧ (found.used = lines.length ∨ found.used = lines.length + 1 ∧ rest ≠ [])

/-- One step: a block is read off the lines, and what stands behind its empty line is left. -/
theorem readBlocks_behind (h : ReadsLike limit read block lines rest) (hrest : Behind block rest)
    (hroom : 0 < limit) {bound : Nat} {found : Found}
    (hfound : readBlocks (some limit) read {} (bound + 1) (lines ++ rest) (lines ++ rest).length
      = .ok found) (hlevels : Block.levelsAll found.blocks < limit) :
    ∃ other more, found.blocks = other :: more.blocks ∧ block.Agrees other
      ∧ readBlocks (some limit) read {} bound rest.tail rest.tail.length = .ok more := by
  obtain ⟨line, front, rfl, hvisible, hflush, hblock⟩ := h
  have hgap : ((line :: front) ++ rest).takeWhile Line.isEmpty = [] :=
    List.takeWhile_cons_of_neg (by simp [hvisible])
  have hinside : line.isOutside ({} : Surroundings).indent = false := by
    simp [Line.isOutside, hflush]
  rcases readBlocks_ok hfound (show _ = line :: (front ++ rest) by rw [hgap]; rfl)
    (show _ = (front ++ rest).length + 1 by rw [hgap]; rfl) with
    ⟨houtside, -⟩ | ⟨-, hdeep, -⟩ | ⟨-, -, first, more, hfirst, hmore, rfl⟩
  · rw [hinside] at houtside
    cases houtside
  · exact absurd hroom (by simpa using hdeep)
  have hfirstlevels : Block.levelsAll first.blocks < limit := by
    rw [Block.levelsAll_append] at hlevels
    push_cast at hlevels
    omega
  obtain ⟨⟨other, hother, hagrees⟩, hused⟩ := hblock first hfirst hfirstlevels
  refine ⟨other, more, by rw [hother]; rfl, hagrees, ?_⟩
  -- the block and the empty line behind it are gone
  have hblank := hrest.withBlank_eq hused
  have hdrop := hrest.drop_eq (line :: front)
  have hleft : ((line :: front) ++ rest).length
      - ((line :: front).length + if rest = [] then 0 else 1) = rest.tail.length := by
    rw [← hdrop, List.length_drop]
  rw [List.cons_append, List.length_cons] at hblank hleft
  rw [List.cons_append] at hdrop
  rw [hblank, hdrop, hleft] at hmore
  exact hmore

end Markdown

end DocComment
