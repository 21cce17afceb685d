import DocComment.Markdown.Reader
import DocComment.Proofs.Outcome
import DocComment.Proofs.TextLayout
import Mathlib

/-!
# Reading Markdown never fails

Two bounds apply to nested containers: inside `limit` levels nothing is read any more, and beyond
`containerCapacity` containers reading fails.  Every container is one level at least, so the first
bound is reached before the second where it is the smaller one.  `readContent_total` says so for the
reader of content with any capacity left, and `read_total` for whole texts.

A text that was read is described by its document: the document carries the text with its newlines
unified, and reading that again is reading it (`read_unifyNewlines`).
-/

namespace DocComment.Markdown

open Text

/-! ## Totality -/

/-- Whether content at any deeper level than this is read without fail. -/
def ReadsBelow (read : ContentReader) (level : Nat) : Prop :=
  ∀ inside lines count, level < inside.level → ∃ found, read inside lines count = .ok found

section Containers

variable {read : ContentReader} {around : Surroundings} (h : ReadsBelow read around.level)

include h

theorem readQuote_total (line : Line) (following : List Line) (count : Nat) :
    ∃ found, readQuote read around line following count = .ok found := by
  unfold readQuote
  obtain ⟨more, ended⟩ := quotedLines around line.unquoted.isEmpty (following.take (count - 1))
  exact exists_bind (h _ _ _ (Nat.lt_succ_self around.level)) fun _ => ⟨_, rfl⟩

theorem readItem_total (line : Line) (marker : Marker) (following : List Line) (count : Nat) :
    ∃ found, readItem read around line marker following count = .ok found := by
  unfold readItem
  obtain ⟨first, indent⟩ := itemContent line marker
  dsimp only
  split
  · exact ⟨_, rfl⟩
  · -- the list of the item is a level of its own
    refine h _ _ _ ?_
    show around.level < around.level + 2
    omega

theorem readItems_total (bound : Nat) (marker : Marker) (lines : List Line) (count : Nat) :
    ∃ items, readItems read around bound marker lines count = .ok items := by
  induction bound generalizing marker lines count with
  | zero => exact ⟨_, rfl⟩
  | succ bound ih =>
      cases lines with
      | nil => exact ⟨_, rfl⟩
      | cons line following =>
          rw [readItems]
          refine exists_bind (readItem_total h line marker following count) fun found => ?_
          dsimp only
          split
          · exact ⟨_, rfl⟩
          · exact exists_bind (ih _ _ _) fun _ => ⟨_, rfl⟩

theorem readBlock_total (line : Line) (following : List Line) (count : Nat) :
    ∃ found, readBlock read around line following count = .ok found := by
  unfold readBlock
  dsimp only
  split
  · exact ⟨_, rfl⟩
  split
  · exact ⟨_, rfl⟩
  split
  · exact readQuote_total h line following count
  split
  · exact ⟨_, rfl⟩
  split
  · exact exists_bind (readItems_total h _ _ _ _) fun _ => ⟨_, rfl⟩
  · exact ⟨_, rfl⟩

end Containers

/-- Blocks are read without fail if all deeper content is, or if they are too deep to be read at
all. -/
theorem readBlocks_total {limit : Int} {read : ContentReader} {around : Surroundings}
    (h : around.level < limit → ReadsBelow read around.level) (bound : Nat) (lines : List Line)
    (count : Nat) : ∃ found, readBlocks (some limit) read around bound lines count = .ok found := by
  induction bound generalizing lines count with
  | zero => exact ⟨_, rfl⟩
  | succ bound ih =>
      rw [readBlocks]
      dsimp only
      split
      · split
        · exact ⟨_, rfl⟩
        split
        · exact ⟨_, rfl⟩
        · next hroom =>
            refine exists_bind (readBlock_total (h (by omega)) _ _ _) fun found => ?_
            exact exists_bind (ih _ _) fun _ => ⟨_, rfl⟩
      · exact ⟨_, rfl⟩

/-- Content is read without fail wherever the limit of levels is reached before the capacity for
containers is. -/
theorem readContent_total {limit : Int} (capacity : Nat) (around : Surroundings)
    (lines : List Line) (count : Nat) (h : limit ≤ around.level + capacity) :
    ∃ found, readContent (some limit) (capacity + 1) around lines count = .ok found := by
  induction capacity generalizing around lines count with
  | zero =>
      -- no capacity for containers is left, but there is no level left either
      refine readBlocks_total (fun hroom => ?_) count lines count
      exact absurd hroom (by simpa using h)
  | succ capacity ih =>
      refine readBlocks_total (fun _ inside lines count hlevel => ih inside lines count ?_) count
        lines count
      push_cast at h
      omega

/-- **Reading never fails** where the limit of levels is within the capacity for containers. -/
theorem read_total {limit : Int} (hlimit : limit ≤ containerCapacity) (text : String) :
    ∃ blocks, Markdown.read (some limit) text
      = .ok { text := String.ofList (unifyNewlines text.toList), children := blocks } := by
  have hroom : limit ≤ ({} : Surroundings).level + containerCapacity := by simpa using hlimit
  obtain ⟨found, hfound⟩ := readContent_total containerCapacity {}
    (linesOf (unifyNewlines text.toList)) (linesOf (unifyNewlines text.toList)).length hroom
  refine ⟨found.blocks, ?_⟩
  rw [Markdown.read, readSource, hfound]
  rfl

/-! ## Documents describe themselves -/

theorem notMem_unifyNewlines (cs : List Char) : '\r' ∉ unifyNewlines cs := by
  induction cs using unifyNewlines.induct with
  | case1 => simp [unifyNewlines]
  | case2 cs ih => simpa [unifyNewlines] using ih
  | case3 cs hne ih => simpa [unifyNewlines] using ih
  | case4 c cs hpair hreturn ih =>
      have hc : '\r' ≠ c := fun h => hreturn h.symm
      simpa [unifyNewlines, hc] using ih

/-- A text whose newlines are unified already is read as that text. -/
theorem read_unifyNewlines (limit : Option Int) (text : String) :
    Markdown.read limit (String.ofList (unifyNewlines text.toList)) = Markdown.read limit text := by
  rw [Markdown.read, Markdown.read, String.toList_ofList,
    unifyNewlines_of_notMem (notMem_unifyNewlines text.toList)]

end DocComment.Markdown
