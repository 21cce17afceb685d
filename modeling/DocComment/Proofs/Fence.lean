import DocComment.Block.Markup
import DocComment.Markdown.Opener
import DocComment.Proofs.TextLayout
import Mathlib

/-!
# Fences around code

The fence of a code block gets one backtick more as long as it stands in the literal.  Whether a run
of backticks stands there is a matter of its length: it does as far as the longest run of the
literal goes (`replicate_infix_iff`).  So the search ends one step behind that
(`GrowsUntil.eq_max`), with the shortest fence that is safe (`markup_code_shortest_fence`).

A line of the literal cannot close such a fence: a line that does opens with as many backticks as
the fence has (`closedBy_of_infix`).
-/

namespace DocComment

namespace Markdown

/-! ## Runs of one mark -/

theorem runLength_replicate (c : Char) (n : Nat) {cs : List Char} (hcs : cs.head? ≠ some c) :
    runLength c (List.replicate n c ++ cs) = n
      ∧ (List.replicate n c ++ cs).dropWhile (· == c) = cs := by
  have hall : ∀ x ∈ List.replicate n c, (x == c) = true := by
    intro x hx
    rw [List.eq_of_mem_replicate hx, beq_self_eq_true]
  have hnone : cs.takeWhile (· == c) = [] ∧ cs.dropWhile (· == c) = cs := by
    cases cs with
    | nil => exact ⟨rfl, rfl⟩
    | cons d cs =>
        have hne : (d == c) = false := by
          rw [beq_eq_false_iff_ne]
          rintro rfl
          exact hcs rfl
        exact ⟨List.takeWhile_cons_of_neg (by simp [hne]),
          List.dropWhile_cons_of_neg (by simp [hne])⟩
  constructor
  · rw [runLength, List.takeWhile_append_of_pos hall, hnone.1, List.append_nil,
      List.length_replicate]
  · rw [List.dropWhile_append_of_pos hall, hnone.2]

/-- As many marks as stand at the start of a text are a beginning of it. -/
theorem replicate_prefix_of_le {c : Char} {n : Nat} {cs : List Char} (h : n ≤ runLength c cs) :
    List.replicate n c <+: cs := by
  have hrun : cs.takeWhile (· == c) = List.replicate (runLength c cs) c := by
    rw [List.eq_replicate_iff]
    refine ⟨rfl, fun x hx => ?_⟩
    have hsame : (x == c) = true := List.mem_takeWhile_imp (p := (· == c)) hx
    exact beq_iff_eq.mp hsame
  have hprefix : List.replicate (runLength c cs) c <+: cs := by
    rw [← hrun]
    exact List.takeWhile_prefix _
  refine List.IsPrefix.trans ?_ hprefix
  exact ⟨List.replicate (runLength c cs - n) c, by
    rw [List.replicate_append_replicate, Nat.add_sub_cancel' h]⟩

theorem replicate_prefix_iff {c : Char} {n : Nat} {cs : List Char} :
    List.replicate n c <+: cs ↔ n ≤ runLength c cs := by
  refine ⟨?_, replicate_prefix_of_le⟩
  rintro ⟨rest, rfl⟩
  have hall : ∀ x ∈ List.replicate n c, (x == c) = true := fun x hx => by
    rw [List.eq_of_mem_replicate hx, beq_self_eq_true]
  rw [runLength, List.takeWhile_append_of_pos hall, List.length_append, List.length_replicate]
  exact Nat.le_add_right n _

/-- The length of the longest run of a mark, wherever it starts. -/
def longestRun (c : Char) : List Char → Nat
  | [] => 0
  | d :: cs => max (runLength c (d :: cs)) (longestRun c cs)

/-- **A run of marks stands in a text** as far as the longest one goes. -/
theorem replicate_infix_iff {c : Char} {n : Nat} {cs : List Char} :
    List.replicate n c <:+: cs ↔ n ≤ longestRun c cs := by
  induction cs with
  | nil => simp [longestRun]
  | cons d cs ih => rw [List.infix_cons_iff, replicate_prefix_iff, ih, longestRun, le_max_iff]

end Markdown

namespace Markup

open Markdown

/-! ## The search for a fence -/

theorem occursIn_iff (word cs : List Char) : occursIn word cs = true ↔ word <:+: cs := by
  induction cs with
  | nil => simp [occursIn]
  | cons c cs ih =>
      unfold occursIn
      rw [Bool.or_eq_true, List.isPrefixOf_iff_prefix, ih, List.infix_cons_iff]

/-- The search for a fence without a bound on its steps: from a length on, there is one backtick
more as long as the fence stands in the literal, and `final` is the length that the search ends
with. -/
inductive GrowsUntil (literal : List Char) : Nat → Nat → Prop where
  | stands {length final : Nat} (h : List.replicate length backtick <:+: literal)
      (more : GrowsUntil literal (length + 1) final) : GrowsUntil literal length final
  | safe {length : Nat} (h : ¬List.replicate length backtick <:+: literal) :
      GrowsUntil literal length length

/-- The search ends, and not for want of steps, if they reach beyond the literal. -/
theorem growsUntil_growFence {literal : List Char} {tries length : Nat}
    (h : literal.length < length + tries) :
    GrowsUntil literal length (growFence literal tries length) := by
  induction tries generalizing length with
  | zero =>
      -- no run of backticks is longer than the literal
      refine .safe fun hinfix => ?_
      have hle := hinfix.length_le
      rw [List.length_replicate] at hle
      omega
  | succ tries ih =>
      unfold growFence
      split
      · next hstands => exact .stands ((occursIn_iff _ _).mp hstands) (ih (by omega))
      · next hsafe => exact .safe fun hinfix => hsafe ((occursIn_iff _ _).mpr hinfix)

/-- **Wherever the search ends**, it is one backtick behind the longest run, or at the start. -/
theorem GrowsUntil.eq_max {literal : List Char} {length final : Nat}
    (h : GrowsUntil literal length final) :
    final = max length (1 + longestRun backtick literal) := by
  induction h with
  | stands hstands _ ih =>
      rw [replicate_infix_iff] at hstands
      omega
  | safe hsafe =>
      rw [replicate_infix_iff] at hsafe
      omega

/-- The size of the fence around a literal. -/
def fenceSize (literal : String) : Nat :=
  max 3 (1 + longestRun backtick literal.toList)

theorem growsUntil_fenceSize (literal : String) :
    GrowsUntil literal.toList 3 (fenceSize literal)
      ∧ fence literal = List.replicate (fenceSize literal) backtick := by
  have hsearch : GrowsUntil literal.toList 3
      (growFence literal.toList literal.toList.length 3) := growsUntil_growFence (by omega)
  rw [fenceSize, fence, ← hsearch.eq_max]
  exact ⟨hsearch, rfl⟩

/-- **The fence around a literal** is a run of three backticks or more that does not stand in it. -/
theorem fence_spec (literal : String) :
    ∃ size, 3 ≤ size ∧ fence literal = List.replicate size backtick
      ∧ ¬List.replicate size backtick <:+: literal.toList := by
  refine ⟨fenceSize literal, le_max_left _ _, (growsUntil_fenceSize literal).2, ?_⟩
  rw [replicate_infix_iff, fenceSize]
  omega

/-- Code stands between two fences, and a newline is put behind a last line that has none. -/
theorem toList_code_eq (info literal : String) :
    (Markup.code info literal).toList
      = fence literal ++ info.toList ++ '\n' :: (literal.toList
        ++ (if ∀ c ∈ literal.toList.getLast?, c = '\n' then [] else ['\n']) ++ fence literal) := by
  have hended : (literal.toList.isEmpty || Text.endsWith literal.toList ['\n']) = true
      ↔ ∀ c ∈ literal.toList.getLast?, c = '\n' := by
    rcases List.eq_nil_or_concat' literal.toList with hnil | ⟨front, last, hconcat⟩
    · simp [hnil]
    · simpa [hconcat, Text.endsWith, List.isSuffixOf_iff_suffix] using eq_comm
  unfold Markup.code
  simp only [hended, String.toList_ofList]
  split <;> simp

/-- **The search for a fence ends with the shortest safe one.**  Without any bound on its steps, the
search from three backticks on ends, and always with the same length: three, or one more than the
longest run of backticks in the literal.  Code is written between two fences of that length, which
do not stand in the literal, while every shorter run of three backticks or more does. -/
theorem markup_code_shortest_fence (info literal : String) :
    ∃ size, size = max 3 (1 + longestRun backtick literal.toList)
      ∧ (∀ final, GrowsUntil literal.toList 3 final ↔ final = size)
      ∧ (Block.code info literal).markup.toList
          = List.replicate size backtick ++ info.toList ++ '\n' :: (literal.toList
            ++ (if ∀ c ∈ literal.toList.getLast?, c = '\n' then [] else ['\n'])
            ++ List.replicate size backtick)
      ∧ ¬List.replicate size backtick <:+: literal.toList
      ∧ ∀ shorter, 3 ≤ shorter → shorter < size →
          List.replicate shorter backtick <:+: literal.toList := by
  obtain ⟨hsearch, hfence⟩ := growsUntil_fenceSize literal
  refine ⟨fenceSize literal, rfl, fun final => ?_, ?_, ?_, fun shorter hthree hshorter => ?_⟩
  · constructor
    · exact fun h => h.eq_max
    · rintro rfl
      exact hsearch
  · rw [← hfence]
    exact toList_code_eq info literal
  · rw [replicate_infix_iff, fenceSize]
    omega
  · rw [replicate_infix_iff]
    rw [fenceSize] at hshorter
    omega

/-- A run of four backticks takes a fence of five. -/
example : (Block.code "" "a \x60\x60\x60\x60 b").markup
    = "\x60\x60\x60\x60\x60\na \x60\x60\x60\x60 b\n\x60\x60\x60\x60\x60" := by decide +kernel

end Markup

namespace Markdown

/-! ## Fences that are read -/

theorem notMem_backticks {c : Char} (hc : c ≠ backtick) (size : Nat) :
    c ∉ List.replicate size backtick :=
  fun hmem => hc (List.eq_of_mem_replicate hmem)

/-- Backticks and a text without any open a fence. -/
theorem fence?_backticks {size : Nat} (hsize : 3 ≤ size) {info : List Char}
    (hinfo : backtick ∉ info) :
    fence? (List.replicate size backtick ++ info) = some { mark := backtick, size, info } := by
  have hhead : info.head? ≠ some backtick := fun hmem => hinfo (List.mem_of_mem_head? hmem)
  obtain ⟨hrun, hdrop⟩ := runLength_replicate backtick size hhead
  obtain ⟨n, rfl⟩ : ∃ n, size = n + 1 := ⟨size - 1, by omega⟩
  rw [List.replicate_succ, List.cons_append] at hrun hdrop ⊢
  simp only [fence?, hrun, hdrop]
  simp [hsize, hinfo]

/-- A fence of backticks closes another one that is not longer. -/
theorem closedBy_backticks (size : Nat) (info : List Char) :
    Fence.closedBy { mark := backtick, size, info } (List.replicate size backtick) = true := by
  obtain ⟨hrun, hdrop⟩ := @runLength_replicate backtick size [] (by simp)
  rw [List.append_nil] at hrun hdrop
  unfold Fence.closedBy
  simp only [hrun, hdrop]
  simp

/-- A part of a text that closes a fence holds the fence. -/
theorem closedBy_of_infix {size : Nat} {info body literal : List Char}
    (hliteral : ¬List.replicate size backtick <:+: literal) (hbody : body <:+: literal) :
    Fence.closedBy { mark := backtick, size, info } body = false := by
  rw [Bool.eq_false_iff]
  intro hclosed
  unfold Fence.closedBy at hclosed
  rw [Bool.and_eq_true, decide_eq_true_eq] at hclosed
  exact hliteral ((replicate_prefix_of_le hclosed.1).isInfix.trans hbody)

end Markdown

end DocComment
