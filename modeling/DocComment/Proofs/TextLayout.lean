import DocComment.Documentation.Markup
import DocComment.Markdown.Line
import Mathlib

/-!
# The layout of texts

Laws of the operations that cut texts into lines and put them together again: trimming, newlines,
shared indentation, and the flow of prose.  The writer of records and the readers of Markdown and of
fields meet in these laws.
-/

namespace DocComment.Text

/-! ## Letters among the character classes -/

theorem toNat_of_isAlpha {c : Char} (h : c.isAlpha = true) :
    65 ≤ c.toNat ∧ c.toNat ≤ 90 ∨ 97 ≤ c.toNat ∧ c.toNat ≤ 122 := by
  simpa [Char.isAlpha, Char.isUpper, Char.isLower, UInt32.le_iff_toNat_le] using h

theorem ne_of_isAlpha {c d : Char} (h : c.isAlpha = true) (hd : d.isAlpha = false) : c ≠ d := by
  rintro rfl
  simp [h] at hd

theorem isBlank_of_isAlpha {c : Char} (h : c.isAlpha = true) : isBlank c = false := by
  have hc := toNat_of_isAlpha h
  simp [isBlank, inRanges, blankRanges]
  omega

/-- Only a letter has another lower case, and that is a letter. -/
theorem toLower_eq_self_or (c : Char) :
    c.toLower = c ∨ (c.isAlpha = true ∧ c.toLower.isAlpha = true) := by
  by_cases hupper : c.isUpper = true
  · have halpha : c.isAlpha = true := by simp [Char.isAlpha, hupper]
    exact .inr ⟨halpha, by rw [Char.isAlpha_toLower_eq_isAlpha, halpha]⟩
  · exact .inl (Char.toLower_eq_of_not_isUpper hupper)

theorem isBlank_space : isBlank ' ' = true := by decide

theorem isIndent_of_isBlank {c : Char} (h : isBlank c = false) : isIndent c = false := by
  have hspace : c ≠ ' ' := by
    rintro rfl
    exact absurd h (by decide)
  have htab : c ≠ '\t' := by
    rintro rfl
    exact absurd h (by decide)
  simp [isIndent, hspace, htab]

theorem isLineBreak_of_isBlank {c : Char} (h : isBlank c = false) : isLineBreak c = false := by
  simp [isBlank, inRanges, blankRanges] at h
  simp [isLineBreak, inRanges, lineBreakRanges]
  omega

/-! ## Trimming -/

section Trimming

variable {p : Char → Bool}

theorem trimEnd_of_last {cs : List Char} (h : ∀ c ∈ cs.getLast?, p c = false) :
    trimEnd p cs = cs := by
  rw [trimEnd]
  cases hr : cs.reverse with
  | nil => simpa using hr.symm
  | cons c rest =>
      have hc : p c = false := h c (by rw [← List.head?_reverse, hr]; rfl)
      rw [List.dropWhile_cons_of_neg (by simp [hc]), ← hr, List.reverse_reverse]

theorem trimEnd_append_of_all (cs : List Char) {tail : List Char} (h : ∀ c ∈ tail, p c = true) :
    trimEnd p (cs ++ tail) = trimEnd p cs := by
  rw [trimEnd, trimEnd, List.reverse_append, List.dropWhile_append_of_pos (by simpa using h)]

theorem trim_of_ends {cs : List Char} (hfirst : ∀ c ∈ cs.head?, p c = false)
    (hlast : ∀ c ∈ cs.getLast?, p c = false) : trim p cs = cs := by
  have hdrop : cs.dropWhile p = cs := by
    cases cs with
    | nil => rfl
    | cons c cs => exact List.dropWhile_cons_of_neg (by simp [hfirst c rfl])
  rw [trim, hdrop, trimEnd_of_last hlast]

/-- Trimming the end stops at the last character that stays. -/
theorem trimEnd_append_of_visible (front : List Char) {rest : List Char}
    (h : ∃ c ∈ rest, p c = false) : trimEnd p (front ++ rest) = front ++ trimEnd p rest := by
  have hstops : (rest.reverse.dropWhile p).isEmpty = false := by
    obtain ⟨c, hc, hstays⟩ := h
    rw [List.isEmpty_eq_false_iff, ne_eq, List.dropWhile_eq_nil_iff]
    intro hall
    rw [hall c (List.mem_reverse.mpr hc)] at hstays
    cases hstays
  rw [trimEnd, trimEnd, List.reverse_append, List.dropWhile_append, hstops]
  simp

theorem trim_of_head {cs : List Char} (hfirst : ∀ c ∈ cs.head?, p c = false) :
    trim p cs = trimEnd p cs := by
  cases cs with
  | nil => rfl
  | cons c cs => rw [trim, List.dropWhile_cons_of_neg (by simp [hfirst c rfl])]

theorem mem_of_mem_trim {c : Char} {cs : List Char} (h : c ∈ trim p cs) : c ∈ cs := by
  have hback := List.mem_reverse.mp h
  have hdropped := List.mem_reverse.mp ((List.dropWhile_sublist p).subset hback)
  exact (List.dropWhile_sublist p).subset hdropped

/-- Trimming takes what is around a text whose ends stay. -/
theorem trim_append_append {before cs after : List Char} (hbefore : ∀ c ∈ before, p c = true)
    (hafter : ∀ c ∈ after, p c = true) (hfirst : ∀ c ∈ cs.head?, p c = false)
    (hlast : ∀ c ∈ cs.getLast?, p c = false) : trim p (before ++ (cs ++ after)) = cs := by
  rw [trim, List.dropWhile_append_of_pos hbefore]
  cases cs with
  | nil =>
      have hdrop : after.dropWhile p = [] := by simpa using hafter
      rw [List.nil_append, hdrop]
      rfl
  | cons c cs =>
      rw [List.cons_append, List.dropWhile_cons_of_neg (by simp [hfirst c rfl]), ← List.cons_append,
        trimEnd_append_of_all (c :: cs) hafter, trimEnd_of_last hlast]

theorem trim_cons_of_pos {c : Char} (h : p c = true) (cs : List Char) :
    trim p (c :: cs) = trim p cs := by
  rw [trim, List.dropWhile_cons_of_pos h, trim]

/-- What trimming takes stands around what it leaves. -/
theorem exists_eq_trim (p : Char → Bool) (cs : List Char) :
    ∃ before after, cs = before ++ (trim p cs ++ after)
      ∧ (∀ c ∈ before, p c = true) ∧ ∀ c ∈ after, p c = true := by
  refine ⟨cs.takeWhile p, ((cs.dropWhile p).reverse.takeWhile p).reverse, ?_,
    fun c hc => List.mem_takeWhile_imp hc,
    fun c hc => List.mem_takeWhile_imp (List.mem_reverse.mp hc)⟩
  rw [trim, trimEnd, ← List.reverse_append, List.takeWhile_append_dropWhile, List.reverse_reverse,
    List.takeWhile_append_dropWhile]

theorem head?_trim (cs : List Char) : ∀ c ∈ (trim p cs).head?, p c = false := by
  intro c hc
  obtain ⟨rest, hrest⟩ := List.head?_eq_some_iff.mp hc
  -- the text without its beginning opens like the trimmed text
  have hopens : cs.dropWhile p = c :: (rest ++ ((cs.dropWhile p).reverse.takeWhile p).reverse) := by
    rw [← List.cons_append, ← hrest, trim, trimEnd, ← List.reverse_append,
      List.takeWhile_append_dropWhile, List.reverse_reverse]
  have hhead := List.head?_dropWhile_not p cs
  rw [hopens] at hhead
  exact hhead

theorem getLast?_trim (cs : List Char) : ∀ c ∈ (trim p cs).getLast?, p c = false := by
  intro c hc
  rw [trim, trimEnd, List.getLast?_reverse] at hc
  have hhead := List.head?_dropWhile_not p (cs.dropWhile p).reverse
  rw [Option.mem_def.mp hc] at hhead
  exact hhead

theorem trim_eq_nil_iff {cs : List Char} : trim p cs = [] ↔ ∀ c ∈ cs, p c = true := by
  constructor
  · intro h c hc
    obtain ⟨before, after, hcs, hbefore, hafter⟩ := exists_eq_trim p cs
    rw [h, List.nil_append] at hcs
    rw [hcs] at hc
    exact (List.mem_append.mp hc).elim (hbefore c) (hafter c)
  · intro h
    rw [trim, List.dropWhile_eq_nil_iff.mpr h]
    rfl

end Trimming

/-! ## Runs of characters -/

section Runs

variable {p : Char → Bool}

/-- A run of characters in front of a text that does not go on with it is found as a whole. -/
theorem span_run {run rest : List Char} (hrun : ∀ c ∈ run, p c = true)
    (hrest : ∀ c ∈ rest.head?, p c = false) :
    (run ++ rest).takeWhile p = run ∧ (run ++ rest).dropWhile p = rest := by
  rw [List.takeWhile_append_of_pos hrun, List.dropWhile_append_of_pos hrun]
  cases rest with
  | nil => simp
  | cons c rest => simp [hrest c rfl]

/-- There is one way only to take a run off a text. -/
theorem append_run_inj {run other rest more : List Char} (hrun : ∀ c ∈ run, p c = true)
    (hother : ∀ c ∈ other, p c = true) (hrest : ∀ c ∈ rest.head?, p c = false)
    (hmore : ∀ c ∈ more.head?, p c = false) (h : run ++ rest = other ++ more) :
    run = other ∧ rest = more := by
  obtain ⟨htake, hdrop⟩ := span_run hrun hrest
  obtain ⟨htakeOther, hdropOther⟩ := span_run hother hmore
  rw [h] at htake hdrop
  exact ⟨htake.symm.trans htakeOther, hdrop.symm.trans hdropOther⟩

end Runs

/-! ## Newlines -/

theorem unifyNewlines_of_notMem {cs : List Char} (h : '\r' ∉ cs) : unifyNewlines cs = cs := by
  induction cs with
  | nil => rfl
  | cons c cs ih =>
      simp only [List.mem_cons, not_or] at h
      -- without a carriage return only the last equation applies
      rw [unifyNewlines.eq_def]
      split <;> simp_all

/-- Two rows of texts that are put together have one separator between them. -/
theorem intercalate_append (separator : List Char) {lines more : List (List Char)} (hl : lines ≠ [])
    (hm : more ≠ []) :
    separator.intercalate (lines ++ more)
      = separator.intercalate lines ++ (separator ++ separator.intercalate more) := by
  induction lines with
  | nil => exact absurd rfl hl
  | cons line lines ih =>
      cases lines with
      | nil =>
          obtain ⟨next, more, rfl⟩ := List.exists_cons_of_ne_nil hm
          simp [List.intercalate_cons_cons]
      | cons next lines =>
          have hrest := ih (by simp)
          simp only [List.cons_append, List.intercalate_cons_cons, List.append_assoc] at hrest ⊢
          rw [hrest]

@[simp]
theorem joinNewlines_nil : joinNewlines [] = [] := rfl

@[simp]
theorem joinNewlines_singleton (line : List Char) : joinNewlines [line] = line := by
  simp [joinNewlines]

theorem joinNewlines_cons_cons (line next : List Char) (lines : List (List Char)) :
    joinNewlines (line :: next :: lines) = line ++ '\n' :: joinNewlines (next :: lines) := by
  simp [joinNewlines, List.intercalate]

theorem joinNewlines_cons (line : List Char) {lines : List (List Char)} (h : lines ≠ []) :
    joinNewlines (line :: lines) = line ++ '\n' :: joinNewlines lines := by
  obtain ⟨next, lines, rfl⟩ := List.exists_cons_of_ne_nil h
  exact joinNewlines_cons_cons line next lines

theorem joinNewlines_append {lines more : List (List Char)} (hl : lines ≠ []) (hm : more ≠ []) :
    joinNewlines (lines ++ more) = joinNewlines lines ++ '\n' :: joinNewlines more :=
  intercalate_append ['\n'] hl hm

theorem splitNewlines_ne_nil (cs : List Char) : splitNewlines cs ≠ [] := by
  cases cs with
  | nil => simp [splitNewlines]
  | cons c cs =>
      rw [splitNewlines]
      split
      · simp
      · split <;> simp

/-- A newline cuts a text in two wherever it stands. -/
theorem splitNewlines_append_cons (cs rest : List Char) :
    splitNewlines (cs ++ '\n' :: rest) = splitNewlines cs ++ splitNewlines rest := by
  induction cs with
  | nil => simp [splitNewlines]
  | cons c cs ih =>
      rw [List.cons_append, splitNewlines, splitNewlines, ih]
      split
      · rfl
      · cases hsplit : splitNewlines cs with
        | nil => exact absurd hsplit (splitNewlines_ne_nil cs)
        | cons line lines => rfl

/-- The first part of a text starts with its first character. -/
theorem splitNewlines_cons {c : Char} (hc : c ≠ '\n') (cs : List Char) :
    ∃ first more, splitNewlines (c :: cs) = (c :: first) :: more := by
  rw [splitNewlines, if_neg hc]
  split
  · exact ⟨[], [], rfl⟩
  · next line lines _ => exact ⟨line, lines, rfl⟩

theorem splitNewlines_of_notMem {line : List Char} (h : '\n' ∉ line) :
    splitNewlines line = [line] := by
  induction line with
  | nil => rfl
  | cons c line ih =>
      simp only [List.mem_cons, not_or] at h
      rw [splitNewlines, if_neg (Ne.symm h.1), ih h.2]

theorem splitNewlines_append_newline {line : List Char} (h : '\n' ∉ line) (rest : List Char) :
    splitNewlines (line ++ '\n' :: rest) = line :: splitNewlines rest := by
  rw [splitNewlines_append_cons, splitNewlines_of_notMem h, List.singleton_append]

/-- Texts put together are cut into the parts of each of them. -/
theorem splitNewlines_joinNewlines_texts {texts : List (List Char)} (h : texts ≠ []) :
    splitNewlines (joinNewlines texts) = texts.flatMap splitNewlines := by
  induction texts with
  | nil => exact absurd rfl h
  | cons text texts ih =>
      cases texts with
      | nil => simp
      | cons next texts =>
          rw [joinNewlines_cons_cons, splitNewlines_append_cons, ih (by simp)]
          rfl

/-- Lines that were put together are cut apart again. -/
theorem splitNewlines_joinNewlines {lines : List (List Char)} (hne : lines ≠ [])
    (h : ∀ line ∈ lines, '\n' ∉ line) : splitNewlines (joinNewlines lines) = lines := by
  calc splitNewlines (joinNewlines lines)
      = lines.flatMap splitNewlines := splitNewlines_joinNewlines_texts hne
    _ = lines.flatMap fun line => [line] :=
        List.flatMap_congr fun line hline => splitNewlines_of_notMem (h line hline)
    _ = lines := List.flatMap_singleton' lines

theorem notMem_splitNewlines {cs part : List Char} (h : part ∈ splitNewlines cs) : '\n' ∉ part := by
  induction cs generalizing part with
  | nil =>
      obtain rfl : part = [] := by simpa [splitNewlines] using h
      exact List.not_mem_nil
  | cons c cs ih =>
      rw [splitNewlines] at h
      split at h
      · rcases List.mem_cons.mp h with rfl | h
        · exact List.not_mem_nil
        · exact ih h
      · next hc =>
          cases hsplit : splitNewlines cs with
          | nil => exact absurd hsplit (splitNewlines_ne_nil cs)
          | cons line lines =>
              rw [hsplit] at h ih
              rcases List.mem_cons.mp h with rfl | h
              · intro hmem
                rcases List.mem_cons.mp hmem with heq | hmem
                · exact hc heq.symm
                · exact ih List.mem_cons_self hmem
              · exact ih (List.mem_cons_of_mem line h)

theorem subset_of_mem_splitNewlines {cs part : List Char} (h : part ∈ splitNewlines cs) :
    part ⊆ cs := by
  induction cs generalizing part with
  | nil =>
      obtain rfl : part = [] := by simpa [splitNewlines] using h
      exact List.nil_subset _
  | cons c cs ih =>
      rw [splitNewlines] at h
      split at h
      · rcases List.mem_cons.mp h with rfl | h
        · exact List.nil_subset _
        · exact List.Subset.trans (ih h) (List.subset_cons_self c cs)
      · cases hsplit : splitNewlines cs with
        | nil => exact absurd hsplit (splitNewlines_ne_nil cs)
        | cons line lines =>
            rw [hsplit] at h ih
            rcases List.mem_cons.mp h with rfl | h
            · exact List.cons_subset_cons c (ih List.mem_cons_self)
            · exact List.Subset.trans (ih (List.mem_cons_of_mem line h))
                (List.subset_cons_self c cs)

/-- The parts of a text put together are the text. -/
theorem joinNewlines_splitNewlines (cs : List Char) : joinNewlines (splitNewlines cs) = cs := by
  induction cs with
  | nil => simp [splitNewlines]
  | cons c cs ih =>
      have hne := splitNewlines_ne_nil cs
      rw [splitNewlines]
      split
      · next hc => rw [joinNewlines_cons [] hne, ih, hc, List.nil_append]
      · cases hsplit : splitNewlines cs with
        | nil => exact absurd hsplit hne
        | cons line lines =>
            rw [hsplit] at ih
            cases lines with
            | nil => simpa using ih
            | cons next lines =>
                rw [joinNewlines_cons_cons] at ih ⊢
                rw [List.cons_append, ih]

theorem newline_mem_joinNewlines {lines : List (List Char)} (h : 1 < lines.length) :
    '\n' ∈ joinNewlines lines := by
  match lines, h with
  | line :: next :: lines, _ => simp [joinNewlines_cons_cons]

theorem joinNewlines_append_replicate {lines : List (List Char)} (hne : lines ≠ []) (n : Nat) :
    joinNewlines (lines ++ List.replicate n []) = joinNewlines lines ++ List.replicate n '\n' := by
  induction n with
  | zero => simp
  | succ n ih =>
      rw [List.replicate_succ', ← List.append_assoc,
        joinNewlines_append (by simp [hne]) (by simp), ih, List.replicate_succ']
      simp

/-- What lines put together hold stands between them or in one of them. -/
theorem mem_intercalate {c : Char} {separator : List Char} {lines : List (List Char)}
    (h : c ∈ separator.intercalate lines) : c ∈ separator ∨ ∃ line ∈ lines, c ∈ line := by
  induction lines with
  | nil => simp at h
  | cons line lines ih =>
      cases lines with
      | nil => exact .inr ⟨line, by simp, by simpa using h⟩
      | cons next lines =>
          rw [List.intercalate, List.intersperse_cons_cons, List.flatten_cons, List.flatten_cons,
            ← List.intercalate] at h
          rcases List.mem_append.mp h with h | h
          · exact .inr ⟨line, by simp, h⟩
          rcases List.mem_append.mp h with h | h
          · exact .inl h
          · obtain hseparator | ⟨other, hm, hc⟩ := ih h
            · exact .inl hseparator
            · exact .inr ⟨other, List.mem_cons_of_mem line hm, hc⟩

/-- What stands in front of the first text stands in front of all of them. -/
theorem intercalate_append_cons (separator front line : List Char) (lines : List (List Char)) :
    separator.intercalate ((front ++ line) :: lines)
      = front ++ separator.intercalate (line :: lines) := by
  cases lines with
  | nil => simp
  | cons next lines => simp [List.intercalate_cons_cons]

theorem mem_joinNewlines {c : Char} {lines : List (List Char)} (h : c ∈ joinNewlines lines) :
    c = '\n' ∨ ∃ line ∈ lines, c ∈ line := by
  simpa using mem_intercalate h

/-- The last character of lines put together is that of the last line. -/
theorem getLast?_joinNewlines {lines : List (List Char)} {last : List Char} {c : Char}
    (hlast : lines.getLast? = some last) (hc : last.getLast? = some c) :
    (joinNewlines lines).getLast? = some c := by
  obtain ⟨before, rfl⟩ : ∃ before, lines = before ++ [last] :=
    List.getLast?_eq_some_iff.mp hlast
  cases before with
  | nil => simpa using hc
  | cons line before =>
      rw [joinNewlines_append (by simp) (by simp), joinNewlines_singleton, List.getLast?_append,
        List.getLast?_cons, hc]
      rfl

/-- Lines with a newline behind each of them. -/
def unlines (lines : List (List Char)) : List Char :=
  lines.flatMap (· ++ ['\n'])

@[simp]
theorem unlines_nil : unlines [] = [] := rfl

@[simp]
theorem unlines_cons (line : List Char) (lines : List (List Char)) :
    unlines (line :: lines) = line ++ '\n' :: unlines lines := by
  simp [unlines]

@[simp]
theorem unlines_append (lines more : List (List Char)) :
    unlines (lines ++ more) = unlines lines ++ unlines more :=
  List.flatMap_append

theorem unlines_replicate (n : Nat) : unlines (List.replicate n []) = List.replicate n '\n' := by
  induction n with
  | zero => rfl
  | succ n ih => rw [List.replicate_succ, unlines_cons, ih, List.replicate_succ, List.nil_append]

theorem unlines_eq_joinNewlines {lines : List (List Char)} (h : lines ≠ []) :
    unlines lines = joinNewlines lines ++ ['\n'] := by
  induction lines with
  | nil => exact absurd rfl h
  | cons line lines ih =>
      cases lines with
      | nil => simp
      | cons next lines =>
          rw [unlines_cons, ih (by simp), joinNewlines_cons_cons, List.append_assoc]
          rfl

theorem unlines_splitNewlines (cs : List Char) : unlines (splitNewlines cs) = cs ++ ['\n'] := by
  rw [unlines_eq_joinNewlines (splitNewlines_ne_nil cs), joinNewlines_splitNewlines]

theorem mem_unlines {c : Char} {lines : List (List Char)} (h : c ∈ unlines lines) :
    c = '\n' ∨ ∃ line ∈ lines, c ∈ line := by
  obtain ⟨line, hline, hc⟩ := List.mem_flatMap.mp h
  rcases List.mem_append.mp hc with hc | hc
  · exact .inr ⟨line, hline, hc⟩
  · exact .inl (List.mem_singleton.mp hc)

theorem splitNewlines_unlines_append {lines : List (List Char)} (h : ∀ line ∈ lines, '\n' ∉ line)
    {last : List Char} (hlast : '\n' ∉ last) :
    splitNewlines (unlines lines ++ last) = lines ++ [last] := by
  induction lines with
  | nil => exact splitNewlines_of_notMem hlast
  | cons line lines ih =>
      rw [unlines_cons, List.append_assoc, List.cons_append,
        splitNewlines_append_newline (h line List.mem_cons_self),
        ih fun other hm => h other (List.mem_cons_of_mem line hm), List.cons_append]

theorem splitNewlines_unlines {lines : List (List Char)} (h : ∀ line ∈ lines, '\n' ∉ line) :
    splitNewlines (unlines lines) = lines ++ [[]] := by
  have hsplit := splitNewlines_unlines_append h (List.not_mem_nil (a := '\n'))
  rwa [List.append_nil] at hsplit

/-- A text that ends in a newline, or is empty, is made of lines. -/
theorem exists_unlines {cs : List Char} (h : ∀ c ∈ cs.getLast?, c = '\n') :
    ∃ lines, cs = unlines lines ∧ ∀ line ∈ lines, '\n' ∉ line := by
  rcases List.eq_nil_or_concat' cs with rfl | ⟨front, last, rfl⟩
  · exact ⟨[], rfl, fun line hline => nomatch hline⟩
  · obtain rfl : last = '\n' := h last (by simp)
    exact ⟨splitNewlines front, (unlines_splitNewlines front).symm,
      fun line hline => notMem_splitNewlines hline⟩

/-! ## Paragraphs with empty lines between them -/

/-- The lines of paragraphs, with an empty line between any two paragraphs. -/
def spaced (paragraphs : List (List (List Char))) : List (List Char) :=
  [[]].intercalate paragraphs

@[simp]
theorem spaced_nil : spaced [] = [] := rfl

@[simp]
theorem spaced_singleton (text : List (List Char)) : spaced [text] = text :=
  List.intercalate_singleton

theorem spaced_cons_cons (text next : List (List Char)) (texts : List (List (List Char))) :
    spaced (text :: next :: texts) = text ++ [] :: spaced (next :: texts) := by
  rw [spaced, spaced, List.intercalate_cons_cons, List.append_assoc, List.singleton_append]

theorem mem_spaced {line : List Char} {texts : List (List (List Char))}
    (h : line ∈ spaced texts) : (∃ text ∈ texts, line ∈ text) ∨ line = [] := by
  induction texts with
  | nil => simp at h
  | cons text texts ih =>
      cases texts with
      | nil => exact .inl ⟨text, List.mem_cons_self, by simpa using h⟩
      | cons next texts =>
          rw [spaced_cons_cons] at h
          rcases List.mem_append.mp h with h | h
          · exact .inl ⟨text, List.mem_cons_self, h⟩
          rcases List.mem_cons.mp h with rfl | h
          · exact .inr rfl
          · obtain ⟨other, hm, hline⟩ | hline := ih h
            · exact .inl ⟨other, List.mem_cons_of_mem text hm, hline⟩
            · exact .inr hline

/-- More than one paragraph takes more than one line. -/
theorem one_lt_length_spaced (text next : List (List Char)) (texts : List (List (List Char)))
    (h : text ≠ []) : 1 < (spaced (text :: next :: texts)).length := by
  obtain ⟨line, lines, rfl⟩ := List.exists_cons_of_ne_nil h
  simp [spaced_cons_cons]

theorem spaced_ne_nil {texts : List (List (List Char))} (hne : texts ≠ [])
    (h : ∀ text ∈ texts, text ≠ []) : spaced texts ≠ [] := by
  obtain ⟨text, texts, rfl⟩ := List.exists_cons_of_ne_nil hne
  have htext := h text List.mem_cons_self
  cases texts with
  | nil => simpa using htext
  | cons next texts => simp [spaced_cons_cons]

/-- Paragraphs put together with newlines are their lines put together. -/
theorem intercalate_joinNewlines {texts : List (List (List Char))} (h : ∀ text ∈ texts, text ≠ []) :
    ['\n', '\n'].intercalate (texts.map joinNewlines) = joinNewlines (spaced texts) := by
  induction texts with
  | nil => rfl
  | cons text texts ih =>
      have htext := h text List.mem_cons_self
      have hothers : ∀ other ∈ texts, other ≠ [] :=
        fun other hm => h other (List.mem_cons_of_mem text hm)
      cases texts with
      | nil => simp
      | cons next texts =>
          have hrest := ih hothers
          have hspaced := spaced_ne_nil (List.cons_ne_nil next texts) hothers
          rw [List.map_cons] at hrest
          rw [List.map_cons, List.map_cons, List.intercalate_cons_cons, hrest, spaced_cons_cons,
            joinNewlines_append htext (by simp), joinNewlines_cons [] hspaced]
          simp

/-! ## Indentation -/

/-- A line with nothing but blanks in it is empty. -/
def Neat (line : List Char) : Prop :=
  line.all isBlank = true → line = []

theorem neat_nil : Neat [] := fun _ => rfl

theorem neat_cons {c : Char} (hc : isBlank c = false) (cs : List Char) : Neat (c :: cs) := by
  intro h
  simp [hc] at h

theorem isBlank_of_isIndent {c : Char} (h : isIndent c = true) : isBlank c = true := by
  cases hb : isBlank c with
  | true => rfl
  | false => rw [isIndent_of_isBlank hb] at h; exact h

theorem Neat.not_all_isIndent {line : List Char} (h : Neat line) (hne : line ≠ []) :
    line.all isIndent = false := by
  cases hall : line.all isIndent with
  | false => rfl
  | true =>
      refine absurd (h ?_) hne
      rw [List.all_eq_true] at hall ⊢
      exact fun c hc => isBlank_of_isIndent (hall c hc)

section Moving

open Markup

@[simp]
theorem padLine_nil (indent : Nat) : padLine indent [] = [] := rfl

theorem padLine_cons (indent : Nat) {c : Char} (hc : isBlank c = false) (cs : List Char) :
    padLine indent (c :: cs) = List.replicate indent ' ' ++ c :: cs := by
  simp [padLine, hc]

theorem padLine_of_ne_nil (indent : Nat) {line : List Char} (h : Neat line) (hne : line ≠ []) :
    padLine indent line = List.replicate indent ' ' ++ line := by
  rw [padLine, if_neg fun hall => hne (h hall)]

theorem padLine_zero {line : List Char} (h : Neat line) : padLine 0 line = line := by
  by_cases hempty : line = []
  · rw [hempty, padLine_nil]
  · rw [padLine_of_ne_nil 0 h hempty]
    rfl

theorem neat_padLine (indent : Nat) (line : List Char) : Neat (padLine indent line) := by
  intro h
  by_cases hall : line.all isBlank
  · simp [padLine, hall]
  · simp_all [padLine]

/-- Moving a line twice is moving it once, by the sum. -/
theorem padLine_padLine (outer inner : Nat) (line : List Char) :
    padLine outer (padLine inner line) = padLine (outer + inner) line := by
  by_cases h : line.all isBlank
  · simp [padLine, h]
  · have hinner : ¬(List.replicate inner ' ' ++ line).all isBlank := by simp_all
    rw [padLine, padLine, padLine, if_neg h, if_neg hinner, if_neg h, ← List.append_assoc,
      List.replicate_append_replicate]

end Moving

/-! ## Shared indentation -/

theorem commonStart_append (start as bs : List Char) :
    commonStart (start ++ as) (start ++ bs) = start ++ commonStart as bs := by
  induction start with
  | nil => rfl
  | cons c start ih => rw [List.cons_append, List.cons_append, commonStart, if_pos rfl, ih]; rfl

theorem takeWhile_isIndent_append (indent : Nat) (line : List Char) :
    (List.replicate indent ' ' ++ line).takeWhile isIndent
      = List.replicate indent ' ' ++ line.takeWhile isIndent := by
  refine List.takeWhile_append_of_pos fun c hc => ?_
  rw [List.eq_of_mem_replicate hc]
  rfl

/-- Moving all lines moves what they share. -/
theorem sharedIndent_map_append (indent : Nat) {lines : List (List Char)} (hne : lines ≠ []) :
    sharedIndent (lines.map (List.replicate indent ' ' ++ ·))
      = List.replicate indent ' ' ++ sharedIndent lines := by
  induction lines with
  | nil => exact absurd rfl hne
  | cons line lines ih =>
      cases lines with
      | nil => exact takeWhile_isIndent_append indent line
      | cons next lines =>
          have hrest := ih (by simp)
          simp only [List.map_cons, sharedIndent] at hrest ⊢
          rw [hrest, takeWhile_isIndent_append, commonStart_append]

theorem sharedIndent_of_head {c : Char} (hc : isIndent c = false) (cs : List Char)
    (lines : List (List Char)) : sharedIndent ((c :: cs) :: lines) = [] := by
  have hfirst : (c :: cs).takeWhile isIndent = [] := List.takeWhile_cons_of_neg (by simp [hc])
  cases lines with
  | nil => exact hfirst
  | cons next lines =>
      rw [sharedIndent, hfirst, commonStart]
      all_goals simp

open Markup in
/-- Neat lines that were moved to the right are moved back, if the first of them is not indented
itself. -/
theorem dedent_map_padLine (indent : Nat) {c : Char} {cs : List Char} {lines : List (List Char)}
    (hc : isBlank c = false) (hneat : ∀ line ∈ lines, Neat line) :
    dedent (((c :: cs) :: lines).map (padLine indent)) = (c :: cs) :: lines := by
  have hall : ∀ line ∈ (c :: cs) :: lines, Neat line :=
    List.forall_mem_cons.mpr ⟨neat_cons hc cs, hneat⟩
  -- the lines that count for the margin are the moved ones of the lines with something in them
  have hcounted :
      (((c :: cs) :: lines).map (padLine indent)).filter (fun line => !line.all isIndent)
      = (((c :: cs) :: lines).filter (fun line => !line.isEmpty)).map
          (List.replicate indent ' ' ++ ·) := by
    generalize (c :: cs) :: lines = all at hall
    induction all with
    | nil => rfl
    | cons line all ih =>
        have hline := hall line List.mem_cons_self
        have hrest := ih fun other hm => hall other (List.mem_cons_of_mem line hm)
        by_cases hempty : line = []
        · subst hempty
          simpa using hrest
        · have hpad := padLine_of_ne_nil indent hline hempty
          have hkept := (neat_padLine indent line).not_all_isIndent (by simp [hpad, hempty])
          rw [List.map_cons, List.filter_cons_of_pos (by simp [hkept]), hrest,
            List.filter_cons_of_pos (by simp [hempty]), List.map_cons, hpad]
  have hmargin : sharedIndent
      ((((c :: cs) :: lines).map (padLine indent)).filter fun line => !line.all isIndent)
        = List.replicate indent ' ' := by
    rw [hcounted, sharedIndent_map_append indent (by simp), List.filter_cons_of_pos (by simp),
      sharedIndent_of_head (isIndent_of_isBlank hc), List.append_nil]
  rw [dedent, hmargin, List.map_map]
  refine (List.map_congr_left fun line hm => ?_).trans (List.map_id _)
  by_cases hempty : line = []
  · subst hempty
    rfl
  · have hpad := padLine_of_ne_nil indent (hall line hm) hempty
    have hkept := (neat_padLine indent line).not_all_isIndent (by simp [hpad, hempty])
    rw [Function.comp_apply, hkept, hpad]
    simp

end DocComment.Text
