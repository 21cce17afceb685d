import DocComment.Command.Options
import DocComment.Proofs.Outcome
import Mathlib

/-!
# The words of a command

`Scans` says how the words of a command are taken, one after the other; `scan` does so and nothing
else (`scan_eq_ok_iff`).

`withoutOutput` drops every output option from the words, in each of its spellings, together with
its value.  Flags that share a word with it stay, and so does what is the value of another option or
stands behind `--`.  What is left is scanned as before, only without the settings of that option
(`scan_withoutOutput`), and so it makes the same request, for the standard output
(`request_withoutOutput`).
-/

namespace DocComment.Command

/-! ## Taking words -/

/-- How the words of a command are taken: each of them is an argument, or gives options, with the
next word as the value of the last one where that is wanted. -/
inductive Scans : List String → Scan → Prop where
  | nil : Scans [] {}
  | behind (words : List String) : Scans ("--" :: words) { arguments := words }
  | argument {word : String} {words : List String} {rest : Scan} (hmark : word ≠ "--")
      (hword : scanWord word = .ok .argument) (hrest : Scans words rest) :
      Scans (word :: words) { rest with arguments := word :: rest.arguments }
  | options {word : String} {words : List String} {settings : List Setting} {rest : Scan}
      (hmark : word ≠ "--") (hword : scanWord word = .ok (.options settings none))
      (hrest : Scans words rest) :
      Scans (word :: words) { rest with settings := settings ++ rest.settings }
  | pending {word value spelling : String} {words : List String} {settings : List Setting}
      {name : OptionName} {rest : Scan} (hmark : word ≠ "--")
      (hword : scanWord word = .ok (.options settings (some (name, spelling))))
      (hrest : Scans words rest) :
      Scans (word :: value :: words)
        { rest with settings := settings ++ { name, value } :: rest.settings }

theorem scan_eq_ok_iff {words : List String} {found : Scan} :
    scan words = .ok found ↔ Scans words found := by
  constructor
  · intro h
    induction words using scan.induct generalizing found with
    | case1 =>
        cases h
        exact .nil
    | case2 words =>
        rw [scan, if_pos rfl] at h
        cases h
        exact .behind words
    | case3 word words hmark ihwords ihbehind =>
        rw [scan, if_neg hmark] at h
        obtain ⟨taken, hword, h⟩ := bind_eq_ok h
        match taken with
        | .argument =>
            obtain ⟨rest, hrest, hfound⟩ := bind_eq_ok h
            cases hfound
            exact .argument hmark hword (ihwords hrest)
        | .options settings none =>
            obtain ⟨rest, hrest, hfound⟩ := bind_eq_ok h
            cases hfound
            exact .options hmark hword (ihwords hrest)
        | .options settings (some (name, spelling)) =>
            cases words with
            | nil => cases h
            | cons value words =>
                obtain ⟨rest, hrest, hfound⟩ := bind_eq_ok h
                cases hfound
                exact .pending hmark hword (ihbehind hrest)
  · intro h
    induction h with
    | nil => rfl
    | behind words => rw [scan, if_pos rfl]
    | argument hmark hword _ ih =>
        rw [scan, if_neg hmark, hword]
        simp [ih, bind, Except.bind, pure, Except.pure]
    | options hmark hword _ ih =>
        rw [scan, if_neg hmark, hword]
        simp [ih, bind, Except.bind, pure, Except.pure]
    | pending hmark hword _ ih =>
        rw [scan, if_neg hmark, hword]
        simp [ih, bind, Except.bind, pure, Except.pure]

/-! ## The options of a word -/

namespace OptionName

/-- A long spelling starts with two hyphens. -/
theorem eq_hyphens_of_ofLong? {spelling : String} {name : OptionName}
    (h : ofLong? spelling = some name) : ∃ cs, spelling.toList = '-' :: '-' :: cs := by
  unfold ofLong? at h
  split at h
  case h_7 => cases h
  all_goals exact ⟨_, rfl⟩

/-- Only the output has a value among the options with a letter. -/
theorem eq_output_of_ofLetter? {letter : Char} {name : OptionName}
    (h : ofLetter? letter = some name) : name = output ∨ name.takesValue = false := by
  unfold ofLetter? at h
  split at h <;> cases h <;> decide

end OptionName

/-- Whether a letter does not stand for the output. -/
def isOtherLetter (letter : Char) : Bool :=
  OptionName.ofLetter? letter != some .output

/-- Whether a setting is not the output. -/
def Setting.isOther (setting : Setting) : Bool :=
  setting.name != .output

/-- The letters in front of the output give all its word gives besides. -/
theorem scanLetters_takeWhile {letters : List Char} {settings : List Setting}
    {pending : Option (OptionName × String)} (h : scanLetters letters = .ok (settings, pending)) :
    scanLetters (letters.takeWhile isOtherLetter) = .ok (settings.filter Setting.isOther, none)
      ∧ ∀ name ∈ pending.map Prod.fst, name = .output := by
  induction letters generalizing settings pending with
  | nil =>
      cases h
      exact ⟨rfl, by simp⟩
  | cons letter letters ih =>
      rw [scanLetters] at h
      cases hletter : OptionName.ofLetter? letter with
      | none => simp [hletter] at h
      | some name =>
          rw [hletter] at h
          rcases OptionName.eq_output_of_ofLetter? hletter with rfl | hflag
          · have hstop : (letter :: letters).takeWhile isOtherLetter = [] :=
              List.takeWhile_cons_of_neg (by simp [isOtherLetter, hletter])
            rw [hstop]
            cases letters with
            | nil =>
                cases h
                exact ⟨rfl, by simp⟩
            | cons next letters =>
                cases h
                exact ⟨rfl, by simp⟩
          · simp only [hflag, Bool.false_eq_true, if_false] at h
            obtain ⟨⟨more, morePending⟩, hmore, h⟩ := bind_eq_ok h
            cases h
            obtain ⟨hrest, hpending⟩ := ih hmore
            have hother : name ≠ .output := by
              rintro rfl
              cases hflag
            have hsetting : Setting.isOther { name } = true := by
              simpa [Setting.isOther] using hother
            rw [List.takeWhile_cons_of_pos (by simpa [isOtherLetter, hletter] using hother),
              scanLetters, hletter]
            simp only [hflag, Bool.false_eq_true, if_false, hrest,
              List.filter_cons_of_pos hsetting]
            exact ⟨rfl, hpending⟩

/-- A word of one hyphen is a word of letters. -/
theorem scanOption_letters {c : Char} (hc : c ≠ '-') (cs : List Char) :
    scanOption ('-' :: c :: cs)
      = (scanLetters (c :: cs)).map fun (settings, pending) => .options settings pending := by
  have hlong : OptionName.ofLong? (String.ofList (('-' :: c :: cs).takeWhile (· != '=')))
      = none := by
    rw [Option.eq_none_iff_forall_ne_some]
    intro name hname
    obtain ⟨rest, hrest⟩ := OptionName.eq_hyphens_of_ofLong? hname
    rw [String.toList_ofList, List.takeWhile_cons_of_pos (by decide), List.takeWhile_cons] at hrest
    split at hrest
    · exact hc (List.cons.inj (List.cons.inj hrest).2).1
    · cases hrest
  rw [scanOption]
  · simp only [hlong]
    rfl
  · rintro _ heq
    cases heq
    exact hc rfl

/-- A word of two hyphens gives one option, and its value stands in the word or behind it. -/
theorem scanOption_long {cs : List Char} {word : Word}
    (h : scanOption ('-' :: '-' :: cs) = .ok word) :
    (∃ setting, word = .options [setting] none)
      ∨ ∃ name spelling, word = .options [] (some (name, spelling)) := by
  rw [scanOption] at h
  split at h
  · next name hname =>
      split at h
      · split at h
        · exact .inl ⟨_, (Except.ok.inj h).symm⟩
        · exact .inr ⟨_, _, (Except.ok.inj h).symm⟩
      · split at h
        · cases h
        · exact .inl ⟨_, (Except.ok.inj h).symm⟩
  · cases h

/-! ## Dropping the output -/

/-- Whether the output is among the options that a word gives. -/
def Word.givesOutput : Word → Bool
  | .argument => false
  | .options settings pending =>
    settings.any (!·.isOther) || pending.any fun (name, _) => name == .output

/-- The flags that share a word with the output, as a word of their own. -/
def sharedFlags (word : String) : List String :=
  match word.toList with
  | '-' :: '-' :: _ => []
  | '-' :: letters =>
    match letters.takeWhile isOtherLetter with
    | [] => []
    | flags => [String.ofList ('-' :: flags)]
  | _ => []

/-- A word of one hyphen is scanned letter by letter. -/
theorem scanWord_letters {word : String} {c : Char} {cs : List Char}
    (hword : word.toList = '-' :: c :: cs) (hc : c ≠ '-') :
    scanWord word
      = (scanLetters (c :: cs)).map fun (settings, pending) => .options settings pending := by
  rw [scanWord, hword]
  exact scanOption_letters hc cs

/-- What is left of a word that is taken in this way. -/
def Word.others (taken : Word) (word : String) : List String :=
  if taken.givesOutput then sharedFlags word else [word]

/-- The words of a command without the output options and their values. -/
def withoutOutput : List String → List String
  | [] => []
  | word :: words =>
    if word = "--" then word :: words
    else match scanWord word with
      | .error _ | .ok .argument => word :: withoutOutput words
      | .ok (.options settings none) =>
        (Word.options settings none).others word ++ withoutOutput words
      | .ok (.options settings (some (name, spelling))) =>
        match words with
        | [] => [word]
        | value :: words =>
          (Word.options settings (some (name, spelling))).others word
            ++ (if name = .output then [] else [value]) ++ withoutOutput words

/-- What was found, without the output. -/
def Scan.withoutOutput (found : Scan) : Scan :=
  { found with settings := found.settings.filter Setting.isOther }

/-- A word of options is one of two hyphens, which gives one option, or a word of letters. -/
theorem scanWord_options {word : String} {settings : List Setting}
    {pending : Option (OptionName × String)} (h : scanWord word = .ok (.options settings pending)) :
    (∃ cs, word.toList = '-' :: '-' :: cs
        ∧ ((∃ setting, settings = [setting] ∧ pending = none) ∨ settings = []))
      ∨ ∃ c cs, c ≠ '-' ∧ word.toList = '-' :: c :: cs
        ∧ scanLetters (c :: cs) = .ok (settings, pending) := by
  have hscan := h
  rw [scanWord] at h
  split at h
  case h_2 => cases h
  case h_1 c cs hcs =>
    by_cases hc : c = '-'
    · subst hc
      refine .inl ⟨cs, hcs, ?_⟩
      rcases scanOption_long h with ⟨setting, hword⟩ | ⟨name, spelling, hword⟩
      · obtain ⟨rfl, rfl⟩ := Word.options.inj hword
        exact .inl ⟨setting, rfl, rfl⟩
      · exact .inr (Word.options.inj hword).1
    · rw [scanWord_letters hcs hc] at hscan
      obtain ⟨⟨found, foundPending⟩, hletters, hword⟩ := map_eq_ok hscan
      obtain ⟨rfl, rfl⟩ := Word.options.inj hword
      exact .inr ⟨c, cs, hc, hcs, hletters⟩

/-- What shares a word with the output is taken as before. -/
theorem Scans.sharedFlags {word : String} {settings : List Setting}
    {pending : Option (OptionName × String)}
    (hword : scanWord word = .ok (.options settings pending))
    (houtput : (Word.options settings pending).givesOutput = true) {words : List String}
    {rest : Scan} (hrest : Scans words rest) :
    Scans (Command.sharedFlags word ++ words)
      { rest with settings := settings.filter Setting.isOther ++ rest.settings } := by
  rcases scanWord_options hword with ⟨cs, hcs, hlong⟩ | ⟨c, cs, hc, hcs, hletters⟩
  · -- a long option is given alone
    have hnone : settings.filter Setting.isOther = [] := by
      rcases hlong with ⟨setting, rfl, rfl⟩ | rfl
      · simpa [Word.givesOutput] using houtput
      · rfl
    simpa [Command.sharedFlags, hcs, hnone] using hrest
  · have hflags := (scanLetters_takeWhile hletters).1
    cases hothers : (c :: cs).takeWhile isOtherLetter with
    | nil =>
        rw [hothers] at hflags
        have hnone : settings.filter Setting.isOther = [] :=
          (Prod.mk.inj (Except.ok.inj hflags)).1.symm
        simpa [Command.sharedFlags, hcs, hc, hothers, hnone] using hrest
    | cons d flags =>
        have hd : d = c := by
          rw [List.takeWhile_cons] at hothers
          split at hothers
          · exact (List.cons.inj hothers).1.symm
          · cases hothers
        have hmark : String.ofList ('-' :: d :: flags) ≠ "--" := by
          rw [ne_eq, ← String.toList_inj, String.toList_ofList]
          rintro heq
          rw [hd] at heq
          exact hc (List.cons.inj (List.cons.inj heq).2).1
        have hword : scanWord (String.ofList ('-' :: d :: flags))
            = .ok (.options (settings.filter Setting.isOther) none) := by
          rw [hothers] at hflags
          rw [scanWord_letters String.toList_ofList (hd ▸ hc), hflags]
          rfl
        have hshared : Command.sharedFlags word = [String.ofList ('-' :: d :: flags)] := by
          simp [Command.sharedFlags, hcs, hc, hothers]
        rw [hshared]
        exact .options hmark hword hrest

/-- Where the next word is the value of another option, the word gives no other settings. -/
theorem eq_nil_of_scanWord_pending {word spelling : String} {settings : List Setting}
    {name : OptionName} (h : scanWord word = .ok (.options settings (some (name, spelling))))
    (hname : name ≠ .output) : settings = [] := by
  rcases scanWord_options h with ⟨cs, -, ⟨setting, -, hnone⟩ | hnone⟩ | ⟨c, cs, -, -, hletters⟩
  · cases hnone
  · exact hnone
  · exact absurd ((scanLetters_takeWhile hletters).2 name rfl) hname

/-- **Without the output, the other words are taken as before.** -/
theorem Scans.withoutOutput {words : List String} {found : Scan} (h : Scans words found) :
    Scans (Command.withoutOutput words) found.withoutOutput := by
  induction h with
  | nil => exact .nil
  | behind words => exact .behind words
  | @argument word words rest hmark hword hrest ih =>
      rw [Command.withoutOutput, if_neg hmark, hword]
      exact .argument hmark hword ih
  | @options word words settings rest hmark hword hrest ih =>
      rw [Command.withoutOutput, if_neg hmark, hword, Scan.withoutOutput, List.filter_append]
      dsimp only
      by_cases houtput : (Word.options settings none).givesOutput = true
      · rw [Word.others, if_pos houtput]
        exact .sharedFlags hword houtput ih
      · have hkept : settings.filter Setting.isOther = settings := by
          simpa [Word.givesOutput, List.filter_eq_self] using houtput
        rw [Word.others, if_neg houtput, hkept]
        exact .options hmark hword ih
  | @pending word value spelling words settings name rest hmark hword hrest ih =>
      rw [Command.withoutOutput, if_neg hmark, hword, Scan.withoutOutput, List.filter_append]
      dsimp only
      by_cases hname : name = .output
      · subst hname
        have houtput : (Word.options settings (some (.output, spelling))).givesOutput = true := by
          simp [Word.givesOutput]
        rw [Word.others, if_pos houtput, if_pos rfl, List.append_nil]
        exact .sharedFlags hword houtput ih
      · obtain rfl := eq_nil_of_scanWord_pending hword hname
        have hother : Setting.isOther { name, value } = true := by
          simpa [Setting.isOther] using hname
        rw [Word.others, if_neg (by simp [Word.givesOutput, hname]), if_neg hname,
          List.filter_cons_of_pos hother]
        exact .pending hmark hword ih

theorem scan_withoutOutput {words : List String} {found : Scan} (h : scan words = .ok found) :
    scan (withoutOutput words) = .ok found.withoutOutput :=
  scan_eq_ok_iff.mpr (scan_eq_ok_iff.mp h).withoutOutput

/-- The value of another option is none of these words, nor is one of them behind the mark. -/
example : withoutOutput ["--format", "-o", "-vofile", "--output", "-v", "--output=file", "--", "-o"]
    = ["--format", "-o", "-v", "--", "-o"] := by decide +kernel

/-! ## The request without the output -/

namespace Scan

variable (found : Scan)

theorem value?_withoutOutput {name : OptionName} (h : name ≠ .output) :
    found.withoutOutput.value? name = found.value? name := by
  rw [value?, value?, withoutOutput, ← List.filter_reverse, List.find?_filter]
  congr 2
  funext setting
  by_cases hname : setting.name = name
  · simp [Setting.isOther, hname, h]
  · simp [hname]

theorem value?_output_withoutOutput : found.withoutOutput.value? .output = none := by
  rw [value?, withoutOutput, ← List.filter_reverse, List.find?_filter]
  simp [Setting.isOther]

theorem has_withoutOutput {name : OptionName} (h : name ≠ .output) :
    found.withoutOutput.has name = found.has name := by
  rw [has, has, withoutOutput, List.any_filter]
  congr 1
  funext setting
  by_cases hname : setting.name = name
  · simp [Setting.isOther, hname, h]
  · simp [hname]

theorem format_withoutOutput : found.withoutOutput.format = found.format := by
  rw [format, format, value?_withoutOutput found (by decide)]

theorem int_withoutOutput {name : OptionName} (h : name ≠ .output) (spelling : String)
    (default : Int) :
    found.withoutOutput.int name spelling default = found.int name spelling default := by
  rw [int, int, value?_withoutOutput found h]

theorem indent_withoutOutput : found.withoutOutput.indent = found.indent :=
  int_withoutOutput found (by decide) _ _

theorem maxNesting_withoutOutput : found.withoutOutput.maxNesting = found.maxNesting :=
  int_withoutOutput found (by decide) _ _

theorem check_withoutOutput (name : OptionName) :
    found.withoutOutput.check name = found.check name := by
  cases name <;>
    simp only [check, format_withoutOutput, indent_withoutOutput, maxNesting_withoutOutput]

/-- **Without the output, the same is asked for**, but it goes to the standard output. -/
theorem request_withoutOutput (tree : Tree) :
    found.withoutOutput.request tree
      = (found.request tree).map fun request => { request with output := none } := by
  have hchecks : found.withoutOutput.settings.forM (fun setting => found.check setting.name)
      = found.settings.forM fun setting => found.check setting.name := by
    refine forM_filter fun setting _ houtput => ?_
    have hname : setting.name = .output := by simpa [Setting.isOther] using houtput
    rw [hname, check]
  have hinput : found.withoutOutput.input tree = found.input tree := rfl
  have harguments : found.withoutOutput.arguments = found.arguments := rfl
  rw [request, request]
  simp only [check_withoutOutput, hchecks, format_withoutOutput, indent_withoutOutput,
    maxNesting_withoutOutput, value?_output_withoutOutput, hinput, harguments,
    has_withoutOutput found (by decide : OptionName.verbose ≠ .output)]
  -- both stop at the same step, or at none
  cases found.settings.forM fun setting => found.check setting.name with
  | error error => rfl
  | ok _ =>
      cases found.input tree with
      | error error => rfl
      | ok input =>
          cases found.arguments.drop 1 with
          | cons argument arguments => rfl
          | nil =>
              cases found.format with
              | error error => rfl
              | ok format =>
                  cases found.indent with
                  | error error => rfl
                  | ok indent => cases found.maxNesting <;> rfl

end Scan

end DocComment.Command
