import DocComment.Field
import DocComment.Proofs.Flow

/-!
# The grammar of fields

What text opens with a field is a grammar: a name part, a colon, and anything behind it (`Reading`),
with the word that announces a parameter in front of it or not (`Announcement`).  The scanner finds
these readings, and finds them all:

* `scanName?_eq_some_iff` and `afterParameter?_eq_some_iff` say what the two scanners accept.
* A text has one reading of each sort at most (`Reading.text_injective`,
  `Announcement.text_injective`): a name part ends at the first colon, the word has its length, and
  the blanks behind it end where the name starts.
* `split?_eq_some_iff`: an announcement is preferred.  Where there is none, the field is that of the
  plain reading, and its name never opens with the word and a blank (`Reading.not_announces`): the
  blanks that flowing takes off the end of a name would leave a name part for an announcement.

`split?_exact` puts these together for the text of an item.
-/

namespace DocComment

namespace Field

open Text

/-! ## Name parts -/

/-- A name part: word characters, underscores and blanks within the line, and not blanks alone. -/
structure IsNamePart (name : List Char) : Prop where
  chars : ∀ c ∈ name,
    isAlphanumeric c = true ∨ c = '_' ∨ (isBlank c = true ∧ isLineBreak c = false)
  visible : ∃ c ∈ name, isBlank c = false

theorem isNameChar_iff {c : Char} :
    isNameChar c = true
      ↔ isAlphanumeric c = true ∨ c = '_' ∨ (isBlank c = true ∧ isLineBreak c = false) := by
  simp [isNameChar, or_assoc]

theorem isNameChar_colon : isNameChar ':' = false := by decide

/-- No name character breaks the line. -/
theorem isLineBreak_of_isNameChar {c : Char} (h : isNameChar c = true) : isLineBreak c = false := by
  by_contra hbreak
  rw [Bool.not_eq_false] at hbreak
  have hcode : c.toNat ∈ [0x0A, 0x0B, 0x0C, 0x0D, 0x1C, 0x1D, 0x1E, 0x85, 0x2028, 0x2029] := by
    simp [isLineBreak, inRanges, lineBreakRanges] at hbreak
    simp only [List.mem_cons, List.not_mem_nil, or_false]
    omega
  have hnone : ([0x0A, 0x0B, 0x0C, 0x0D, 0x1C, 0x1D, 0x1E, 0x85, 0x2028, 0x2029].all
      fun code => !isNameChar (Char.ofNat code)) = true := by decide +kernel
  have hc := List.all_eq_true.mp hnone c.toNat hcode
  simp [h] at hc

namespace IsNamePart

variable {name : List Char}

theorem isNameChar (h : IsNamePart name) : ∀ c ∈ name, isNameChar c = true :=
  fun c hc => isNameChar_iff.mpr (h.chars c hc)

theorem unbroken (h : IsNamePart name) : ∀ c ∈ name, isLineBreak c = false :=
  fun c hc => isLineBreak_of_isNameChar (h.isNameChar c hc)

theorem ne_nil (h : IsNamePart name) : name ≠ [] := by
  obtain ⟨c, hc, -⟩ := h.visible
  exact List.ne_nil_of_mem hc

theorem flow_eq (h : IsNamePart name) : flow name = trim isBlank name :=
  flow_of_not_isLineBreak h.unbroken

theorem flow_ne_nil (h : IsNamePart name) : flow name ≠ [] := by
  obtain ⟨c, hc, hvisible⟩ := h.visible
  rw [h.flow_eq]
  intro hnil
  rw [trim_eq_nil_iff.mp hnil c hc] at hvisible
  cases hvisible

end IsNamePart

/-- Name characters that something flows from are a name part. -/
theorem isNamePart_of_flow {name : List Char} (h : ∀ c ∈ name, isNameChar c = true)
    (hflow : flow name ≠ []) : IsNamePart name where
  chars := fun c hc => isNameChar_iff.mp (h c hc)
  visible := by
    by_contra hnone
    refine hflow ?_
    rw [flow_eq_intercalate, flowLines_of_isBlank]
    · rfl
    · intro c hc
      by_contra hvisible
      exact hnone ⟨c, hc, by simpa using hvisible⟩

/-! ## Readings -/

/-- A reading of a text as a field. -/
@[ext]
structure Reading where
  name : List Char
  rest : List Char
  isName : IsNamePart name

/-- The text that is read: the name, a colon, and the rest. -/
def Reading.text (r : Reading) : List Char :=
  r.name ++ ':' :: r.rest

/-- The field that is read: name and rest as flowing prose. -/
def Reading.field (r : Reading) : Field where
  isParameter := false
  name := Text.normalize (String.ofList r.name)
  description := Text.normalize (String.ofList r.rest)

/-- A reading of a text as an announced parameter: the word that announces it, in any letter case,
blanks of any kind, and a reading that starts behind them. -/
@[ext]
structure Announcement extends Reading where
  word : List Char
  gap : List Char
  isWord : lowerLetters word = parameterWord
  gap_ne_nil : gap ≠ []
  gap_blank : ∀ c ∈ gap, isBlank c = true
  starts : ∀ c ∈ name.head?, isBlank c = false

/-- The text that is read. -/
def Announcement.text (a : Announcement) : List Char :=
  a.word ++ (a.gap ++ a.toReading.text)

/-- The field that is read. -/
def Announcement.field (a : Announcement) : Field :=
  { a.toReading.field with isParameter := true }

theorem Reading.head?_text (r : Reading) : r.text.head? = r.name.head? := by
  rw [Reading.text, List.head?_append_of_ne_nil _ r.isName.ne_nil]

/-- A text has one reading at most. -/
theorem Reading.text_injective {r s : Reading} (h : r.text = s.text) : r = s := by
  have hcolon (rest : List Char) : ∀ c ∈ (':' :: rest).head?, Field.isNameChar c = false := by
    intro c hc
    obtain rfl := Option.mem_some.mp hc
    exact isNameChar_colon
  obtain ⟨hname, hrest⟩ := append_run_inj r.isName.isNameChar s.isName.isNameChar (hcolon r.rest)
    (hcolon s.rest) h
  exact Reading.ext hname (List.cons.inj hrest).2

theorem length_of_isWord {word : List Char} (h : lowerLetters word = parameterWord) :
    word.length = parameterWord.length := by
  rw [← h, lowerLetters, List.length_map]

/-- A text has one reading as an announced parameter at most. -/
theorem Announcement.text_injective {a b : Announcement} (h : a.text = b.text) : a = b := by
  have hlength := (length_of_isWord a.isWord).trans (length_of_isWord b.isWord).symm
  obtain ⟨hword, hbehind⟩ := List.append_inj h hlength
  obtain ⟨hgap, htext⟩ := append_run_inj a.gap_blank b.gap_blank
    (by rw [Reading.head?_text]; exact a.starts)
    (by rw [Reading.head?_text]; exact b.starts) hbehind
  have hreading := Reading.text_injective htext
  exact Announcement.ext (congrArg Reading.name hreading) (congrArg Reading.rest hreading)
    hword hgap

/-! ## What the scanners accept -/

/-- The scanner of names finds readings and nothing else. -/
theorem scanName?_eq_some_iff {cs name rest : List Char} :
    scanName? cs = some (name, rest)
      ↔ ∃ r : Reading, r.text = cs ∧ flow r.name = name ∧ r.rest = rest := by
  constructor
  · intro h
    rw [scanName?] at h
    split at h
    case h_2 => cases h
    case h_1 behind hdrop =>
      dsimp only at h
      split at h
      case isTrue => cases h
      case isFalse hne =>
        cases h
        have hchars : ∀ c ∈ cs.takeWhile Field.isNameChar, Field.isNameChar c = true :=
          fun c hc => List.mem_takeWhile_imp hc
        refine ⟨⟨cs.takeWhile Field.isNameChar, rest,
          isNamePart_of_flow hchars (by simpa using hne)⟩, ?_, rfl, rfl⟩
        rw [Reading.text, ← hdrop, List.takeWhile_append_dropWhile]
  · rintro ⟨r, rfl, rfl, rfl⟩
    have hcolon : ∀ c ∈ (':' :: r.rest).head?, isNameChar c = false := fun c hc => by
      rw [← Option.mem_some.mp hc]
      exact isNameChar_colon
    obtain ⟨htake, hdrop⟩ := span_run r.isName.isNameChar hcolon
    rw [scanName?, Reading.text, hdrop, htake]
    simp [r.isName.flow_ne_nil]

/-- The scanner of announcements finds the word and all blanks behind it. -/
theorem afterParameter?_eq_some_iff {cs rest : List Char} :
    afterParameter? cs = some rest
      ↔ ∃ word gap, cs = word ++ (gap ++ rest) ∧ lowerLetters word = parameterWord ∧ gap ≠ []
        ∧ (∀ c ∈ gap, isBlank c = true) ∧ ∀ c ∈ rest.head?, isBlank c = false := by
  constructor
  · intro h
    rw [afterParameter?] at h
    split at h
    case isFalse => cases h
    case isTrue hword =>
      split at h
      case h_2 => cases h
      case h_1 c behind hdrop =>
        split at h
        case isFalse => cases h
        case isTrue hblank =>
          cases h
          refine ⟨cs.take parameterWord.length, c :: behind.takeWhile isBlank, ?_, hword, by simp,
            ?_, ?_⟩
          · rw [List.cons_append, List.takeWhile_append_dropWhile, ← hdrop, List.take_append_drop]
          · exact List.forall_mem_cons.mpr ⟨hblank, fun d hd => List.mem_takeWhile_imp hd⟩
          · intro d hd
            have hhead := List.head?_dropWhile_not isBlank behind
            rw [Option.mem_def.mp hd] at hhead
            exact hhead
  · rintro ⟨word, gap, rfl, hword, hgap, hblank, hrest⟩
    obtain ⟨c, gap, rfl⟩ := List.exists_cons_of_ne_nil hgap
    have hlength := length_of_isWord hword
    obtain ⟨-, hdrop⟩ := span_run (fun d hd => hblank d (List.mem_cons_of_mem c hd)) hrest
    rw [afterParameter?, List.take_left' hlength, List.drop_left' hlength, if_pos hword,
      List.cons_append]
    simp [hblank c List.mem_cons_self, hdrop]

/-- The two scanners together find the readings as announced parameters. -/
theorem bind_scanName?_eq_some_iff {cs name rest : List Char} :
    (afterParameter? cs).bind scanName? = some (name, rest)
      ↔ ∃ a : Announcement, a.text = cs ∧ flow a.name = name ∧ a.rest = rest := by
  rw [Option.bind_eq_some_iff]
  constructor
  · rintro ⟨behind, hafter, hscan⟩
    obtain ⟨word, gap, rfl, hword, hgap, hblank, hstarts⟩ := afterParameter?_eq_some_iff.mp hafter
    obtain ⟨r, rfl, hname, hrest⟩ := scanName?_eq_some_iff.mp hscan
    rw [Reading.head?_text] at hstarts
    exact ⟨⟨r, word, gap, hword, hgap, hblank, hstarts⟩, rfl, hname, hrest⟩
  · rintro ⟨a, rfl, hname, hrest⟩
    refine ⟨a.toReading.text, afterParameter?_eq_some_iff.mpr ⟨a.word, a.gap, rfl, a.isWord,
      a.gap_ne_nil, a.gap_blank, ?_⟩, scanName?_eq_some_iff.mpr ⟨a.toReading, rfl, hname, hrest⟩⟩
    rw [Reading.head?_text]
    exact a.starts

/-! ## Names that announce -/

/-- The text opens with the word that announces a parameter and a blank. -/
def Announces (cs : List Char) : Prop :=
  ∃ word c rest, cs = word ++ c :: rest ∧ lowerLetters word = parameterWord ∧ isBlank c = true

theorem afterParameter?_eq_none_iff {cs : List Char} :
    afterParameter? cs = none ↔ ¬Announces cs := by
  rw [Option.eq_none_iff_forall_ne_some]
  constructor
  · rintro h ⟨word, c, rest, rfl, hword, hblank⟩
    refine h (rest.dropWhile isBlank) (afterParameter?_eq_some_iff.mpr
      ⟨word, c :: rest.takeWhile isBlank, ?_, hword, by simp, ?_, fun d hd => ?_⟩)
    · rw [List.cons_append, List.takeWhile_append_dropWhile]
    · exact List.forall_mem_cons.mpr ⟨hblank, fun d hd => List.mem_takeWhile_imp hd⟩
    · have hhead := List.head?_dropWhile_not isBlank rest
      rw [Option.mem_def.mp hd] at hhead
      exact hhead
  · intro h rest hafter
    obtain ⟨word, gap, rfl, hword, hgap, hblank, -⟩ := afterParameter?_eq_some_iff.mp hafter
    obtain ⟨c, gap, rfl⟩ := List.exists_cons_of_ne_nil hgap
    exact h ⟨word, c, gap ++ rest, rfl, hword, hblank c List.mem_cons_self⟩

/-- What stands behind an announcement opens with something visible, and is something if the text
does not end in a blank. -/
theorem afterParameter?_spec {name rest : List Char} (h : afterParameter? name = some rest)
    (hlast : ∀ c ∈ name.getLast?, isBlank c = false) :
    ∃ word gap, name = word ++ (gap ++ rest) ∧ lowerLetters word = parameterWord ∧ gap ≠ []
      ∧ (∀ c ∈ gap, isBlank c = true) ∧ (∀ c ∈ rest.head?, isBlank c = false) ∧ rest ≠ [] := by
  obtain ⟨word, gap, rfl, hword, hgap, hblank, hstarts⟩ := afterParameter?_eq_some_iff.mp h
  refine ⟨word, gap, rfl, hword, hgap, hblank, hstarts, ?_⟩
  rintro rfl
  obtain ⟨gap, last, rfl⟩ := (List.eq_nil_or_concat' gap).resolve_left hgap
  have hvisible := hlast last (by simp [← List.append_assoc])
  rw [hblank last (by simp)] at hvisible
  cases hvisible

/-- Where a name announces a parameter and does not end in a blank, what it announces is a name
part, so that a text with this name has a reading as an announced parameter. -/
theorem exists_announcement {name after : List Char} (h : IsNamePart (name ++ after))
    (hlast : ∀ c ∈ name.getLast?, isBlank c = false) (hannounces : Announces name)
    (rest : List Char) : ∃ a : Announcement, a.text = name ++ after ++ ':' :: rest := by
  obtain ⟨bare, hafter⟩ : ∃ bare, afterParameter? name = some bare := by
    rw [← Option.ne_none_iff_exists', ne_eq, afterParameter?_eq_none_iff, not_not]
    exact hannounces
  obtain ⟨word, gap, rfl, hword, hgap, hblank, hstarts, hbare⟩ := afterParameter?_spec hafter hlast
  refine ⟨{
    name := bare ++ after
    rest
    isName := {
      chars := fun c hc => h.chars c (by
        simp only [List.mem_append] at hc ⊢
        tauto)
      visible := by
        obtain ⟨c, bare, rfl⟩ := List.exists_cons_of_ne_nil hbare
        exact ⟨c, List.mem_cons_self, hstarts c rfl⟩ }
    word, gap
    isWord := hword
    gap_ne_nil := hgap
    gap_blank := hblank
    starts := by rwa [List.head?_append_of_ne_nil _ hbare] }, ?_⟩
  simp [Announcement.text, Reading.text]

/-- A name that a text is read under, where it is not read as an announced parameter, does not open
with the word and a blank. -/
theorem Reading.not_announces {r : Reading} (hstarts : ∀ c ∈ r.text.head?, isBlank c = false)
    (h : ¬∃ a : Announcement, a.text = r.text) : ¬Announces (flow r.name) := by
  intro hannounces
  rw [Reading.head?_text] at hstarts
  obtain ⟨before, after, hname, hbefore, -⟩ := exists_eq_trim isBlank r.name
  rw [← r.isName.flow_eq] at hname
  -- nothing is taken off the front of the name
  obtain rfl : before = [] := by
    cases before with
    | nil => rfl
    | cons c before =>
        have hc := hstarts c (by rw [hname]; rfl)
        rw [hbefore c List.mem_cons_self] at hc
        cases hc
  have hpart : IsNamePart (flow r.name ++ after) := by
    rw [← List.nil_append (flow r.name ++ after), ← hname]
    exact r.isName
  obtain ⟨a, ha⟩ := exists_announcement hpart (ends_flow r.name).2 hannounces r.rest
  refine h ⟨a, ha.trans ?_⟩
  exact congrArg (· ++ ':' :: r.rest) hname.symm

/-! ## The field of a text -/

/-- What is left of a text behind the blanks at its start, one list marker if there is one, and the
blanks behind that. -/
inductive IsBody : List Char → List Char → Prop where
  | plain {before body : List Char} (hbefore : ∀ c ∈ before, isBlank c = true)
      (hbody : ∀ c ∈ body.head?, isBlank c = false ∧ isMarker c = false) :
      IsBody (before ++ body) body
  | marked {before gap body : List Char} {marker : Char} (hbefore : ∀ c ∈ before, isBlank c = true)
      (hmarker : isMarker marker = true) (hgap : ∀ c ∈ gap, isBlank c = true)
      (hbody : ∀ c ∈ body.head?, isBlank c = false) :
      IsBody (before ++ marker :: (gap ++ body)) body

theorem isBlank_of_isMarker {c : Char} (h : isMarker c = true) : isBlank c = false := by
  simp only [isMarker, Bool.or_eq_true, beq_iff_eq] at h
  rcases h with (rfl | rfl) | rfl <;> decide

theorem IsBody.eq_skipMarker {cs body : List Char} (h : IsBody cs body) : body = skipMarker cs := by
  cases h with
  | plain hbefore hbody =>
      obtain ⟨-, hdrop⟩ := span_run hbefore fun c hc => (hbody c hc).1
      rw [skipMarker, hdrop]
      cases body with
      | nil => rfl
      | cons c body => simp [(hbody c rfl).2]
  | @marked before gap body marker hbefore hmarker hgap hbody =>
      have hfirst : ∀ c ∈ (marker :: (gap ++ body)).head?, isBlank c = false := fun c hc => by
        rw [← Option.mem_some.mp hc]
        exact isBlank_of_isMarker hmarker
      obtain ⟨-, hdrop⟩ := span_run hbefore hfirst
      obtain ⟨-, hgapdrop⟩ := span_run hgap hbody
      rw [skipMarker, hdrop]
      simp [hmarker, hgapdrop]

theorem isBody_skipMarker (cs : List Char) : IsBody cs (skipMarker cs) := by
  have hcs := List.takeWhile_append_dropWhile (p := isBlank) (l := cs)
  have hbefore : ∀ c ∈ cs.takeWhile isBlank, isBlank c = true :=
    fun c hc => List.mem_takeWhile_imp hc
  have hhead := List.head?_dropWhile_not isBlank cs
  rw [skipMarker]
  cases hdrop : cs.dropWhile isBlank with
  | nil =>
      rw [hdrop] at hcs
      rw [← hcs]
      exact .plain hbefore (by simp)
  | cons c rest =>
      rw [hdrop] at hcs hhead
      rw [← hcs]
      cases hmarker : isMarker c with
      | false =>
          simp only [hmarker, Bool.false_eq_true, if_false]
          refine .plain hbefore fun d hd => ?_
          obtain rfl := Option.mem_some.mp hd
          exact ⟨hhead, hmarker⟩
      | true =>
          have hgap : ∀ d ∈ rest.takeWhile isBlank, isBlank d = true :=
            fun d hd => List.mem_takeWhile_imp hd
          have hbody : ∀ d ∈ (rest.dropWhile isBlank).head?, isBlank d = false := fun d hd => by
            have hrest := List.head?_dropWhile_not isBlank rest
            rw [Option.mem_def.mp hd] at hrest
            exact hrest
          have hmarked := IsBody.marked hbefore hmarker hgap hbody
          rw [List.takeWhile_append_dropWhile] at hmarked
          simpa [hmarker] using hmarked

/-- Blanks and marker are skipped as far as that. -/
theorem isBody_iff {cs body : List Char} : IsBody cs body ↔ body = skipMarker cs :=
  ⟨IsBody.eq_skipMarker, fun h => h ▸ isBody_skipMarker cs⟩

/-- What is left starts with something visible. -/
theorem IsBody.head {cs body : List Char} (h : IsBody cs body) :
    ∀ c ∈ body.head?, isBlank c = false := by
  cases h with
  | plain hbefore hbody => exact fun c hc => (hbody c hc).1
  | marked hbefore hmarker hgap hbody => exact hbody

theorem Reading.toList_name (r : Reading) : r.field.name.toList = flow r.name := by
  simp [Reading.field, Text.normalize]

theorem ofScan_eq (r : Reading) :
    ofScan false (flow r.name, r.rest) = r.field
      ∧ ofScan true (flow r.name, r.rest) = { r.field with isParameter := true } := by
  simp [ofScan, Reading.field, Text.normalize]

/-- **A text states the field of its reading.**  An announcement is preferred to a plain reading. -/
theorem split?_eq_some_iff {text : String} {field : Field} :
    split? text = some field
      ↔ (∃ a : Announcement, a.text = skipMarker text.toList ∧ a.field = field)
        ∨ (¬∃ a : Announcement, a.text = skipMarker text.toList)
          ∧ ∃ r : Reading, r.text = skipMarker text.toList ∧ r.field = field := by
  rw [split?]
  cases hscan : (afterParameter? (skipMarker text.toList)).bind scanName? with
  | some scanned =>
      obtain ⟨a, htext, hname, hrest⟩ :=
        bind_scanName?_eq_some_iff.mp (hscan : _ = some (scanned.1, scanned.2))
      have hfield : ofScan true scanned = a.field := by
        rw [Announcement.field, ← (ofScan_eq a.toReading).2, hname, hrest]
      simp only [hfield, Option.some.injEq]
      constructor
      · rintro rfl
        exact .inl ⟨a, htext, rfl⟩
      · rintro (⟨b, hb, rfl⟩ | ⟨hnone, -⟩)
        · rw [Announcement.text_injective (htext.trans hb.symm)]
        · exact absurd ⟨a, htext⟩ hnone
  | none =>
      have hnone : ¬∃ a : Announcement, a.text = skipMarker text.toList := by
        rintro ⟨a, htext⟩
        rw [bind_scanName?_eq_some_iff.mpr ⟨a, htext, rfl, rfl⟩] at hscan
        cases hscan
      simp only [Option.map_eq_some_iff, Prod.exists, scanName?_eq_some_iff]
      constructor
      · rintro ⟨name, rest, ⟨r, htext, rfl, rfl⟩, rfl⟩
        exact .inr ⟨hnone, r, htext, (ofScan_eq r).1.symm⟩
      · rintro (⟨a, htext, -⟩ | ⟨-, r, htext, rfl⟩)
        · exact absurd ⟨a, htext⟩ hnone
        · exact ⟨_, _, ⟨r, htext, rfl, rfl⟩, (ofScan_eq r).1⟩

theorem split?_eq_none_iff {text : String} :
    split? text = none
      ↔ (¬∃ a : Announcement, a.text = skipMarker text.toList)
        ∧ ¬∃ r : Reading, r.text = skipMarker text.toList := by
  rw [Option.eq_none_iff_forall_ne_some]
  constructor
  · intro h
    have hnone : ¬∃ a : Announcement, a.text = skipMarker text.toList :=
      fun ⟨a, htext⟩ => h a.field (split?_eq_some_iff.mpr (.inl ⟨a, htext, rfl⟩))
    exact ⟨hnone, fun ⟨r, htext⟩ =>
      h r.field (split?_eq_some_iff.mpr (.inr ⟨hnone, r, htext, rfl⟩))⟩
  · rintro ⟨hannounced, hplain⟩ field h
    rcases split?_eq_some_iff.mp h with ⟨a, htext, -⟩ | ⟨-, r, htext, -⟩
    · exact hannounced ⟨a, htext⟩
    · exact hplain ⟨r, htext⟩

/-- A field without an announcement has a name that does not announce. -/
theorem not_announces_of_split? {text : String} {field : Field} (h : split? text = some field)
    (hplain : field.isParameter = false) : ¬Announces field.name.toList := by
  rcases split?_eq_some_iff.mp h with ⟨a, -, rfl⟩ | ⟨hnone, r, htext, rfl⟩
  · cases hplain
  · have hstarts := (isBody_skipMarker text.toList).head
    rw [← htext] at hstarts hnone
    rw [Reading.toList_name]
    exact r.not_announces hstarts hnone

/-- **Fields are split exactly by their grammar.**  Every text has one body.  The text states a
field with an announcement if and only if the body has a reading as an announced parameter, a field
without one if and only if the body has no such reading but a plain one, and no field if and only if
it has neither; the field is always that of the reading, and there is one reading of each sort at
most.  The name of a field without an announcement never opens with the word that announces and a
blank. -/
theorem split?_exact (text : String) :
    ∃ body, (∀ cs, IsBody text.toList cs ↔ cs = body)
      ∧ (∀ field, split? text = some field ∧ field.isParameter = true
        ↔ ∃ a : Announcement, a.text = body ∧ a.field = field)
      ∧ (∀ field, split? text = some field ∧ field.isParameter = false
        ↔ (¬∃ a : Announcement, a.text = body) ∧ ∃ r : Reading, r.text = body ∧ r.field = field)
      ∧ (split? text = none
        ↔ (¬∃ a : Announcement, a.text = body) ∧ ¬∃ r : Reading, r.text = body)
      ∧ (∀ a b : Announcement, a.text = body → b.text = body → a = b)
      ∧ (∀ r s : Reading, r.text = body → s.text = body → r = s)
      ∧ ∀ field, split? text = some field → field.isParameter = false →
        ¬Announces field.name.toList := by
  refine ⟨skipMarker text.toList, fun cs => isBody_iff, fun field => ?_, fun field => ?_,
    split?_eq_none_iff, fun a b ha hb => Announcement.text_injective (ha.trans hb.symm),
    fun r s hr hs => Reading.text_injective (hr.trans hs.symm),
    fun field => not_announces_of_split?⟩
  · rw [split?_eq_some_iff]
    constructor
    · rintro ⟨hannounced | ⟨-, r, -, rfl⟩, hparameter⟩
      · exact hannounced
      · cases hparameter
    · rintro ⟨a, htext, rfl⟩
      exact ⟨.inl ⟨a, htext, rfl⟩, rfl⟩
  · rw [split?_eq_some_iff]
    constructor
    · rintro ⟨⟨a, -, rfl⟩ | hplain, hparameter⟩
      · cases hparameter
      · exact hplain
    · rintro ⟨hnone, r, htext, rfl⟩
      exact ⟨.inr ⟨hnone, r, htext, rfl⟩, rfl⟩

/-- The word may stand on a line of its own, a name may hold blanks, and both flow. -/
example : split? " * PARAMETER \n\tx  y : a\n  b" = some {
    isParameter := true, name := "x  y", description := "a b" } := by decide +kernel

end Field

end DocComment
