import DocComment.Proofs.Calls
import DocComment.Proofs.Destination
import DocComment.Proofs.FieldLayout

/-!
# Names in any letter case

Three tests look at the name of a field, each under a key of its own: whether it announces a
parameter (its first letters in lower case), which keyword it is (all of it in lower case), and
which callout label it is (the visible part in lower case).

* None of the keys tells apart what differs in the case of ASCII letters alone
  (`Text.SameButForCase.lowerLetters_eq`), so a name keeps its destination in any letter case
  (`Destination.ofName_of_sameButForCase`).
* A label is found exactly if it is the same letter by letter, blanks left out
  (`CalloutLabel.lookup?_eq_some_iff`).

`SectionReader.names_ignore_case` says what this means for an item that is read.

**Boundary.**  Two kinds of items show the name as it was written: those that stay list content, and
a parameter that has the word "parameter" for its name, because its description names no other one.
-/

namespace DocComment

namespace Text

/-! ## Letters -/

/-- Two texts that differ in nothing but the case of ASCII letters. -/
def SameButForCase (cs ds : List Char) : Prop :=
  cs.map Char.toLower = ds.map Char.toLower

/-- Two characters that are the same letter, in any case.  The Kelvin sign is a capital k. -/
def SameLetter (c d : Char) : Prop :=
  c.toLower = d.toLower ∨ (c = '\u212A' ∧ d.toLower = 'k') ∨ (d = '\u212A' ∧ c.toLower = 'k')

/-- Two labels that are the same letter by letter, blanks left out. -/
def SameLabel (label other : String) : Prop :=
  List.Forall₂ SameLetter (visible label.toList) (visible other.toList)

theorem isBlank_toLower (c : Char) : isBlank c.toLower = isBlank c := by
  rcases toLower_eq_self_or c with h | ⟨hc, hlower⟩
  · rw [h]
  · rw [isBlank_of_isAlpha hc, isBlank_of_isAlpha hlower]

theorem lowerLetter_toLower (c : Char) : lowerLetter c.toLower = lowerLetter c := by
  rcases toLower_eq_self_or c with h | ⟨hc, hlower⟩
  · rw [h]
  · have hkelvin : ('\u212A' : Char).isAlpha = false := by decide
    rw [lowerLetter, lowerLetter, if_neg (ne_of_isAlpha hlower hkelvin),
      if_neg (ne_of_isAlpha hc hkelvin), Char.toLower_toLower_eq_toLower]

theorem sameLetter_iff {c d : Char} : SameLetter c d ↔ lowerLetter c = lowerLetter d := by
  have hkelvin : ('\u212A' : Char).toLower = '\u212A' := by decide
  have hlower (c : Char) : c.toLower = '\u212A' → c = '\u212A' := by
    rcases toLower_eq_self_or c with h | ⟨-, halpha⟩
    · exact fun heq => h.symm.trans heq
    · exact fun heq => absurd heq (ne_of_isAlpha halpha (by decide))
  unfold SameLetter lowerLetter
  by_cases hc : c = '\u212A'
  · by_cases hd : d = '\u212A'
    · simp [hc, hd]
    · have hother : '\u212A' ≠ d.toLower := fun heq => hd (hlower d heq.symm)
      simp [hc, hd, hkelvin, hother, eq_comm]
  · by_cases hd : d = '\u212A'
    · have hother : c.toLower ≠ '\u212A' := fun heq => hc (hlower c heq)
      simp [hc, hd, hkelvin, hother]
    · simp [hc, hd]

/-- A label is the same as another one exactly if they have one key. -/
theorem sameLabel_iff {label other : String} :
    SameLabel label other ↔ labelKey label = labelKey other := by
  have hletters : SameLetter = fun c d => lowerLetter c = lowerLetter d := by
    funext c d
    exact propext sameLetter_iff
  rw [SameLabel, hletters]
  show _ ↔ (visible label.toList).map lowerLetter = (visible other.toList).map lowerLetter
  rw [← List.forall₂_eq_eq_eq, List.forall₂_map_left_iff, List.forall₂_map_right_iff]

namespace SameButForCase

variable {cs ds : List Char}

theorem symm (h : SameButForCase cs ds) : SameButForCase ds cs := Eq.symm h

theorem visible (h : SameButForCase cs ds) :
    SameButForCase (Text.visible cs) (Text.visible ds) := by
  have hvisible (cs : List Char) :
      (Text.visible cs).map Char.toLower = Text.visible (cs.map Char.toLower) := by
    simp [Text.visible, List.filter_map, Function.comp_def, isBlank_toLower]
  rw [SameButForCase, hvisible, hvisible, h]

/-- **The case of letters is lost** on every key that is compared in lower case. -/
theorem lowerLetters_eq (h : SameButForCase cs ds) : lowerLetters cs = lowerLetters ds := by
  have hlower (cs : List Char) : lowerLetters (cs.map Char.toLower) = lowerLetters cs := by
    simp [lowerLetters, Function.comp_def, lowerLetter_toLower]
  rw [← hlower cs, h, hlower]

/-- What does not depend on the case of letters holds of a character of one text if it does of a
character of the other. -/
theorem exists_mem {p : Char → Bool} (hp : ∀ c, p c.toLower = p c) (h : SameButForCase cs ds)
    {d : Char} (hd : d ∈ ds) : ∃ c ∈ cs, p c = p d := by
  have hmem : d.toLower ∈ cs.map Char.toLower := h ▸ List.mem_map_of_mem hd
  obtain ⟨c, hc, heq⟩ := List.mem_map.mp hmem
  exact ⟨c, hc, by rw [← hp c, heq, hp]⟩

end SameButForCase

end Text

open Text

/-! ## Callout labels -/

namespace CalloutLabel

/-- Only the key of a label matters. -/
theorem lookup?_of_labelKey_eq {name other : String} (h : labelKey name = labelKey other) :
    lookup? name = lookup? other := by
  rw [lookup?, h, ← lookup?]

/-- **A callout label is found** exactly where it is the same but for letter case and blanks. -/
theorem lookup?_eq_some_iff {name : String} {label : CalloutLabel} :
    lookup? name = some label ↔ SameLabel name label.displayName := by
  rw [sameLabel_iff]
  constructor
  · intro h
    rw [lookup?] at h
    have hfound := List.find?_some h
    exact (beq_iff_eq.mp hfound).symm
  · intro h
    rw [lookup?_of_labelKey_eq h, Event.lookup?_displayName]

theorem lookup?_of_sameButForCase {name other : String}
    (h : SameButForCase (visible name.toList) (visible other.toList)) :
    lookup? name = lookup? other :=
  lookup?_of_labelKey_eq h.lowerLetters_eq

end CalloutLabel

/-! ## The names of fields -/

namespace Field

theorem isNameChar_toLower (c : Char) : isNameChar c.toLower = isNameChar c := by
  rcases toLower_eq_self_or c with h | ⟨hc, hlower⟩
  · rw [h]
  · rw [isNameChar_of_isAlpha hc, isNameChar_of_isAlpha hlower]

/-- The name of a field is one in any letter case. -/
theorem IsFieldName.of_sameButForCase {name other : List Char} (h : IsFieldName name)
    (hcase : SameButForCase name other) : IsFieldName other := by
  have hends {end_ otherEnd : Option Char}
      (hsame : end_.map Char.toLower = otherEnd.map Char.toLower)
      (hvisible : ∀ c ∈ end_, isBlank c = false) : ∀ c ∈ otherEnd, isBlank c = false := by
    intro c hc
    have hmem : c.toLower ∈ end_.map Char.toLower := hsame ▸ Option.mem_map_of_mem _ hc
    obtain ⟨d, hd, heq⟩ := Option.mem_map.mp hmem
    rw [← isBlank_toLower, ← heq, isBlank_toLower, hvisible d hd]
  refine ⟨⟨fun c hc => ?_, ?_⟩, hends ?_ h.first, hends ?_ h.last⟩
  · obtain ⟨d, hd, heq⟩ := hcase.exists_mem isNameChar_toLower hc
    rw [← isNameChar_iff, ← heq]
    exact h.isNamePart.isNameChar d hd
  · obtain ⟨c, hc, hvisible⟩ := h.isNamePart.visible
    obtain ⟨d, hd, heq⟩ := hcase.symm.exists_mem isBlank_toLower hc
    exact ⟨d, hd, heq.trans hvisible⟩
  · rw [← List.head?_map, ← List.head?_map, hcase]
  · rw [← List.getLast?_map, ← List.getLast?_map, hcase]

/-- What announces a parameter does so in any letter case. -/
theorem Announces.of_sameButForCase {name other : List Char} (h : Announces name)
    (hcase : SameButForCase name other) : Announces other := by
  obtain ⟨word, c, rest, rfl, hword, hblank⟩ := h
  rw [SameButForCase, List.map_append, List.map_cons, eq_comm, List.map_eq_append_iff] at hcase
  obtain ⟨otherWord, behind, rfl, hsame, hbehind⟩ := hcase
  obtain ⟨d, otherRest, rfl, hd, -⟩ := List.map_eq_cons_iff.mp hbehind
  refine ⟨otherWord, d, otherRest, rfl, ?_, ?_⟩
  · rw [SameButForCase.lowerLetters_eq hsame, hword]
  · rw [← isBlank_toLower, hd, isBlank_toLower, hblank]

/-- A field with the word "parameter" for its name whose description names no other parameter: the
parameter is called by the word, as it was written. -/
def NamesItself (field : Field) : Prop :=
  field.lowerName = "parameter"
    ∧ (field.hasBlocks = true ∨ split? field.description = none)

end Field

/-- An item that opens with a name and a colon. -/
def ListItem.named (name rest : String) (children : List Block) : ListItem where
  text := "- " ++ name ++ ":" ++ rest
  children

namespace Field

/-- Under every name that announces nothing, an item states the same field but for the name. -/
theorem exists_field?_named (rest : String) (children : List Block) :
    ∃ field : Field, field.isParameter = false
      ∧ ∀ name : String, IsFieldName name.toList → ¬Announces name.toList →
        (ListItem.named name rest children).field? = some { field with name } := by
  have hsplit (name : String) (h : IsFieldName name.toList) (hplain : ¬Announces name.toList) :
      split? ("- " ++ name ++ ":" ++ rest)
        = some { isParameter := false, name, description := String.ofList (flow rest.toList) } := by
    have htext : "- " ++ name ++ ":" ++ rest
        = String.ofList ('-' :: ' ' :: (name.toList ++ ':' :: rest.toList)) := by
      rw [← String.toList_inj]
      simp
    rw [htext, split?_bullet_of_not_announces h hplain, String.ofList_toList]
  let inline : Field := {
    isParameter := false, name := "", description := String.ofList (flow rest.toList) }
  cases hblocks : children.drop 1 with
  | nil =>
      refine ⟨inline, rfl, fun name h hplain => ?_⟩
      rw [ListItem.field?, ListItem.named, hsplit name h hplain, hblocks]
      rfl
  | cons block blocks =>
      refine ⟨inline.withBlocks ((block :: blocks).map Block.markup), rfl, fun name h hplain => ?_⟩
      rw [ListItem.field?, ListItem.named, hsplit name h hplain, hblocks]
      rfl

end Field

/-! ## Destinations -/

namespace Destination

/-- **A field goes to the same destination under its name in another letter case**, unless it stays
list content or bears that name as a parameter. -/
theorem ofName_of_sameButForCase (field : Field) {other : String}
    (h : SameButForCase field.name.toList other.toList) {mayEnter : Bool}
    (hkept : (ofName mayEnter field).folds = false) (hnamed : ¬field.NamesItself) :
    ofName mayEnter { field with name := other } = ofName mayEnter field := by
  have hletters : String.ofList (lowerLetters other.toList) = field.lowerName := by
    rw [Field.lowerName, h.lowerLetters_eq]
  have hlabel : CalloutLabel.lookup? other = CalloutLabel.lookup? field.name :=
    CalloutLabel.lookup?_of_sameButForCase h.symm.visible
  have hkeyword : String.ofList (lowerLetters field.name.toList) = field.lowerName := rfl
  simp only [ofName, hkeyword] at hkept
  simp only [ofName, hkeyword, hletters, hlabel]
  by_cases hsection : field.lowerName = "parameters"
  · cases mayEnter with
    | true => simp [hsection]
    | false => simp [hsection, folds] at hkept
  by_cases hparameter : field.lowerName = "parameter"
  · -- the description names the parameter
    have hnames : field.hasBlocks = false
        ∧ ∃ named, Field.split? field.description = some named := by
      simpa [Field.NamesItself, hparameter, ← Option.ne_none_iff_exists'] using hnamed
    obtain ⟨hsingle, named, hsplit⟩ := hnames
    simp [hparameter, ofParameterField, hsingle, hsplit]
  by_cases hreturns : field.lowerName = "returns"
  · simp [hreturns]
  by_cases hthrows : field.lowerName = "throws"
  · simp [hthrows]
  cases hlookup : CalloutLabel.lookup? field.name with
  | none => simp [hsection, hparameter, hreturns, hthrows, hlookup, folds] at hkept
  | some label => simp [hsection, hparameter, hreturns, hthrows]

/-- An item goes to the same destination under its name in another letter case. -/
theorem ofField_of_sameButForCase {name other : String} (hname : Field.IsFieldName name.toList)
    (hcase : SameButForCase name.toList other.toList) (hplain : ¬Field.Announces name.toList)
    {rest : String} {children : List Block} {mayEnter : Bool}
    (hkept : (ofField false mayEnter (ListItem.named name rest children).field?).folds = false)
    (hnamed : ∀ field ∈ (ListItem.named name rest children).field?, ¬field.NamesItself) :
    ofField false mayEnter (ListItem.named other rest children).field?
      = ofField false mayEnter (ListItem.named name rest children).field? := by
  obtain ⟨field, hprefix, hfield⟩ := Field.exists_field?_named rest children
  have hplainOther : ¬Field.Announces other.toList :=
    fun hannounces => hplain (hannounces.of_sameButForCase hcase.symm)
  have hsent (name : String) : ofField false mayEnter (some { field with name })
      = ofName mayEnter { field with name } := by
    apply ofField_eq_ofName
    exact hprefix
  rw [hfield name hname hplain] at hkept hnamed ⊢
  rw [hsent name] at hkept ⊢
  rw [hfield other (hname.of_sameButForCase hcase) hplainOther, hsent other]
  exact ofName_of_sameButForCase { field with name } hcase hkept (hnamed _ rfl)

end Destination

/-! ## Reading an item -/

namespace SectionReader

open Extraction

variable {ε : Type} (reader : SectionReader ε)

/-- In the discussion, items of one destination and with the same blocks are read alike, unless they
stay list content. -/
theorem visitItem_of_destination_eq {depth : Int} {item other : ListItem}
    (hchildren : other.children = item.children)
    (h : Destination.ofField false (depth < reader.maxDepth) other.field?
      = Destination.ofField false (depth < reader.maxDepth) item.field?)
    (hkept : (Destination.ofField false (depth < reader.maxDepth) item.field?).folds = false)
    (parent : ListBlock) :
    reader.visitItem .discussion depth parent other
      = reader.visitItem .discussion depth parent item := by
  obtain ⟨text, children⟩ := item
  obtain ⟨otherText, _⟩ := other
  cases hchildren
  have hstage : (Stage.discussion == Stage.parameters) = false := rfl
  rw [visitItem, visitItem]
  simp only [hstage, h]
  cases hdestination : Destination.ofField false (depth < reader.maxDepth)
      (ListItem.field? ⟨text, children⟩) with
  | content => simp [hdestination, Destination.folds] at hkept
  | unrecognized name => simp [hdestination, Destination.folds] at hkept
  | tooDeep => simp [hdestination, Destination.folds] at hkept
  | _ => rfl

/-- **Names ignore letter case, and callout labels ignore blanks, too.**

* Labels that are the same without their blanks, but for the case of ASCII letters, are looked up to
  the same.  A name is looked up to a callout label exactly if it is that label letter by letter, in
  any case and whatever blanks there are, which it is for one label at most.
* Let an item state a field under a name that announces no parameter.  If it neither stays list
  content nor bears that name as a parameter, then under the name in any other letter case it is
  read alike: with the same outcome, the same record, the same Markdown calls and the same log. -/
theorem names_ignore_case :
    (∀ label other : String, SameButForCase (visible label.toList) (visible other.toList) →
      CalloutLabel.lookup? label = CalloutLabel.lookup? other)
    ∧ (∀ (name : String) (label : CalloutLabel),
      CalloutLabel.lookup? name = some label ↔ SameLabel name label.displayName)
    ∧ (∀ (name : String) (label other : CalloutLabel), SameLabel name label.displayName →
      SameLabel name other.displayName → label = other)
    ∧ ∀ (name other rest : String) (children : List Block) (depth : Int) (parent : ListBlock)
        (progress : Progress),
      Field.IsFieldName name.toList → ¬Field.Announces name.toList →
      SameButForCase name.toList other.toList →
      (Destination.ofField false (depth < reader.maxDepth)
        (ListItem.named name rest children).field?).folds = false →
      (∀ field ∈ (ListItem.named name rest children).field?, ¬field.NamesItself) →
      runFrom (reader.visitItem .discussion depth parent (.named other rest children)) progress
        = runFrom (reader.visitItem .discussion depth parent (.named name rest children))
            progress := by
  refine ⟨fun label other => CalloutLabel.lookup?_of_sameButForCase,
    fun name label => CalloutLabel.lookup?_eq_some_iff,
    fun name label other hlabel hother => ?_, ?_⟩
  · rw [← CalloutLabel.lookup?_eq_some_iff] at hlabel hother
    exact Option.some.inj (hlabel.symm.trans hother)
  · intro name other rest children depth parent progress hname hplain hcase hkept hnamed
    have hdestination := Destination.ofField_of_sameButForCase hname hcase hplain hkept hnamed
    have hchildren : (ListItem.named other rest children).children
        = (ListItem.named name rest children).children := rfl
    rw [reader.visitItem_of_destination_eq hchildren hdestination hkept parent]

/-- A label with the Kelvin sign and a no-break space in it, and a refused field in another letter
case. -/
theorem names_ignore_case_refusing :
    CalloutLabel.lookup? "rEMAR\u212A" = some .remark
      ∧ SameButForCase (visible "see\u00a0ALSO".toList) (visible "S eeaLSo".toList)
      ∧ CalloutLabel.lookup? "see\u00a0ALSO" = CalloutLabel.lookup? "S eeaLSo"
      ∧ Field.IsFieldName "Returns".toList ∧ ¬Field.Announces "Returns".toList
      ∧ SameButForCase "Returns".toList "rETURNS".toList
      ∧ (Destination.ofField false true
            (ListItem.named "Returns" " nothing" []).field?).folds = false
      ∧ (∀ field ∈ (ListItem.named "Returns" " nothing" []).field?, ¬field.NamesItself)
      ∧ runFrom (refusing.visitItem .discussion 0 { kind := .bullet }
            (.named "rETURNS" " nothing" [])) {}
          = runFrom (refusing.visitItem .discussion 0 { kind := .bullet }
            (.named "Returns" " nothing" [])) {} := by
  have hlabels : SameButForCase (visible "see\u00a0ALSO".toList) (visible "S eeaLSo".toList) := by
    unfold SameButForCase
    decide +kernel
  have hname : Field.IsFieldName "Returns".toList := isName_returns.isFieldName
  have hplain : ¬Field.Announces "Returns".toList := Field.afterParameter?_eq_none_iff.mp rfl
  have hcase : SameButForCase "Returns".toList "rETURNS".toList := by
    unfold SameButForCase
    decide
  have hkept : (Destination.ofField false true
      (ListItem.named "Returns" " nothing" []).field?).folds = false := by decide +kernel
  have hnamed : ∀ field ∈ (ListItem.named "Returns" " nothing" []).field?, ¬field.NamesItself := by
    have hfield : (ListItem.named "Returns" " nothing" []).field?
        = some { isParameter := false, name := "Returns", description := "nothing" } := by
      decide +kernel
    rintro field hmem ⟨hparameter, -⟩
    rw [hfield] at hmem
    cases hmem
    exact absurd hparameter (by decide)
  obtain ⟨hlookup, hfound, -, hread⟩ := names_ignore_case refusing
  refine ⟨(hfound _ .remark).mpr ?_, hlabels, hlookup _ _ hlabels, hname, hplain, hcase, hkept,
    hnamed, hread _ _ _ _ 0 _ {} hname hplain hcase hkept hnamed⟩
  exact sameLabel_iff.mpr (by decide +kernel)

end SectionReader

end DocComment
