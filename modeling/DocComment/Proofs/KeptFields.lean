import DocComment.Proofs.ProseComment
import DocComment.Proofs.ReadTotal
import Mathlib

/-!
# Which fields a record keeps

A comment is parsed, its record is written down as Markdown, and that is parsed again.  The record
that comes out has the same parameters, callouts, returns and throws, if the layout does what it is
for.  This module says when it does.

* Parsing never fails (`parse_standard`): the limit of levels stops the reader of Markdown long
  before its capacity for containers does, so all that a run hands to it can be read.
* The document of a field is the one that is read from its own text (`DescribesItself`), so records
  that were parsed have the same fields if the texts of these fields are the same.
* `parse_markup_keeps_fields_iff` puts it together.  For every comment at all, the fields are kept
  if and only if the blocks of the markup state, bullet by bullet, the texts that were written.  For
  a record in prose this comes down to its names: the fields are kept if and only if no parameter is
  called by a name that announces a parameter.

**Boundary.**  Which blocks of a discussion let the bullets behind them be read as bullets is not
decided here by their shape.  An HTML comment that is never closed takes all of the fields behind
it; code between tildes whose info holds a backtick is written between backticks, where that is no
fence, so that a bullet in the code is read as a field.  The first equivalence covers such comments
by what their markup states, the second leaves them out.
-/

namespace DocComment

open Text

/-! ## The structured fields of a record -/

/-- The callout, if the part of a discussion is one. -/
def Part.callout? : Part → Option Callout
  | .callout c => some c
  | .block _ => none

/-- The callouts of a discussion, in order. -/
def Documentation.callouts (d : Documentation) : List Callout :=
  d.discussion.filterMap Part.callout?

/-- Two records with the same structured fields.  Their summaries and the rest of their discussions
may differ. -/
structure Documentation.SameFields (d other : Documentation) : Prop where
  parameters : d.parameters = other.parameters
  returns : d.returns = other.returns
  throws : d.throws = other.throws
  callouts : d.callouts = other.callouts

/-- Structured fields as texts: the parameters by name, and the descriptions as they are written. -/
structure FieldTexts where
  parameters : List (String × String)
  returns : Option String
  throws : Option String
  callouts : List Callout
deriving DecidableEq

/-- The texts of a record's fields. -/
def Documentation.fieldTexts (d : Documentation) : FieldTexts where
  parameters := d.parameters.map fun parameter => (parameter.name, parameter.content.text)
  returns := d.returns.map Document.text
  throws := d.throws.map Document.text
  callouts := d.callouts

/-- A text as a document carries it, with one newline convention. -/
def unified (text : String) : String :=
  String.ofList (unifyNewlines text.toList)

namespace Event

/-- The name and the description of the parameter that an event states. -/
def parameterText? : Event → Option (String × String)
  | .parameter name description => some (name, unified description)
  | _ => none

/-- The callout that an event states. -/
def callout? : Event → Option Callout
  | .callout label content => some { label, content }
  | _ => none

/-- The texts of the fields that events state.  Of several returns or throws fields the last one
counts. -/
def fieldTexts (events : List Event) : FieldTexts where
  parameters := events.filterMap parameterText?
  returns := (events.filterMap returns?).getLast?.map unified
  throws := (events.filterMap throws?).getLast?.map unified
  callouts := events.filterMap callout?

end Event

/-- The texts of the fields that the blocks of a comment state. -/
def Block.fieldTexts (maxDepth : Int) (blocks : List Block) : FieldTexts :=
  Event.fieldTexts (Event.ofBlocks maxDepth (Block.splitSummary blocks).2)

/-! ## The callouts of a discussion -/

namespace Event

/-- An event adds its callout to those of the discussion; a folded item changes a list, which is no
callout, at most. -/
theorem filterMap_extend (parts : List Part) (event : Event) :
    (event.extend parts).filterMap Part.callout?
      = parts.filterMap Part.callout? ++ event.callout?.toList := by
  cases event with
  | keep block => simp [extend, callout?, Part.callout?]
  | callout label content => simp [extend, callout?, Part.callout?]
  | parameter name description | returns description | throws description =>
      simp [extend, callout?]
  | fold item parent note =>
      simp only [extend, callout?]
      split
      · next _ last hlast =>
          have hparts : parts = parts.dropLast ++ [.block (.list last)] :=
            (List.dropLast_append_getLast? _ hlast).symm
          have hcallouts : parts.filterMap Part.callout?
              = parts.dropLast.filterMap Part.callout? := by
            conv_lhs => rw [hparts]
            simp [Part.callout?]
          simp [hcallouts, Part.callout?]
      · simp [Part.callout?]

theorem filterMap_foldl_extend (events : List Event) (parts : List Part) :
    (events.foldl extend parts).filterMap Part.callout?
      = parts.filterMap Part.callout? ++ events.filterMap callout? := by
  induction events generalizing parts with
  | nil => simp
  | cons event events ih =>
      rw [List.foldl_cons, ih, filterMap_extend, List.append_assoc]
      cases h : event.callout? <;> simp [h]

end Event

/-! ## Documents that describe themselves -/

namespace SectionReader

/-- Every text is read by the standard reader. -/
theorem standard_markdown (text : String) :
    standard.markdown text = .ok (standardContent text)
      ∧ (standardContent text).text = unified text := by
  have hlimit : (20 : Int) ≤ Markdown.containerCapacity := by decide
  obtain ⟨blocks, hread⟩ := Markdown.read_total hlimit text
  have hmarkdown : standard.markdown text = .ok { text := unified text, children := blocks } :=
    hread
  rw [standardContent, hmarkdown]
  exact ⟨rfl, rfl⟩

/-- **No comment is refused.**  The standard section reader reads every comment as what its blocks
mean. -/
theorem parse_standard (text : String) :
    standard.parse (some text)
      = .ok (Documentation.meaning standard.maxDepth standardContent
          (standardContent text).children) :=
  parse_of_readable standard (standard_markdown text).1 fun _ _ called _ =>
    (standard_markdown called).1

end SectionReader

/-- A document that is read from its own text. -/
def Document.DescribesItself (document : Document) : Prop :=
  SectionReader.standardContent document.text = document

/-- What the standard reader makes of a text describes itself. -/
theorem describesItself_standardContent (text : String) :
    (SectionReader.standardContent text).DescribesItself := by
  have hread := (SectionReader.standard_markdown (unified text)).1
  -- the text of a document has its newlines unified already, so it is read like the first text
  have hsame : SectionReader.standard.markdown (unified text)
      = SectionReader.standard.markdown text := Markdown.read_unifyNewlines _ text
  rw [hsame, (SectionReader.standard_markdown text).1, Except.ok.injEq] at hread
  rw [Document.DescribesItself, (SectionReader.standard_markdown text).2]
  exact hread.symm

namespace Documentation

/-- A record whose documents describe themselves. -/
structure DescribesItself (d : Documentation) : Prop where
  parameters : ∀ parameter ∈ d.parameters, parameter.content.DescribesItself
  returns : ∀ document ∈ d.returns, document.DescribesItself
  throws : ∀ document ∈ d.throws, document.DescribesItself

/-- Records that are read off blocks describe themselves. -/
theorem describesItself_meaning (maxDepth : Int) (blocks : List Block) :
    (meaning maxDepth SectionReader.standardContent blocks).DescribesItself where
  parameters := by
    intro parameter hparameter
    obtain ⟨event, -, hevent⟩ := List.mem_filterMap.mp hparameter
    cases event with
    | parameter name description =>
        cases hevent
        exact describesItself_standardContent description
    | _ => cases hevent
  returns := by
    intro document hdocument
    obtain ⟨description, -, rfl⟩ := Option.map_eq_some_iff.mp hdocument
    exact describesItself_standardContent description
  throws := by
    intro document hdocument
    obtain ⟨description, -, rfl⟩ := Option.map_eq_some_iff.mp hdocument
    exact describesItself_standardContent description

/-- The fields of a record that describes itself can be read off their texts. -/
theorem DescribesItself.parameters_eq {d : Documentation} (h : d.DescribesItself) :
    d.parameters = d.fieldTexts.parameters.map fun (name, text) =>
      { name, content := SectionReader.standardContent text } := by
  rw [fieldTexts, List.map_map]
  refine ((List.map_congr_left fun parameter hm => ?_).trans (List.map_id _)).symm
  have hcontent : SectionReader.standardContent parameter.content.text = parameter.content :=
    h.parameters parameter hm
  dsimp only [Function.comp_apply]
  rw [hcontent]
  rfl

theorem map_standardContent_text {document : Option Document}
    (h : ∀ d ∈ document, d.DescribesItself) :
    (document.map Document.text).map SectionReader.standardContent = document := by
  cases document with
  | none => rfl
  | some d => exact congrArg some (h d rfl)

/-- Records that describe themselves have the same fields if these have the same texts. -/
theorem DescribesItself.sameFields_iff {d other : Documentation} (hd : d.DescribesItself)
    (ho : other.DescribesItself) : d.SameFields other ↔ d.fieldTexts = other.fieldTexts := by
  constructor
  · intro h
    rw [fieldTexts, fieldTexts, h.parameters, h.returns, h.throws, h.callouts]
  · intro h
    have hreturns := congrArg FieldTexts.returns h
    have hthrows := congrArg FieldTexts.throws h
    refine ⟨?_, ?_, ?_, congrArg FieldTexts.callouts h⟩
    · rw [hd.parameters_eq, ho.parameters_eq, h]
    · rw [← map_standardContent_text hd.returns, ← map_standardContent_text ho.returns]
      exact congrArg _ hreturns
    · rw [← map_standardContent_text hd.throws, ← map_standardContent_text ho.throws]
      exact congrArg _ hthrows

/-- A record that is read off blocks has the texts that the blocks state. -/
theorem fieldTexts_meaning (maxDepth : Int) (blocks : List Block) :
    (meaning maxDepth SectionReader.standardContent blocks).fieldTexts
      = Block.fieldTexts maxDepth blocks := by
  rw [meaning, Block.fieldTexts]
  dsimp only
  generalize Event.ofBlocks maxDepth (Block.splitSummary blocks).2 = events
  have hparameters : (events.filterMap (Event.parameter? SectionReader.standardContent)).map
      (fun parameter => (parameter.name, parameter.content.text))
        = events.filterMap Event.parameterText? := by
    rw [List.map_filterMap]
    refine List.filterMap_congr fun event _ => ?_
    cases event with
    | parameter name description =>
        exact congrArg (fun text => some (name, text))
          (SectionReader.standard_markdown description).2
    | _ => rfl
  have htext : Document.text ∘ SectionReader.standardContent = unified :=
    funext fun text => (SectionReader.standard_markdown text).2
  have hcallouts : (events.foldl Event.extend []).filterMap Part.callout?
      = events.filterMap Event.callout? := Event.filterMap_foldl_extend events []
  simp only [fieldTexts, ofEvents, callouts, Event.fieldTexts, hparameters, hcallouts,
    Option.map_map, htext]

/-- In prose, the bare names are the names if none of them announces a parameter. -/
theorem IsProse.sameFields_bare_iff {d : Documentation} (h : d.IsProse) :
    d.bare.SameFields d
      ↔ ∀ parameter ∈ d.parameters, Field.afterParameter? parameter.name.toList = none := by
  have hbare : ∀ parameter ∈ d.parameters,
      (parameter.bare = parameter ↔ Field.afterParameter? parameter.name.toList = none) := by
    intro parameter hm
    rw [← bareName_eq_self_iff (h.parameters parameter hm).1.isFieldName]
    constructor
    · intro heq
      have hname := congrArg (fun p : Parameter => p.name.toList) heq
      simpa [Parameter.bare] using hname
    · intro heq
      rw [Parameter.bare, heq, String.ofList_toList]
  have hparameters : d.parameters.map Parameter.bare = d.parameters
      ↔ ∀ parameter ∈ d.parameters, Field.afterParameter? parameter.name.toList = none := by
    constructor
    · intro heq parameter hm
      refine (hbare parameter hm).mp ?_
      exact List.map_inj_left.mp (heq.trans (List.map_id _).symm) parameter hm
    · intro hown
      refine (List.map_congr_left fun parameter hm => ?_).trans (List.map_id _)
      exact (hbare parameter hm).mpr (hown parameter hm)
  rw [← hparameters]
  exact ⟨fun hsame => hsame.parameters, fun heq => ⟨heq, rfl, rfl, rfl⟩⟩

end Documentation

/-! ## Parsing, writing, and parsing again -/

namespace SectionReader

/-- **Which fields are kept.**  Every comment is parsed, and so is what is written of its record.
The second record has the fields of the first one if and only if the blocks of the markup state the
texts of these fields.  If the first record is in prose, it is only names that get lost: the fields
are kept if and only if no parameter is called by a name that announces a parameter. -/
theorem parse_markup_keeps_fields_iff (text : String) :
    ∃ first document second,
      standard.parse (some text) = .ok first
        ∧ standard.markdown first.markup = .ok document
        ∧ standard.parse (some first.markup) = .ok second
        ∧ (second.SameFields first
            ↔ Block.fieldTexts standard.maxDepth document.children = first.fieldTexts)
        ∧ (first.IsProse → (second.SameFields first
            ↔ ∀ parameter ∈ first.parameters,
                Field.afterParameter? parameter.name.toList = none)) := by
  obtain ⟨first, hfirst, hself⟩ : ∃ first, standard.parse (some text) = .ok first
      ∧ first.DescribesItself :=
    ⟨_, parse_standard text, Documentation.describesItself_meaning _ _⟩
  have hsecond := parse_standard first.markup
  refine ⟨first, _, _, hfirst, (standard_markdown first.markup).1, hsecond, ?_, fun hprose => ?_⟩
  · rw [← Documentation.fieldTexts_meaning]
    exact (Documentation.describesItself_meaning _ _).sameFields_iff hself
  · -- in prose the second record is known: it is the first one with bare names
    rw [parse_markup_of_prose hprose, Except.ok.injEq] at hsecond
    rw [← hsecond]
    exact hprose.sameFields_bare_iff

theorem parse_markup_keeps_fields_iff_sum :
    ∃ first second,
      standard.parse (some "Adds up\nnumbers\n\n- Parameter x: the left one\n- Returns: the sum")
          = .ok first
        ∧ first.IsProse
        ∧ standard.parse (some first.markup) = .ok second ∧ second.SameFields first := by
  obtain ⟨first, -, second, hfirst, -, hsecond, -, hkept⟩ := parse_markup_keeps_fields_iff
    "Adds up\nnumbers\n\n- Parameter x: the left one\n- Returns: the sum"
  have hline : ∀ line ∈ ["Adds up", "numbers", "x", "the left one", "the sum"],
      IsName line.toList := by
    simp only [List.forall_mem_cons]
    exact ⟨IsPlainLine.isName (by decide), IsPlainLine.isName (by decide),
      IsPlainLine.isName (by decide), IsPlainLine.isName (by decide),
      IsPlainLine.isName (by decide), by simp⟩
  have hparagraph : ∀ line ∈ ["the left one", "the sum"],
      ∀ text ∈ [[line.toList]], IsParagraph text := by
    intro line hm
    have hname := hline line (by revert line; simp)
    simpa using (⟨by simp, by simpa using hname.line⟩ : IsParagraph [line.toList])
  have hrecord : first = {
      summary := some (.paragraph "Adds up\nnumbers")
      parameters := [
        { name := "x"
          content := { text := "the left one", children := [.paragraph "the left one"] } }]
      returns := some { text := "the sum", children := [.paragraph "the sum"] } } :=
    Except.ok.inj (hfirst.symm.trans (by decide +kernel))
  have hprose : first.IsProse := by
    subst hrecord
    exact {
      summary := by
        rintro _ ⟨⟩
        have hsplit : splitNewlines "Adds up\nnumbers".toList
            = ["Adds up".toList, "numbers".toList] := by decide
        refine ⟨_, rfl, ?_⟩
        rw [IsProse, hsplit]
        refine ⟨by simp, List.forall_mem_cons.mpr ⟨(hline "Adds up" (by simp)).line.prose, ?_⟩⟩
        simpa using (hline "numbers" (by simp)).line.prose
      discussion := by simp
      opening := nofun
      parameters := by
        simp only [List.forall_mem_cons]
        exact ⟨⟨hline "x" (by simp), _, hparagraph "the left one" (by simp), by decide +kernel⟩,
          by simp⟩
      returns := by
        rintro _ ⟨⟩
        exact ⟨_, hparagraph "the sum" (by simp), by decide +kernel⟩
      throws := nofun }
  refine ⟨first, second, hfirst, hprose, hsecond, (hkept hprose).mpr ?_⟩
  subst hrecord
  simp only [List.forall_mem_cons]
  exact ⟨by decide, by simp⟩

/-- A parameter that is announced twice keeps one announcement in its name, and loses it when the
record is written down and read again. -/
theorem parse_markup_loses_announced_name :
    ∃ first second, standard.parse (some "- Parameter parameter x: y") = .ok first
      ∧ standard.parse (some first.markup) = .ok second ∧ ¬ second.SameFields first := by
  let content : Document := { text := "y", children := [.paragraph "y"] }
  refine ⟨{ parameters := [{ name := "parameter x", content }] },
    { parameters := [{ name := "x", content }] }, by decide +kernel, by decide +kernel, fun h => ?_⟩
  exact absurd h.parameters (by decide)

/-- An HTML comment that is never closed takes the field that is written behind it. -/
example : ∃ first second, standard.parse (some "- Returns: x\n\n<!--") = .ok first
    ∧ standard.parse (some first.markup) = .ok second
    ∧ first.returns.isSome = true ∧ second.returns = none :=
  ⟨{ discussion := [.block (.html "<!--")]
     returns := some { text := "x", children := [.paragraph "x"] } },
    { discussion := [.block (.html "<!--\n\n- Returns: x\n")] },
    by decide +kernel, by decide +kernel, rfl, rfl⟩

end SectionReader

end DocComment
