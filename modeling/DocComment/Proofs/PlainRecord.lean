import DocComment.Proofs.ProseComment
import Mathlib

/-!
# Plain records are read back

A record is plain if its texts are plain lines, and bodies that consist of such lines, and if the
names of its parameters are made of letters.  Plain lines are lines of prose, so what is said of
records in prose holds of plain ones, and a name of letters announces no parameter.  Hence nothing
at all is lost: `parse_markup_of_plain` says that a plain record is the one that is read from its
own comment.
-/

namespace DocComment

open Text

/-! ## Plain records -/

/-- A plain body: plain lines with an empty line between any two. -/
def IsPlainBody (text : String) : Prop :=
  ∃ lines : List String, (∀ line ∈ lines, IsPlainLine line.toList) ∧ text = joined "\n\n" lines

/-- A plain document: a plain body, and a paragraph for each of its lines. -/
def Document.IsPlain (document : Document) : Prop :=
  ∃ lines : List String, (∀ line ∈ lines, IsPlainLine line.toList)
    ∧ document = { text := joined "\n\n" lines, children := lines.map .paragraph }

/-- A plain part of a discussion: a callout with a plain body, or a paragraph that is a plain
line. -/
def Part.IsPlain : Part → Prop
  | .callout c => IsPlainBody c.content
  | .block (.paragraph text) => IsPlainLine text.toList
  | .block _ => False

/-- A name of one letter or more. -/
def IsPlainName (name : String) : Prop :=
  name.toList ≠ [] ∧ ∀ c ∈ name.toList, c.isAlpha = true

/-- A plain record.  Without a summary the discussion must not open with a paragraph, which would be
read as the summary. -/
structure Documentation.IsPlain (d : Documentation) : Prop where
  summary : ∀ block ∈ d.summary, ∃ text, block = .paragraph text ∧ IsPlainLine text.toList
  discussion : ∀ part ∈ d.discussion, part.IsPlain
  opening : d.summary = none → ∀ part ∈ d.discussion.head?, ∃ callout, part = .callout callout
  parameters : ∀ parameter ∈ d.parameters,
    IsPlainName parameter.name ∧ parameter.content.IsPlain
  returns : ∀ document ∈ d.returns, document.IsPlain
  throws : ∀ document ∈ d.throws, document.IsPlain

/-! ## Plain records are in prose -/

/-- Each plain line is a paragraph of its own. -/
theorem joined_eq_bodyText (lines : List String) :
    joined "\n\n" lines = String.ofList (bodyText (lines.map fun line => [line.toList])) := by
  rw [joined, bodyText, ← intercalate_joinNewlines (by simp), List.map_map]
  simp [Function.comp_def]

theorem isParagraph_lines {lines : List String} (h : ∀ line ∈ lines, IsPlainLine line.toList) :
    ∀ text ∈ lines.map (fun line => [line.toList]), IsParagraph text := by
  intro text htext
  obtain ⟨line, hline, rfl⟩ := List.mem_map.mp htext
  exact ⟨by simp, by simpa using (h line hline).isName.line⟩

theorem IsPlainLine.isProse {text : String} (h : IsPlainLine text.toList) : IsProse text := by
  rw [IsProse, splitNewlines_of_notMem h.isName.line.notMem_newline]
  exact h.isName.line.prose.text

theorem IsPlainBody.isProse {text : String} (h : IsPlainBody text) : IsProseBody text := by
  obtain ⟨lines, hlines, rfl⟩ := h
  exact ⟨_, isParagraph_lines hlines, joined_eq_bodyText lines⟩

theorem Document.IsPlain.isProse {document : Document} (h : document.IsPlain) :
    document.IsProse := by
  obtain ⟨lines, hlines, rfl⟩ := h
  refine ⟨_, isParagraph_lines hlines, ?_⟩
  rw [joined_eq_bodyText, List.map_map]
  simp [Function.comp_def]

theorem Part.IsPlain.isProse {part : Part} (h : part.IsPlain) : part.IsProse := by
  cases part with
  | callout c => exact IsPlainBody.isProse h
  | block b =>
      cases b with
      | paragraph text => exact IsPlainLine.isProse h
      | _ => exact h.elim

theorem IsPlainName.isName {name : String} (h : IsPlainName name) : IsName name.toList := by
  refine IsPlainLine.isName ⟨fun c hc => .inl (h.2 c hc), ?_, ?_⟩
  · obtain ⟨c, cs, hname⟩ := List.exists_cons_of_ne_nil h.1
    exact ⟨c, by rw [hname]; rfl, h.2 c (by rw [hname]; exact List.mem_cons_self)⟩
  · obtain ⟨c, hc⟩ := Option.isSome_iff_exists.mp (List.getLast?_isSome.mpr h.1)
    exact ⟨c, hc, h.2 c (List.mem_of_getLast? hc)⟩

/-- A name of letters announces no parameter: there is no blank in it. -/
theorem IsPlainName.afterParameter? {name : String} (h : IsPlainName name) :
    Field.afterParameter? name.toList = none := by
  unfold Field.afterParameter?
  split
  · cases hdrop : name.toList.drop Field.parameterWord.length with
    | nil => rfl
    | cons c cs =>
        have hmem : c ∈ name.toList := by
          apply List.mem_of_mem_drop
          rw [hdrop]
          exact List.mem_cons_self
        simp [isBlank_of_isAlpha (h.2 c hmem)]
  · rfl

namespace Documentation

variable {d : Documentation}

theorem IsPlain.isProse (h : d.IsPlain) : d.IsProse where
  summary := by
    intro block hblock
    obtain ⟨text, rfl, htext⟩ := h.summary block hblock
    exact ⟨text, rfl, htext.isProse⟩
  discussion := fun part hpart => (h.discussion part hpart).isProse
  opening := h.opening
  parameters := fun parameter hm =>
    ⟨(h.parameters parameter hm).1.isName, (h.parameters parameter hm).2.isProse⟩
  returns := fun document hm => (h.returns document hm).isProse
  throws := fun document hm => (h.throws document hm).isProse

theorem IsPlain.bare_eq (h : d.IsPlain) : d.bare = d := by
  have hparameters : d.parameters.map Parameter.bare = d.parameters := by
    refine (List.map_congr_left fun parameter hm => ?_).trans (List.map_id _)
    have hown := (h.parameters parameter hm).1.afterParameter?
    rw [Parameter.bare, Field.bareName, hown, Option.getD_none, String.ofList_toList]
    rfl
  rw [bare, hparameters]

end Documentation

/-! ## The round trip -/

namespace SectionReader

/-- **What is written is read back.**  Every plain record is the one that the standard section
reader finds in what was written of it. -/
theorem parse_markup_of_plain {d : Documentation} (h : d.IsPlain) :
    standard.parse (some d.markup) = .ok d := by
  have hparse := parse_markup_of_prose h.isProse
  rwa [h.bare_eq] at hparse

/-- A record with every kind of field, among them bodies of no line, of one and of two, and a
parameter whose name is the word that announces parameters. -/
def plainRecord : Documentation where
  summary := some (.paragraph "Adds two numbers")
  discussion := [
    .callout { label := .seeAlso, content := "the other\n\nand this one" },
    .block (.paragraph "More about it"),
    .callout { label := .note, content := "" }]
  parameters := [
    { name := "parameter"
      content := { text := "left\n\nright", children := [.paragraph "left", .paragraph "right"] } },
    { name := "x", content := { text := "" } }]
  returns := some { text := "the sum", children := [.paragraph "the sum"] }
  throws := some { text := "on overflow", children := [.paragraph "on overflow"] }

theorem parse_markup_of_plain_plainRecord :
    plainRecord.IsPlain ∧ standard.parse (some plainRecord.markup) = .ok plainRecord := by
  have hplain : plainRecord.IsPlain := {
    summary := by
      rintro _ ⟨⟩
      exact ⟨"Adds two numbers", rfl, by decide⟩
    discussion := by
      simp only [plainRecord, List.forall_mem_cons]
      exact ⟨⟨["the other", "and this one"], by decide, by decide⟩,
        show IsPlainLine "More about it".toList by decide, ⟨[], by simp, rfl⟩, by simp⟩
    opening := nofun
    parameters := by
      simp only [plainRecord, List.forall_mem_cons]
      exact ⟨⟨⟨by decide, by simp⟩, ["left", "right"], by decide, by decide +kernel⟩,
        ⟨⟨by decide, by simp⟩, [], by simp, rfl⟩, by simp⟩
    returns := by
      rintro _ ⟨⟩
      exact ⟨["the sum"], by decide, by decide +kernel⟩
    throws := by
      rintro _ ⟨⟩
      exact ⟨["on overflow"], by decide, by decide +kernel⟩ }
  exact ⟨hplain, parse_markup_of_plain hplain⟩

end SectionReader

end DocComment
