import DocComment.Documentation.Markup
import DocComment.Proofs.ProseComment
import Mathlib

/-!
# The layout of fields

A field is written on a bullet, its text on the same line or below it.  Below it, the lines are
moved to the column of the bullet's content, blank lines become empty, and newlines at either end
are gone. None of this changes how the text flows, whatever breaks its lines (`flow_fieldBody`).

A field that was split off some text has a name without blanks around it, which announces nothing
unless it stands behind an announcement (`isFieldName_of_split?`, `not_announces_of_split?`).  With
these two facts a field that is written is split off again as it was: `split?_bulletOf`, and
`split?_layout` for callouts, too.
-/

namespace DocComment

open Text

/-! ## How a written text flows -/

theorem flowLines_padLine (indent : Nat) (line : List Char) :
    flowLines (Markup.padLine indent line) = flowLines line := by
  rw [Markup.padLine]
  split
  · next hblank => exact (flowLines_of_isBlank (by simpa using hblank)).symm
  · refine flowLines_append_of_isBlank (fun c hc => ?_) line
    rw [List.eq_of_mem_replicate hc]
    decide

/-- Newlines at either end add nothing. -/
theorem flowLines_trim_newline (cs : List Char) :
    flowLines (trim (· == '\n') cs) = flowLines cs := by
  obtain ⟨before, after, hcs, hbefore, hafter⟩ := exists_eq_trim (· == '\n') cs
  have hblank {newlines : List Char} (h : ∀ c ∈ newlines, (c == '\n') = true) :
      ∀ c ∈ newlines, isBlank c = true := fun c hc => by
    rw [beq_iff_eq.mp (h c hc)]
    decide
  generalize trim _ cs = middle at hcs ⊢
  rw [hcs, flowLines_append_of_isBlank (hblank hbefore)]
  cases after with
  | nil => rw [List.append_nil]
  | cons c after =>
      obtain ⟨hc, hafter⟩ := List.forall_mem_cons.mp hafter
      rw [flowLines_append_break (by rw [beq_iff_eq.mp hc]; decide),
        flowLines_of_isBlank (hblank hafter), List.append_nil]

/-- The lines of a text, moved and put below a bullet, flow as the text does. -/
theorem flowLines_moved (indent : Nat) (cs : List Char) :
    flowLines (joinNewlines ((splitNewlines cs).map (Markup.padLine indent))) = flowLines cs := by
  calc flowLines (joinNewlines ((splitNewlines cs).map (Markup.padLine indent)))
      = (splitNewlines cs).flatMap flowLines := by
        rw [flowLines_joinNewlines, List.flatMap_map]
        simp only [flowLines_padLine]
    _ = flowLines cs := by rw [← flowLines_joinNewlines, joinNewlines_splitNewlines]

/-- **A text flows as it stands in a field.** -/
theorem flow_fieldBody (indent : Nat) (text : String) :
    flow (Markup.fieldBody indent text).toList = flow text.toList := by
  have hlines : flowLines (Markup.fieldBody indent text).toList = flowLines text.toList := by
    rw [← flowLines_trim_newline text.toList, Markup.fieldBody]
    cases hbody : trim (· == '\n') text.toList with
    | nil => rfl
    | cons c cs =>
        simp only [List.isEmpty_cons, Bool.false_eq_true, if_false]
        split
        · rw [String.toList_ofList, flowLines_cons_of_isBlank (by decide),
            flowLines_cons_of_isBlank (by decide), flowLines_moved]
        · rw [String.toList_ofList, flowLines_cons_of_isBlank (by decide)]
  rw [flow_eq_intercalate, hlines, flow_eq_intercalate]

namespace Field

/-! ## The names of fields -/

/-- What flows from a name part is the name of a field. -/
theorem IsNamePart.isFieldName_flow {name : List Char} (h : IsNamePart name) :
    IsFieldName (flow name) where
  isNamePart := isNamePart_of_flow
    (fun c hc => h.isNameChar c (mem_of_mem_trim (h.flow_eq ▸ hc)))
    (by rw [flow_flow]; exact h.flow_ne_nil)
  first := (ends_flow name).1
  last := (ends_flow name).2

/-- Every field that is split off a text was read somewhere in it. -/
theorem exists_reading_of_split? {text : String} {field : Field} (h : split? text = some field) :
    ∃ r : Reading, field = { r.field with isParameter := field.isParameter } := by
  rcases split?_eq_some_iff.mp h with ⟨a, -, rfl⟩ | ⟨-, r, -, rfl⟩
  · exact ⟨a.toReading, rfl⟩
  · exact ⟨r, rfl⟩

theorem isFieldName_of_split? {text : String} {field : Field} (h : split? text = some field) :
    IsFieldName field.name.toList := by
  obtain ⟨r, hfield⟩ := exists_reading_of_split? h
  rw [hfield]
  exact r.toList_name ▸ r.isName.isFieldName_flow

/-- The announcement of a parameter, as it is written. -/
def announcing : List Char := "Parameter ".toList

theorem afterParameter?_announcing {name : List Char} (h : IsFieldName name) :
    afterParameter? (announcing ++ name) = some name :=
  afterParameter?_eq_some_iff.mpr
    ⟨"Parameter".toList, [' '], rfl, by decide, by simp,
      fun c hc => by rw [List.mem_singleton.mp hc]; decide, h.first⟩

theorem isNameChar_announcing : announcing.all isNameChar = true := by decide

theorem IsFieldName.announcing {name : List Char} (h : IsFieldName name) :
    IsFieldName (Field.announcing ++ name) where
  isNamePart := {
    chars := fun c hc => (List.mem_append.mp hc).elim
      (fun hc => isNameChar_iff.mp (List.all_eq_true.mp isNameChar_announcing c hc))
      (h.isNamePart.chars c)
    visible := ⟨'P', List.mem_append_left name (by decide), by decide⟩ }
  first := fun c hc => by
    obtain rfl := Option.mem_some.mp hc
    decide
  last := by
    rw [List.getLast?_append_of_ne_nil _ h.isNamePart.ne_nil]
    exact h.last

/-! ## Written fields -/

/-- A field on a bullet of its own, the announcement in front of the name of a parameter. -/
def bulletOf (isParameter : Bool) (name : String) (indent : Nat) (text : String) : String :=
  "- " ++ (if isParameter then String.ofList announcing else "") ++ Markup.field name indent text

/-- **A written field is split off as it was written**, if it has the name of a field, and without
an announcement a name that announces nothing. -/
theorem split?_bulletOf {isParameter : Bool} {name : String} (h : IsFieldName name.toList)
    (hplain : isParameter = false → ¬Announces name.toList) (indent : Nat) (text : String) :
    split? (bulletOf isParameter name indent text)
      = some { isParameter, name, description := normalize text } := by
  have hdescription : String.ofList (flow (Markup.fieldBody indent text).toList)
      = normalize text := by
    rw [flow_fieldBody, Text.normalize]
  cases isParameter with
  | true =>
      have htext : bulletOf true name indent text = String.ofList ('-' :: ' ' ::
          (announcing ++ name.toList ++ ':' :: (Markup.fieldBody indent text).toList)) := by
        rw [← String.toList_inj]
        simp [bulletOf, Markup.field]
      rw [htext, split?_bullet h.announcing, bareName, afterParameter?_announcing h, hdescription]
      simp
  | false =>
      have htext : bulletOf false name indent text = String.ofList ('-' :: ' ' ::
          (name.toList ++ ':' :: (Markup.fieldBody indent text).toList)) := by
        rw [← String.toList_inj]
        simp [bulletOf, Markup.field]
      rw [htext, split?_bullet_of_not_announces h (hplain rfl), hdescription, String.ofList_toList]

theorem split?_bulletOf_of_split? {text : String} {field : Field} (h : split? text = some field)
    (indent : Nat) (description : String) :
    split? (bulletOf field.isParameter field.name indent description)
      = some { isParameter := field.isParameter, name := field.name,
               description := normalize description } :=
  split?_bulletOf (isFieldName_of_split? h) (not_announces_of_split? h) indent description

theorem callout_markup (label : CalloutLabel) (content : String) :
    (Part.callout ⟨label, content⟩).markup = bulletOf false label.displayName 2 content := by
  simp [Part.markup, bulletOf]

/-- **The layout of fields is read back.**  Whatever text a field was split off, written on a bullet
with any description at any indentation it is split off again, with its announcement, its name, and
the description as flowing prose; with its own description it is the same field.  A callout is split
off as a field whose name is looked up to its label. -/
theorem split?_layout :
    (∀ text field, split? text = some field →
      (∀ indent description,
        split? (bulletOf field.isParameter field.name indent description)
          = some { isParameter := field.isParameter, name := field.name,
                   description := normalize description, hasBlocks := false })
      ∧ ∀ indent, split? (bulletOf field.isParameter field.name indent field.description)
          = some field)
    ∧ ∀ label content, ∃ name,
        split? (Part.callout ⟨label, content⟩).markup
          = some {
              isParameter := false, name, description := normalize content, hasBlocks := false }
        ∧ CalloutLabel.lookup? name = some label := by
  refine ⟨fun text field h => ⟨split?_bulletOf_of_split? h, fun indent => ?_⟩,
    fun label content => ⟨label.displayName, ?_, Event.lookup?_displayName label⟩⟩
  · obtain ⟨r, hfield⟩ := exists_reading_of_split? h
    have hdescription : normalize field.description = field.description := by
      rw [hfield]
      exact normalize_normalize (String.ofList r.rest)
    have hblocks : field.hasBlocks = false := by
      rw [hfield]
      rfl
    rw [split?_bulletOf_of_split? h, hdescription, ← hblocks]
  · rw [callout_markup]
    exact split?_bulletOf (isName_displayName label).isFieldName
      (fun _ => afterParameter?_eq_none_iff.mp (Event.afterParameter?_displayName label)) 2 content

/-- A parameter of two lines, written again four columns in. -/
theorem split?_layout_parameter :
    split? "* PARAMETER\n x : a\nb" = some {
      isParameter := true, name := "x", description := "a b" }
    ∧ split? (bulletOf true "x" 4 "c\n\r\n d \n") = some {
      isParameter := true, name := "x", description := "c d" } := by
  have h : split? "* PARAMETER\n x : a\nb" = some {
      isParameter := true, name := "x", description := "a b" } := by decide +kernel
  have hflows : normalize "c\n\r\n d \n" = "c d" := by decide +kernel
  have hlayout := (split?_layout.1 _ _ h).1 4 "c\n\r\n d \n"
  rw [hflows] at hlayout
  exact ⟨h, hlayout⟩

end Field

end DocComment
