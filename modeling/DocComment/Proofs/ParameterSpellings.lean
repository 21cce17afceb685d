import DocComment.Proofs.Calls
import DocComment.Proofs.Destination
import DocComment.Proofs.FieldLayout

/-!
# The spellings of a parameter

A parameter is spelled behind an announcement (`- Parameter x: …`), behind a field named "Parameter"
(`- Parameter: x: …`), or as it is in a section (`- x: …`).  The second form splits a description
that has already flowed; the other two scan the source.  They agree since a name does not move when
the text that it opens flows (`Field.Reading.exists_flow`).

`SectionReader.parameter_spellings_agree` says that an item is read alike in all three, up to the
stage behind it.  Names that announce a parameter themselves are left out: without an announcement
in front of them they are read as the name behind their first word.
-/

namespace DocComment

open Text

namespace Field

/-! ## Plain readings -/

theorem Announcement.afterParameter?_text (a : Announcement) :
    afterParameter? a.text = some a.toReading.text :=
  afterParameter?_eq_some_iff.mpr ⟨a.word, a.gap, rfl, a.isWord, a.gap_ne_nil, a.gap_blank, by
    rw [Reading.head?_text]
    exact a.starts⟩

/-- Where a text that opens with something visible is read as an announced parameter, the name of
its plain reading announces. -/
theorem Reading.announces_of_text {r : Reading} {a : Announcement}
    (hstarts : ∀ c ∈ r.text.head?, isBlank c = false) (h : a.text = r.text) :
    Announces (flow r.name) := by
  have hafter := a.afterParameter?_text
  rw [h, Reading.text, afterParameter?_colon, Option.map_eq_some_iff] at hafter
  obtain ⟨bare, hbare, htext⟩ := hafter
  obtain ⟨word, gap, hname, hword, hgap, hblank, -⟩ := afterParameter?_eq_some_iff.mp hbare
  have hcolon (rest : List Char) : ∀ c ∈ (':' :: rest).head?, isNameChar c = false := by
    rintro _ ⟨⟩
    exact isNameChar_colon
  -- the name that is announced ends where the plain one does
  obtain ⟨rfl, -⟩ := append_run_inj
    (fun c hc => r.isName.isNameChar c (by rw [hname]; simp [hc])) a.isName.isNameChar
    (hcolon r.rest) (hcolon a.rest) htext
  obtain ⟨c, gap, rfl⟩ := List.exists_cons_of_ne_nil hgap
  rw [Reading.head?_text] at hstarts
  refine ⟨word, c, gap ++ trimEnd isBlank a.name, ?_, hword, hblank c List.mem_cons_self⟩
  rw [r.isName.flow_eq, trim_of_head hstarts, hname, ← List.append_assoc,
    trimEnd_append_of_visible _ a.isName.visible]
  simp

/-- A text states the field of its plain reading, if the name of that announces nothing. -/
theorem split?_of_text {text : String} {r : Reading} (htext : skipMarker text.toList = r.text)
    (hplain : ¬Announces (flow r.name)) : split? text = some r.field := by
  have hstarts := (isBody_skipMarker text.toList).head
  rw [htext] at hstarts
  rw [split?_eq_some_iff, htext]
  exact .inr ⟨fun ⟨a, ha⟩ => hplain (Reading.announces_of_text hstarts ha), r, rfl, rfl⟩

/-- **A name does not move when its text flows.**  The text of a reading flows to that of another
one, of the same name and field. -/
theorem Reading.exists_flow {r : Reading} (hstarts : ∀ c ∈ r.name.head?, isBlank c = false) :
    ∃ s : Reading, flow r.text = s.text ∧ s.name = r.name ∧ s.field = r.field := by
  have hcolon : isLineBreak ':' = false ∧ isBlank ':' = false := by decide
  have hunbroken : ∀ c ∈ r.name ++ [':'], isLineBreak c = false := by
    intro c hc
    rcases List.mem_append.mp hc with hc | hc
    · exact r.isName.unbroken c hc
    · rw [List.mem_singleton.mp hc]
      exact hcolon.1
  have hfirst : ∀ c ∈ (r.name ++ [':']).head?, isBlank c = false := by
    rwa [List.head?_append_of_ne_nil _ r.isName.ne_nil]
  obtain ⟨gap, hgap, hflow⟩ :=
    exists_flow_append (by simp) hunbroken hfirst (by simp [hcolon.2]) r.rest
  have hrest : flow (gap ++ flow r.rest) = flow r.rest := by
    rw [flow_append_of_isBlank hgap, flow_flow]
  refine ⟨⟨r.name, gap ++ flow r.rest, r.isName⟩, ?_, rfl, ?_⟩
  · rw [Reading.text, ← List.singleton_append, ← List.append_assoc, hflow]
    simp [Reading.text]
  · simp [Reading.field, Text.normalize, hrest]

/-! ## Texts on a bullet -/

theorem skipMarker_bullet (cs : List Char) :
    skipMarker ('-' :: ' ' :: cs) = cs.dropWhile isBlank := by
  have hbullet : isBlank '-' = false ∧ isMarker '-' = true := by decide
  simp [skipMarker, hbullet, isBlank_space]

/-- No list marker stands in a name. -/
theorem isMarker_of_isNameChar {c : Char} (h : isNameChar c = true) : isMarker c = false := by
  rw [Bool.eq_false_iff]
  intro hmarker
  simp only [isMarker, Bool.or_eq_true, beq_iff_eq] at hmarker
  rcases hmarker with (rfl | rfl) | rfl <;> exact absurd h (by decide)

/-- Nothing is skipped in front of a name. -/
theorem Reading.skipMarker_text {r : Reading} (hstarts : ∀ c ∈ r.name.head?, isBlank c = false) :
    skipMarker r.text = r.text := by
  have hbody : IsBody ([] ++ r.text) r.text := by
    refine .plain (by simp) fun c hc => ?_
    rw [Reading.head?_text] at hc
    exact ⟨hstarts c hc, isMarker_of_isNameChar (r.isName.isNameChar c (List.mem_of_mem_head? hc))⟩
  exact hbody.eq_skipMarker.symm

/-- Behind the announcement all blanks are skipped. -/
theorem afterParameter?_announcing_append (cs : List Char) :
    afterParameter? (announcing ++ cs) = some (cs.dropWhile isBlank) := by
  refine afterParameter?_eq_some_iff.mpr ⟨"Parameter".toList, ' ' :: cs.takeWhile isBlank, ?_,
    by decide, by simp, ?_, fun c hc => ?_⟩
  · rw [List.cons_append, List.takeWhile_append_dropWhile]
    rfl
  · exact List.forall_mem_cons.mpr ⟨isBlank_space, fun c hc => List.mem_takeWhile_imp hc⟩
  · have hhead := List.head?_dropWhile_not isBlank cs
    rw [Option.mem_def.mp hc] at hhead
    exact hhead

/-- What stands behind an announcement has a plain reading, of the same name and description. -/
theorem exists_reading_of_announced {rest : String} {field : Field}
    (h : split? ("- Parameter " ++ rest) = some field) (hparameter : field.isParameter = true) :
    ∃ r : Reading, rest.toList.dropWhile isBlank = r.text
      ∧ (∀ c ∈ r.name.head?, isBlank c = false) ∧ field = { r.field with isParameter := true } := by
  rcases split?_eq_some_iff.mp h with ⟨a, ha, rfl⟩ | ⟨-, r, -, rfl⟩
  · refine ⟨a.toReading, ?_, a.starts, rfl⟩
    have hbody : skipMarker ("- Parameter " ++ rest).toList = announcing ++ rest.toList := by
      rw [String.toList_append]
      show skipMarker ('-' :: ' ' :: (announcing ++ rest.toList)) = _
      rw [skipMarker_bullet]
      rfl
    have hafter := a.afterParameter?_text
    rw [ha, hbody, afterParameter?_announcing_append] at hafter
    exact Option.some.inj hafter
  · cases hparameter

/-- The word "Parameter" is a name, too. -/
theorem isNamePart_parameter : IsNamePart "Parameter".toList :=
  isNamePart_of_flow (fun c hc => List.all_eq_true.mp (by decide : _ = true) c hc)
    (by decide +kernel)

/-- Behind the name "Parameter" and a colon, the description is the whole text. -/
theorem split?_named (rest : String) :
    split? ("- Parameter: " ++ rest) = some {
      isParameter := false, name := "Parameter", description := normalize rest } := by
  let r : Reading := ⟨"Parameter".toList, ' ' :: rest.toList, isNamePart_parameter⟩
  have hname : flow r.name = "Parameter".toList := by
    show flow "Parameter".toList = _
    decide +kernel
  have hbody : skipMarker ("- Parameter: " ++ rest).toList = r.text := by
    rw [String.toList_append]
    show skipMarker ('-' :: ' ' :: ("Parameter: ".toList ++ rest.toList)) = _
    rw [skipMarker_bullet]
    rfl
  have hplain : ¬Announces (flow r.name) := by
    rw [hname, ← afterParameter?_eq_none_iff]
    decide
  have hspace : ∀ c ∈ [' '], isBlank c = true := by simp [isBlank_space]
  have hdescription : flow r.rest = flow rest.toList := flow_append_of_isBlank hspace rest.toList
  rw [split?_of_text hbody hplain]
  simp [Reading.field, Text.normalize, hname, hdescription]

/-- A description that has flowed states the field that its text stated. -/
theorem split?_normalize {rest : String} {r : Reading}
    (htext : rest.toList.dropWhile isBlank = r.text)
    (hstarts : ∀ c ∈ r.name.head?, isBlank c = false) (hplain : ¬Announces (flow r.name)) :
    split? (normalize rest) = some r.field := by
  obtain ⟨s, hflow, hname, hfield⟩ := r.exists_flow hstarts
  have hblank : ∀ c ∈ rest.toList.takeWhile isBlank, isBlank c = true :=
    fun c hc => List.mem_takeWhile_imp hc
  have hrest : flow rest.toList = s.text := by
    have hbehind := flow_append_of_isBlank hblank (rest.toList.dropWhile isBlank)
    rw [List.takeWhile_append_dropWhile, htext, hflow] at hbehind
    exact hbehind
  rw [← hname] at hstarts hplain
  have hbody : skipMarker (normalize rest).toList = s.text := by
    rw [Text.normalize, String.toList_ofList, hrest, Reading.skipMarker_text hstarts]
  rw [split?_of_text hbody hplain, hfield]

end Field

/-! ## Spellings -/

/-- The ways to spell a parameter: behind an announcement, behind a field of that name, and as it is
in a section. -/
inductive ParameterSpelling where
  | announced
  | named
  | bare

namespace ParameterSpelling

/-- The text of an item that states a parameter so; `rest` is the parameter's name, a colon, and
what is behind it. -/
def text (rest : String) : ParameterSpelling → String
  | announced => "- Parameter " ++ rest
  | named => "- Parameter: " ++ rest
  | bare => "- " ++ rest

/-- The stage in which a parameter is spelled so. -/
def stage : ParameterSpelling → Stage
  | announced => .discussion
  | named => .discussion
  | bare => .parameters

theorem takesItems_stage (spelling : ParameterSpelling) : spelling.stage.takesItems = true := by
  cases spelling <;> rfl

/-- **All spellings have one destination**, where the name announces nothing. -/
theorem destination_eq {rest : String} {field : Field}
    (h : Field.split? ("- Parameter " ++ rest) = some field) (hparameter : field.isParameter = true)
    (hname : ¬Field.Announces field.name.toList) (mayEnter : Bool) (spelling : ParameterSpelling) :
    Destination.ofField (spelling.stage == .parameters) mayEnter (Field.split? (spelling.text rest))
      = .parameter field.name field.description := by
  obtain ⟨r, htext, hstarts, rfl⟩ := Field.exists_reading_of_announced h hparameter
  have hplain : ¬Field.Announces (flow r.name) := by
    rw [← Field.Reading.toList_name]
    exact hname
  cases spelling with
  | announced =>
      show Destination.ofField false mayEnter (Field.split? ("- Parameter " ++ rest)) = _
      rw [h]
      rfl
  | named =>
      show Destination.ofField false mayEnter (Field.split? ("- Parameter: " ++ rest)) = _
      have hword : ({ isParameter := false, name := "Parameter", description := normalize rest }
          : Field).lowerName = "parameter" := by
        show String.ofList (lowerLetters "Parameter".toList) = _
        decide
      rw [Field.split?_named]
      show Destination.ofName mayEnter _ = _
      rw [Destination.ofName_parameter hword, Destination.ofParameterField,
        Field.split?_normalize htext hstarts hplain]
      rfl
  | bare =>
      have hbody : Field.skipMarker ("- " ++ rest).toList = r.text := by
        rw [String.toList_append]
        show Field.skipMarker ('-' :: ' ' :: rest.toList) = _
        rw [Field.skipMarker_bullet, htext]
      show Destination.ofField true mayEnter (Field.split? ("- " ++ rest)) = _
      rw [Field.split?_of_text hbody hplain]
      rfl

end ParameterSpelling

/-! ## Reading a parameter -/

/-- An item of one block, or of none, states the field of its text. -/
theorem ListItem.field?_of_single {item : ListItem} (h : item.children.length ≤ 1) :
    item.field? = Field.split? item.text := by
  rw [ListItem.field?, List.drop_eq_nil_iff.mpr h, Option.map_id']

namespace SectionReader

open Extraction

variable {ε : Type} (reader : SectionReader ε)

/-- The outcome of reading a parameter: one Markdown call, for its description, and on success one
parameter more in the record. -/
def parameterOutcome (name description : String) (stage : Stage) (progress : Progress) :
    Except (Failure ε) Stage × Progress :=
  match reader.markdown description with
  | .ok content =>
    (.ok stage, { progress with
      documentation := { progress.documentation with
        parameters := progress.documentation.parameters ++ [{ name, content }] }
      calls := progress.calls ++ [description] })
  | .error error =>
    (.error (.markdown error), { progress with calls := progress.calls ++ [description] })

/-- An item whose destination is a parameter is read as one. -/
theorem runFrom_visitItem_of_parameter {stage : Stage} {depth : Int} {item : ListItem}
    {name description : String} (htakes : stage.takesItems = true)
    (h : Destination.ofField (stage == .parameters) (depth < reader.maxDepth) item.field?
      = .parameter name description) (parent : ListBlock) (progress : Progress) :
    runFrom (reader.visitItem stage depth parent item) progress
      = reader.parameterOutcome name description stage progress := by
  obtain ⟨text, children⟩ := item
  rw [visitItem]
  simp only [htakes, h, addParameter, parameterOutcome]
  simp only [Bool.not_true, Bool.false_eq_true, if_false, bind_assoc, runFrom_bind,
    runFrom_markdown]
  cases reader.markdown description <;> rfl

/-- **The spellings of a parameter agree.**  Let `- Parameter rest` announce a parameter whose name
does not open with the word "parameter" and a blank.  Then an item of at most one block that spells
it in any of the three ways is read with one Markdown call, for the description.  If the description
is read, the parameter joins the record, and nothing else changes; if it is refused, that is the
failure, and the record stays as it was. -/
theorem parameter_spellings_agree {rest : String} {field : Field}
    (h : Field.split? ("- Parameter " ++ rest) = some field) (hparameter : field.isParameter = true)
    (hname : ¬Field.Announces field.name.toList) (spelling : ParameterSpelling) (depth : Int)
    (parent : ListBlock) {children : List Block} (hsingle : children.length ≤ 1)
    (progress : Progress) :
    runFrom (reader.visitItem spelling.stage depth parent ⟨spelling.text rest, children⟩) progress
      = reader.parameterOutcome field.name field.description spelling.stage progress := by
  refine reader.runFrom_visitItem_of_parameter spelling.takesItems_stage ?_ parent progress
  rw [ListItem.field?_of_single hsingle]
  exact ParameterSpelling.destination_eq h hparameter hname _ spelling

/-- A parameter whose name is the word itself, on lines of its own. -/
def ownWord : String := "\n  parameter\t:\n  a\r\n  b"

theorem parameter_spellings_agree_ownWord :
    Field.split? ("- Parameter " ++ ownWord) = some {
        isParameter := true, name := "parameter", description := "a b" }
      ∧ ¬Field.Announces "parameter".toList
      ∧ runFrom (refusing.visitItem .discussion 0 { kind := .bullet }
            { text := "- Parameter " ++ ownWord }) {}
          = refusing.parameterOutcome "parameter" "a b" .discussion {}
      ∧ runFrom (refusing.visitItem .discussion 0 { kind := .bullet }
            { text := "- Parameter: " ++ ownWord, children := [.paragraph "parameter"] }) {}
          = refusing.parameterOutcome "parameter" "a b" .discussion {}
      ∧ runFrom (refusing.visitItem .parameters 1 { kind := .bullet }
            { text := "- " ++ ownWord }) {}
          = refusing.parameterOutcome "parameter" "a b" .parameters {} := by
  have h : Field.split? ("- Parameter " ++ ownWord) = some {
      isParameter := true, name := "parameter", description := "a b" } := by decide +kernel
  have hname : ¬Field.Announces "parameter".toList := by
    rw [← Field.afterParameter?_eq_none_iff]
    decide
  exact ⟨h, hname,
    parameter_spellings_agree refusing h rfl hname .announced 0 _ (by decide) {},
    parameter_spellings_agree refusing h rfl hname .named 0 _ (by decide) {},
    parameter_spellings_agree refusing h rfl hname .bare 1 _ (by decide) {}⟩

end SectionReader

end DocComment
