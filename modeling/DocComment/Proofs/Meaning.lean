import DocComment.Markdown.Reader
import DocComment.Proofs.Event

/-!
# What a comment means

`Documentation.meaning` reads a record off the top-level blocks of a comment: the summary is the
paragraph at the start, and the rest is collected from the events of the other blocks, one field of
the record at a time.  No stage is threaded through, no builder is updated, and sections are not
entered.

`SectionReader.parse_eq_meaning` says that the section reader computes exactly this record whenever
no Markdown call of the run fails.  The runs themselves are settled before: `performAll_ok` for
events whose texts can all be read, and `readable_of_calls` for the step from the calls that a run
makes back to the events it performs.
-/

namespace DocComment

/-- Outcomes can be compared if errors and results can. -/
instance decidableEqOutcome {ε α : Type} [DecidableEq ε] [DecidableEq α] :
    DecidableEq (Except ε α)
  | .ok a, .ok b => decidable_of_iff (a = b) (by simp)
  | .error e, .error f => decidable_of_iff (e = f) (by simp)
  | .ok _, .error _ => .isFalse (by simp)
  | .error _, .ok _ => .isFalse (by simp)

/-! ## Reading a record off the events -/

namespace Event

/-- The discussion with the part that an event adds to it.  A folded item joins a list that ends the
discussion; otherwise it opens a list of its parent's kind and marker. -/
def extend (parts : List Part) : Event → List Part
  | .keep block => parts ++ [.block block]
  | .callout label content => parts ++ [.callout { label, content }]
  | .fold item parent _ =>
    match parts.getLast? with
    | some (.block (.list last)) => parts.dropLast ++ [.block (.list (last.push item))]
    | _ =>
      parts ++ [.block (.list { kind := parent.kind, items := [item], marker := parent.marker })]
  | _ => parts

/-- The parameter that an event states, its description read by `content`. -/
def parameter? (content : String → Document) : Event → Option Parameter
  | .parameter name description => some { name, content := content description }
  | _ => none

/-- The description of the returned value that an event states. -/
def returns? : Event → Option String
  | .returns description => some description
  | _ => none

/-- The description of the thrown errors that an event states. -/
def throws? : Event → Option String
  | .throws description => some description
  | _ => none

end Event

/-- The record that a sequence of events states.  Of several returns or throws fields the last one
counts. -/
def Documentation.ofEvents (content : String → Document) (summary : Option Block)
    (events : List Event) : Documentation where
  summary := summary
  discussion := events.foldl Event.extend []
  parameters := events.filterMap (Event.parameter? content)
  returns := (events.filterMap Event.returns?).getLast?.map content
  throws := (events.filterMap Event.throws?).getLast?.map content

/-- The record that the top-level blocks of a comment state, with descriptions read by `content`. -/
def Documentation.meaning (maxDepth : Int) (content : String → Document) (blocks : List Block) :
    Documentation :=
  let (summary, rest) := Block.splitSummary blocks
  ofEvents content summary (Event.ofBlocks maxDepth rest)

/-! ## What an event does to the progress -/

/-- The record after an event whose description is read by `content`. -/
def Event.apply (content : String → Document) (d : Documentation) : Event → Documentation
  | .keep block => d.addPart (.block block)
  | .fold item parent _ => d.fold item parent
  | .parameter name description => d.addParameter { name, content := content description }
  | .returns description => { d with returns := some (content description) }
  | .throws description => { d with throws := some (content description) }
  | .callout label text => d.addPart (.callout { label, content := text })

/-- The progress after an event. -/
def Progress.after (content : String → Document) (progress : Progress) (event : Event) :
    Progress where
  documentation := event.apply content progress.documentation
  calls := progress.calls ++ event.text?.toList
  log := progress.log ++ event.note?.toList

namespace Extraction

variable {ε α β : Type}

@[simp]
theorem runFrom_pure (a : α) (progress : Progress) :
    runFrom (pure a : Extraction ε α) progress = (.ok a, progress) := rfl

theorem runFrom_bind (step : Extraction ε α) (next : α → Extraction ε β) (progress : Progress) :
    runFrom (step >>= next) progress =
      match runFrom step progress with
      | (.ok a, after) => runFrom (next a) after
      | (.error failure, after) => (.error failure, after) := by
  simp only [runFrom, ExceptT.run_bind, StateT.run_bind]
  cases (ExceptT.run step).run progress with
  | mk outcome after => cases outcome <;> rfl

@[simp]
theorem runFrom_grow (change : Documentation → Documentation) (progress : Progress) :
    runFrom (grow change : Extraction ε Unit) progress
      = (.ok (), { progress with documentation := change progress.documentation }) := rfl

@[simp]
theorem runFrom_report (record : LogRecord) (progress : Progress) :
    runFrom (report record : Extraction ε Unit) progress
      = (.ok (), { progress with log := progress.log ++ [record] }) := rfl

/-- A Markdown call is recorded before its outcome counts. -/
theorem runFrom_markdown (read : String → Except ε Document) (text : String)
    (progress : Progress) :
    runFrom (markdown read text) progress =
      (match read text with
        | .ok document => .ok document
        | .error error => .error (.markdown error),
      { progress with calls := progress.calls ++ [text] }) := by
  rw [markdown, runFrom_bind]
  cases read text <;> rfl

end Extraction

namespace SectionReader

open Extraction

variable {ε : Type} (reader : SectionReader ε) {content : String → Document}

/-- An event whose text can be read, if it has one, is performed without fail. -/
theorem perform_ok (content : String → Document) {event : Event}
    (h : ∀ text ∈ event.text?, reader.markdown text = .ok (content text)) (progress : Progress) :
    runFrom (reader.perform event) progress = (.ok (), progress.after content event) := by
  cases event with
  | keep block => simp [perform, Progress.after, Event.apply, Event.text?, Event.note?]
  | callout label text => simp [perform, Progress.after, Event.apply, Event.text?, Event.note?]
  | fold item parent note =>
      cases note <;>
        simp [perform, Progress.after, Event.apply, Event.text?, Event.note?, runFrom_bind]
  | parameter name text | returns text | throws text =>
      have hread := h text (by simp [Event.text?])
      simp [perform, addParameter, runFrom_bind, runFrom_markdown, hread,
        Progress.after, Event.apply, Event.text?, Event.note?]

/-- An event whose text is refused fails with that refusal, and only the call remains of it. -/
theorem perform_error {event : Event} {text : String} {error : ε} (ht : event.text? = some text)
    (h : reader.markdown text = .error error) (progress : Progress) :
    runFrom (reader.perform event) progress
      = (.error (.markdown error), { progress with calls := progress.calls ++ [text] }) := by
  cases event with
  | keep | callout | fold => simp [Event.text?] at ht
  | parameter name description | returns description | throws description =>
      obtain rfl : description = text := by simpa [Event.text?] using ht
      simp [perform, addParameter, runFrom_bind, runFrom_markdown, h]

/-- The text of an event, if it has one, is read or refused. -/
theorem reads_or_refuses (text? : Option String) :
    (∃ content : String → Document, ∀ text ∈ text?, reader.markdown text = .ok (content text))
      ∨ ∃ text error, text? = some text ∧ reader.markdown text = .error error := by
  cases text? with
  | none => exact .inl ⟨fun text => { text }, by simp⟩
  | some text =>
      cases hread : reader.markdown text with
      | error error => exact .inr ⟨text, error, rfl, hread⟩
      | ok document => exact .inl ⟨fun _ => document, by simp [hread]⟩

/-- Events whose texts can all be read are performed one after the other. -/
theorem performAll_ok {events : List Event}
    (h : ∀ event ∈ events, ∀ text ∈ event.text?, reader.markdown text = .ok (content text))
    (progress : Progress) :
    runFrom (reader.performAll events) progress
      = (.ok (), events.foldl (Progress.after content) progress) := by
  induction events generalizing progress with
  | nil => rfl
  | cons event events ih =>
      rw [performAll_cons, runFrom_bind, perform_ok reader content (h event (by simp))]
      exact ih (fun other hm => h other (List.mem_cons_of_mem _ hm)) _

/-- Performing events takes no call back. -/
theorem calls_prefix_performAll (events : List Event) (progress : Progress) :
    progress.calls <+: (runFrom (reader.performAll events) progress).2.calls := by
  induction events generalizing progress with
  | nil => exact List.prefix_rfl
  | cons event events ih =>
      rw [performAll_cons, runFrom_bind]
      rcases reader.reads_or_refuses event.text? with ⟨content, hread⟩ | ⟨text, error, ht, hread⟩
      · rw [perform_ok reader content hread]
        have hafter : progress.calls <+: (progress.after content event).calls :=
          List.prefix_append _ _
        exact hafter.trans (ih _)
      · rw [perform_error reader ht hread]
        exact List.prefix_append _ _

/-- If every call of a run can be read, so can every text of the events that it performs: nothing
stops the run before the last of them. -/
theorem readable_of_calls {events : List Event} {progress : Progress}
    (h : ∀ text ∈ (runFrom (reader.performAll events) progress).2.calls,
      reader.markdown text = .ok (content text)) :
    ∀ event ∈ events, ∀ text ∈ event.text?, reader.markdown text = .ok (content text) := by
  induction events generalizing progress with
  | nil => simp
  | cons event events ih =>
      have hfirst : ∀ text ∈ event.text?, reader.markdown text = .ok (content text) := by
        intro text ht
        -- were it refused, its call would be the last one, and calls can be read
        apply h
        rw [performAll_cons, runFrom_bind]
        cases hread : reader.markdown text with
        | error error => simp [perform_error reader ht hread]
        | ok document =>
            rw [perform_ok reader (fun _ => document) (fun other ho => by
              rw [Option.mem_unique ho ht, hread])]
            apply (calls_prefix_performAll reader events _).subset
            simp [Progress.after, Option.mem_def.mp ht]
      rw [performAll_cons, runFrom_bind, perform_ok reader content hfirst] at h
      exact List.forall_mem_cons.mpr ⟨hfirst, ih h⟩

end SectionReader

/-! ## The record after a sequence of events -/

namespace Event

variable (content : String → Document) (events : List Event) (d : Documentation)

theorem foldl_after (progress : Progress) :
    (events.foldl (Progress.after content) progress).documentation
      = events.foldl (Event.apply content) progress.documentation := by
  induction events generalizing progress with
  | nil => rfl
  | cons event events ih => exact ih _

theorem apply_summary (event : Event) : (event.apply content d).summary = d.summary := by
  cases event <;> simp only [apply, Documentation.addPart, Documentation.addParameter,
    Documentation.fold]
  split <;> rfl

theorem apply_discussion (event : Event) :
    (event.apply content d).discussion = event.extend d.discussion := by
  cases event <;> simp only [apply, extend, Documentation.addPart, Documentation.addParameter,
    Documentation.fold]
  split <;> simp_all

theorem apply_parameters (event : Event) :
    (event.apply content d).parameters = d.parameters ++ (event.parameter? content).toList := by
  cases event <;> simp [apply, parameter?, Documentation.addPart, Documentation.addParameter,
    Documentation.fold]
  split <;> rfl

theorem apply_returns (event : Event) :
    (event.apply content d).returns = (event.returns?.map content).or d.returns := by
  cases event <;> simp [apply, returns?, Documentation.addPart, Documentation.addParameter,
    Documentation.fold]
  split <;> rfl

theorem apply_throws (event : Event) :
    (event.apply content d).throws = (event.throws?.map content).or d.throws := by
  cases event <;> simp [apply, throws?, Documentation.addPart, Documentation.addParameter,
    Documentation.fold]
  split <;> rfl

theorem foldl_apply_summary : (events.foldl (apply content) d).summary = d.summary := by
  induction events generalizing d with
  | nil => rfl
  | cons event events ih => rw [List.foldl_cons, ih, apply_summary]

theorem foldl_apply_discussion :
    (events.foldl (apply content) d).discussion = events.foldl extend d.discussion := by
  induction events generalizing d with
  | nil => rfl
  | cons event events ih => rw [List.foldl_cons, ih, apply_discussion, List.foldl_cons]

theorem foldl_apply_parameters :
    (events.foldl (apply content) d).parameters
      = d.parameters ++ events.filterMap (parameter? content) := by
  induction events generalizing d with
  | nil => simp
  | cons event events ih =>
      rw [List.foldl_cons, ih, apply_parameters, List.append_assoc]
      cases h : event.parameter? content <;> simp [h]

theorem foldl_apply_returns :
    (events.foldl (apply content) d).returns
      = ((events.filterMap returns?).getLast?.map content).or d.returns := by
  induction events generalizing d with
  | nil => simp
  | cons event events ih =>
      rw [List.foldl_cons, ih, apply_returns]
      cases h : event.returns? with
      | none => simp [h]
      | some text =>
          rw [List.filterMap_cons_some h, List.getLast?_cons]
          cases (events.filterMap returns?).getLast? <;> simp

theorem foldl_apply_throws :
    (events.foldl (apply content) d).throws
      = ((events.filterMap throws?).getLast?.map content).or d.throws := by
  induction events generalizing d with
  | nil => simp
  | cons event events ih =>
      rw [List.foldl_cons, ih, apply_throws]
      cases h : event.throws? with
      | none => simp [h]
      | some text =>
          rw [List.filterMap_cons_some h, List.getLast?_cons]
          cases (events.filterMap throws?).getLast? <;> simp

/-- Performed on a record that holds a summary at most, events leave the record that they state. -/
theorem foldl_apply_summary_only (summary : Option Block) :
    events.foldl (apply content) { summary } = Documentation.ofEvents content summary events := by
  have hs := foldl_apply_summary content events { summary }
  have hd := foldl_apply_discussion content events { summary }
  have hp := foldl_apply_parameters content events { summary }
  have hr := foldl_apply_returns content events { summary }
  have ht := foldl_apply_throws content events { summary }
  generalize events.foldl (apply content) { summary } = result at hs hd hp hr ht
  obtain ⟨summary', discussion, parameters, returns, throws⟩ := result
  simp_all [Documentation.ofEvents]

end Event

/-! ## Parsing is meaning -/

namespace SectionReader

open Extraction

variable {ε : Type} (reader : SectionReader ε) {content : String → Document}

theorem runFrom_summarize (summary : Option Block) (calls : List String) :
    runFrom (summarize summary : Extraction ε Unit) { calls }
      = (.ok (), { documentation := { summary }, calls }) := by
  cases summary <;> rfl

/-- A whole run on a text that can be read: the call for the text itself, the summary, the events of
the other blocks, and a closing log record. -/
theorem run_some {text : String} {document : Document} (h : reader.markdown text = .ok document) :
    reader.run (some text) =
      match runFrom
          (reader.performAll
            (Event.ofBlocks reader.maxDepth (Block.splitSummary document.children).2))
          { documentation := { summary := (Block.splitSummary document.children).1 }
            calls := [text] } with
      | (.ok (), after) =>
        (.ok after.documentation, { after with
          log := after.log ++ [.finished after.documentation.discussion.length
            after.documentation.parameters.length] })
      | (.error failure, after) => (.error failure, after) := by
  rw [run, visitComment, runFrom_bind, runFrom_markdown, h]
  simp only [List.nil_append]
  rw [visitBlocks_initial, runFrom_bind, runFrom_summarize]
  simp only
  rw [runFrom_bind]
  generalize runFrom (reader.performAll _) _ = result
  obtain ⟨outcome | _, after⟩ := result <;> rfl

/-- A text that is refused ends the run at once. -/
theorem run_some_error {text : String} {error : ε} (h : reader.markdown text = .error error) :
    reader.run (some text) = (.error (.markdown error), { calls := [text] }) := by
  rw [run, visitComment, runFrom_bind, runFrom_markdown, h]
  rfl

/-- The calls of a run are those of its events, behind the call for the text itself. -/
theorem run_some_calls {text : String} {document : Document}
    (h : reader.markdown text = .ok document) :
    (reader.run (some text)).2.calls =
      (runFrom
        (reader.performAll
          (Event.ofBlocks reader.maxDepth (Block.splitSummary document.children).2))
        { documentation := { summary := (Block.splitSummary document.children).1 }
          calls := [text] }).2.calls := by
  rw [run_some reader h]
  split <;> simp_all

/-- A text that can be read, with events whose texts can all be read, is parsed as what its blocks
mean. -/
theorem parse_of_readable {text : String} {document : Document}
    (hread : reader.markdown text = .ok document)
    (h : ∀ event ∈ Event.ofBlocks reader.maxDepth (Block.splitSummary document.children).2,
      ∀ called ∈ event.text?, reader.markdown called = .ok (content called)) :
    reader.parse (some text)
      = .ok (Documentation.meaning reader.maxDepth content document.children) := by
  rw [parse, run_some reader hread, performAll_ok reader h]
  simp only [Event.foldl_after, Event.foldl_apply_summary_only]
  rfl

/-- **Parsing is meaning.** Let `content` give the documents of all texts that a run hands to the
Markdown reader, so that no call of it fails.  Then the run succeeds, and its record is the one that
can be read off the blocks of the comment without any stage. -/
theorem parse_eq_meaning (text : String)
    (h : ∀ called ∈ (reader.run (some text)).2.calls,
      reader.markdown called = .ok (content called)) :
    reader.parse (some text)
      = .ok (Documentation.meaning reader.maxDepth content (content text).children) := by
  cases hread : reader.markdown text with
  | error error =>
      rw [run_some_error reader hread] at h
      simp [hread] at h
  | ok document =>
      rw [run_some_calls reader hread] at h
      have hcalled := (calls_prefix_performAll reader
        (Event.ofBlocks reader.maxDepth (Block.splitSummary document.children).2)
        { documentation := { summary := (Block.splitSummary document.children).1 }
          calls := [text] }).subset (List.mem_singleton_self text)
      obtain rfl : content text = document := by
        simpa [hread] using (h text hcalled).symm
      exact parse_of_readable reader hread (readable_of_calls reader h)

/-- The section reader over the Markdown reader, both with the limits they have by default. -/
def standard : SectionReader Markdown.ReadError where
  markdown := Markdown.read Markdown.defaultLimit

/-- A comment with a section, loose items inside and outside of it, and a field that is stated
twice. -/
def sectionsComment : String :=
  "Adds.\n\n- Parameters:\n  - x: first\n  - loose\n- Odd: one\n- Parameter: y: second\n"
    ++ "- Returns: wrong\n- Returns: sum\n- note: Fast."

/-- The document of a text as the standard section reader reads it. -/
def standardContent (text : String) : Document :=
  ((standard.markdown text).toOption).getD { text }

theorem parse_eq_meaning_sectionsComment :
    (∀ called ∈ (standard.run (some sectionsComment)).2.calls,
        standard.markdown called = .ok (standardContent called))
      ∧ standard.parse (some sectionsComment) = .ok {
          summary := some (.paragraph "Adds.")
          discussion := [
            .block (.list { kind := .bullet, items := [
              { text := "- loose", children := [.paragraph "loose"] },
              { text := "- Odd: one", children := [.paragraph "Odd: one"] }] }),
            .callout { label := .note, content := "Fast." }]
          parameters := [
            { name := "x", content := { text := "first", children := [.paragraph "first"] } },
            { name := "y", content := { text := "second", children := [.paragraph "second"] } }]
          returns := some { text := "sum", children := [.paragraph "sum"] } } := by
  have hcalls : ∀ called ∈ (standard.run (some sectionsComment)).2.calls,
      standard.markdown called = .ok (standardContent called) := by decide +kernel
  refine ⟨hcalls, (parse_eq_meaning standard sectionsComment hcalls).trans ?_⟩
  exact congrArg Except.ok (by decide +kernel)

end SectionReader

end DocComment
