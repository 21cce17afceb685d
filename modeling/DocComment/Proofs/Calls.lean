import DocComment.Proofs.Meaning
import Mathlib.Data.List.Basic

/-!
# The calls of a run

A run hands texts to the Markdown reader: the comment itself, and then the descriptions that stand
in it.  `SectionReader.texts` lists them in document order, read off the blocks of the comment
alone.

* `HandsOver` is what a run may do with such a list: hand over all of it and succeed, or stop at the
  first text that is refused and fail with that refusal.
* `performAll_handsOver` says so of a sequence of events, from any progress; it is one step for each
  event, and a step hands over one text at most.
* `visitBlocks_initial_ends`: from the start on, the stage behind a block is the discussion, so that
  no block and no item is met in a stage that does not expect it.

`run_calls_exact` puts these together for whole runs.
-/

namespace DocComment

namespace SectionReader

open Extraction

variable {ε : Type} (reader : SectionReader ε)

/-! ## Texts that are handed over -/

/-- Whether the Markdown reader reads a text. -/
def Reads (text : String) : Prop :=
  ∃ document, reader.markdown text = .ok document

/-- The texts that a comment has read: itself and, in document order, the descriptions of its
parameters, returns and throws fields. -/
def texts (text : String) : List String :=
  text ::
    match reader.markdown text with
    | .ok document =>
      (Event.ofBlocks reader.maxDepth (Block.splitSummary document.children).2).filterMap
        Event.text?
    | .error _ => []

/-- Texts are handed over in order.  Either one of them is refused: then it is the last one that is
called for, and its refusal is the outcome.  Or all of them are read, each is called for once, and
there is a result. -/
def HandsOver {α : Type} (texts called : List String) (outcome : Except (Failure ε) α) : Prop :=
  (∃ before refused after error,
      texts = before ++ refused :: after
        ∧ (∀ text ∈ before, reader.Reads text)
        ∧ reader.markdown refused = .error error
        ∧ called = before ++ [refused]
        ∧ outcome = .error (.markdown error))
    ∨ ((∀ text ∈ texts, reader.Reads text) ∧ called = texts ∧ ∃ result, outcome = .ok result)

variable {reader}

theorem HandsOver.refused {α : Type} {text : String} {error : ε}
    (h : reader.markdown text = .error error) (texts : List String) :
    reader.HandsOver (α := α) (text :: texts) [text] (.error (.markdown error)) :=
  .inl ⟨[], text, texts, error, rfl, by simp, h, rfl, rfl⟩

theorem HandsOver.cons {α : Type} {text : String} {texts called : List String}
    {outcome : Except (Failure ε) α} (hread : reader.Reads text)
    (h : reader.HandsOver texts called outcome) :
    reader.HandsOver (text :: texts) (text :: called) outcome := by
  rcases h with ⟨before, refused, after, error, rfl, hbefore, herror, rfl, rfl⟩ | ⟨hall, rfl, hok⟩
  · exact .inl ⟨text :: before, refused, after, error, rfl,
      List.forall_mem_cons.mpr ⟨hread, hbefore⟩, herror, rfl, rfl⟩
  · exact .inr ⟨List.forall_mem_cons.mpr ⟨hread, hall⟩, rfl, hok⟩

/-- Where there is a result, every text was read. -/
theorem HandsOver.reads {α : Type} {texts called : List String} {result : α}
    (h : reader.HandsOver texts called (.ok result)) : ∀ text ∈ texts, reader.Reads text := by
  rcases h with ⟨before, refused, after, error, -, -, -, -, houtcome⟩ | ⟨hall, -, -⟩
  · cases houtcome
  · exact hall

/-- The only failures are refusals. -/
theorem HandsOver.ne_misuse {α : Type} {texts called : List String}
    {outcome : Except (Failure ε) α} (h : reader.HandsOver texts called outcome)
    (misuse : Stage.Misuse) : outcome ≠ .error (.misuse misuse) := by
  rcases h with ⟨before, refused, after, error, -, -, -, -, rfl⟩ | ⟨-, -, result, rfl⟩ <;> simp

/-- The result may be replaced by another one. -/
theorem HandsOver.map {α β : Type} {texts called : List String} {outcome : Except (Failure ε) α}
    (h : reader.HandsOver texts called outcome) (f : α → β) :
    reader.HandsOver texts called (outcome.map f) := by
  rcases h with ⟨before, refused, after, error, htexts, hbefore, herror, hcalled, rfl⟩
    | ⟨hall, hcalled, result, rfl⟩
  · exact .inl ⟨before, refused, after, error, htexts, hbefore, herror, hcalled, rfl⟩
  · exact .inr ⟨hall, hcalled, f result, rfl⟩

variable (reader)

/-! ## Events hand over their texts -/

/-- Events that are performed from any progress hand over their texts in order. -/
theorem performAll_handsOver (events : List Event) (progress : Progress) :
    ∃ called,
      (runFrom (reader.performAll events) progress).2.calls = progress.calls ++ called
        ∧ reader.HandsOver (events.filterMap Event.text?) called
            (runFrom (reader.performAll events) progress).1 := by
  induction events generalizing progress with
  | nil => exact ⟨[], (List.append_nil _).symm, .inr ⟨by simp, rfl, (), rfl⟩⟩
  | cons event events ih =>
      rw [performAll_cons, runFrom_bind]
      cases htext : event.text? with
      | none =>
          -- an event without a text leaves the calls as they are
          rw [perform_ok reader (fun text => { text }) (by simp [htext]),
            List.filterMap_cons_none htext]
          obtain ⟨called, hcalls, houtcome⟩ := ih (progress.after (fun text => { text }) event)
          exact ⟨called, by simpa [Progress.after, htext] using hcalls, houtcome⟩
      | some text =>
          rw [List.filterMap_cons_some htext]
          cases hread : reader.markdown text with
          | error error =>
              rw [perform_error reader htext hread]
              exact ⟨[text], rfl, .refused hread _⟩
          | ok document =>
              rw [perform_ok reader (fun _ => document) (by simp [htext, hread])]
              obtain ⟨called, hcalls, houtcome⟩ := ih (progress.after (fun _ => document) event)
              exact ⟨text :: called, by simpa [Progress.after, htext] using hcalls,
                houtcome.cons ⟨document, hread⟩⟩

/-! ## The stage behind a block -/

/-- From the start on, a visit of blocks ends in the discussion. -/
theorem visitBlocks_initial_ends (block : Block) (blocks : List Block) :
    ∃ steps : Extraction ε Unit,
      reader.visitBlocks .initial (block :: blocks) = steps >>= fun _ => pure .discussion := by
  cases hparagraph : block.isParagraph with
  | false =>
      refine ⟨reader.performAll (Event.ofBlocks reader.maxDepth (block :: blocks)), ?_⟩
      rw [← visitBlocks_discussion, visitBlocks, visitBlocks,
        visitBlock_initial_of_not_paragraph reader hparagraph]
  | true =>
      refine ⟨grow ({ · with summary := some block }) >>= fun _ =>
        reader.performAll (Event.ofBlocks reader.maxDepth blocks), ?_⟩
      simp [visitBlocks, visitBlock, Stage.opening, hparagraph, visitBlocks_discussion]

theorem visitBlocks_append (stage : Stage) (before after : List Block) :
    reader.visitBlocks stage (before ++ after)
      = reader.visitBlocks stage before >>= fun reached => reader.visitBlocks reached after := by
  induction before generalizing stage with
  | nil => simp [visitBlocks]
  | cons block before ih => simp [visitBlocks, ih]

/-- Behind the first block, every block is visited in the discussion. -/
theorem visitBlocks_initial_behind {before : List Block} (h : before ≠ []) (after : List Block) :
    reader.visitBlocks .initial (before ++ after)
      = reader.visitBlocks .initial before >>= fun _ => reader.visitBlocks .discussion after := by
  obtain ⟨first, before, rfl⟩ := List.exists_cons_of_ne_nil h
  obtain ⟨steps, hsteps⟩ := visitBlocks_initial_ends reader first before
  rw [visitBlocks_append, hsteps]
  simp

/-! ## Whole runs -/

/-- The calls and the outcome of a run follow the texts of its comment. -/
theorem run_handsOver (text : String) :
    reader.HandsOver (reader.texts text) (reader.run (some text)).2.calls
      (reader.parse (some text)) := by
  rw [parse, texts]
  cases hread : reader.markdown text with
  | error error =>
      rw [run_some_error reader hread]
      exact .refused hread _
  | ok document =>
      rw [run_some_calls reader hread, run_some reader hread]
      obtain ⟨called, hcalls, houtcome⟩ := performAll_handsOver reader
        (Event.ofBlocks reader.maxDepth (Block.splitSummary document.children).2)
        { documentation := { summary := (Block.splitSummary document.children).1 }
          calls := [text] }
      rw [hcalls]
      have hall := houtcome.cons ⟨document, hread⟩
      -- the run closes with a log record, which changes neither the calls nor a failure
      generalize runFrom (reader.performAll _) _ = result at hall
      obtain ⟨outcome, after⟩ := result
      cases outcome with
      | ok done => exact hall.map fun _ => after.documentation
      | error failure => exact hall.map fun _ => after.documentation

/-- **The calls of a run are exactly determined.**  A run hands over the texts of its comment in
order, up to the first that is refused, and fails with just that refusal; if none is refused it
hands over all of them and succeeds.  It never meets a stage that is not expected: whatever blocks
stand before a block, at least one, it is visited in the discussion. -/
theorem run_calls_exact (text : String) :
    reader.HandsOver (reader.texts text) (reader.run (some text)).2.calls (reader.parse (some text))
      ∧ (∀ misuse, reader.parse (some text) ≠ .error (.misuse misuse))
      ∧ ∀ before block after, before ≠ [] →
          reader.visitBlocks .initial (before ++ block :: after)
            = reader.visitBlocks .initial before >>= fun _ =>
                reader.visitBlock .discussion block >>= fun stage =>
                  reader.visitBlocks stage after := by
  refine ⟨run_handsOver reader text, (run_handsOver reader text).ne_misuse, ?_⟩
  intro before block after hbefore
  rw [visitBlocks_initial_behind reader hbefore]
  rfl

/-- A reader that refuses one description. -/
def refusing : SectionReader String where
  markdown text :=
    if text = "nothing" then .error "refused"
    else (Markdown.read Markdown.defaultLimit text).mapError fun _ => "unreadable"

/-- A comment with a callout, two fields, a folded item and a section. -/
def fieldsComment : String :=
  "Adds.

- Note: Fast.
- Returns: sum
- loose
- Throws: nothing
- Parameters:
  - x: first"

theorem run_calls_exact_refusing :
    refusing.texts fieldsComment = [fieldsComment, "sum", "nothing", "first"]
      ∧ refusing.HandsOver [fieldsComment, "sum", "nothing", "first"]
          [fieldsComment, "sum", "nothing"] (refusing.parse (some fieldsComment))
      ∧ refusing.parse (some fieldsComment) = .error (.markdown "refused") := by
  have htexts : refusing.texts fieldsComment = [fieldsComment, "sum", "nothing", "first"] := by
    decide +kernel
  have hcalls : (refusing.run (some fieldsComment)).2.calls
      = [fieldsComment, "sum", "nothing"] := by decide +kernel
  have hrun := (run_calls_exact refusing fieldsComment).1
  rw [htexts, hcalls] at hrun
  exact ⟨htexts, hrun, by decide +kernel⟩

/-! ## Runs that succeed -/

/-- The document of a text that is read. -/
def content (text : String) : Document :=
  ((reader.markdown text).toOption).getD { text }

variable {reader}

theorem Reads.markdown_eq {text : String} (h : reader.Reads text) :
    reader.markdown text = .ok (reader.content text) := by
  obtain ⟨document, hread⟩ := h
  rw [content, hread]
  rfl

/-- A run that succeeds gives what the blocks of its comment mean. -/
theorem parse_ok {text : String} {d : Documentation} (h : reader.parse (some text) = .ok d) :
    ∃ document, reader.markdown text = .ok document
      ∧ d = Documentation.meaning reader.maxDepth reader.content document.children := by
  have hrun := run_handsOver reader text
  rw [h] at hrun
  have hreads := hrun.reads
  obtain ⟨document, hread⟩ := hreads text List.mem_cons_self
  refine ⟨document, hread, ?_⟩
  have hevents : ∀ event ∈ Event.ofBlocks reader.maxDepth (Block.splitSummary document.children).2,
      ∀ called ∈ event.text?, reader.markdown called = .ok (reader.content called) := by
    intro event hevent called hcalled
    refine (hreads called ?_).markdown_eq
    rw [texts, hread]
    exact List.mem_cons_of_mem text (List.mem_filterMap.mpr ⟨event, hevent, hcalled⟩)
  rw [parse_of_readable reader hread hevents] at h
  exact (Except.ok.inj h).symm

end SectionReader

end DocComment
