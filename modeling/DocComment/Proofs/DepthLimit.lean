import DocComment.Proofs.Calls
import DocComment.Proofs.Destination
import Mathlib.Data.List.Basic

/-!
# The depth limit

`SectionReader.maxDepth` says how many sections may be entered one inside the other.  It is compared
at every item, with the number of sections around it, but inside a section no further one can open:
what counts is whether the first comparison lets a section open at all, and that is the sign of the
limit.

* Above zero a comment has the same events for every limit (`Event.ofBlocks_of_pos`), and no item is
  too deep, so the warning is never written (`Event.note?_ne_warning`).
* At zero and below, the events differ in that warning only (`Event.map_detach_ofBlocks`), which is
  written down and has no other effect (`performAll_detach`).
* Inside a section the limit and the depth play no part (`visitList_parameters`).
-/

namespace DocComment

/-! ## Destinations for two limits -/

/-- An item is too deep only where no section may be entered, and opens one only where it may. -/
theorem Destination.ofField_section (inSection mayEnter : Bool) (stated : Option Field) :
    (ofField inSection mayEnter stated = .tooDeep → mayEnter = false)
      ∧ (ofField inSection mayEnter stated = .parameters → mayEnter = true) := by
  unfold ofField
  split
  · simp
  next field =>
    split_ifs
    · simp
    obtain ⟨name, description, hparameter, -⟩ := SectionReader.ofParameterField_agrees field
    unfold ofName
    rw [hparameter]
    dsimp only
    split_ifs
    · simp_all
    · simp_all
    · simp
    · simp
    · simp
    · split <;> simp

namespace ListItem

/-- The parameter that an item states itself, whatever stands in it. -/
def parameter? (content : String → Document) (item : ListItem) : Option Parameter :=
  match Destination.ofField false false item.field? with
  | .parameter name description => some { name, content := content description }
  | _ => none

/-- Above zero, no item is too deep. -/
theorem destination_ne_tooDeep {m : Int} (hm : 0 < m) (item : ListItem) :
    item.destination m ≠ .tooDeep := by
  intro h
  have hclosed := (Destination.ofField_section _ _ _).1 h
  simp [hm] at hclosed

/-- At zero and below, no item opens a section. -/
theorem destination_ne_parameters {m : Int} (hm : m ≤ 0) (item : ListItem) :
    item.destination m ≠ .parameters := by
  intro h
  have hopen := (Destination.ofField_section _ _ _).2 h
  simp only [decide_eq_true_eq] at hopen
  omega

/-- The destination of an item depends on the sign of the limit. -/
theorem destination_eq_of_iff {m n : Int} (h : 0 < m ↔ 0 < n) (item : ListItem) :
    item.destination m = item.destination n := by
  unfold destination
  simp only [h]

end ListItem

/-! ## Events for two limits -/

namespace Event

/-- Above zero, every limit leads to the same events. -/
theorem ofItem_of_pos {m n : Int} (hm : 0 < m) (hn : 0 < n) (parent : ListBlock)
    (item : ListItem) : ofItem m 0 parent item = ofItem n 0 parent item := by
  have hsign : 0 < m ↔ 0 < n := ⟨fun _ => hn, fun _ => hm⟩
  rw [ofItem_eq, ofItem_eq, ListItem.destination_eq_of_iff hsign]
  cases hdestination : item.destination n with
  | tooDeep => exact absurd hdestination (item.destination_ne_tooDeep hn)
  | _ => rfl

theorem ofBlocks_of_pos {m n : Int} (hm : 0 < m) (hn : 0 < n) (blocks : List Block) :
    ofBlocks m blocks = ofBlocks n blocks := by
  unfold ofBlocks
  refine List.flatMap_congr fun block _ => ?_
  unfold ofBlock
  cases block.bulletList? with
  | none => rfl
  | some list => exact List.flatMap_congr fun item _ => ofItem_of_pos hm hn list item

/-- Limits of one sign lead to the same events, but for the warnings. -/
theorem map_detach_ofBlocks {m n : Int} (h : 0 < m ↔ 0 < n) (blocks : List Block) :
    (ofBlocks m blocks).map detach = (ofBlocks n blocks).map detach := by
  unfold ofBlocks
  rw [List.map_flatMap, List.map_flatMap]
  refine List.flatMap_congr fun block _ => ?_
  unfold ofBlock
  cases block.bulletList? with
  | none => rfl
  | some list =>
      show (list.items.flatMap (ofItem m 0 list)).map detach
        = (list.items.flatMap (ofItem n 0 list)).map detach
      rw [List.map_flatMap, List.map_flatMap]
      refine List.flatMap_congr fun item _ => ?_
      rw [ofItem_eq, ofItem_eq, ListItem.destination_eq_of_iff h]
      cases item.destination n <;> rfl

/-- The events of a section write nothing down. -/
theorem note?_of_mem_ofSection {blocks : List Block} :
    ∀ event ∈ ofSection blocks, event.note? = none := by
  intro event hevent
  obtain ⟨list, -, hitem⟩ := List.mem_flatMap.mp hevent
  obtain ⟨item, -, rfl⟩ := List.mem_map.mp hitem
  unfold ofSectionItem
  split <;> rfl

/-- Above zero, no event writes a warning down. -/
theorem note?_ne_warning {m : Int} (hm : 0 < m) {blocks : List Block} :
    ∀ event ∈ ofBlocks m blocks, ∀ record ∈ event.note?, record.severity ≠ .warning := by
  intro event hevent record hrecord
  obtain ⟨block, -, hblock⟩ := List.mem_flatMap.mp hevent
  unfold ofBlock at hblock
  split at hblock
  next list _ =>
    obtain ⟨item, -, hitem⟩ := List.mem_flatMap.mp hblock
    rw [ofItem_eq] at hitem
    cases hdestination : item.destination m with
    | tooDeep => exact absurd hdestination (item.destination_ne_tooDeep hm)
    | parameters =>
        rw [hdestination] at hitem
        rw [note?_of_mem_ofSection event hitem] at hrecord
        cases hrecord
    | unrecognized name =>
        rw [hdestination] at hitem
        obtain rfl := List.mem_singleton.mp hitem
        obtain rfl := Option.mem_some.mp hrecord
        simp [LogRecord.severity]
    | _ =>
        rw [hdestination] at hitem
        obtain rfl := List.mem_singleton.mp hitem
        cases hrecord
  next =>
    obtain rfl := List.mem_singleton.mp hblock
    cases hrecord

/-- Where no section may be entered, every parameter is stated by an item of a top-level list, and
none by the items in it. -/
theorem filterMap_parameter?_ofBlocks {m : Int} (hm : m ≤ 0) (content : String → Document)
    (blocks : List Block) :
    (ofBlocks m blocks).filterMap (parameter? content)
      = ((blocks.filterMap Block.bulletList?).flatMap ListBlock.items).filterMap
          (ListItem.parameter? content) := by
  have hitem (parent : ListBlock) (item : ListItem) :
      (ofItem m 0 parent item).filterMap (parameter? content)
        = (item.parameter? content).toList := by
    have hnone := item.destination_ne_parameters hm
    have hclosed : decide (0 < m) = false := decide_eq_false (by omega)
    rw [ofItem_eq, ListItem.parameter?]
    unfold ListItem.destination at hnone ⊢
    rw [hclosed] at hnone ⊢
    cases hdestination : Destination.ofField false false item.field? with
    | parameters => exact absurd hdestination hnone
    | _ => rfl
  induction blocks with
  | nil => rfl
  | cons block blocks ih =>
      rw [ofBlocks_cons, List.filterMap_append, ih, ofBlock]
      cases hlist : block.bulletList? with
      | none => simp [hlist, parameter?]
      | some list =>
          rw [List.filterMap_cons_some hlist, List.flatMap_cons, List.filterMap_append,
            List.filterMap_flatMap]
          have hitems : list.items.flatMap (fun item => (ofItem m 0 list item).filterMap
              (parameter? content)) = list.items.filterMap (ListItem.parameter? content) := by
            rw [List.filterMap_eq_flatMap_toList]
            exact List.flatMap_congr fun item _ => hitem list item
          rw [hitems]

end Event

/-! ## Runs that differ in their log -/

/-- Progress that is the same but for the log. -/
structure Progress.SameButLog (progress other : Progress) : Prop where
  documentation : progress.documentation = other.documentation
  calls : progress.calls = other.calls

theorem Progress.SameButLog.refl (progress : Progress) : progress.SameButLog progress :=
  ⟨rfl, rfl⟩

namespace SectionReader

open Extraction

variable {ε : Type} (reader : SectionReader ε)

/-- The same reader with another limit. -/
def withLimit (maxDepth : Int) : SectionReader ε :=
  { reader with maxDepth }

@[simp]
theorem maxDepth_withLimit (m : Int) : (reader.withLimit m).maxDepth = m := rfl

@[simp]
theorem markdown_withLimit (m : Int) : (reader.withLimit m).markdown = reader.markdown := rfl

/-- Events are performed without looking at the limit. -/
theorem performAll_withLimit (m : Int) (events : List Event) :
    (reader.withLimit m).performAll events = reader.performAll events := by
  have hperform : (reader.withLimit m).perform = reader.perform := by
    funext event
    cases event with
    | fold item parent note => cases note <;> rfl
    | _ => rfl
  unfold performAll
  rw [hperform]

/-- Events that differ in what they write down only are performed alike from progress with the same
documentation: with the same outcome, to the same documentation, and by the same calls. -/
theorem performAll_alike {events others : List Event}
    (h : events.map Event.detach = others.map Event.detach) {progress other : Progress}
    (hsame : progress.documentation = other.documentation) :
    (runFrom (reader.performAll events) progress).1 = (runFrom (reader.performAll others) other).1
      ∧ (runFrom (reader.performAll events) progress).2.documentation
        = (runFrom (reader.performAll others) other).2.documentation
      ∧ ∃ called, (runFrom (reader.performAll events) progress).2.calls = progress.calls ++ called
        ∧ (runFrom (reader.performAll others) other).2.calls = other.calls ++ called := by
  induction events generalizing others progress other with
  | nil =>
      obtain rfl : others = [] := by simpa using h.symm
      exact ⟨rfl, hsame, [], (List.append_nil _).symm, (List.append_nil _).symm⟩
  | cons event events ih =>
      obtain ⟨second, others, rfl, hevent, hevents⟩ := List.map_eq_cons_iff.mp h.symm
      have htext : second.text? = event.text? := by
        have hdetach (e : Event) : e.detach.text? = e.text? := by cases e <;> rfl
        rw [← hdetach second, hevent, hdetach]
      rw [performAll_cons, performAll_cons, runFrom_bind, runFrom_bind]
      -- either both texts are read, or both are refused
      rcases reader.reads_or_refuses event.text? with ⟨content, hread⟩ | ⟨text, error, hcase, hread⟩
      · have hafter : (progress.after content event).documentation
            = (other.after content second).documentation := by
          show event.apply content progress.documentation = second.apply content other.documentation
          rw [← Event.apply_detach, ← hevent, Event.apply_detach, hsame]
        obtain ⟨houtcome, hdocumentation, called, hcalls, hothers⟩ := ih hevents.symm hafter
        rw [perform_ok reader content hread, perform_ok reader content (htext ▸ hread)]
        refine ⟨houtcome, hdocumentation, event.text?.toList ++ called, ?_, ?_⟩
        · rw [← List.append_assoc]
          exact hcalls
        · rw [← List.append_assoc, ← htext]
          exact hothers
      · rw [perform_error reader hcase hread, perform_error reader (htext.trans hcase) hread]
        exact ⟨rfl, hsame, [text], rfl, rfl⟩

theorem performAll_detach {events others : List Event}
    (h : events.map Event.detach = others.map Event.detach) {progress other : Progress}
    (hsame : progress.SameButLog other) :
    (runFrom (reader.performAll events) progress).1 = (runFrom (reader.performAll others) other).1
      ∧ (runFrom (reader.performAll events) progress).2.SameButLog
          (runFrom (reader.performAll others) other).2 := by
  obtain ⟨houtcome, hdocumentation, called, hcalls, hothers⟩ :=
    performAll_alike reader h hsame.documentation
  exact ⟨houtcome, hdocumentation, by rw [hcalls, hothers, hsame.calls]⟩

/-- What events write down is in the log after them, and nothing else that was not there before. -/
theorem mem_log_performAll {events : List Event} {progress : Progress} :
    ∀ record ∈ (runFrom (reader.performAll events) progress).2.log,
      record ∈ progress.log ∨ ∃ event ∈ events, event.note? = some record := by
  induction events generalizing progress with
  | nil => exact fun record h => .inl h
  | cons event events ih =>
      intro record hrecord
      rw [performAll_cons, runFrom_bind] at hrecord
      have hafter (content : String → Document)
          (h : record ∈ (runFrom (reader.performAll events) (progress.after content event)).2.log) :
          record ∈ progress.log ∨ ∃ other ∈ event :: events, other.note? = some record := by
        rcases ih record h with hlog | ⟨other, hother, hnote⟩
        · rcases List.mem_append.mp hlog with hlog | hnote
          · exact .inl hlog
          · exact .inr ⟨event, List.mem_cons_self, Option.mem_toList.mp hnote⟩
        · exact .inr ⟨other, List.mem_cons_of_mem event hother, hnote⟩
      rcases reader.reads_or_refuses event.text? with ⟨content, hread⟩ | ⟨text, error, htext, hread⟩
      · rw [perform_ok reader content hread] at hrecord
        exact hafter content hrecord
      · rw [perform_error reader htext hread] at hrecord
        exact .inl hrecord

/-! ## Whole runs -/

/-- In a section neither the limit nor the depth plays a part. -/
theorem visitList_parameters (m depth : Int) (list : ListBlock) :
    (reader.withLimit m).visitList .parameters depth list
      = reader.performAll (list.items.map (Event.ofSectionItem list))
          >>= fun _ => pure .discussion := by
  unfold visitList
  rw [visitItems_parameters, performAll_withLimit]
  simp

variable {reader} {m n : Int}

/-- Above zero, the limit makes no difference to a run. -/
theorem run_of_pos (hm : 0 < m) (hn : 0 < n) (text : String) :
    (reader.withLimit m).run (some text) = (reader.withLimit n).run (some text) := by
  cases hread : reader.markdown text with
  | error error =>
      rw [run_some_error (reader.withLimit m) hread, run_some_error (reader.withLimit n) hread]
  | ok document =>
      rw [run_some (reader.withLimit m) hread, run_some (reader.withLimit n) hread]
      simp only [performAll_withLimit, maxDepth_withLimit]
      rw [Event.ofBlocks_of_pos hm hn]

/-- Above zero, no run writes a warning down. -/
theorem run_never_warns (hm : 0 < m) (text : String) :
    ∀ record ∈ ((reader.withLimit m).run (some text)).2.log, record.severity ≠ .warning := by
  intro record hrecord
  cases hread : reader.markdown text with
  | error error =>
      rw [run_some_error (reader.withLimit m) hread] at hrecord
      cases hrecord
  | ok document =>
      rw [run_some (reader.withLimit m) hread] at hrecord
      simp only [performAll_withLimit, maxDepth_withLimit] at hrecord
      have hperformed := @mem_log_performAll _ reader
        (Event.ofBlocks m (Block.splitSummary document.children).2)
        { documentation := { summary := (Block.splitSummary document.children).1 }
          calls := [text] }
      generalize runFrom (reader.performAll _) _ = result at hrecord hperformed
      obtain ⟨outcome, after⟩ := result
      have hafter : ∀ record ∈ after.log, record.severity ≠ .warning := by
        intro record hrecord
        rcases hperformed record hrecord with hlog | ⟨event, hevent, hnote⟩
        · cases hlog
        · exact Event.note?_ne_warning hm event hevent record hnote
      cases outcome with
      | error failure => exact hafter record hrecord
      | ok done =>
          -- the run closes with a record of its own, which is no warning
          rcases List.mem_append.mp hrecord with hrecord | hrecord
          · exact hafter record hrecord
          · obtain rfl := List.mem_singleton.mp hrecord
            simp [LogRecord.severity]

/-- At zero and below, the limit makes no difference to a run but for its log. -/
theorem run_of_nonpos (hm : m ≤ 0) (hn : n ≤ 0) (text : String) :
    ((reader.withLimit m).run (some text)).1 = ((reader.withLimit n).run (some text)).1
      ∧ ((reader.withLimit m).run (some text)).2.calls
        = ((reader.withLimit n).run (some text)).2.calls := by
  cases hread : reader.markdown text with
  | error error =>
      rw [run_some_error (reader.withLimit m) hread, run_some_error (reader.withLimit n) hread]
      exact ⟨rfl, rfl⟩
  | ok document =>
      rw [run_some (reader.withLimit m) hread, run_some (reader.withLimit n) hread]
      simp only [performAll_withLimit, maxDepth_withLimit]
      have hsign : 0 < m ↔ 0 < n := by omega
      obtain ⟨houtcome, hsame⟩ := performAll_detach reader
        (Event.map_detach_ofBlocks hsign (Block.splitSummary document.children).2)
        (.refl { documentation := { summary := (Block.splitSummary document.children).1 }
                 calls := [text] })
      generalize runFrom (reader.performAll _) _ = result at houtcome hsame ⊢
      generalize runFrom (reader.performAll _) _ = other at houtcome hsame ⊢
      obtain ⟨outcome, after⟩ := result
      obtain ⟨_, afterOther⟩ := other
      obtain rfl : outcome = _ := houtcome
      cases outcome with
      | error failure => exact ⟨rfl, hsame.calls⟩
      | ok done => exact ⟨congrArg Except.ok hsame.documentation, hsame.calls⟩

/-- At zero and below, the parameters of a comment are those that the items of its top-level lists
state themselves. -/
theorem parameters_of_nonpos (hm : m ≤ 0) {text : String} {d : Documentation}
    (h : (reader.withLimit m).parse (some text) = .ok d) :
    ∃ document, reader.markdown text = .ok document
      ∧ d.parameters = ((document.children.filterMap Block.bulletList?).flatMap
          ListBlock.items).filterMap (ListItem.parameter? reader.content) := by
  obtain ⟨document, hread, rfl⟩ := parse_ok h
  refine ⟨document, hread, ?_⟩
  have hlists : (Block.splitSummary document.children).2.filterMap Block.bulletList?
      = document.children.filterMap Block.bulletList? := by
    match document.children with
    | [] => rfl
    | .paragraph _ :: _ => rfl
    | .heading _ _ :: _ | .code _ _ :: _ | .html _ :: _ | .thematicBreak _ :: _ | .quote _ _ :: _
    | .list _ :: _ => rfl
  rw [← hlists, ← Event.filterMap_parameter?_ofBlocks hm]
  rfl

/-- **Only the sign of the depth limit matters.**  For two limits above zero a run is the same in
every respect, and writes no warning down.  For two limits at zero and below it has the same outcome
and calls, and the parameters it finds are those that the items of top-level lists state themselves:
no item in a section becomes one.  A list that is visited inside a section is visited in the same
way at every depth and for every limit. -/
theorem run_depends_on_sign (reader : SectionReader ε) (m n : Int) (text : String) :
    (0 < m → 0 < n →
        (reader.withLimit m).run (some text) = (reader.withLimit n).run (some text)
          ∧ ∀ record ∈ ((reader.withLimit m).run (some text)).2.log, record.severity ≠ .warning)
      ∧ (m ≤ 0 → n ≤ 0 →
        ((reader.withLimit m).run (some text)).1 = ((reader.withLimit n).run (some text)).1
          ∧ ((reader.withLimit m).run (some text)).2.calls
            = ((reader.withLimit n).run (some text)).2.calls
          ∧ ∀ d, (reader.withLimit m).parse (some text) = .ok d →
            ∃ document, reader.markdown text = .ok document
              ∧ d.parameters = ((document.children.filterMap Block.bulletList?).flatMap
                  ListBlock.items).filterMap (ListItem.parameter? reader.content))
      ∧ ∀ depth other list,
          (reader.withLimit m).visitList .parameters depth list
            = (reader.withLimit n).visitList .parameters other list := by
  refine ⟨fun hm hn => ?_, fun hm hn => ?_, fun depth other list => ?_⟩
  · exact ⟨run_of_pos hm hn text, run_never_warns hm text⟩
  · obtain ⟨houtcome, hcalls⟩ := @run_of_nonpos _ reader m n hm hn text
    exact ⟨houtcome, hcalls, fun d hd => parameters_of_nonpos hm hd⟩
  · rw [visitList_parameters, visitList_parameters]

/-- The record of `sectionsComment` where no section may be entered: the section is list content,
and only the parameter behind it is one. -/
def closedRecord : Documentation where
  summary := some (.paragraph "Adds.")
  discussion := [
    .block (.list { kind := .bullet, items := [
      { text := "- Parameters:\n  - x: first\n  - loose", children := [
        .paragraph "Parameters:",
        .list { kind := .bullet, items := [
          { text := "- x: first", children := [.paragraph "x: first"] },
          { text := "- loose", children := [.paragraph "loose"] }] }] },
      { text := "- Odd: one", children := [.paragraph "Odd: one"] }] }),
    .callout { label := .note, content := "Fast." }]
  parameters := [
    { name := "y", content := { text := "second", children := [.paragraph "second"] } }]
  returns := some { text := "sum", children := [.paragraph "sum"] }

theorem run_depends_on_sign_sectionsComment :
    (0 : Int) < 1 ∧ (0 : Int) < 7
      ∧ (standard.withLimit 1).run (some sectionsComment)
        = (standard.withLimit 7).run (some sectionsComment)
      ∧ (0 : Int) ≤ 0 ∧ (-2 : Int) ≤ 0
      ∧ (standard.withLimit 0).parse (some sectionsComment) = .ok closedRecord
      ∧ (standard.withLimit (-2)).parse (some sectionsComment) = .ok closedRecord
      ∧ ∃ document, standard.markdown sectionsComment = .ok document
        ∧ ((document.children.filterMap Block.bulletList?).flatMap ListBlock.items).filterMap
            (ListItem.parameter? standard.content) = closedRecord.parameters := by
  have hclosed : (standard.withLimit 0).parse (some sectionsComment) = .ok closedRecord := by
    decide +kernel
  have hopen := (run_depends_on_sign standard 1 7 sectionsComment).1 (by decide) (by decide)
  obtain ⟨houtcome, -, hparameters⟩ :=
    (run_depends_on_sign standard 0 (-2) sectionsComment).2.1 (by decide) (by decide)
  obtain ⟨document, hread, hstated⟩ := hparameters closedRecord hclosed
  exact ⟨by decide, by decide, hopen.1, by decide, by decide, hclosed, houtcome.symm.trans hclosed,
    document, hread, hstated.symm⟩

end SectionReader

end DocComment
