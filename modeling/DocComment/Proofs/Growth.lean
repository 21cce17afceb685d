import DocComment.Proofs.Discussion
import Mathlib.Data.List.Basic

/-!
# Records only grow

The record of a run is updated by visits: of a block, of a list, of an item, and of an item that is
folded.  Each of them may be made in any stage and from any record, and may fail half-way, in a
stage that is not expected or at a text that is refused.

* `Documentation.GrowsTo` is what a visit may do to a record: parameters and parts of the discussion
  are appended, the list that ends the discussion may take further items, and a returns or throws
  field that is there stays there.  It is transitive (`GrowsTo.trans`).
* `Visit.effect`: whatever its outcome, a visit leaves what some events leave, or writes the
  summary; and events let a record grow (`growsTo_performAll`).

`visits_only_append` says so of any two points of a sequence of visits.
-/

namespace DocComment

/-! ## Growth -/

/-- What a discussion may become: parts are appended to it, and the list that ends it may have taken
further items. -/
def Part.Extends (parts later : List Part) : Prop :=
  parts <+: later
    ∨ ∃ before l items more, parts = before ++ [.block (.list l)]
      ∧ later = before ++ .block (.list { l with items := l.items ++ items }) :: more

namespace Part.Extends

variable {parts later latest : List Part}

theorem refl (parts : List Part) : Part.Extends parts parts :=
  .inl (List.prefix_refl parts)

theorem trans (h : Part.Extends parts later) (hlater : Part.Extends later latest) :
    Part.Extends parts latest := by
  rcases h with ⟨tail, rfl⟩ | ⟨before, l, items, more, rfl, rfl⟩
  · rcases hlater with hprefix | ⟨before, l, items, more, hparts, rfl⟩
    · exact .inl ((List.prefix_append parts tail).trans hprefix)
    · -- the list that takes items is the end of the first discussion, or behind it
      rcases List.eq_nil_or_concat' tail with rfl | ⟨tail, last, rfl⟩
      · exact .inr ⟨before, l, items, more, by simpa using hparts, rfl⟩
      · rw [← List.append_assoc] at hparts
        obtain ⟨rfl, -⟩ := List.append_inj' hparts rfl
        refine .inl ?_
        rw [List.append_assoc]
        exact List.prefix_append parts _
  · rcases hlater with ⟨tail, rfl⟩ | ⟨other, m, further, rest, hparts, rfl⟩
    · exact .inr ⟨before, l, items, more ++ tail, rfl, by simp⟩
    · rcases List.eq_nil_or_concat' more with rfl | ⟨more, last, rfl⟩
      · obtain ⟨rfl, hlast⟩ := List.append_inj' hparts rfl
        obtain rfl : { l with items := l.items ++ items } = m := by simpa using hlast
        exact .inr ⟨before, l, items ++ further, rest, rfl, by simp⟩
      · rw [← List.cons_append, ← List.append_assoc] at hparts
        obtain ⟨rfl, -⟩ := List.append_inj' hparts rfl
        exact .inr ⟨before, l, items,
          more ++ .block (.list { m with items := m.items ++ further }) :: rest, rfl, by simp⟩

/-- One event extends a discussion. -/
theorem of_event (parts : List Part) (event : Event) : Part.Extends parts (event.extend parts) := by
  cases event with
  | keep block => exact .inl (List.prefix_append parts _)
  | callout label content => exact .inl (List.prefix_append parts _)
  | fold item parent note =>
      rcases Event.ends_with_list_or parts with ⟨before, l, rfl⟩ | ⟨hlast, -⟩
      · rw [Event.extend_fold_list]
        exact .inr ⟨before, l, [item], [], rfl, rfl⟩
      · rw [Event.extend_fold_of_not_list hlast]
        exact .inl (List.prefix_append parts _)
  | parameter name description | returns description | throws description => exact refl parts

end Part.Extends

/-- What a visit may do to a record, the summary apart. -/
structure Documentation.GrowsTo (earlier later : Documentation) : Prop where
  parameters : earlier.parameters <+: later.parameters
  discussion : Part.Extends earlier.discussion later.discussion
  returns : earlier.returns.isSome = true → later.returns.isSome = true
  throws : earlier.throws.isSome = true → later.throws.isSome = true

namespace Documentation.GrowsTo

variable {first second third : Documentation}

theorem refl (d : Documentation) : d.GrowsTo d :=
  ⟨List.prefix_refl _, .refl _, id, id⟩

theorem trans (h : first.GrowsTo second) (hnext : second.GrowsTo third) : first.GrowsTo third where
  parameters := h.parameters.trans hnext.parameters
  discussion := h.discussion.trans hnext.discussion
  returns := fun hreturns => hnext.returns (h.returns hreturns)
  throws := fun hthrows => hnext.throws (h.throws hthrows)

/-- One event lets a record grow. -/
theorem apply (content : String → Document) (d : Documentation) (event : Event) :
    d.GrowsTo (event.apply content d) where
  parameters := by
    rw [Event.apply_parameters]
    exact List.prefix_append _ _
  discussion := by
    rw [Event.apply_discussion]
    exact .of_event _ event
  returns := by
    intro h
    rw [Event.apply_returns]
    cases event.returns? <;> simp [h]
  throws := by
    intro h
    rw [Event.apply_throws]
    cases event.throws? <;> simp [h]

end Documentation.GrowsTo

namespace SectionReader

open Extraction

variable {ε : Type} (reader : SectionReader ε)

/-- Events let a record grow, and leave the summary alone, also where one of them fails. -/
theorem growsTo_performAll (events : List Event) (progress : Progress) :
    progress.documentation.GrowsTo (runFrom (reader.performAll events) progress).2.documentation
      ∧ (runFrom (reader.performAll events) progress).2.documentation.summary
        = progress.documentation.summary := by
  induction events generalizing progress with
  | nil => exact ⟨.refl _, rfl⟩
  | cons event events ih =>
      rw [performAll_cons, runFrom_bind]
      have hafter (content : String → Document) :
          progress.documentation.GrowsTo
              (runFrom (reader.performAll events) (progress.after content event)).2.documentation
            ∧ (runFrom (reader.performAll events)
                (progress.after content event)).2.documentation.summary
              = progress.documentation.summary := by
        obtain ⟨hgrows, hsummary⟩ := ih (progress.after content event)
        refine ⟨(Documentation.GrowsTo.apply content _ event).trans hgrows, hsummary.trans ?_⟩
        exact Event.apply_summary content _ event
      rcases reader.reads_or_refuses event.text? with ⟨content, hread⟩ | ⟨text, error, htext, hread⟩
      · rw [perform_ok reader content hread]
        exact hafter content
      · -- of an event that fails, only the call remains
        rw [perform_error reader htext hread]
        exact ⟨.refl _, rfl⟩

end SectionReader

/-! ## Visits -/

/-- A visit, in any stage. -/
inductive Visit where
  | block (stage : Stage) (block : Block)
  | list (stage : Stage) (depth : Int) (list : ListBlock)
  | item (stage : Stage) (depth : Int) (parent : ListBlock) (item : ListItem)
  | fold (item : ListItem) (parent : ListBlock)

namespace Visit

open Extraction SectionReader

variable {ε : Type}

/-- What a visit does. -/
def step (reader : SectionReader ε) : Visit → Extraction ε Unit
  | .block stage b => do
    let _ ← reader.visitBlock stage b
  | .list stage depth l => do
    let _ ← reader.visitList stage depth l
  | .item stage depth parent i => do
    let _ ← reader.visitItem stage depth parent i
  | .fold i parent => grow (·.fold i parent)

/-- Whether a visit writes the summary: one of a block, where the summary is expected or where a
paragraph stands at the start. -/
def writesSummary : Visit → Bool
  | .block stage b => Stage.opening b.isParagraph stage == .summary
  | _ => false

/-- The progress behind a visit, whatever its outcome. -/
def after (reader : SectionReader ε) (visit : Visit) (progress : Progress) : Progress :=
  (runFrom (visit.step reader) progress).2

/-- A result does not count for the progress. -/
theorem runFrom_map {α β : Type} (steps : Extraction ε α) (f : α → β) (progress : Progress) :
    (runFrom (steps >>= fun a => pure (f a)) progress).2 = (runFrom steps progress).2 := by
  rw [runFrom_bind]
  generalize runFrom steps progress = result
  obtain ⟨outcome | _, after⟩ := result <;> rfl

/-- A stage in which no items are expected ends a visit of items before it does anything. -/
theorem visitItems_misuse (reader : SectionReader ε) {stage : Stage} (h : stage.takesItems = false)
    (depth : Int) (parent : ListBlock) (items : List ListItem) (progress : Progress) :
    (runFrom (reader.visitItems stage depth parent items) progress).2 = progress := by
  cases items with
  | nil => rfl
  | cons item items =>
      obtain ⟨text, children⟩ := item
      simp only [visitItems, visitItem, h]
      rfl

/-- Whatever its outcome, a visit of an item leaves what some events leave. -/
theorem visitItem_effect (reader : SectionReader ε) (stage : Stage) (depth : Int)
    (parent : ListBlock) (item : ListItem) (progress : Progress) :
    ∃ events, (runFrom (reader.visitItem stage depth parent item) progress).2
      = (runFrom (reader.performAll events) progress).2 := by
  cases stage with
  | initial | summary =>
      -- no item is expected here
      obtain ⟨text, children⟩ := item
      exact ⟨[], rfl⟩
  | discussion =>
      refine ⟨Event.ofItem reader.maxDepth depth parent item, ?_⟩
      rw [visitItem_discussion, runFrom_map]
  | parameters =>
      refine ⟨[Event.ofSectionItem parent item], ?_⟩
      rw [visitItem_parameters, runFrom_map, performAll_cons, performAll_nil]
      exact (runFrom_map (reader.perform _) (fun _ => ()) progress).symm

/-- Whatever its outcome, a visit of a list leaves what some events leave. -/
theorem visitList_effect (reader : SectionReader ε) (stage : Stage) (depth : Int) (l : ListBlock)
    (progress : Progress) :
    ∃ events, (runFrom (reader.visitList stage depth l) progress).2
      = (runFrom (reader.performAll events) progress).2 := by
  unfold visitList
  rw [runFrom_map]
  cases stage with
  | initial | summary => exact ⟨[], visitItems_misuse reader rfl depth l l.items progress⟩
  | discussion =>
      refine ⟨l.items.flatMap (Event.ofItem reader.maxDepth depth l), ?_⟩
      rw [visitItems_discussion, runFrom_map]
  | parameters =>
      refine ⟨l.items.map (Event.ofSectionItem l), ?_⟩
      rw [visitItems_parameters, runFrom_map]

/-- Whatever its outcome, a visit of a block leaves what some events leave, or it writes the summary
and does nothing else. -/
theorem visitBlock_effect (reader : SectionReader ε) (stage : Stage) (b : Block)
    (progress : Progress) :
    (∃ events, (runFrom (reader.visitBlock stage b) progress).2
        = (runFrom (reader.performAll events) progress).2)
      ∨ (Stage.opening b.isParagraph stage == .summary) = true
        ∧ ∃ summary, (runFrom (reader.visitBlock stage b) progress).2 = { progress with
            documentation := { progress.documentation with summary } } := by
  have hdiscussion : ∃ events, (runFrom (reader.visitBlock .discussion b) progress).2
      = (runFrom (reader.performAll events) progress).2 := by
    refine ⟨Event.ofBlock reader.maxDepth b, ?_⟩
    rw [visitBlock_discussion, runFrom_map]
  cases stage with
  | summary => exact .inr ⟨rfl, some b, rfl⟩
  | discussion => exact .inl hdiscussion
  | parameters => exact .inl ⟨[], rfl⟩
  | initial =>
      cases hparagraph : b.isParagraph with
      | true =>
          have hsummary : reader.visitBlock .initial b = reader.visitBlock .summary b := by
            simp [visitBlock, Stage.opening, hparagraph]
          rw [hsummary]
          exact .inr ⟨rfl, some b, rfl⟩
      | false =>
          rw [visitBlock_initial_of_not_paragraph reader hparagraph]
          exact .inl hdiscussion

/-- **The effect of a visit.**  Whatever its outcome, a visit leaves what some events leave, or it
writes the summary and does nothing else. -/
theorem effect (reader : SectionReader ε) (visit : Visit) (progress : Progress) :
    (∃ events, visit.after reader progress = (runFrom (reader.performAll events) progress).2)
      ∨ (visit.writesSummary = true
        ∧ ∃ summary, visit.after reader progress = { progress with
            documentation := { progress.documentation with summary } }) := by
  cases visit with
  | fold i parent => exact .inl ⟨[.fold i parent none], rfl⟩
  | item stage depth parent i =>
      have hafter : (Visit.item stage depth parent i).after reader progress
          = (runFrom (reader.visitItem stage depth parent i) progress).2 := runFrom_map _ _ progress
      rw [hafter]
      exact .inl (visitItem_effect reader stage depth parent i progress)
  | list stage depth l =>
      have hafter : (Visit.list stage depth l).after reader progress
          = (runFrom (reader.visitList stage depth l) progress).2 := runFrom_map _ _ progress
      rw [hafter]
      exact .inl (visitList_effect reader stage depth l progress)
  | block stage b =>
      have hafter : (Visit.block stage b).after reader progress
          = (runFrom (reader.visitBlock stage b) progress).2 := runFrom_map _ _ progress
      rw [hafter]
      exact visitBlock_effect reader stage b progress

/-- One visit lets a record grow, and leaves the summary alone unless it is one that writes it. -/
theorem growsTo_after (reader : SectionReader ε) (visit : Visit) (progress : Progress) :
    progress.documentation.GrowsTo (visit.after reader progress).documentation
      ∧ (visit.writesSummary = true
        ∨ (visit.after reader progress).documentation.summary
          = progress.documentation.summary) := by
  rcases visit.effect reader progress with ⟨events, hafter⟩ | ⟨hwrites, summary, hafter⟩
  · rw [hafter]
    obtain ⟨hgrows, hsummary⟩ := growsTo_performAll reader events progress
    exact ⟨hgrows, .inr hsummary⟩
  · rw [hafter]
    exact ⟨⟨List.prefix_refl _, .refl _, id, id⟩, .inl hwrites⟩

end Visit

/-! ## Sequences of visits -/

/-- The progress behind visits, each by its own reader; a visit that fails does not end the
sequence. -/
def Progress.afterVisits {ε : Type} (progress : Progress)
    (visits : List (SectionReader ε × Visit)) : Progress :=
  visits.foldl (fun reached (reader, visit) => visit.after reader reached) progress

/-- A sequence of visits lets a record grow. -/
theorem Progress.growsTo_afterVisits {ε : Type} (progress : Progress)
    (visits : List (SectionReader ε × Visit)) :
    progress.documentation.GrowsTo (progress.afterVisits visits).documentation
      ∧ ((∃ visit ∈ visits, visit.2.writesSummary = true)
        ∨ (progress.afterVisits visits).documentation.summary
            = progress.documentation.summary) := by
  induction visits generalizing progress with
  | nil => exact ⟨.refl _, .inr rfl⟩
  | cons visit visits ih =>
      obtain ⟨hgrows, hsummary⟩ := visit.2.growsTo_after visit.1 progress
      obtain ⟨hrest, hsummaries⟩ := ih (visit.2.after visit.1 progress)
      refine ⟨hgrows.trans hrest, ?_⟩
      rcases hsummary with hwrites | hsame
      · exact .inl ⟨visit, List.mem_cons_self, hwrites⟩
      rcases hsummaries with ⟨other, hother, hwrites⟩ | hsames
      · exact .inl ⟨other, List.mem_cons_of_mem visit hother, hwrites⟩
      · exact .inr (hsames.trans hsame)

/-- **Records only grow.**  Take any record and any sequence of visits, of whatever kind, in
whatever stages, by whatever readers, and whether they succeed or fail.  Between any two points of
the sequence parameters and discussion are appended to, but that the list which ends the discussion
may take further items; a returns or throws field that is there stays there; and the summary stays
unless one of the visits in between writes it. -/
theorem visits_only_append {ε : Type} (progress : Progress)
    (before between : List (SectionReader ε × Visit)) :
    let earlier := (progress.afterVisits before).documentation
    let later := (progress.afterVisits (before ++ between)).documentation
    earlier.GrowsTo later
      ∧ ((∃ visit ∈ between, visit.2.writesSummary = true) ∨ later.summary = earlier.summary) := by
  intro earlier later
  have hlater : later = ((progress.afterVisits before).afterVisits between).documentation :=
    congrArg Progress.documentation List.foldl_append
  rw [hlater]
  exact (progress.afterVisits before).growsTo_afterVisits between

end DocComment
