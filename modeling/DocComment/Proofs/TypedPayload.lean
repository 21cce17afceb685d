import DocComment.Payload.Visit
import DocComment.Proofs.Discussion
import DocComment.Proofs.Meaning
import DocComment.Proofs.Outcome
import Mathlib

/-!
# Typed records read as payloads

A payload that a typed record is embedded in is read as the record is.  The looks into it do not
fault, and find what the record has: a text (`Block.text_toPayload`), a block as Markdown
(`Block.markup_toPayload`), the field of an item (`ListItem.field?_toPayload`), a whole record as
Markdown (`Documentation.documentationMarkup_toPayload`).

The section reader's steps on payloads do to a draft what its typed steps do to the record.  A
`Documentation` has a draft, and `DraftStep.Mirrors` is the square that a step on payloads and a
typed one make with it: from the draft of a record the step ends as the typed one does from the
record, and leaves the draft of what that leaves.  Drafts do not keep the Markdown calls and the
log.  The square is shown for every kind of step and for their composition, and then for items,
lists and blocks (`visitItemPayload_mirrors`, `visitListPayload_mirrors`,
`visitBlockPayload_mirrors`).
-/

namespace DocComment

open Payload

/-! ## Sequences -/

/-- Where every look finds something, they find it in order. -/
theorem mapM_map_ok {α β γ ε : Type} {f : α → β} {look : β → Except ε γ} {g : α → γ}
    (h : ∀ a, look (f a) = .ok (g a)) (values : List α) :
    (values.map f).mapM look = .ok (values.map g) := by
  have hlook : look ∘ f = fun a => pure (g a) := funext h
  rw [List.mapM_map, hlook]
  exact List.mapM_pure

theorem mapM_asText (texts : List String) : (texts.map Payload.str).mapM asText = .ok texts := by
  have hlook : ∀ text, asText (.str text) = .ok (id text) := fun _ => rfl
  rw [mapM_map_ok hlook, List.map_id]

theorem mapM_written (texts : List String) : (texts.map Payload.str).mapM written = .ok texts := by
  have hlook : ∀ text, written (.str text) = .ok (id text) := fun _ => rfl
  rw [mapM_map_ok hlook, List.map_id]

theorem Block.toPayloads_eq_map (blocks : List Block) :
    Block.toPayloads blocks = blocks.map Block.toPayload := by
  induction blocks with
  | nil => rfl
  | cons block blocks ih => rw [Block.toPayloads, ih, List.map_cons]

theorem ListItem.toPayloads_eq_map (items : List ListItem) :
    ListItem.toPayloads items = items.map ListItem.toPayload := by
  induction items with
  | nil => rfl
  | cons item items ih => rw [ListItem.toPayloads, ih, List.map_cons]

/-! ## Texts -/

theorem ListItem.text_toPayload (item : ListItem) : item.toPayload.text = .ok (.str item.text) := by
  obtain ⟨text, children⟩ := item
  rfl

theorem ListItem.textAll_toPayloads (items : List ListItem) :
    textAll (ListItem.toPayloads items) = .ok ((items.map ListItem.text).map Payload.str) := by
  induction items with
  | nil => rfl
  | cons item items ih =>
      rw [ListItem.toPayloads, textAll, item.text_toPayload, ih]
      rfl

theorem ListBlock.text_toPayload (l : ListBlock) : l.toPayload.text = .ok (.str l.text) := by
  obtain ⟨kind, items, marker, start⟩ := l
  rw [ListBlock.toPayload]
  simp only [Payload.text, ListItem.textAll_toPayloads, ok_bind, joinTexts, mapM_asText]
  rfl

theorem Block.text_toPayload (b : Block) : b.toPayload.text = .ok (.str b.text) := by
  cases b with
  | list l => exact l.text_toPayload
  | _ => rfl

/-! ## Markdown -/

theorem Block.markup_toPayload (b : Block) : b.toPayload.markup = .ok (.str b.markup) := by
  cases b with
  | list l =>
      obtain ⟨kind, items, marker, start⟩ := l
      exact ListBlock.text_toPayload ⟨kind, items, marker, start⟩
  | _ => rfl

theorem Callout.markup_toPayload (c : Callout) :
    (Part.callout c).toPayload.markup = .ok (.str (Markup.callout c.label c.content)) := rfl

theorem Block.mapM_markup (blocks : List Block) :
    (blocks.map Block.toPayload).mapM Payload.markup
      = .ok ((blocks.map Block.markup).map Payload.str) := by
  rw [mapM_map_ok Block.markup_toPayload, List.map_map]
  rfl

theorem ListItem.children_toPayload (item : ListItem) :
    item.toPayload.part "children" = .ok (.seq (item.children.map Block.toPayload)) := by
  obtain ⟨text, children⟩ := item
  rw [← Block.toPayloads_eq_map]
  rfl

/-- **An item states the same field.** -/
theorem ListItem.field?_toPayload (item : ListItem) : item.toPayload.field? = .ok item.field? := by
  rw [Payload.field?, item.text_toPayload, item.children_toPayload, ListItem.field?]
  simp only [ok_bind, scannable, elements, ← List.map_drop]
  cases Field.split? item.text with
  | none => rfl
  | some field =>
      cases item.children.drop 1 with
      | nil => rfl
      | cons block blocks =>
          change (((block :: blocks).map Block.toPayload).mapM Payload.markup >>= fun markups =>
            markups.mapM asText >>= fun texts => pure (some (field.withBlocks texts))) = _
          rw [Block.mapM_markup, ok_bind, mapM_asText]
          rfl

/-! ## Documentation records -/

theorem Part.markup_toPayload (part : Part) :
    part.toPayload.partMarkup = .ok (.str part.markup) := by
  cases part with
  | callout c => rfl
  | block b =>
      rw [Part.markup, ← b.markup_toPayload]
      -- a block is no callout
      cases b with
      | list l =>
          obtain ⟨kind, items, marker, start⟩ := l
          rfl
      | _ => rfl

theorem Parameter.markup_toPayload (parameter : Parameter) :
    parameter.toPayload.parameterMarkup = .ok parameter.markup := rfl

theorem closingBody_toPayload (document? : Option Document) :
    closingBody ((document?.map Document.toPayload).getD .null)
      = .ok (document?.map fun document => Markup.fieldBody 2 document.text) := by
  cases document? <;> rfl

theorem Block.isNull_toPayload (b : Block) : b.toPayload.isNull = false := by
  cases b with
  | list l =>
      obtain ⟨kind, items, marker, start⟩ := l
      rfl
  | _ => rfl

/-- A summary that is empty is left out as one that is absent. -/
theorem summaryText_toPayload (summary? : Option Block) :
    summaryText ((summary?.map Block.toPayload).getD .null)
      = .ok (.str ((summary?.map Block.text).getD "")) := by
  cases summary? with
  | none => rfl
  | some block =>
      have hsome : ((some block).map Block.toPayload).getD .null = block.toPayload := rfl
      have hkept : (if (Payload.str block.text).isTruthy then Payload.str block.text else .str "")
          = .str block.text := by
        split
        · rfl
        · next hempty =>
            have htext : block.text = "" := by simpa [isTruthy] using hempty
            rw [htext]
      rw [hsome, summaryText, block.isNull_toPayload, block.text_toPayload, ok_bind, hkept]
      rfl

/-- **A record is written down the same.** -/
theorem Documentation.documentationMarkup_toPayload (d : Documentation) :
    d.toPayload.documentationMarkup = .ok d.markup := by
  have hparts : (d.discussion.map Part.toPayload).mapM partMarkup
      = .ok ((d.discussion.map Part.markup).map Payload.str) := by
    rw [mapM_map_ok Part.markup_toPayload, List.map_map]
    rfl
  have hparameters : (d.parameters.map Parameter.toPayload).mapM parameterMarkup
      = .ok (d.parameters.map Parameter.markup) :=
    mapM_map_ok Parameter.markup_toPayload d.parameters
  have hsheet : d.toPayload.sheet = .ok d.sheet := by
    have hsummary : d.toPayload.part "summary"
        = .ok ((d.summary.map Block.toPayload).getD .null) := rfl
    have hdiscussion : d.toPayload.part "discussion"
        = .ok (.seq (d.discussion.map Part.toPayload)) := rfl
    have hlist : d.toPayload.part "parameters"
        = .ok (.seq (d.parameters.map Parameter.toPayload)) := rfl
    have hthrows : d.toPayload.part "throws"
        = .ok ((d.throws.map Document.toPayload).getD .null) := rfl
    have hreturns : d.toPayload.part "returns"
        = .ok ((d.returns.map Document.toPayload).getD .null) := rfl
    rw [Payload.sheet, hsummary, hdiscussion, hlist, hthrows, hreturns]
    simp only [ok_bind, elements, summaryText_toPayload, hparts, hparameters, closingBody_toPayload,
      written, mapM_written]
    rfl
  rw [documentationMarkup, hsheet]
  rfl

/-- A record documents nothing where its payload does not. -/
theorem Documentation.isEmpty_toPayload (d : Documentation) :
    d.toPayload.isEmptyDocumentation = d.isEmpty := by
  obtain ⟨summary, discussion, parameters, returns, throws⟩ := d
  have hsummary : ((summary.map Block.toPayload).getD .null).isNull = summary.isNone := by
    cases summary with
    | none => rfl
    | some block => exact block.isNull_toPayload
  have hclosing (document? : Option Document) :
      ((document?.map Document.toPayload).getD .null).isNull = document?.isNone := by
    cases document? <;> rfl
  simp [Documentation.toPayload, isEmptyDocumentation, hsummary, hclosing, isTruthy,
    Documentation.isEmpty]

theorem Block.isParagraph_toPayload (b : Block) :
    (b.toPayload.kind? == some .paragraph) = b.isParagraph := by
  cases b with
  | list l =>
      obtain ⟨kind, items, marker, start⟩ := l
      rfl
  | _ => rfl

/-- A bullet list is one as a payload, and nothing else is. -/
theorem Block.isBulletList_toPayload (b : Block) :
    b.toPayload.isBulletList = b.bulletList?.isSome := by
  cases b with
  | list l =>
      obtain ⟨kind, items, marker, start⟩ := l
      cases kind <;> rfl
  | _ => rfl

/-- The bullet lists among blocks. -/
theorem Block.filter_isBulletList (blocks : List Block) :
    (blocks.map Block.toPayload).filter Payload.isBulletList
      = (blocks.filterMap Block.bulletList?).map ListBlock.toPayload := by
  induction blocks with
  | nil => rfl
  | cons block blocks ih =>
      rw [List.map_cons, List.filter_cons, block.isBulletList_toPayload, ih, List.filterMap_cons]
      cases hlist : block.bulletList? with
      | none => rfl
      | some l =>
          rw [(Block.bulletList?_eq_some hlist).1]
          rfl

/-! ## Drafts -/

/-- A record as a draft. -/
def Documentation.draft (d : Documentation) : Draft where
  summary := (d.summary.map Block.toPayload).getD .null
  discussion := d.discussion.map Part.toPayload
  parameters := d.parameters.map Parameter.toPayload
  returns := (d.returns.map Document.toPayload).getD .null
  throws := (d.throws.map Document.toPayload).getD .null

theorem Documentation.toPayload_draft (d : Documentation) : d.draft.toPayload = d.toPayload := rfl

theorem ListItem.pushItem_toPayload (item : ListItem) (l : ListBlock) :
    pushItem item.toPayload l.toPayload = .ok (l.push item).toPayload := by
  obtain ⟨kind, items, marker, start⟩ := l
  simp [ListBlock.toPayload, pushItem, ListBlock.push, ListItem.toPayloads_eq_map]

theorem Documentation.draft_addParameter (d : Documentation) (parameter : Parameter) :
    (d.addParameter parameter).draft
      = { d.draft with parameters := d.draft.parameters ++ [parameter.toPayload] } := by
  simp [draft, addParameter]

theorem Documentation.draft_addPart (d : Documentation) (part : Part) :
    (d.addPart part).draft
      = { d.draft with discussion := d.draft.discussion ++ [part.toPayload] } := by
  simp [draft, addPart]

/-- An item is folded into the draft as into the record. -/
theorem Documentation.fold_draft (d : Documentation) (item : ListItem) (parent : ListBlock) :
    d.draft.fold item.toPayload parent.toPayload = .ok (d.fold item parent).draft := by
  have hlast : d.draft.discussion.getLast? = d.discussion.getLast?.map Part.toPayload :=
    List.getLast?_map
  have hopened := d.draft_addPart
    (.block (.list { kind := parent.kind, items := [item], marker := parent.marker }))
  obtain ⟨kind, items, marker, start⟩ := parent
  rw [Draft.fold, Documentation.fold, hlast]
  cases d.discussion.getLast? with
  | none => exact congrArg Except.ok hopened.symm
  | some part =>
      cases part with
      | callout c => exact congrArg Except.ok hopened.symm
      | block b =>
          cases b with
          | list l =>
              have hpushed := item.pushItem_toPayload l
              obtain ⟨kind, items, marker, start⟩ := l
              change (pushItem item.toPayload (ListBlock.toPayload ⟨kind, items, marker, start⟩)
                >>= fun last => pure
                  { d.draft with discussion := d.draft.discussion.dropLast ++ [last] }) = _
              rw [hpushed, ok_bind]
              simp [draft, Part.toPayload, Block.toPayload, List.map_dropLast]
              rfl
          | _ => exact congrArg Except.ok hopened.symm

/-! ## Steps -/

/-- The failure of a typed step, as one of a step on payloads. -/
def Failure.stepError {ε : Type} : Failure ε → StepError ε
  | .markdown error => .markdown error
  | .misuse place => .misuse place

namespace DraftStep

variable {ε α β α' β' : Type}

/-- A step's outcome and the draft after it. -/
def runFrom (step : DraftStep ε α) (draft : Draft) : Except (StepError ε) α × Draft :=
  (step.run).run draft

theorem runFrom_bind (step : DraftStep ε α) (next : α → DraftStep ε β) (draft : Draft) :
    runFrom (step >>= next) draft =
      match runFrom step draft with
      | (.ok a, after) => runFrom (next a) after
      | (.error error, after) => (.error error, after) := by
  simp only [runFrom, ExceptT.run_bind, StateT.run_bind]
  cases (ExceptT.run step).run draft with
  | mk outcome after => cases outcome <;> rfl

theorem look_ok (value : α) : (look (.ok value) : DraftStep ε α) = pure value := rfl

/-- A step on payloads does to the draft of a record what a typed step does to the record.  It ends
alike, with the embedded result or with the same failure. -/
def Mirrors (embed : α → β) (step : DraftStep ε β) (typed : Extraction ε α) : Prop :=
  ∀ progress, runFrom step progress.documentation.draft
    = (((typed.runFrom progress).1.map embed).mapError Failure.stepError,
        (typed.runFrom progress).2.documentation.draft)

theorem mirrors_pure (embed : α → β) (a : α) :
    Mirrors embed (pure (embed a) : DraftStep ε β) (pure a) := fun _ => rfl

theorem mirrors_throw (embed : α → β) (failure : Failure ε) :
    Mirrors embed (throw failure.stepError : DraftStep ε β) (throw failure) := fun _ => rfl

/-- Steps that mirror each other may be followed by steps that do, for every result that there can
be. -/
theorem mirrors_bind {embed : α → β} {embed' : α' → β'} {step : DraftStep ε β}
    {typed : Extraction ε α} {next : β → DraftStep ε β'} {typedNext : α → Extraction ε α'}
    (h : Mirrors embed step typed)
    (hnext : ∀ a, (∃ progress, (typed.runFrom progress).1 = .ok a) →
      Mirrors embed' (next (embed a)) (typedNext a)) :
    Mirrors embed' (step >>= next) (typed >>= typedNext) := by
  intro progress
  rw [runFrom_bind, h progress, Extraction.runFrom_bind]
  rcases hrun : typed.runFrom progress with ⟨failure | a, after⟩
  · rfl
  · exact hnext a ⟨progress, by rw [hrun]⟩ after

/-- A visit ends with the stage for what follows. -/
theorem mirrors_stage {embed : α → β} {step : DraftStep ε β} {typed : Extraction ε α}
    (h : Mirrors embed step typed) (stage : Stage) :
    Mirrors id (step >>= fun _ => pure stage) (typed >>= fun _ => pure stage) :=
  mirrors_bind h fun _ _ => mirrors_pure id stage

theorem mirrors_markdown (read : String → Except ε Document) (text : String) :
    Mirrors Document.toPayload (DraftStep.markdown read text) (Extraction.markdown read text) := by
  intro progress
  rw [Extraction.runFrom_markdown, DraftStep.markdown]
  cases read text <;> rfl

theorem mirrors_grow {change : Draft → Draft} {grown : Documentation → Documentation}
    (h : ∀ d, change d.draft = (grown d).draft) :
    Mirrors id (modify change : DraftStep ε Unit) (Extraction.grow grown) := by
  intro progress
  rw [Extraction.runFrom_grow, ← h]
  rfl

/-- A draft has no log. -/
theorem mirrors_report {embed : α → β} {step : DraftStep ε β} {typed : Extraction ε α}
    (h : Mirrors embed step typed) (record : LogRecord) :
    Mirrors embed step (Extraction.report record >>= fun _ => typed) := by
  intro progress
  rw [Extraction.runFrom_bind, Extraction.runFrom_report]
  exact h { progress with log := progress.log ++ [record] }

end DraftStep

namespace SectionReader

open DraftStep

variable {ε : Type} (reader : SectionReader ε)

theorem foldPayload_mirrors (item : ListItem) (parent : ListBlock) :
    Mirrors id (foldPayload item.toPayload parent.toPayload : DraftStep ε Unit)
      (Extraction.grow (·.fold item parent)) := by
  intro progress
  have hfold := progress.documentation.fold_draft item parent
  have hrun : runFrom (foldPayload item.toPayload parent.toPayload : DraftStep ε Unit)
      progress.documentation.draft
        = runFrom (look (progress.documentation.draft.fold item.toPayload parent.toPayload) >>= set)
            progress.documentation.draft := rfl
  rw [hrun, hfold]
  rfl

theorem addParameterPayload_mirrors (name description : String) :
    Mirrors id (reader.addParameterPayload name description)
      (reader.addParameter name description) := by
  refine mirrors_bind (mirrors_markdown reader.markdown description) fun content _ => ?_
  exact mirrors_grow fun d => (d.draft_addParameter { name, content }).symm

/-- The bullet lists of an item. -/
theorem nestedLists_toPayload (item : ListItem) :
    nestedLists item.toPayload
      = .ok ((item.children.filterMap Block.bulletList?).map ListBlock.toPayload) := by
  rw [nestedLists, item.children_toPayload, ok_bind, elements, ok_bind, Block.filter_isBulletList]
  rfl

/-- The item in a stage, where the nested lists are entered alike unless the stage is that of a
section. -/
theorem visitPayloadItem_mirrors {enter : List Payload → DraftStep ε Unit} (stage : Stage)
    (depth : Int) (parent : ListBlock) (item : ListItem)
    (henter : stage ≠ .parameters → Mirrors id
      (enter ((item.children.filterMap Block.bulletList?).map ListBlock.toPayload))
      (reader.visitSection (depth + 1) item.children)) :
    Mirrors id
      (reader.visitPayloadItem enter stage depth parent.toPayload item.toPayload)
      (reader.visitItem stage depth parent item) := by
  have hfold : Mirrors id (foldPayload item.toPayload parent.toPayload : DraftStep ε Unit) _ :=
    foldPayload_mirrors item parent
  obtain ⟨text, children⟩ := item
  rw [visitPayloadItem, visitItem, ListItem.field?_toPayload]
  cases htakes : stage.takesItems with
  | false => exact mirrors_throw id (.misuse (.item stage))
  | true =>
      simp only [Bool.not_true, Bool.false_eq_true, if_false, look_ok, pure_bind]
      cases hdestination : Destination.ofField (stage == .parameters) (depth < reader.maxDepth)
          (ListItem.field? ⟨text, children⟩) with
      | content => exact mirrors_stage hfold stage
      | unrecognized name => exact mirrors_report (mirrors_stage hfold stage) _
      | tooDeep => exact mirrors_report (mirrors_stage hfold stage) _
      | parameter name description =>
          exact mirrors_stage (reader.addParameterPayload_mirrors name description) stage
      | parameters =>
          have houtside : stage ≠ .parameters := by
            rintro rfl
            cases hfield : ListItem.field? ⟨text, children⟩ <;>
              simp [Destination.ofField, hfield] at hdestination
          rw [nestedLists_toPayload, look_ok, pure_bind]
          exact mirrors_stage (henter houtside) .discussion
      | returns description =>
          refine mirrors_bind (mirrors_markdown reader.markdown description) fun content _ => ?_
          exact mirrors_stage (mirrors_grow fun d => rfl) stage
      | throws description =>
          refine mirrors_bind (mirrors_markdown reader.markdown description) fun content _ => ?_
          exact mirrors_stage (mirrors_grow fun d => rfl) stage
      | callout label content =>
          have hadded (d : Documentation) := (d.draft_addPart (.callout { label, content })).symm
          exact mirrors_stage (mirrors_grow hadded) stage

/-- The items of a list one after the other, while a stage is one of those in which they are read
alike. -/
theorem visitEach_mirrors {visit : Stage → Payload → DraftStep ε Stage} (depth : Int)
    (parent : ListBlock) {P : Stage → Prop}
    (hvisit : ∀ stage item, P stage → Mirrors id (visit stage item.toPayload)
      (reader.visitItem stage depth parent item))
    (hstays : ∀ stage item after, P stage →
      (∃ progress, ((reader.visitItem stage depth parent item).runFrom progress).1 = .ok after) →
        P after)
    (items : List ListItem) (stage : Stage) (h : P stage) :
    Mirrors id (visitEach visit stage (items.map ListItem.toPayload))
      (reader.visitItems stage depth parent items) := by
  induction items generalizing stage with
  | nil => exact mirrors_pure id stage
  | cons item items ih =>
      rw [visitItems]
      exact mirrors_bind (hvisit stage item h) fun after hafter =>
        ih after (hstays stage item after h hafter)

theorem items_toPayload (l : ListBlock) :
    (l.toPayload.part "items" >>= Payload.elements) = .ok (l.items.map ListItem.toPayload) := by
  obtain ⟨kind, items, marker, start⟩ := l
  rw [← ListItem.toPayloads_eq_map]
  rfl

/-- Inside a section no further section opens, so nothing has to be entered. -/
theorem visitSectionList_mirrors (depth : Int) (l : ListBlock) :
    Mirrors (fun _ : Stage => ()) (reader.visitSectionList depth l.toPayload)
      (reader.visitItems .parameters depth l l.items) := by
  have hvisit (stage : Stage) (item : ListItem) (h : stage = .parameters) :
      Mirrors id
        (reader.visitPayloadItem (fun _ => pure ()) stage depth l.toPayload item.toPayload)
        (reader.visitItem stage depth l item) :=
    reader.visitPayloadItem_mirrors stage depth l item fun houtside => absurd h houtside
  have hstays (stage : Stage) (item : ListItem) (after : Stage) (h : stage = .parameters)
      (hrun : ∃ progress, ((reader.visitItem stage depth l item).runFrom progress).1 = .ok after) :
      after = .parameters := by
    obtain ⟨progress, hafter⟩ := hrun
    rw [h, visitItem_parameters, Extraction.runFrom_bind] at hafter
    split at hafter
    · exact (Except.ok.inj hafter).symm
    · cases hafter
  have heach := visitEach_mirrors reader depth l hvisit hstays l.items .parameters rfl
  rw [visitSectionList, items_toPayload, look_ok, pure_bind,
    ← bind_pure (reader.visitItems _ _ _ _)]
  exact mirrors_bind heach fun stage _ => mirrors_pure (fun _ : Stage => ()) stage

/-- In a section all blocks are passed over that are no bullet lists. -/
theorem visitSection_cons (depth : Int) (block : Block) (blocks : List Block) :
    reader.visitSection depth (block :: blocks)
      = block.bulletList?.elim (reader.visitSection depth blocks) fun l =>
          reader.visitItems .parameters depth l l.items
            >>= fun _ => reader.visitSection depth blocks := by
  cases block with
  | list l =>
      obtain ⟨kind, items, marker, start⟩ := l
      cases kind <;> simp [visitSection, Block.bulletList?, ListBlock.isBullet]
  | _ => simp [visitSection, Block.bulletList?]

theorem visitSection_mirrors (depth : Int) (blocks : List Block) :
    Mirrors id
      (((blocks.filterMap Block.bulletList?).map ListBlock.toPayload).forM
        (reader.visitSectionList depth))
      (reader.visitSection depth blocks) := by
  induction blocks with
  | nil => exact mirrors_pure id ()
  | cons block blocks ih =>
      rw [visitSection_cons, List.filterMap_cons]
      cases block.bulletList? with
      | none => exact ih
      | some l => exact mirrors_bind (reader.visitSectionList_mirrors depth l) fun _ _ => ih

/-- **An item is read the same.** -/
theorem visitItemPayload_mirrors (stage : Stage) (depth : Int) (parent : ListBlock)
    (item : ListItem) :
    Mirrors id (reader.visitItemPayload stage depth parent.toPayload item.toPayload)
      (reader.visitItem stage depth parent item) :=
  reader.visitPayloadItem_mirrors stage depth parent item fun _ =>
    reader.visitSection_mirrors (depth + 1) item.children

/-- **A list is read the same.** -/
theorem visitListPayload_mirrors (stage : Stage) (depth : Int) (l : ListBlock) :
    Mirrors id (reader.visitListPayload stage depth l.toPayload)
      (reader.visitList stage depth l) := by
  have hvisit (stage : Stage) (item : ListItem) (_ : True) :=
    reader.visitItemPayload_mirrors stage depth l item
  have heach :=
    reader.visitEach_mirrors depth l hvisit (fun _ _ _ _ _ => trivial) l.items stage trivial
  rw [visitListPayload, items_toPayload, look_ok, pure_bind, visitList]
  exact mirrors_stage heach .discussion

/-- **A block is read the same.** -/
theorem visitBlockPayload_mirrors (stage : Stage) (block : Block) :
    Mirrors id (reader.visitBlockPayload stage block.toPayload)
      (reader.visitBlock stage block) := by
  rw [visitBlockPayload, visitBlock, block.isParagraph_toPayload]
  cases Stage.opening block.isParagraph stage with
  | summary => exact mirrors_stage (mirrors_grow fun d => rfl) .discussion
  | discussion =>
      cases hlist : block.bulletList? with
      | none =>
          have hbullet : block.toPayload.isBulletList = false := by
            rw [block.isBulletList_toPayload, hlist]
            rfl
          have hadded (d : Documentation) := (d.draft_addPart (.block block)).symm
          rw [hbullet]
          exact mirrors_stage (mirrors_grow hadded) .discussion
      | some l =>
          obtain ⟨rfl, -⟩ := Block.bulletList?_eq_some hlist
          have hbullet : (Block.list l).toPayload.isBulletList = true := by
            rw [Block.isBulletList_toPayload, hlist]
            rfl
          rw [hbullet]
          exact reader.visitListPayload_mirrors .discussion 0 l
  | initial => exact mirrors_throw id (.misuse (.block .initial))
  | parameters => exact mirrors_throw id (.misuse (.block .parameters))

end SectionReader

end DocComment
