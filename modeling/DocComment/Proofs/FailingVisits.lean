import DocComment.Proofs.Calls
import DocComment.Proofs.Destination

/-!
# What a failing visit leaves behind

A visit may fail half-way, and what it did before remains done.  A failing event does nothing to the
record (`documentation_of_perform_error`), so that what remains is what was finished before it:

* the visit of a single item leaves the record as it was, unless the item is a section that is
  entered;
* in a section that is entered, the nested items in front of the failing one remain done;
* in a list, the items in front of the failing one remain done, and what that one leaves is added.

`Extraction.foldlM_error_iff` is the step behind the last two: steps one after the other fail if and
only if they break off at one position.  `failing_visits_exact` states all three.
-/

namespace DocComment

/-! ## Steps one after the other -/

namespace Extraction

variable {ε α β : Type}

/-- A fixed result behind a step is the result, if the step succeeds. -/
theorem eq_of_runFrom_bind_pure {step : Extraction ε α} {result found : β}
    {progress after : Progress}
    (h : runFrom (step >>= fun _ => pure result) progress = (.ok found, after)) :
    found = result := by
  rw [runFrom_bind] at h
  rcases hstep : runFrom step progress with ⟨failure | done, between⟩
  · rw [hstep] at h
    cases h
  · rw [hstep] at h
    cases h
    rfl

/-- With a fixed result behind it, a step fails as it does without. -/
theorem runFrom_bind_pure_error_iff {step : Extraction ε α} {result : β} {progress after : Progress}
    {failure : Failure ε} :
    runFrom (step >>= fun _ => pure result) progress = (.error failure, after)
      ↔ runFrom step progress = (.error failure, after) := by
  rw [runFrom_bind]
  rcases runFrom step progress with ⟨other | done, between⟩
  · simp
  · simp

/-- Steps over elements, each from the result of the one before, break off at a position: the steps
in front of it succeed, and the step there fails from where they end. -/
def BreaksOffAt (step : β → α → Extraction ε β) (start : β) (elements : List α)
    (progress : Progress) (failure : Failure ε) (after : Progress) (i : Nat) : Prop :=
  ∃ element between before, elements[i]? = some element
    ∧ runFrom ((elements.take i).foldlM step start) progress = (.ok between, before)
    ∧ runFrom (step between element) before = (.error failure, after)

variable {step : β → α → Extraction ε β} {start : β} {element : α} {elements : List α}
  {progress between after : Progress} {failure : Failure ε}

theorem not_breaksOffAt_nil (i : Nat) : ¬BreaksOffAt step start [] progress failure after i := by
  rintro ⟨element, next, before, helement, -⟩
  simp at helement

/-- Where the first step fails, steps break off there. -/
theorem breaksOffAt_cons_of_error {other : Failure ε}
    (h : runFrom (step start element) progress = (.error other, between)) (i : Nat) :
    BreaksOffAt step start (element :: elements) progress failure after i
      ↔ i = 0
        ∧ (Except.error other, between) = ((.error failure, after) : Except _ β × Progress) := by
  cases i with
  | zero => simp [BreaksOffAt, h]
  | succ i => simp [BreaksOffAt, List.foldlM_cons, runFrom_bind, h]

/-- Where the first step succeeds, the others go on from there. -/
theorem breaksOffAt_cons_of_ok {next : β}
    (h : runFrom (step start element) progress = (.ok next, between)) (i : Nat) :
    BreaksOffAt step start (element :: elements) progress failure after i
      ↔ ∃ j, i = j + 1 ∧ BreaksOffAt step next elements between failure after j := by
  cases i with
  | zero => simp [BreaksOffAt, h]
  | succ i => simp [BreaksOffAt, List.foldlM_cons, runFrom_bind, h]

/-- **Steps one after the other fail exactly where they break off,** at one position. -/
theorem foldlM_error_iff :
    runFrom (elements.foldlM step start) progress = (.error failure, after)
      ↔ ∃! i, BreaksOffAt step start elements progress failure after i := by
  induction elements generalizing start progress with
  | nil => simp [not_breaksOffAt_nil, ExistsUnique]
  | cons element elements ih =>
      rw [List.foldlM_cons, runFrom_bind]
      rcases h : runFrom (step start element) progress with ⟨other | next, between⟩
      · simp only [breaksOffAt_cons_of_error h]
        simp [ExistsUnique]
      · simp only [breaksOffAt_cons_of_ok h, ih]
        constructor
        · rintro ⟨j, hj, hunique⟩
          refine ⟨j + 1, ⟨j, rfl, hj⟩, ?_⟩
          rintro _ ⟨k, rfl, hk⟩
          rw [hunique k hk]
        · rintro ⟨_, ⟨j, rfl, hj⟩, hunique⟩
          exact ⟨j, hj, fun k hk => Nat.succ_injective (hunique (k + 1) ⟨k, rfl, hk⟩)⟩

end Extraction

/-! ## Nested items -/

/-- The items of the bullet lists among blocks, each with its list. -/
def Block.nestedItems (blocks : List Block) : List (ListBlock × ListItem) :=
  (blocks.filterMap Block.bulletList?).flatMap fun list => list.items.map (Prod.mk list)

theorem Event.ofSection_eq_map (blocks : List Block) :
    Event.ofSection blocks
      = (Block.nestedItems blocks).map fun nested => Event.ofSectionItem nested.1 nested.2 := by
  simp [Event.ofSection, Block.nestedItems, List.map_flatMap, Function.comp_def]

namespace SectionReader

open Extraction

variable {ε : Type} (reader : SectionReader ε)

/-- Reads nested items one after the other, from the stage of parameters on. -/
def visitNested (depth : Int) (nested : List (ListBlock × ListItem)) : Extraction ε Stage :=
  nested.foldlM (fun stage placed => reader.visitItem stage depth placed.1 placed.2) .parameters

theorem visitNested_eq (depth : Int) (nested : List (ListBlock × ListItem)) :
    reader.visitNested depth nested
      = reader.performAll (nested.map fun placed => Event.ofSectionItem placed.1 placed.2)
          >>= fun _ => pure .parameters := by
  induction nested with
  | nil => simp [visitNested]
  | cons placed nested ih =>
      rw [visitNested, List.foldlM_cons, visitItem_parameters]
      simp only [bind_assoc, pure_bind]
      rw [← visitNested, ih]
      simp

/-- The nested items are read in the stage of parameters to the end. -/
theorem visitNested_ends {depth : Int} {nested : List (ListBlock × ListItem)} {stage : Stage}
    {progress after : Progress}
    (h : runFrom (reader.visitNested depth nested) progress = (.ok stage, after)) :
    stage = .parameters := by
  rw [visitNested_eq] at h
  exact eq_of_runFrom_bind_pure h

theorem visitItems_eq_foldlM (stage : Stage) (depth : Int) (parent : ListBlock)
    (items : List ListItem) :
    reader.visitItems stage depth parent items
      = items.foldlM (fun stage item => reader.visitItem stage depth parent item) stage := by
  induction items generalizing stage with
  | nil => simp [visitItems]
  | cons item items ih => simp [visitItems, ih]

/-! ## Single items -/

/-- Whether an item in the discussion is a section that is entered: a field without an announcement,
of the name "parameters" in any letter case, at a permitted depth. -/
def EntersSection (depth : Int) (item : ListItem) : Prop :=
  depth < reader.maxDepth
    ∧ ∃ field, item.field? = some field ∧ field.isParameter = false ∧ field.lowerName = "parameters"

/-- An event that fails leaves the record as it was. -/
theorem documentation_of_perform_error {event : Event} {progress after : Progress}
    {failure : Failure ε} (h : runFrom (reader.perform event) progress = (.error failure, after)) :
    after.documentation = progress.documentation := by
  rcases reader.reads_or_refuses event.text? with ⟨content, hread⟩ | ⟨text, error, htext, hread⟩
  · rw [perform_ok reader content hread] at h
    cases h
  · rw [perform_error reader htext hread] at h
    cases h
    rfl

/-- So does a visit that is one event. -/
theorem documentation_of_error_of_event {visit : Extraction ε Stage} {event : Event} {stage : Stage}
    (hvisit : visit = reader.perform event >>= fun _ => pure stage) {progress after : Progress}
    {failure : Failure ε} (h : runFrom visit progress = (.error failure, after)) :
    after.documentation = progress.documentation := by
  rw [hvisit, runFrom_bind_pure_error_iff] at h
  exact reader.documentation_of_perform_error h

/-- An item that is no section is one event. -/
theorem ofItem_of_not_entersSection {depth : Int} {item : ListItem}
    (h : ¬reader.EntersSection depth item) (parent : ListBlock) :
    ∃ event, Event.ofItem reader.maxDepth depth parent item = [event] := by
  rw [Event.ofItem]
  cases hfield : item.field? with
  | none => exact ⟨_, rfl⟩
  | some field =>
      cases hparameter : field.isParameter with
      | true => exact ⟨.parameter field.name field.description, by simp [hparameter]⟩
      | false =>
          simp only [hparameter, Bool.false_eq_true, if_false, Event.ofField]
          split_ifs with hname hroom
          · exact absurd ⟨hroom, field, hfield, hparameter, hname⟩ h
          · exact ⟨_, rfl⟩
          · exact ⟨_, rfl⟩
          · exact ⟨_, rfl⟩
          · exact ⟨_, rfl⟩
          · cases CalloutLabel.lookup? field.name with
            | none => exact ⟨_, rfl⟩
            | some label => exact ⟨_, rfl⟩

/-- A visit of an item that fails, of any item but a section that is entered, leaves the record as
it was. -/
theorem documentation_of_visitItem_error {stage : Stage} {depth : Int} {item : ListItem}
    (h : ¬(stage = .discussion ∧ reader.EntersSection depth item)) {parent : ListBlock}
    {progress after : Progress} {failure : Failure ε}
    (hfails : runFrom (reader.visitItem stage depth parent item) progress
      = (.error failure, after)) :
    after.documentation = progress.documentation := by
  -- at the start and behind a summary, the failure comes first
  have hmisuse {misused : Stage} (htakes : misused.takesItems = false)
      (hrun : runFrom (reader.visitItem misused depth parent item) progress
        = (.error failure, after)) : after.documentation = progress.documentation := by
    obtain ⟨text, children⟩ := item
    rw [visitItem] at hrun
    simp only [htakes, Bool.not_false, if_true] at hrun
    cases hrun
    rfl
  cases stage with
  | initial => exact hmisuse rfl hfails
  | summary => exact hmisuse rfl hfails
  | parameters =>
      exact reader.documentation_of_error_of_event (reader.visitItem_parameters depth parent item)
        hfails
  | discussion =>
      obtain ⟨event, hevent⟩ :=
        reader.ofItem_of_not_entersSection (fun hsection => h ⟨rfl, hsection⟩) parent
      have hvisit : reader.visitItem .discussion depth parent item
          = reader.perform event >>= fun _ => pure .discussion := by
        rw [visitItem_discussion, hevent]
        simp
      exact reader.documentation_of_error_of_event hvisit hfails

/-- An item that is a section is read by reading its nested items. -/
theorem visitItem_of_entersSection {depth : Int} {item : ListItem}
    (h : reader.EntersSection depth item) (parent : ListBlock) :
    reader.visitItem .discussion depth parent item
      = reader.visitNested (depth + 1) (Block.nestedItems item.children)
          >>= fun _ => pure .discussion := by
  obtain ⟨hroom, field, hfield, hparameter, hname⟩ := h
  rw [Field.lowerName] at hname
  have hevents :
      Event.ofItem reader.maxDepth depth parent item = Event.ofSection item.children := by
    simp [Event.ofItem, Event.ofField, hfield, hparameter, hname, hroom]
  rw [visitItem_discussion, hevents, visitNested_eq, Event.ofSection_eq_map]
  simp

/-! ## Visits that fail -/

/-- A section breaks off at one of its nested items: those in front of it are read, in the stage of
parameters; its own visit fails from where they end, and leaves the record they leave. -/
def SectionBreaksOffAt (depth : Int) (item : ListItem) (progress : Progress) (failure : Failure ε)
    (after : Progress) (i : Nat) : Prop :=
  ∃ list nested before, (Block.nestedItems item.children)[i]? = some (list, nested)
    ∧ runFrom (reader.visitNested (depth + 1) ((Block.nestedItems item.children).take i)) progress
        = (.ok .parameters, before)
    ∧ runFrom (reader.visitItem .parameters (depth + 1) list nested) before
        = (.error failure, after)
    ∧ after.documentation = before.documentation

/-- A list breaks off at one of its items: those in front of it are read, and its own visit fails
from where they end. -/
def ListBreaksOffAt (stage : Stage) (depth : Int) (list : ListBlock) (progress : Progress)
    (failure : Failure ε) (after : Progress) (i : Nat) : Prop :=
  ∃ item reached before, list.items[i]? = some item
    ∧ runFrom (reader.visitItems stage depth list (list.items.take i)) progress
        = (.ok reached, before)
    ∧ runFrom (reader.visitItem reached depth list item) before = (.error failure, after)

variable {reader}

/-- In a section, steps that break off are nested items that do. -/
theorem sectionBreaksOffAt_iff {depth : Int} {item : ListItem} {progress after : Progress}
    {failure : Failure ε} {i : Nat} :
    reader.SectionBreaksOffAt depth item progress failure after i
      ↔ BreaksOffAt (fun stage placed => reader.visitItem stage (depth + 1) placed.1 placed.2)
          .parameters (Block.nestedItems item.children) progress failure after i := by
  constructor
  · rintro ⟨list, nested, before, hnested, hbefore, hfails, -⟩
    exact ⟨(list, nested), .parameters, before, hnested, hbefore, hfails⟩
  · rintro ⟨⟨list, nested⟩, reached, before, hnested, hbefore, hfails⟩
    obtain rfl := reader.visitNested_ends hbefore
    exact ⟨list, nested, before, hnested, hbefore, hfails,
      reader.documentation_of_visitItem_error (by simp) hfails⟩

theorem listBreaksOffAt_iff {stage : Stage} {depth : Int} {list : ListBlock}
    {progress after : Progress} {failure : Failure ε} {i : Nat} :
    reader.ListBreaksOffAt stage depth list progress failure after i
      ↔ BreaksOffAt (fun stage item => reader.visitItem stage depth list item) stage list.items
          progress failure after i := by
  simp only [ListBreaksOffAt, BreaksOffAt, visitItems_eq_foldlM]

variable (reader)

/-- **What a failing visit leaves behind.**  An item that is no section leaves the record as it
was.  A section that is entered fails exactly where one of its nested items does, and leaves the
record that the nested items in front of it make.  A list fails exactly where one of its items does,
and leaves what that one leaves behind the items in front of it. -/
theorem failing_visits_exact (depth : Int) (parent : ListBlock) (progress after : Progress)
    (failure : Failure ε) :
    (∀ stage item, ¬(stage = .discussion ∧ reader.EntersSection depth item) →
        runFrom (reader.visitItem stage depth parent item) progress = (.error failure, after) →
        after.documentation = progress.documentation)
      ∧ (∀ item, reader.EntersSection depth item →
          (runFrom (reader.visitItem .discussion depth parent item) progress
              = (.error failure, after)
            ↔ ∃! i, reader.SectionBreaksOffAt depth item progress failure after i))
      ∧ ∀ stage list,
          runFrom (reader.visitList stage depth list) progress = (.error failure, after)
            ↔ ∃! i, reader.ListBreaksOffAt stage depth list progress failure after i := by
  refine ⟨fun stage item hitem => reader.documentation_of_visitItem_error hitem, ?_, ?_⟩
  · intro item hitem
    rw [visitItem_of_entersSection reader hitem, runFrom_bind_pure_error_iff]
    simp only [sectionBreaksOffAt_iff]
    exact foldlM_error_iff
  · intro stage list
    rw [visitList, runFrom_bind_pure_error_iff, visitItems_eq_foldlM]
    simp only [listBreaksOffAt_iff]
    exact foldlM_error_iff

/-- A section whose second parameter is refused. -/
def brokenSection : ListItem where
  text := "- Parameters:"
  children := [.paragraph "Parameters:", .list {
    kind := .bullet
    items := [{ text := "- x: first" }, { text := "- y: nothing" }, { text := "- z: more" }] }]

/-- A list in which that section stands behind a field, and in front of one. -/
def brokenList : ListBlock where
  kind := .bullet
  items := [{ text := "- Returns: sum" }, brokenSection, { text := "- Throws: nothing" }]

/-- What a visit by the refusing reader leaves behind. -/
def leftBehind (visit : Extraction String Stage) : Progress :=
  (runFrom visit {}).2

/-- A visit that is refused leaves what it leaves. -/
theorem runFrom_eq_leftBehind {visit : Extraction String Stage} {failure : Failure String}
    (h : (runFrom visit {}).1 = .error failure) :
    runFrom visit {} = (.error failure, leftBehind visit) :=
  Prod.ext h rfl

theorem failing_visits_exact_refusing :
    (leftBehind (refusing.visitItem .discussion 0 brokenList
          { text := "- Throws: nothing" })).documentation = ({} : Progress).documentation
      ∧ (∃! i, refusing.SectionBreaksOffAt 0 brokenSection {} (.markdown "refused")
          (leftBehind (refusing.visitItem .discussion 0 brokenList brokenSection)) i)
      ∧ ∃! i, refusing.ListBreaksOffAt .discussion 0 brokenList {} (.markdown "refused")
          (leftBehind (refusing.visitList .discussion 0 brokenList)) i := by
  have hthrows : ¬(Stage.discussion = .discussion
      ∧ refusing.EntersSection 0 { text := "- Throws: nothing" }) := by
    rintro ⟨-, -, field, hfield, -, hname⟩
    have hthrown : ListItem.field? { text := "- Throws: nothing" }
        = some { isParameter := false, name := "Throws", description := "nothing" } := by
      decide +kernel
    rw [hthrown] at hfield
    cases hfield
    exact absurd hname (by decide)
  have hentered : refusing.EntersSection 0 brokenSection :=
    ⟨by decide, {
      isParameter := false, name := "Parameters"
      description := "- x: first\n- y: nothing\n- z: more", hasBlocks := true },
      by decide +kernel, rfl, by decide⟩
  have hitemRefused : (runFrom (refusing.visitItem .discussion 0 brokenList
      { text := "- Throws: nothing" }) {}).1 = .error (.markdown "refused") := by decide +kernel
  have hsectionRefused : (runFrom (refusing.visitItem .discussion 0 brokenList brokenSection) {}).1
      = .error (.markdown "refused") := by decide +kernel
  have hlistRefused : (runFrom (refusing.visitList .discussion 0 brokenList) {}).1
      = .error (.markdown "refused") := by decide +kernel
  obtain ⟨hitem, -, -⟩ := failing_visits_exact refusing 0 brokenList {}
    (leftBehind (refusing.visitItem .discussion 0 brokenList { text := "- Throws: nothing" }))
    (.markdown "refused")
  obtain ⟨-, hsection, -⟩ := failing_visits_exact refusing 0 brokenList {}
    (leftBehind (refusing.visitItem .discussion 0 brokenList brokenSection)) (.markdown "refused")
  obtain ⟨-, -, hlist⟩ := failing_visits_exact refusing 0 brokenList {}
    (leftBehind (refusing.visitList .discussion 0 brokenList)) (.markdown "refused")
  exact ⟨hitem .discussion _ hthrows (runFrom_eq_leftBehind hitemRefused),
    (hsection brokenSection hentered).mp (runFrom_eq_leftBehind hsectionRefused),
    (hlist .discussion brokenList).mp (runFrom_eq_leftBehind hlistRefused)⟩

end SectionReader

end DocComment
