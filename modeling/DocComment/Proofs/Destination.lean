import DocComment.Proofs.Meaning
import DocComment.Proofs.FieldText

/-!
# Items by their destinations

What an item of a top-level list contributes to a record follows its destination alone
(`Event.ofItem_eq`), and the destination follows the field that the item states:

* `Destination.ofField_cases` says how.  A prefix makes a parameter and so does the name
  "parameter"; any other name sends the field somewhere, with its own description
  (`ofField_of_name_eq`, `ofField_text`).
* A description for the Markdown reader is always that of a field which stands in some text
  (`exists_split?_of_text?`), so it stands in one line (`Field.notMem_description`).
* Of the list around a folded item, a record shows kind and marker only (`Event.detach`).
-/

namespace DocComment

open Text

/-! ## Fields and their destinations -/

/-- The name in lower case, by which a destination is chosen. -/
def Field.lowerName (field : Field) : String :=
  String.ofList (lowerLetters field.name.toList)

/-- A description that a text states stands in one line. -/
theorem Field.notMem_description {text : String} {field : Field}
    (h : Field.split? text = some field) :
    '\r' ∉ field.description.toList := by
  have hscan (isParameter : Bool) (scanned : List Char × List Char) :
      '\r' ∉ (Field.ofScan isParameter scanned).description.toList := by
    rw [Field.ofScan, String.toList_ofList]
    exact fun hmem => absurd (isLineBreak_of_mem_flow hmem) (by decide)
  rw [Field.split?] at h
  split at h
  next scanned _ =>
    cases h
    exact hscan true scanned
  next =>
    obtain ⟨scanned, -, rfl⟩ := Option.map_eq_some_iff.mp h
    exact hscan false scanned

namespace Destination

/-- The text that goes to the Markdown reader. -/
def text? : Destination → Option String
  | .parameter _ description => some description
  | .returns description => some description
  | .throws description => some description
  | _ => none

/-- Whether the item stays list content. -/
def folds : Destination → Bool
  | .content => true
  | .unrecognized _ => true
  | .tooDeep => true
  | _ => false

/-- The description of the returned value. -/
def returns? : Destination → Option String
  | .returns description => some description
  | _ => none

/-- The description of the thrown errors. -/
def throws? : Destination → Option String
  | .throws description => some description
  | _ => none

/-- The destination with another description, unless it is a parameter. -/
def withText (text : String) : Destination → Destination
  | .returns _ => .returns text
  | .throws _ => .throws text
  | .callout label _ => .callout label text
  | destination => destination

/-- A field named "parameter" states one, wherever its name comes from. -/
theorem ofName_parameter {field : Field} (h : field.lowerName = "parameter") (mayEnter : Bool) :
    ofName mayEnter field = ofParameterField field := by
  rw [Field.lowerName] at h
  simp [ofName, h]

theorem ofName_announcement {field : Field} (h : field.lowerName = "parameter") (mayEnter : Bool) :
    ∃ name description, ofName mayEnter field = .parameter name description := by
  obtain ⟨name, description, hparameter, -⟩ := SectionReader.ofParameterField_agrees field
  exact ⟨name, description, (ofName_parameter h mayEnter).trans hparameter⟩

/-- Any other field goes where its name sends it, with its own description. -/
theorem ofName_of_name_eq {field other : Field} (hname : field.name = other.name)
    (h : field.lowerName ≠ "parameter") (mayEnter : Bool) :
    (∀ name description, ofName mayEnter field ≠ .parameter name description)
      ∧ ofName mayEnter other = (ofName mayEnter field).withText other.description := by
  rw [Field.lowerName] at h
  simp only [ofName, ← hname, h, if_false]
  split_ifs
  · exact ⟨by simp, rfl⟩
  · exact ⟨by simp, rfl⟩
  · exact ⟨by simp, rfl⟩
  · exact ⟨by simp, rfl⟩
  · cases CalloutLabel.lookup? field.name with
    | none => exact ⟨by simp, rfl⟩
    | some label => exact ⟨by simp, rfl⟩

/-- Outside a section, a field without a prefix goes where its name sends it. -/
theorem ofField_eq_ofName {field : Field} (h : field.isParameter = false) (mayEnter : Bool) :
    ofField false mayEnter (some field) = ofName mayEnter field := by
  simp [ofField, h]

/-- Outside a section, a field is a parameter because of its prefix or of its name; otherwise its
name alone sends it somewhere. -/
theorem ofField_cases (mayEnter : Bool) (field : Field) :
    ofField false mayEnter (some field) = .parameter field.name field.description
      ∨ (field.lowerName = "parameter"
        ∧ ∃ name description, ofField false mayEnter (some field) = .parameter name description)
      ∨ (field.lowerName ≠ "parameter"
        ∧ (∀ name description, ofField false mayEnter (some field) ≠ .parameter name description)
        ∧ ofField false mayEnter (some field) = ofName mayEnter field) := by
  cases hprefix : field.isParameter with
  | true => exact .inl (by simp [ofField, hprefix])
  | false =>
      rw [ofField_eq_ofName hprefix]
      by_cases hannounced : field.lowerName = "parameter"
      · exact .inr (.inl ⟨hannounced, ofName_announcement hannounced mayEnter⟩)
      · exact .inr (.inr ⟨hannounced, (ofName_of_name_eq rfl hannounced mayEnter).1, rfl⟩)

/-- Fields of one name that are no parameters go to the same place. -/
theorem ofField_of_name_eq {field other : Field} (hname : field.name = other.name) (mayEnter : Bool)
    (hfield : ∀ name description,
      ofField false mayEnter (some field) ≠ .parameter name description)
    (hother : ∀ name description,
      ofField false mayEnter (some other) ≠ .parameter name description) :
    ofField false mayEnter (some other)
      = (ofField false mayEnter (some field)).withText other.description := by
  rcases ofField_cases mayEnter field with h | ⟨-, _, _, h⟩ | ⟨hannounced, -, hsent⟩
  · exact absurd h (hfield _ _)
  · exact absurd h (hfield _ _)
  rcases ofField_cases mayEnter other with h | ⟨-, _, _, h⟩ | ⟨-, -, hsentOther⟩
  · exact absurd h (hother _ _)
  · exact absurd h (hother _ _)
  rw [hsent, hsentOther]
  exact (ofName_of_name_eq hname hannounced mayEnter).2

/-- A field has its own description, but for the parameter that an announcement may name. -/
theorem ofField_text (mayEnter : Bool) (field : Field) :
    ofField false mayEnter (some field)
        = (ofField false mayEnter (some field)).withText field.description
      ∧ (field.lowerName ≠ "parameter" → ∀ name text,
          ofField false mayEnter (some field) = .parameter name text →
            text = field.description) := by
  rcases ofField_cases mayEnter field with h | ⟨hannounced, _, _, h⟩ | ⟨hnamed, hnot, h⟩
  · rw [h]
    exact ⟨rfl, fun _ name text heq => by cases heq; rfl⟩
  · rw [h]
    exact ⟨rfl, fun hnamed => absurd hannounced hnamed⟩
  · refine ⟨?_, fun _ name text heq => absurd heq (hnot name text)⟩
    rw [h]
    exact (ofName_of_name_eq rfl hnamed mayEnter).2

/-- A description for the Markdown reader is that of a field which stands in a text. -/
theorem exists_split?_of_text? {mayEnter : Bool} {source : String} {field : Field}
    (h : Field.split? source = some field) {text : String}
    (htext : text ∈ (ofField false mayEnter (some field)).text?) :
    ∃ source named, Field.split? source = some named ∧ text = named.description := by
  have hown (hmem : text ∈ some field.description) :
      ∃ source named, Field.split? source = some named ∧ text = named.description :=
    ⟨source, field, h, (Option.mem_some.mp hmem).symm⟩
  simp only [ofField, Bool.false_or] at htext
  split_ifs at htext
  · exact hown htext
  simp only [ofName] at htext
  split_ifs at htext
  · cases htext
  · cases htext
  · -- the text may be the description of the field that stands in the description
    rw [ofParameterField] at htext
    split at htext
    · exact hown htext
    split at htext
    next named hnamed => exact ⟨field.description, named, hnamed, (Option.mem_some.mp htext).symm⟩
    · exact hown htext
  · exact hown htext
  · exact hown htext
  · split at htext <;> cases htext

/-- What an item contributes at a destination.  A section contributes what the items in it do. -/
def events (maxDepth : Int) (parent : ListBlock) (item : ListItem) : Destination → List Event
  | .content => [.fold item parent none]
  | .unrecognized name => [.fold item parent (some (.unrecognizedField name))]
  | .tooDeep => [.fold item parent (some (.sectionTooDeep maxDepth))]
  | .parameter name description => [.parameter name description]
  | .parameters => Event.ofSection item.children
  | .returns description => [.returns description]
  | .throws description => [.throws description]
  | .callout label text => [.callout label text]

end Destination

/-- The destination of an item of a top-level list. -/
def ListItem.destination (maxDepth : Int) (item : ListItem) : Destination :=
  Destination.ofField false (0 < maxDepth) item.field?

namespace Event

/-- An item at top level contributes what its destination says. -/
theorem ofItem_eq (maxDepth : Int) (parent : ListBlock) (item : ListItem) :
    ofItem maxDepth 0 parent item = (item.destination maxDepth).events maxDepth parent item := by
  rw [ofItem, ListItem.destination]
  cases item.field? with
  | none => rfl
  | some field =>
      by_cases hprefix : field.isParameter
      · simp [Destination.ofField, Destination.events, hprefix]
      obtain ⟨name, description, hdestination, hevent⟩ :=
        SectionReader.ofParameterField_agrees field
      simp only [Destination.ofField, Destination.ofName, ofField, hprefix, hdestination, hevent,
        Bool.false_or, Bool.false_eq_true, if_false, decide_eq_true_eq]
      -- the keywords are tried in the same order on both sides
      split_ifs <;> try rfl
      cases CalloutLabel.lookup? field.name <;> rfl

/-- In a section there are parameters and folded items only. -/
theorem stated_of_mem_ofSection {blocks : List Block} :
    ∀ event ∈ ofSection blocks, event.returns? = none ∧ event.throws? = none := by
  intro event h
  obtain ⟨list, -, hevent⟩ := List.mem_flatMap.mp h
  obtain ⟨item, -, rfl⟩ := List.mem_map.mp hevent
  rw [ofSectionItem]
  split <;> exact ⟨rfl, rfl⟩

/-- An item states the returned value or thrown errors exactly if its destination says so. -/
theorem stated_of_mem_events {destination : Destination} {maxDepth : Int} {parent : ListBlock}
    {item : ListItem} :
    ∀ event ∈ destination.events maxDepth parent item,
      event.returns? = destination.returns? ∧ event.throws? = destination.throws? := by
  intro event hevent
  cases destination with
  | parameters => exact stated_of_mem_ofSection event hevent
  | _ =>
      obtain rfl := List.mem_singleton.mp hevent
      exact ⟨rfl, rfl⟩

/-- What a record shows of an event: of the list that a folded item stood in, only kind and marker.
-/
def detach : Event → Event
  | .fold item parent _ => .fold item { kind := parent.kind, marker := parent.marker } none
  | event => event

theorem apply_detach (content : String → Document) (d : Documentation) (event : Event) :
    event.detach.apply content d = event.apply content d := by
  cases event <;> rfl

theorem ofEvents_map_detach (content : String → Document) (summary : Option Block)
    (events : List Event) :
    Documentation.ofEvents content summary (events.map detach)
      = Documentation.ofEvents content summary events := by
  rw [← foldl_apply_summary_only, ← foldl_apply_summary_only, List.foldl_map]
  simp only [apply_detach]

/-- Lists of one kind and marker make no difference. -/
theorem map_detach_ofItem {parent other : ListBlock} (hkind : parent.kind = other.kind)
    (hmarker : parent.marker = other.marker) (maxDepth : Int) (item : ListItem) :
    (ofItem maxDepth 0 parent item).map detach = (ofItem maxDepth 0 other item).map detach := by
  rw [ofItem_eq, ofItem_eq]
  cases item.destination maxDepth <;> simp [Destination.events, detach, hkind, hmarker]

end Event

end DocComment
