import DocComment.Proofs.Acceptable

/-!
# What decoding checks

A value that is no record is refused.  Decoding checks for every fault but one: a tag is looked up
among the known ones as it is, and an array or an object cannot be looked up.  Decoding does not
refuse such a tag, it breaks off (`DecodeError.Checked`).

`Json.BreaksOff` says without decoding when that happens: on the way through the elements of arrays
and the fields of records such a tag comes up, and what stands before it is sound.  A fault that
stands before it is reported instead.  `Payload.refusals_checked_iff` says that decoding a value and
loading a text give a record or a checked refusal in all other cases, and in no others.
-/

namespace DocComment

/-! ## Checked faults -/

/-- Whether decoding checks for a fault, and so refuses the value because of it. -/
def DecodeError.Checked : DecodeError → Prop
  | .compoundTag => False
  | _ => True

/-- Whether loading refuses a text because of a fault that it checks for. -/
def LoadError.Checked : LoadError → Prop
  | .decode error => error.Checked
  | _ => True

theorem DecodeError.checked_iff {error : DecodeError} : error.Checked ↔ error ≠ .compoundTag := by
  cases error <;> simp [Checked]

theorem LoadError.checked_iff {error : LoadError} :
    error.Checked ↔ error ≠ .decode .compoundTag := by
  cases error <;> simp [Checked, DecodeError.checked_iff]

namespace Json

/-! ## Where decoding breaks off -/

/-- Whether nothing is wrong with a field of an object: it is absent, or it holds a sound value, or
the display name of a label where the kind holds one. -/
def FieldSound (kind : RecordKind) (members : List (String × Json)) (spec : FieldSpec) : Prop :=
  ∀ value, memberOf members spec.name = some value →
    if kind.holdsLabel spec.name then ∃ label : CalloutLabel, value = .str label.displayName
    else Sound value

/-- Whether decoding breaks off in a value: at the tag of an object, or in an element of an array or
a field of a record behind others that are sound. -/
inductive BreaksOff : Json → Prop where
  | element {before after : List Json} {element : Json} (sound : ∀ other ∈ before, Sound other)
    (breaks : BreaksOff element) : BreaksOff (.arr (before ++ element :: after))
  | arrayTag {members : List (String × Json)} {elements : List Json}
    (tag : memberOf members "type" = some (.arr elements)) : BreaksOff (.obj members)
  | objectTag {members parts : List (String × Json)}
    (tag : memberOf members "type" = some (.obj parts)) : BreaksOff (.obj members)
  | field {members : List (String × Json)} {kind : RecordKind} {before after : List FieldSpec}
    {spec : FieldSpec} {value : Json} (tag : memberOf members "type" = some (.str kind.tag))
    (order : kind.fields = before ++ spec :: after)
    (sound : ∀ other ∈ before, FieldSound kind members other)
    (plain : kind.holdsLabel spec.name = false) (present : memberOf members spec.name = some value)
    (breaks : BreaksOff value) : BreaksOff (.obj members)

/-- The first of what elements give in order comes from one of them, and those in front of it give
nothing. -/
theorem head?_flatMap_eq_some_iff {α β : Type} {f : α → List β} {elements : List α} {first : β} :
    (elements.flatMap f).head? = some first
      ↔ ∃ before element after, elements = before ++ element :: after
          ∧ (f element).head? = some first ∧ ∀ other ∈ before, f other = [] := by
  rw [List.head?_flatMap, List.findSome?_eq_some_iff]
  simp only [List.head?_eq_none_iff]

theorem fieldFaults_eq_nil_iff {kind : RecordKind} {members : List (String × Json)}
    {spec : FieldSpec} :
    fieldFaults kind members (memberFaults members) spec = [] ↔ FieldSound kind members spec := by
  rw [fieldFaults_eq, FieldSound]
  cases hvalue : memberOf members spec.name with
  | none => simp
  | some value =>
      simp only [Option.some.injEq, forall_eq']
      split
      · exact labelFaults_eq_nil_iff value
      · exact faults_eq_nil_iff value

/-- A field is broken off at exactly if it is there, holds no label, and its value is. -/
theorem head?_fieldFaults_iff {kind : RecordKind} {members : List (String × Json)}
    {spec : FieldSpec} :
    (fieldFaults kind members (memberFaults members) spec).head? = some .compoundTag
      ↔ kind.holdsLabel spec.name = false ∧ ∃ value, memberOf members spec.name = some value
          ∧ (faults value).head? = some .compoundTag := by
  have hlabel (value : Json) : (labelFaults value).head? ≠ some .compoundTag := by
    cases value with
    | str name =>
        rw [labelFaults]
        split <;> simp
    | _ => simp [labelFaults]
  rw [fieldFaults_eq]
  cases hvalue : memberOf members spec.name with
  | none => simp
  | some value =>
      cases hl : kind.holdsLabel spec.name with
      | true => simp [hlabel value]
      | false => simp

/-- Missing fields are not what an object is broken off at. -/
theorem head?_append_missingFaults {faults : List DecodeError} (kind : RecordKind)
    (members : List (String × Json)) :
    (faults ++ missingFaults kind members).head? = some .compoundTag
      ↔ faults.head? = some .compoundTag := by
  have hmissing : (missingFaults kind members).head? ≠ some .compoundTag := by
    rw [missingFaults]
    split <;> simp
  rw [List.head?_append]
  cases faults with
  | nil => simpa using hmissing
  | cons fault faults => simp

/-- An object is broken off at its tag, or else in one of its fields. -/
theorem head?_faults_obj_iff {members : List (String × Json)}
    (h : ∀ name value, memberOf members name = some value →
      ((faults value).head? = some .compoundTag ↔ BreaksOff value)) :
    (faults (.obj members)).head? = some .compoundTag ↔ BreaksOff (.obj members) := by
  rw [faults, objectFaults]
  cases hkind : kindTagged (memberOf members "type") with
  | none =>
      constructor
      · intro hfault
        cases htag : memberOf members "type" with
        | none => simp [htag, tagFault] at hfault
        | some tag =>
            cases tag with
            | arr elements => exact .arrayTag htag
            | obj parts => exact .objectTag htag
            | _ => simp [htag, tagFault] at hfault
      · intro hbreaks
        cases hbreaks with
        | arrayTag tag => simp [tag, tagFault]
        | objectTag tag => simp [tag, tagFault]
        | field tag order sound plain present breaks =>
            rw [kindTagged_eq_some_iff.mpr tag] at hkind
            cases hkind
  | some kind =>
      simp only [head?_append_missingFaults, head?_flatMap_eq_some_iff, head?_fieldFaults_iff,
        fieldFaults_eq_nil_iff]
      have htag := kindTagged_eq_some_iff.mp hkind
      constructor
      · rintro ⟨before, spec, after, horder, ⟨hplain, value, hvalue, hfault⟩, hsound⟩
        exact .field htag horder hsound hplain hvalue ((h _ value hvalue).mp hfault)
      · intro hbreaks
        cases hbreaks with
        | arrayTag tag =>
            rw [tag] at htag
            cases htag
        | objectTag tag =>
            rw [tag] at htag
            cases htag
        | @field _ tagged before after spec value tag order sound plain present breaks =>
            obtain rfl : tagged = kind := by
              rw [kindTagged_eq_some_iff.mpr tag] at hkind
              exact Option.some.inj hkind
            exact ⟨before, spec, after, order,
              ⟨plain, value, present, (h _ value present).mpr breaks⟩,
              sound⟩

/-- **Decoding breaks off where a compound tag is the first fault.** -/
theorem head?_faults_iff (j : Json) : (faults j).head? = some .compoundTag ↔ BreaksOff j := by
  induction j using Json.induct with
  | null | bool value | int value | real literal | str value =>
      constructor
      · intro h
        cases h
      · intro h
        cases h
  | arr elements ih =>
      rw [faults, faultsAll_eq_flatMap, head?_flatMap_eq_some_iff]
      constructor
      · rintro ⟨before, element, after, rfl, hfault, hsound⟩
        exact .element (fun other hm => (faults_eq_nil_iff other).mp (hsound other hm))
          ((ih element (by simp)).mp hfault)
      · intro hbreaks
        cases hbreaks with
        | @element before after element sound breaks =>
            exact ⟨before, element, after, rfl, (ih element (by simp)).mpr breaks,
              fun other hm => (faults_eq_nil_iff other).mpr (sound other hm)⟩
  | obj members ih => exact head?_faults_obj_iff ih

end Json

namespace Payload

open Json

/-! ## Records and texts -/

theorem errorOf_decodeRecord (j : Json) : errorOf (decodeRecord j) = errorOf (ofJson j) := by
  rw [ofJson]
  cases decodeRecord j <;> rfl

/-- Decoding a record breaks off exactly in an object in which it breaks off. -/
theorem decodeRecord_eq_compoundTag_iff (j : Json) :
    decodeRecord j = .error .compoundTag
      ↔ ∃ members, j = .obj members ∧ BreaksOff (.obj members) := by
  rw [← errorOf_eq_some_iff, errorOf_decodeRecord, errorOf_ofJson]
  cases j with
  | obj members =>
      rw [recordFaults, head?_faults_iff]
      simp
  | _ => simp [recordFaults]

theorem ofJson_eq_compoundTag_iff (j : Json) :
    ofJson j = .error .compoundTag ↔ ∃ members, j = .obj members ∧ BreaksOff (.obj members) := by
  rw [← decodeRecord_eq_compoundTag_iff, ← errorOf_eq_some_iff, ← errorOf_decodeRecord,
    errorOf_eq_some_iff]

/-- Loading a text breaks off exactly where decoding its value does. -/
theorem load_eq_compoundTag_iff (text : String) :
    load text = .error (.decode .compoundTag)
      ↔ ∃ members, Json.parse? text = some (.obj members) ∧ BreaksOff (.obj members) := by
  rw [load]
  cases Json.parse? text with
  | none => simp
  | some value =>
      simp only [Option.some.injEq, ← decodeRecord_eq_compoundTag_iff]
      rcases decodeRecord value with error | ⟨kind, fields⟩
      · simp
      · cases kind <;> simp

/-- What is loaded is a documentation record. -/
theorem exists_of_load {text : String} {record : Payload} (h : load text = .ok record) :
    ∃ fields, record = .record .documentation fields := by
  rw [load] at h
  split at h
  · cases h
  · split at h
    · cases h
    · exact ⟨_, (Except.ok.inj h).symm⟩
    · cases h

/-- **Decoding checks for every fault but a compound tag.**  A value gives a record or a refusal
that is checked, unless it is an object in which decoding breaks off.  So does a text give a
documentation record or such a refusal, unless its value is such an object. -/
theorem refusals_checked_iff (j : Json) (text : String) :
    (((∃ record, ofJson j = .ok record) ∨ ∃ error, ofJson j = .error error ∧ error.Checked)
        ↔ ¬∃ members, j = .obj members ∧ BreaksOff (.obj members))
      ∧ (((∃ fields, load text = .ok (.record .documentation fields))
          ∨ ∃ error, load text = .error error ∧ error.Checked)
        ↔ ¬∃ members, Json.parse? text = some (.obj members) ∧ BreaksOff (.obj members)) := by
  constructor
  · rw [← ofJson_eq_compoundTag_iff]
    cases ofJson j with
    | ok record => simp
    | error error => simp [DecodeError.checked_iff]
  · rw [← load_eq_compoundTag_iff]
    cases hload : load text with
    | ok record =>
        obtain ⟨fields, rfl⟩ := exists_of_load hload
        simp
    | error error => simp [LoadError.checked_iff]

/-- A fault in front of a compound tag is reported instead. -/
example : ofJson (.obj [("type", .str "list_item"), ("children", .obj [("type", .arr [])]),
      ("text", .obj [("type", .str "table")])])
    = .error (.unknownTag (.str "table")) := by rfl

/-- An object whose tag is an array is neither a record nor refused, and so is a text of it. -/
theorem arrayTag_not_refused :
    ¬((∃ record, ofJson (.obj [("type", .arr [])]) = .ok record)
        ∨ ∃ error, ofJson (.obj [("type", .arr [])]) = .error error ∧ error.Checked)
      ∧ ¬((∃ fields, load "\x7b\"type\": []\x7d" = .ok (.record .documentation fields))
        ∨ ∃ error, load "\x7b\"type\": []\x7d" = .error error ∧ error.Checked) := by
  have hdecode : ofJson (.obj [("type", .arr [])]) = .error .compoundTag := rfl
  have hload : load "\x7b\"type\": []\x7d" = .error (.decode .compoundTag) := by cbv
  rw [hdecode, hload]
  simp [DecodeError.Checked, LoadError.Checked]

end Payload

end DocComment
