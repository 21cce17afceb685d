import DocComment.Proofs.Outcome
import DocComment.Proofs.RecordText
import Mathlib.Data.List.Basic

/-!
# Which values are records

Decoding looks at an untyped value one field at a time and stops at the first thing that is wrong.
Here the same is said without decoding:

* `Json.Acceptable`: the value is an encoded record, with a known tag and every required field, and
  what stands in its fields is acceptable again as far as it is made of objects;
* `Json.canonical`: the record that an acceptable value stands for, with the members that are no
  fields taken away and absent fields filled in, at every level;
* `Json.recordFaults`: everything that is wrong with a value, in the order in which a reader of the
  tag, the fields and the required names comes across it.

`Payload.ofJson_exact` says that decoding succeeds on the acceptable values and on no others, gives
the canonical record, and otherwise reports the first of the faults.
-/

namespace DocComment

namespace Json

/-! ## Acceptable values -/

mutual

/-- A value in which every object that is reached through arrays is an acceptable record. -/
inductive Sound : Json → Prop where
  | null : Sound .null
  | bool (value : Bool) : Sound (.bool value)
  | int (value : Int) : Sound (.int value)
  | real (literal : String) : Sound (.real literal)
  | str (value : String) : Sound (.str value)
  | arr {elements : List Json} (each : ∀ element ∈ elements, Sound element) : Sound (.arr elements)
  | obj {members : List (String × Json)} (record : Acceptable (.obj members)) :
    Sound (.obj members)

/-- An object whose tag marks a kind, which has every field that the kind requires, and whose fields
hold sound values, or the display name of a label where the kind holds one. -/
inductive Acceptable : Json → Prop where
  | record {members : List (String × Json)} {kind : RecordKind}
    (tag : memberOf members "type" = some (.str kind.tag))
    (required : ∀ spec ∈ kind.fields, spec.default?.isNone → (memberOf members spec.name).isSome)
    (labels : ∀ spec ∈ kind.fields, kind.holdsLabel spec.name = true →
      ∀ value, memberOf members spec.name = some value →
        ∃ label : CalloutLabel, value = .str label.displayName)
    (values : ∀ spec ∈ kind.fields, kind.holdsLabel spec.name = false →
      ∀ value, memberOf members spec.name = some value → Sound value) :
    Acceptable (.obj members)

end

/-- The kind whose tag a value is. -/
def kindTagged : Option Json → Option RecordKind
  | some (.str tag) => RecordKind.ofTag? tag
  | _ => none

/-! ## The canonical record -/

/-- The record of a kind with its fields taken from an object; an absent one has its default. -/
def filled (kind : RecordKind) (members : List (String × Json)) : Json :=
  .obj (("type", .str kind.tag) :: kind.fields.map fun spec =>
    (spec.name, (memberOf members spec.name).getD (spec.default?.getD .null).encode))

mutual

/-- The value with every object in it, as far as it is reached through fields and arrays, reduced to
the fields of its kind and completed by their defaults. -/
def canonical : Json → Json
  | .arr elements => .arr (canonicalAll elements)
  | .obj members =>
    match kindTagged (memberOf members "type") with
    | some kind => filled kind (canonicalMembers members)
    | none => .obj members
  | value => value

/-- The elements of an array, each made canonical. -/
def canonicalAll : List Json → List Json
  | [] => []
  | element :: elements => canonical element :: canonicalAll elements

/-- The members of an object, each with its value made canonical. -/
def canonicalMembers : List (String × Json) → List (String × Json)
  | [] => []
  | (name, value) :: members => (name, canonical value) :: canonicalMembers members

end

/-! ## Everything that is wrong with a value -/

/-- What is wrong with a tag that marks no kind. -/
def tagFault : Option Json → DecodeError
  | none => .unknownTag .null
  | some (.arr _) => .compoundTag
  | some (.obj _) => .compoundTag
  | some tag => .unknownTag tag

/-- What is wrong with a value in the place of a label. -/
def labelFaults : Json → List DecodeError
  | .str name =>
    if CalloutLabel.all.any (fun label => label.displayName == name) then []
    else [.unknownLabel (.str name)]
  | value => [.unknownLabel value]

/-- What is wrong with a field that is there, given what is wrong with the value of each member. -/
def fieldFaults (kind : RecordKind) (members : List (String × Json))
    (faulty : List (String × List DecodeError)) (spec : FieldSpec) : List DecodeError :=
  match memberOf members spec.name with
  | none => []
  | some value =>
    if kind.holdsLabel spec.name then labelFaults value else (faulty.lookup spec.name).getD []

/-- What is wrong about required fields: their absence, if any of them is absent. -/
def missingFaults (kind : RecordKind) (members : List (String × Json)) : List DecodeError :=
  match kind.fields.filter
      fun spec => (memberOf members spec.name).isNone && spec.default?.isNone with
  | [] => []
  | missing => [.missing kind (missing.map FieldSpec.name)]

/-- What is wrong with an object: its tag or else, in this order, the fields that are there and the
required ones that are not. -/
def objectFaults (members : List (String × Json)) (faulty : List (String × List DecodeError)) :
    List DecodeError :=
  match kindTagged (memberOf members "type") with
  | none => [tagFault (memberOf members "type")]
  | some kind => kind.fields.flatMap (fieldFaults kind members faulty) ++ missingFaults kind members

mutual

/-- What is wrong with a value, depth first. -/
def faults : Json → List DecodeError
  | .arr elements => faultsAll elements
  | .obj members => objectFaults members (memberFaults members)
  | _ => []

/-- What is wrong with the elements of an array, one after the other. -/
def faultsAll : List Json → List DecodeError
  | [] => []
  | element :: elements => faults element ++ faultsAll elements

/-- What is wrong with the value of each member. -/
def memberFaults : List (String × Json) → List (String × List DecodeError)
  | [] => []
  | (name, value) :: members => (name, faults value) :: memberFaults members

end

/-- What is wrong with a value in the place of a record, which has to be an object. -/
def recordFaults : Json → List DecodeError
  | .obj members => faults (.obj members)
  | value => [.notObject value]

/-! ## Members of an object -/

/-- Induction on a value: its elements and the values of its members come before it. -/
theorem induct {motive : Json → Prop} (null : motive .null) (bool : ∀ value, motive (.bool value))
    (int : ∀ value, motive (.int value)) (real : ∀ literal, motive (.real literal))
    (str : ∀ value, motive (.str value))
    (arr : ∀ elements, (∀ element ∈ elements, motive element) → motive (.arr elements))
    (obj : ∀ members, (∀ name value, memberOf members name = some value → motive value) →
      motive (.obj members)) (j : Json) : motive j := by
  -- the recursor of the nested type asks for a motive at elements, at members and at pairs as well
  refine @Json.rec motive (fun elements => ∀ element ∈ elements, motive element)
    (fun members => ∀ member ∈ members, motive member.2) (fun member => motive member.2)
    null bool int real str arr (fun members hmembers => obj members fun name value hvalue => ?_)
    (by simp) (fun element elements he hes => List.forall_mem_cons.mpr ⟨he, hes⟩)
    (by simp) (fun member members hm hms => List.forall_mem_cons.mpr ⟨hm, hms⟩)
    (fun _ _ hvalue => hvalue) j
  obtain ⟨member, hfound, rfl⟩ := Option.map_eq_some_iff.mp hvalue
  exact hmembers member (List.mem_of_find?_eq_some hfound)

theorem memberOf_cons (name other : String) (value : Json) (members : List (String × Json)) :
    memberOf ((other, value) :: members) name
      = if other = name then some value else memberOf members name := by
  by_cases h : other = name <;> simp [memberOf, h]

theorem memberOf_canonicalMembers (members : List (String × Json)) (name : String) :
    memberOf (canonicalMembers members) name = (memberOf members name).map canonical := by
  induction members with
  | nil => rfl
  | cons member members ih =>
      obtain ⟨other, value⟩ := member
      rw [canonicalMembers, memberOf_cons, memberOf_cons, ih]
      split <;> rfl

theorem lookup_memberFaults (members : List (String × Json)) (name : String) :
    (memberFaults members).lookup name = (memberOf members name).map faults := by
  induction members with
  | nil => rfl
  | cons member members ih =>
      obtain ⟨other, value⟩ := member
      rw [memberFaults, memberOf_cons, List.lookup_cons, ih]
      by_cases h : other = name
      · simp [h]
      · simp [h, beq_false_of_ne (Ne.symm h)]

theorem faultsAll_eq_flatMap (elements : List Json) :
    faultsAll elements = elements.flatMap faults := by
  induction elements with
  | nil => rfl
  | cons element elements ih => rw [faultsAll, ih, List.flatMap_cons]

/-- A field is as faulty as the value of its member. -/
theorem fieldFaults_eq (kind : RecordKind) (members : List (String × Json)) (spec : FieldSpec) :
    fieldFaults kind members (memberFaults members) spec =
      match memberOf members spec.name with
      | none => []
      | some value => if kind.holdsLabel spec.name then labelFaults value else faults value := by
  rw [fieldFaults, lookup_memberFaults]
  cases memberOf members spec.name <;> rfl

/-! ## A value without faults is acceptable -/

theorem kindTagged_eq_some_iff {tag? : Option Json} {kind : RecordKind} :
    kindTagged tag? = some kind ↔ tag? = some (.str kind.tag) := by
  constructor
  · intro h
    match tag?, h with
    | some (.str tag), h =>
        have htag := List.find?_some h
        rw [← beq_iff_eq.mp htag]
  · rintro rfl
    exact Payload.ofTag?_tag kind

theorem labelFaults_eq_nil_iff (value : Json) :
    labelFaults value = [] ↔ ∃ label : CalloutLabel, value = .str label.displayName := by
  cases value with
  | str name =>
      have hany : CalloutLabel.all.any (fun label => label.displayName == name) = true
          ↔ ∃ label : CalloutLabel, name = label.displayName := by
        simp only [List.any_eq_true, CalloutLabel.mem_all, true_and, beq_iff_eq]
        exact exists_congr fun _ => eq_comm
      simp only [labelFaults, Json.str.injEq, ← hany]
      split <;> simp_all
  | _ => simp [labelFaults]

theorem missingFaults_eq_nil_iff (kind : RecordKind) (members : List (String × Json)) :
    missingFaults kind members = [] ↔
      ∀ spec ∈ kind.fields, spec.default?.isNone → (memberOf members spec.name).isSome := by
  have hempty : missingFaults kind members = [] ↔ kind.fields.filter
      (fun spec => (memberOf members spec.name).isNone && spec.default?.isNone) = [] := by
    rw [missingFaults]
    split <;> simp_all
  rw [hempty, List.filter_eq_nil_iff]
  refine forall₂_congr fun spec _ => ?_
  cases memberOf members spec.name <;> simp

theorem acceptable_iff {members : List (String × Json)} :
    Acceptable (.obj members) ↔ ∃ kind, kindTagged (memberOf members "type") = some kind
      ∧ missingFaults kind members = []
      ∧ ∀ spec ∈ kind.fields, ∀ value, memberOf members spec.name = some value →
          if kind.holdsLabel spec.name then labelFaults value = [] else Sound value := by
  constructor
  · rintro @⟨_, kind, htag, hrequired, hlabels, hvalues⟩
    refine ⟨kind, kindTagged_eq_some_iff.mpr htag,
      (missingFaults_eq_nil_iff kind members).mpr hrequired, fun spec hspec value hvalue => ?_⟩
    split
    · next hl => exact (labelFaults_eq_nil_iff value).mpr (hlabels spec hspec hl value hvalue)
    · next hl => exact hvalues spec hspec (Bool.not_eq_true _ ▸ hl) value hvalue
  · rintro ⟨kind, htag, hmissing, hvalues⟩
    refine .record (kindTagged_eq_some_iff.mp htag)
      ((missingFaults_eq_nil_iff kind members).mp hmissing) ?_ ?_
    · intro spec hspec hl value hvalue
      have hfield := hvalues spec hspec value hvalue
      rw [if_pos hl] at hfield
      exact (labelFaults_eq_nil_iff value).mp hfield
    · intro spec hspec hl value hvalue
      have hfield := hvalues spec hspec value hvalue
      rwa [if_neg (by simp [hl])] at hfield

/-- An object has no faults where the values of its members have none exactly if they are sound. -/
theorem faults_obj_eq_nil_iff {members : List (String × Json)}
    (h : ∀ name value, memberOf members name = some value → (faults value = [] ↔ Sound value)) :
    faults (.obj members) = [] ↔ Acceptable (.obj members) := by
  rw [faults, objectFaults, acceptable_iff]
  cases hkind : kindTagged (memberOf members "type") with
  | none => simp
  | some kind =>
      simp only [List.append_eq_nil_iff, List.flatMap_eq_nil_iff, fieldFaults_eq,
        Option.some.injEq, exists_eq_left']
      rw [and_comm]
      refine and_congr_right fun _ => forall₂_congr fun spec _ => ?_
      cases hvalue : memberOf members spec.name with
      | none => simp
      | some value =>
          have hsound := h spec.name value hvalue
          simp only [Option.some.injEq, forall_eq']
          split <;> simp_all

/-- A value has no faults exactly if it is sound. -/
theorem faults_eq_nil_iff (j : Json) : faults j = [] ↔ Sound j := by
  induction j using Json.induct with
  | null => simp [faults, Sound.null]
  | bool value => simp [faults, Sound.bool]
  | int value => simp [faults, Sound.int]
  | real literal => simp [faults, Sound.real]
  | str value => simp [faults, Sound.str]
  | arr elements ih =>
      rw [faults, faultsAll_eq_flatMap, List.flatMap_eq_nil_iff]
      constructor
      · exact fun h => .arr fun element he => (ih element he).mp (h element he)
      · intro h element he
        cases h with
        | arr each => exact (ih element he).mpr (each element he)
  | obj members ih =>
      rw [faults_obj_eq_nil_iff ih]
      exact ⟨.obj, fun h => by cases h; assumption⟩

/-- A value has no faults as a record exactly if it is acceptable. -/
theorem recordFaults_eq_nil_iff (j : Json) : recordFaults j = [] ↔ Acceptable j := by
  cases j with
  | obj members => exact faults_obj_eq_nil_iff fun _ value _ => faults_eq_nil_iff value
  | _ =>
      simp only [recordFaults, List.cons_ne_nil, false_iff]
      rintro ⟨⟩

end Json

namespace Payload

open Json

/-! ## Decoding an object looks at its members -/

theorem find?_decodeMembers (members : List (String × Json)) (name : String) :
    (decodeMembers members).find? (fun member => member.name == name)
      = (members.find? fun member => member.1 == name).map
          fun member => ⟨member.1, member.2, decode member.2⟩ := by
  induction members with
  | nil => rfl
  | cons member members ih =>
      obtain ⟨other, value⟩ := member
      by_cases h : other = name <;> simp [decodeMembers, h, ih]

theorem kindOf_decodeMembers (members : List (String × Json)) :
    kindOf (decodeMembers members) =
      match kindTagged (memberOf members "type") with
      | some kind => .ok kind
      | none => .error (tagFault (memberOf members "type")) := by
  have hraw : ((decodeMembers members).find? fun member => member.name == "type").map Member.raw
      = memberOf members "type" := by
    rw [find?_decodeMembers, Option.map_map]
    rfl
  rw [kindOf, hraw]
  cases memberOf members "type" with
  | none => rfl
  | some tag =>
      cases tag with
      | str tag => cases h : RecordKind.ofTag? tag <;> simp [kindTagged, tagFault, h]
      | _ => rfl

theorem fieldValue?_decodeMembers (kind : RecordKind) (members : List (String × Json))
    (spec : FieldSpec) :
    fieldValue? kind (decodeMembers members) spec =
      match memberOf members spec.name with
      | none => .ok none
      | some value =>
        (if kind.holdsLabel spec.name then decodeLabel value else decode value).map some := by
  rw [fieldValue?, find?_decodeMembers, memberOf]
  cases members.find? fun member => member.1 == spec.name <;> rfl

/-- What is known of an entry for a field once it was read. -/
def EntryOf (kind : RecordKind) (members : List Member) (spec : FieldSpec)
    (entry : FieldSpec × Option Payload) : Prop :=
  entry.1 = spec ∧ fieldValue? kind members spec = .ok entry.2

theorem fieldValues_ok {kind : RecordKind} {members : List Member} {specs : List FieldSpec}
    {entries : List (FieldSpec × Option Payload)}
    (h : fieldValues kind members specs = .ok entries) :
    List.Forall₂ (EntryOf kind members) specs entries := by
  induction specs generalizing entries with
  | nil =>
      obtain rfl : [] = entries := Except.ok.inj h
      exact .nil
  | cons spec specs ih =>
      rw [fieldValues] at h
      obtain ⟨value, hvalue, h⟩ := bind_eq_ok h
      obtain ⟨more, hvalues, h⟩ := bind_eq_ok h
      obtain rfl := Except.ok.inj h
      exact .cons ⟨rfl, hvalue⟩ (ih hvalues)

/-! ## Decoding reports the first fault -/

/-- The error of an outcome, if it is one. -/
def errorOf {ε α : Type} : Except ε α → Option ε
  | .error error => some error
  | .ok _ => none

theorem errorOf_eq_some_iff {ε α : Type} {outcome : Except ε α} {error : ε} :
    errorOf outcome = some error ↔ outcome = .error error := by
  cases outcome <;> simp [errorOf]

theorem errorOf_map {ε α β : Type} (f : α → β) (outcome : Except ε α) :
    errorOf (outcome.map f) = errorOf outcome := by
  cases outcome <;> rfl

/-- Of two steps, the first error counts. -/
theorem errorOf_seq {ε α β γ : Type} (first : Except ε α) (second : Except ε β) (f : α → β → γ) :
    errorOf (do let a ← first; let b ← second; return f a b)
      = (errorOf first).or (errorOf second) := by
  cases first <;> cases second <;> rfl

theorem errorOf_decodeLabel (value : Json) :
    errorOf (decodeLabel value) = (labelFaults value).head? := by
  cases value with
  | str name =>
      have hany : CalloutLabel.all.any (fun label => label.displayName == name)
          = (CalloutLabel.ofDisplayName? name).isSome := by
        rw [CalloutLabel.ofDisplayName?, List.isSome_find?]
      rw [decodeLabel, labelFaults, hany]
      cases CalloutLabel.ofDisplayName? name <;> rfl
  | _ => rfl

theorem errorOf_decodeAll {elements : List Json}
    (h : ∀ element ∈ elements, errorOf (decode element) = (faults element).head?) :
    errorOf (decodeAll elements) = (elements.flatMap faults).head? := by
  induction elements with
  | nil => rfl
  | cons element elements ih =>
      rw [decodeAll, errorOf_seq, h element List.mem_cons_self,
        ih fun other hm => h other (List.mem_cons_of_mem element hm), List.flatMap_cons,
        List.head?_append]

theorem errorOf_fieldValues (kind : RecordKind) {members : List (String × Json)}
    (h : ∀ name value, memberOf members name = some value →
      errorOf (decode value) = (faults value).head?) (specs : List FieldSpec) :
    errorOf (fieldValues kind (decodeMembers members) specs)
      = (specs.flatMap (fieldFaults kind members (memberFaults members))).head? := by
  induction specs with
  | nil => rfl
  | cons spec specs ih =>
      have hfield : errorOf (fieldValue? kind (decodeMembers members) spec)
          = (fieldFaults kind members (memberFaults members) spec).head? := by
        rw [fieldValue?_decodeMembers, fieldFaults_eq]
        cases hvalue : memberOf members spec.name with
        | none => rfl
        | some value =>
            by_cases hl : kind.holdsLabel spec.name
            · simp [hl, errorOf_map, errorOf_decodeLabel]
            · simp [hl, errorOf_map, h spec.name value hvalue]
      rw [fieldValues, errorOf_seq, hfield, ih, List.flatMap_cons, List.head?_append]

/-- The required fields that are missing from the entries are those that the object lacks. -/
theorem filter_isMissing {kind : RecordKind} {members : List (String × Json)}
    {specs : List FieldSpec} {entries : List (FieldSpec × Option Payload)}
    (h : List.Forall₂ (EntryOf kind (decodeMembers members)) specs entries) :
    (entries.filter isMissing).map Prod.fst
      = specs.filter fun spec => (memberOf members spec.name).isNone && spec.default?.isNone := by
  induction h with
  | nil => rfl
  | @cons spec entry specs entries hentry _ ih =>
      obtain ⟨other, value⟩ := entry
      obtain ⟨rfl, hvalue⟩ := hentry
      simp only [fieldValue?_decodeMembers] at hvalue
      have habsent : value.isNone = (memberOf members other.name).isNone := by
        cases hmember : memberOf members other.name with
        | none =>
            rw [hmember] at hvalue
            rw [← Except.ok.inj hvalue]
            rfl
        | some found =>
            rw [hmember] at hvalue
            obtain ⟨payload, -, rfl⟩ := map_eq_ok hvalue
            rfl
      rw [List.filter_cons, List.filter_cons, isMissing, habsent]
      split <;> simp [ih]

/-- Decoding an object reports the first of its faults, if that is so for the values in it. -/
theorem errorOf_ofMembers {members : List (String × Json)}
    (h : ∀ name value, memberOf members name = some value →
      errorOf (decode value) = (faults value).head?) :
    errorOf (ofMembers (decodeMembers members)) = (faults (.obj members)).head? := by
  rw [faults, objectFaults, ofMembers, kindOf_decodeMembers]
  cases hkind : kindTagged (memberOf members "type") with
  | none => rfl
  | some kind =>
      -- the fields come first; the names of missing ones count only once all fields are read
      have hfields := errorOf_fieldValues kind h kind.fields
      simp only [List.head?_append, ← hfields, bind, Except.bind]
      cases hvalues : fieldValues kind (decodeMembers members) kind.fields with
      | error error => rfl
      | ok entries =>
          have hmissing := filter_isMissing (fieldValues_ok hvalues)
          simp only [missingFaults, ← hmissing]
          cases entries.filter isMissing with
          | nil => rfl
          | cons entry missing => simp [errorOf]; rfl

/-- Decoding a value reports the first of its faults. -/
theorem errorOf_decode (j : Json) : errorOf (decode j) = (faults j).head? := by
  induction j using Json.induct with
  | null | bool value | int value | real literal | str value => rfl
  | arr elements ih =>
      rw [decode, errorOf_map, errorOf_decodeAll ih, faults, faultsAll_eq_flatMap]
  | obj members ih =>
      rw [← errorOf_ofMembers ih, decode]
      cases ofMembers (decodeMembers members) <;> rfl

/-- Decoding a record reports the first of its faults. -/
theorem errorOf_ofJson (j : Json) : errorOf (ofJson j) = (recordFaults j).head? := by
  cases j with
  | obj members => exact errorOf_decode (.obj members)
  | _ => rfl

/-! ## A decoded record is the canonical one -/

theorem decodeLabel_eq_ok {value : Json} {payload : Payload} (h : decodeLabel value = .ok payload) :
    ∃ label, payload = .label label ∧ value = .str label.displayName := by
  cases value with
  | str name =>
      rw [decodeLabel] at h
      cases hfound : CalloutLabel.ofDisplayName? name with
      | none => simp [hfound] at h
      | some label =>
          have hname := List.find?_some hfound
          simp only [hfound, Except.ok.injEq] at h
          exact ⟨label, h.symm, by rw [beq_iff_eq.mp hname]⟩
  | _ => simp [decodeLabel] at h

/-- Every default is found again in its own encoding. -/
theorem readBack_default {kind : RecordKind} {spec : FieldSpec} (hspec : spec ∈ kind.fields)
    {value : Payload} (h : spec.default? = some value) : ReadBack kind spec value := by
  have hdefault : kind.holdsLabel spec.name = false ∧ value.Canonical := by
    cases kind <;> simp [RecordKind.fields] at hspec <;>
      grind [RecordKind.holdsLabel, Canonical, AllCanonical]
  rw [ReadBack, if_neg (by simp [hdefault.1])]
  exact decode_encode value hdefault.2

/-- What stands in a field of a decoded record: the decoded member of its name, or the default. -/
def Taken (kind : RecordKind) (members : List (String × Json)) (spec : FieldSpec)
    (value : Payload) : Prop :=
  match memberOf members spec.name with
  | none => spec.default? = some value
  | some found =>
    (if kind.holdsLabel spec.name then decodeLabel found else decode found) = .ok value

theorem EntryOf.taken {kind : RecordKind} {members : List (String × Json)} {spec : FieldSpec}
    {entry : FieldSpec × Option Payload} (h : EntryOf kind (decodeMembers members) spec entry)
    (hpresent : ¬isMissing entry) :
    Taken kind members spec (entry.2.getD (entry.1.default?.getD .null)) := by
  obtain ⟨other, value⟩ := entry
  obtain ⟨rfl, hvalue⟩ := h
  simp only [fieldValue?_decodeMembers] at hvalue
  rw [Taken]
  cases hmember : memberOf members other.name with
  | none =>
      rw [hmember] at hvalue
      obtain rfl : none = value := Except.ok.inj hvalue
      -- an absent field that is not missing has a default
      cases hdefault : other.default? with
      | none => simp [isMissing, hdefault] at hpresent
      | some default => simp
  | some found =>
      rw [hmember] at hvalue
      obtain ⟨payload, hpayload, rfl⟩ := map_eq_ok hvalue
      exact hpayload

/-- A decoded object has a kind, and its fields are taken from its members. -/
theorem ofMembers_ok {members : List (String × Json)} {kind : RecordKind} {fields : List Payload}
    (h : ofMembers (decodeMembers members) = .ok (kind, fields)) :
    kindTagged (memberOf members "type") = some kind
      ∧ List.Forall₂ (Taken kind members) kind.fields fields := by
  rw [ofMembers] at h
  obtain ⟨tagged, htagged, h⟩ := bind_eq_ok h
  obtain ⟨entries, hvalues, h⟩ := bind_eq_ok h
  split at h
  · next hmissing =>
      obtain ⟨rfl, rfl⟩ := Prod.mk.inj (Except.ok.inj h)
      refine ⟨?_, List.forall₂_map_right_iff.mpr ?_⟩
      · rw [kindOf_decodeMembers] at htagged
        split at htagged
        · next hkind => rw [hkind, Except.ok.inj htagged]
        · cases htagged
      · rw [List.filter_eq_nil_iff] at hmissing
        have hentries := List.forall₂_iff_zip.mp (fieldValues_ok hvalues)
        exact List.forall₂_iff_zip.mpr ⟨hentries.1, fun hm =>
          (hentries.2 hm).taken (hmissing _ (List.of_mem_zip hm).2)⟩
  · cases h

theorem encodeFields_eq_map {specs : List FieldSpec} {fields : List Payload}
    {value : FieldSpec → Json}
    (h : List.Forall₂ (fun spec (field : Payload) => field.encode = value spec) specs fields) :
    encodeFields specs fields = specs.map fun spec => (spec.name, value spec) := by
  induction h with
  | nil => rfl
  | cons hfield _ ih => rw [encodeFields, hfield, ih, List.map_cons]

/-- What is known of a decoded value: its encoding is the canonical form, and it is found again in
it. -/
def Settled (j : Json) (value : Payload) : Prop :=
  value.encode = j.canonical ∧ decode value.encode = .ok value

/-- What was taken from a settled member, or from nowhere, is settled too. -/
theorem Taken.settled {kind : RecordKind} {members : List (String × Json)} {spec : FieldSpec}
    {field : Payload} (hspec : spec ∈ kind.fields) (htaken : Taken kind members spec field)
    (h : ∀ value, memberOf members spec.name = some value → ∀ payload,
      decode value = .ok payload → Settled value payload) :
    ReadBack kind spec field
      ∧ field.encode = (memberOf (canonicalMembers members) spec.name).getD
          (spec.default?.getD .null).encode := by
  rw [memberOf_canonicalMembers]
  rw [Taken] at htaken
  cases hmember : memberOf members spec.name with
  | none =>
      rw [hmember] at htaken
      refine ⟨readBack_default hspec htaken, ?_⟩
      rw [htaken]
      rfl
  | some value =>
      simp only [hmember] at htaken
      rw [ReadBack]
      split at htaken
      · next hl =>
          obtain ⟨label, rfl, rfl⟩ := decodeLabel_eq_ok htaken
          rw [if_pos hl]
          exact ⟨⟨label, rfl⟩, rfl⟩
      · next hl =>
          obtain ⟨hcanonical, hread⟩ := h value hmember field htaken
          rw [if_neg hl]
          exact ⟨hread, hcanonical⟩

theorem settled_of_decodeAll {elements : List Json} {payloads : List Payload}
    (h : ∀ element ∈ elements, ∀ payload, decode element = .ok payload → Settled element payload)
    (hdecode : decodeAll elements = .ok payloads) :
    encodeAll payloads = canonicalAll elements
      ∧ decodeAll (encodeAll payloads) = .ok payloads := by
  induction elements generalizing payloads with
  | nil =>
      obtain rfl : [] = payloads := Except.ok.inj hdecode
      exact ⟨rfl, rfl⟩
  | cons element elements ih =>
      rw [decodeAll] at hdecode
      obtain ⟨payload, hfirst, hdecode⟩ := bind_eq_ok hdecode
      obtain ⟨more, hrest, hdecode⟩ := bind_eq_ok hdecode
      obtain rfl := Except.ok.inj hdecode
      obtain ⟨hcanonical, hread⟩ := h element List.mem_cons_self payload hfirst
      obtain ⟨hcanonicals, hreads⟩ :=
        ih (fun other hm => h other (List.mem_cons_of_mem element hm)) hrest
      rw [encodeAll, canonicalAll, ← hcanonical, ← hcanonicals]
      refine ⟨rfl, ?_⟩
      rw [decodeAll, hread, hreads]
      rfl

/-- A decoded object is a record. -/
theorem decode_obj_ok {members : List (String × Json)} {value : Payload}
    (h : decode (.obj members) = .ok value) :
    ∃ kind fields, value = .record kind fields
      ∧ ofMembers (decodeMembers members) = .ok (kind, fields) := by
  rw [decode] at h
  obtain ⟨⟨kind, fields⟩, hrecord, h⟩ := bind_eq_ok h
  exact ⟨kind, fields, (Except.ok.inj h).symm, hrecord⟩

/-- Every decoded value is settled. -/
theorem settled_of_decode (j : Json) : ∀ value, decode j = .ok value → Settled j value := by
  induction j using Json.induct with
  | null | bool value | int value | real literal | str value =>
      intro value h
      obtain rfl := Except.ok.inj h
      exact ⟨rfl, rfl⟩
  | arr elements ih =>
      intro value h
      obtain ⟨payloads, hdecode, rfl⟩ := map_eq_ok h
      obtain ⟨hcanonical, hread⟩ := settled_of_decodeAll ih hdecode
      refine ⟨by rw [encode, canonical, hcanonical], ?_⟩
      rw [encode, decode, hread]
      rfl
  | obj members ih =>
      intro value h
      obtain ⟨kind, fields, rfl, hrecord⟩ := decode_obj_ok h
      obtain ⟨hkind, htaken⟩ := ofMembers_ok hrecord
      -- every field holds what its member decodes to, or its default, and both are settled
      have hsettled := List.forall₂_iff_zip.mpr ⟨htaken.length_eq, fun hm =>
        ((List.forall₂_iff_zip.mp htaken).2 hm).settled (List.of_mem_zip hm).1 (ih _)⟩
      refine ⟨?_, decode_encode_record (hsettled.imp fun _ _ hfield => hfield.1)⟩
      rw [encode, canonical, hkind]
      simp only [filled]
      rw [encodeFields_eq_map (hsettled.imp fun _ _ hfield => hfield.2)]

/-! ## Records -/

/-- Decoding a record is decoding an object. -/
theorem ofJson_eq_ok_iff {j : Json} {value : Payload} :
    ofJson j = .ok value ↔ decode j = .ok value ∧ ∃ members, j = .obj members := by
  cases j with
  | obj members => simp [ofJson, decodeRecord, decode]
  | _ => simp [ofJson, decodeRecord, bind, Except.bind]

/-- **Decoding accepts exactly the acceptable values, and makes them canonical.**  It succeeds on
these and no others.  The decoded record is written as the canonical form of the value, and is found
again in it.  Where decoding fails, it reports the first of the faults, depth first: that of the
tag, those of the fields that are there in the order of the kind, the required fields that are
absent. -/
theorem ofJson_exact (j : Json) :
    ((∃ record, ofJson j = .ok record) ↔ j.Acceptable)
      ∧ (∀ record, ofJson j = .ok record →
          record.encode = j.canonical ∧ ofJson record.encode = .ok record)
      ∧ ∀ error, ofJson j = .error error ↔ j.recordFaults.head? = some error := by
  refine ⟨?_, ?_, ?_⟩
  · rw [← recordFaults_eq_nil_iff, ← List.head?_eq_none_iff, ← errorOf_ofJson]
    cases ofJson j <;> simp [errorOf]
  · intro record h
    obtain ⟨hdecode, members, rfl⟩ := ofJson_eq_ok_iff.mp h
    obtain ⟨hcanonical, hread⟩ := settled_of_decode _ record hdecode
    obtain ⟨kind, fields, rfl, -⟩ := decode_obj_ok hdecode
    exact ⟨hcanonical, ofJson_eq_ok_iff.mpr ⟨hread, _, rfl⟩⟩
  · intro error
    rw [← errorOf_ofJson, errorOf_eq_some_iff]

/-- A parameter with a document in an array, members that are no fields, and absent fields. -/
def looseParameter : Json :=
  .obj [("name", .str "x"), ("line", .obj [("type", .str "unknown")]), ("type", .str "parameter"),
    ("content", .arr [.int 1, .obj [("type", .str "document"), ("text", .str "sum")]])]

theorem ofJson_exact_looseParameter :
    ∃ record, ofJson looseParameter = .ok record
      ∧ record.encode = .obj [("type", .str "parameter"), ("name", .str "x"),
          ("content", .arr [.int 1,
            .obj [("type", .str "document"), ("text", .str "sum"), ("children", .arr [])]])]
      ∧ ofJson record.encode = .ok record := by
  have hdecode : ofJson looseParameter = .ok (.record .parameter [.str "x",
      .seq [.int 1, .record .document [.str "sum", .seq []]]]) := by rfl
  obtain ⟨hcanonical, hread⟩ := (ofJson_exact looseParameter).2.1 _ hdecode
  exact ⟨_, hdecode, hcanonical, hread⟩

end Payload

end DocComment
