import DocComment.Payload.Encode
import DocComment.Payload.Typed
import DocComment.Proofs.JsonText
import Mathlib.Data.List.Forall2

/-!
# Records survive being stored

A record goes to text in three steps: a typed record is embedded as a payload, a payload is encoded
as a JSON value, and the value is written down.  Each step can be undone.

* `Payload.Canonical` are the payloads that decoding produces: every record has the fields of its
  kind, and a label stands only where its kind holds one.  `decode_encode` undoes their encoding; a
  record is found again if each of its fields is (`decode_encode_record`).
* The embeddings of typed records are canonical and injective.
* `Documentation.load_dump_iff` puts the steps together: what was dumped, in any layout, is loaded
  as the same record and as no other.
-/

namespace DocComment

namespace Payload

/-! ## Canonical payloads -/

mutual

/-- Whether the payload is one that decoding produces. -/
def Canonical : Payload → Prop
  | .real _ => False
  | .label _ => False
  | .seq elements => AllCanonical elements
  | .record kind fields => FieldsCanonical kind kind.fields fields
  | _ => True

/-- Whether all elements are canonical. -/
def AllCanonical : List Payload → Prop
  | [] => True
  | element :: elements => element.Canonical ∧ AllCanonical elements

/-- Whether the values fit the fields of a kind: as many, with a label where the kind holds one. -/
def FieldsCanonical (kind : RecordKind) : List FieldSpec → List Payload → Prop
  | [], [] => True
  | spec :: specs, value :: values =>
    (if kind.holdsLabel spec.name then ∃ label, value = .label label else value.Canonical)
      ∧ FieldsCanonical kind specs values
  | _, _ => False

end

/-! ## Encoded payloads can be written exactly -/

/-- The tag and the field names of a kind differ from each other. -/
theorem nodup_names (kind : RecordKind) : ("type" :: kind.fields.map FieldSpec.name).Nodup := by
  cases kind <;> decide

/-- The members of an encoded record are named like the fields of its kind. -/
theorem map_fst_encodeFields {kind : RecordKind} {specs : List FieldSpec} {values : List Payload}
    (h : FieldsCanonical kind specs values) :
    (encodeFields specs values).map Prod.fst = specs.map FieldSpec.name := by
  induction specs generalizing values with
  | nil => cases values <;> simp [encodeFields]
  | cons spec specs ih =>
      cases values with
      | nil => exact h.elim
      | cons value values => simp [encodeFields, ih h.2]

mutual

theorem exact_encode : ∀ p : Payload, p.Canonical → p.encode.Exact
  | .null, _ | .bool _, _ | .int _, _ | .str _, _ => trivial
  | .seq elements, h => allExact_encodeAll elements h
  | .record kind fields, h => by
      -- the tag is a member too, and no field has its name
      refine ⟨?_, trivial, membersExact_encodeFields kind kind.fields fields h⟩
      rw [List.map_cons, map_fst_encodeFields h]
      exact nodup_names kind

theorem allExact_encodeAll : ∀ ps : List Payload, AllCanonical ps → Json.AllExact (encodeAll ps)
  | [], _ => trivial
  | p :: ps, h => ⟨exact_encode p h.1, allExact_encodeAll ps h.2⟩

theorem membersExact_encodeFields (kind : RecordKind) : ∀ (specs : List FieldSpec)
    (ps : List Payload), FieldsCanonical kind specs ps → Json.MembersExact (encodeFields specs ps)
  | [], [], _ => trivial
  | spec :: specs, p :: ps, h => by
      refine ⟨?_, membersExact_encodeFields kind specs ps h.2⟩
      have hvalue := h.1
      split at hvalue
      · obtain ⟨label, rfl⟩ := hvalue
        trivial
      · exact exact_encode p hvalue

end

/-! ## Encoding is undone by decoding -/

theorem ofTag?_tag (kind : RecordKind) : RecordKind.ofTag? kind.tag = some kind := by
  cases kind <;> decide

theorem ofDisplayName?_displayName (label : CalloutLabel) :
    CalloutLabel.ofDisplayName? label.displayName = some label := by
  cases label <;> decide

theorem decodeMembers_cons (name : String) (value : Json) (members : List (String × Json)) :
    decodeMembers ((name, value) :: members)
      = ⟨name, value, decode value⟩ :: decodeMembers members := rfl

/-- A member is found behind others if none of them has its name. -/
theorem fieldValue?_append {kind : RecordKind} {before : List Member} {spec : FieldSpec}
    (h : spec.name ∉ before.map Member.name) (members : List Member) :
    fieldValue? kind (before ++ members) spec = fieldValue? kind members spec := by
  have hnone : before.find? (fun member => member.name == spec.name) = none := by
    rw [List.find?_eq_none]
    intro member hm heq
    exact h (List.mem_map.mpr ⟨member, hm, by simpa using heq⟩)
  rw [fieldValue?, fieldValue?, List.find?_append, hnone, Option.none_or]

theorem kindOf_tag (kind : RecordKind) (members : List Member) :
    kindOf (⟨"type", .str kind.tag, .ok (.str kind.tag)⟩ :: members) = .ok kind := by
  simp [kindOf, ofTag?_tag]

/-- If every field of a kind is there, none is missing and no default is filled in. -/
theorem ofMembers_of_fieldValues {members : List Member} {kind : RecordKind}
    {values : List Payload} (hkind : kindOf members = .ok kind)
    (hvalues : fieldValues kind members kind.fields = .ok (kind.fields.zip (values.map some)))
    (hlength : kind.fields.length = values.length) :
    ofMembers members = .ok (kind, values) := by
  have hmissing : (kind.fields.zip (values.map some)).filter isMissing = [] := by
    rw [List.filter_eq_nil_iff]
    intro entry hm
    obtain ⟨value, -, hvalue⟩ := List.mem_map.mp (List.of_mem_zip hm).2
    simp [isMissing, ← hvalue]
  have hfilled : (kind.fields.zip (values.map some)).map
      (fun entry => entry.2.getD (entry.1.default?.getD .null)) = values := by
    refine List.ext_getElem (by simp [hlength]) fun i _ _ => ?_
    simp
  rw [ofMembers, hkind]
  simp only [bind, Except.bind, hvalues, hmissing]
  simp only [pure, Except.pure, hfilled]

/-- Whether the value of a field is found again in its encoding: a label where the kind holds one,
and otherwise a value that decoding finds again. -/
def ReadBack (kind : RecordKind) (spec : FieldSpec) (value : Payload) : Prop :=
  if kind.holdsLabel spec.name then ∃ label, value = .label label
  else decode value.encode = .ok value

/-- The fields of a kind are found again among its encoded members, behind members of other
names. -/
theorem fieldValues_encodeFields {kind : RecordKind} {specs : List FieldSpec}
    {values : List Payload} (h : List.Forall₂ (ReadBack kind) specs values) (before : List Member)
    (hnodup : (before.map Member.name ++ specs.map FieldSpec.name).Nodup) :
    fieldValues kind (before ++ decodeMembers (encodeFields specs values)) specs
      = .ok (specs.zip (values.map some)) := by
  induction h generalizing before with
  | nil => rfl
  | @cons spec value specs values hread _ ih =>
      -- for the fields behind it, this one is among the members in front
      have hmore := ih (before ++ [⟨spec.name, value.encode, decode value.encode⟩])
        (by simpa using hnodup)
      have hnew : spec.name ∉ before.map Member.name := fun hm =>
        (List.nodup_append.mp hnodup).2.2 _ hm _ List.mem_cons_self rfl
      have hvalue : fieldValue? kind
          (before ++ decodeMembers (encodeFields (spec :: specs) (value :: values))) spec
            = .ok (some value) := by
        rw [fieldValue?_append hnew, encodeFields, decodeMembers_cons, fieldValue?]
        simp only [List.find?_cons, beq_self_eq_true]
        rw [ReadBack] at hread
        split at hread
        · next hl =>
            obtain ⟨label, rfl⟩ := hread
            simp [hl, encode, decodeLabel, ofDisplayName?_displayName, Except.map]
        · next hl => simp [hl, hread, Except.map]
      rw [List.append_assoc] at hmore
      rw [fieldValues, hvalue]
      simp only [encodeFields, decodeMembers_cons]
      simp only [List.singleton_append] at hmore
      rw [hmore]
      rfl

/-- A record is found again in its encoding if the values of its fields are. -/
theorem decode_encode_record {kind : RecordKind} {fields : List Payload}
    (h : List.Forall₂ (ReadBack kind) kind.fields fields) :
    decode (record kind fields).encode = .ok (.record kind fields) := by
  have hvalues := fieldValues_encodeFields h [⟨"type", .str kind.tag, .ok (.str kind.tag)⟩]
    (nodup_names kind)
  rw [List.singleton_append] at hvalues
  have hrecord := ofMembers_of_fieldValues (kindOf_tag kind _) hvalues h.length_eq
  rw [encode, decode, decodeMembers_cons]
  rw [show decode (.str kind.tag) = .ok (.str kind.tag) from rfl, hrecord]
  rfl

mutual

/-- Decoding undoes the encoding of a canonical payload. -/
theorem decode_encode : ∀ p : Payload, p.Canonical → decode p.encode = .ok p
  | .null, _ | .bool _, _ | .int _, _ | .str _, _ => rfl
  | .seq elements, h => by
      rw [encode, decode, decodeAll_encodeAll elements h]
      rfl
  | .record kind fields, h => decode_encode_record (forall₂_readBack kind kind.fields fields h)

theorem decodeAll_encodeAll : ∀ ps : List Payload, AllCanonical ps →
    decodeAll (encodeAll ps) = .ok ps
  | [], _ => rfl
  | p :: ps, h => by
      rw [encodeAll, decodeAll, decode_encode p h.1, decodeAll_encodeAll ps h.2]
      rfl

theorem forall₂_readBack (kind : RecordKind) : ∀ (specs : List FieldSpec) (ps : List Payload),
    FieldsCanonical kind specs ps → List.Forall₂ (ReadBack kind) specs ps
  | [], [], _ => .nil
  | spec :: specs, p :: ps, h => by
      refine .cons ?_ (forall₂_readBack kind specs ps h.2)
      have hvalue := h.1
      rw [ReadBack]
      split at hvalue
      · next hl => rwa [if_pos hl]
      · next hl => rw [if_neg hl, decode_encode p hvalue]

end

/-- A canonical record is decoded as its kind and fields. -/
theorem decodeRecord_encode {kind : RecordKind} {fields : List Payload}
    (h : (record kind fields).Canonical) :
    decodeRecord (record kind fields).encode = .ok (kind, fields) := by
  have hdecode := decode_encode _ h
  rw [encode, decode] at hdecode
  rw [encode, decodeRecord]
  cases hmembers : ofMembers (decodeMembers (("type", .str kind.tag)
      :: encodeFields kind.fields fields)) with
  | error error => simp [hmembers, bind, Except.bind] at hdecode
  | ok found => simpa [hmembers, bind, Except.bind, pure, Except.pure, Prod.ext_iff] using hdecode

/-- A canonical documentation record is loaded from its text, in any layout and with blanks behind
it. -/
theorem load_dump_gap (layout : Json.Layout) {fields : List Payload}
    (h : (record .documentation fields).Canonical) {gap : List Char}
    (hgap : ∀ c ∈ gap, Json.isGap c = true) :
    load (dump layout (record .documentation fields) ++ String.ofList gap)
      = .ok (record .documentation fields) := by
  rw [load, dump, Json.parse?_render_gap layout (exact_encode _ h) hgap]
  simp only [decodeRecord_encode h]

theorem load_dump (layout : Json.Layout) {fields : List Payload}
    (h : (record .documentation fields).Canonical) :
    load (dump layout (record .documentation fields)) = .ok (record .documentation fields) := by
  simpa using load_dump_gap layout h (List.forall_mem_nil _)

end Payload

/-! ## Typed records -/

open Payload

mutual

theorem Block.canonical_toPayload : ∀ b : Block, b.toPayload.Canonical
  | .paragraph _ | .heading _ _ | .code _ _ | .html _ | .thematicBreak _ => by
      simp [Block.toPayload, Canonical, RecordKind.fields, FieldsCanonical, RecordKind.holdsLabel]
  | .quote text children => by
      simp [Block.toPayload, Canonical, RecordKind.fields, FieldsCanonical, RecordKind.holdsLabel,
        Block.allCanonical_toPayloads children]
  | .list l => ListBlock.canonical_toPayload l

theorem Block.allCanonical_toPayloads : ∀ bs : List Block, AllCanonical (Block.toPayloads bs)
  | [] => trivial
  | b :: bs => ⟨Block.canonical_toPayload b, Block.allCanonical_toPayloads bs⟩

theorem ListItem.canonical_toPayload : ∀ i : ListItem, i.toPayload.Canonical
  | ⟨text, children⟩ => by
      simp [ListItem.toPayload, Canonical, RecordKind.fields, FieldsCanonical,
        RecordKind.holdsLabel, Block.allCanonical_toPayloads children]

theorem ListItem.allCanonical_toPayloads : ∀ is : List ListItem,
    AllCanonical (ListItem.toPayloads is)
  | [] => trivial
  | i :: is => ⟨ListItem.canonical_toPayload i, ListItem.allCanonical_toPayloads is⟩

theorem ListBlock.canonical_toPayload : ∀ l : ListBlock, l.toPayload.Canonical
  | ⟨kind, items, marker, start⟩ => by
      have hstart : ((start.map Payload.int).getD .null).Canonical := by cases start <;> trivial
      simp [ListBlock.toPayload, Canonical, RecordKind.fields, FieldsCanonical,
        RecordKind.holdsLabel, ListItem.allCanonical_toPayloads items, hstart]

end

theorem Document.canonical_toPayload (document : Document) : document.toPayload.Canonical := by
  simp [Document.toPayload, Canonical, RecordKind.fields, FieldsCanonical, RecordKind.holdsLabel,
    Block.allCanonical_toPayloads]

theorem Part.canonical_toPayload (part : Part) : part.toPayload.Canonical := by
  cases part with
  | block block => exact block.canonical_toPayload
  | callout callout =>
      simp [Part.toPayload, Canonical, RecordKind.fields, FieldsCanonical, RecordKind.holdsLabel]

theorem Parameter.canonical_toPayload (parameter : Parameter) :
    parameter.toPayload.Canonical := by
  simp [Parameter.toPayload, Canonical, RecordKind.fields, FieldsCanonical, RecordKind.holdsLabel,
    Document.canonical_toPayload]

theorem Payload.allCanonical_iff {ps : List Payload} :
    AllCanonical ps ↔ ∀ p ∈ ps, p.Canonical := by
  induction ps with
  | nil => simp [AllCanonical]
  | cons p ps ih => simp [AllCanonical, ih]

theorem Payload.canonical_getD_null {p? : Option Payload} (h : ∀ p ∈ p?, p.Canonical) :
    (p?.getD .null).Canonical := by
  cases p? with
  | none => trivial
  | some p => exact h p rfl

theorem Documentation.canonical_toPayload (d : Documentation) : d.toPayload.Canonical := by
  have hsummary : ((d.summary.map Block.toPayload).getD .null).Canonical :=
    canonical_getD_null (by simp +contextual [Block.canonical_toPayload])
  have hdiscussion : AllCanonical (d.discussion.map Part.toPayload) :=
    allCanonical_iff.mpr (by simp +contextual [Part.canonical_toPayload])
  have hparameters : AllCanonical (d.parameters.map Parameter.toPayload) :=
    allCanonical_iff.mpr (by simp +contextual [Parameter.canonical_toPayload])
  have hreturns : ((d.returns.map Document.toPayload).getD .null).Canonical :=
    canonical_getD_null (by simp +contextual [Document.canonical_toPayload])
  have hthrows : ((d.throws.map Document.toPayload).getD .null).Canonical :=
    canonical_getD_null (by simp +contextual [Document.canonical_toPayload])
  simp [Documentation.toPayload, Canonical, RecordKind.fields, FieldsCanonical,
    RecordKind.holdsLabel, hsummary, hdiscussion, hparameters, hreturns, hthrows]

/-! ## Different records have different payloads -/

theorem ListKind.name_injective {k l : ListKind} (h : k.name = l.name) : k = l := by
  cases k <;> cases l <;> first | rfl | exact absurd h (by decide)

/-- An optional value is found again in its payload if no value has the payload of its absence. -/
theorem Payload.map_getD_null_injective {α : Type} {f : α → Payload}
    (hf : ∀ a b, f a = f b → a = b) (hnull : ∀ a, f a ≠ .null) {a? b? : Option α}
    (h : (a?.map f).getD .null = (b?.map f).getD .null) : a? = b? := by
  cases a? with
  | none =>
      cases b? with
      | none => rfl
      | some b => exact absurd h.symm (hnull b)
  | some a =>
      cases b? with
      | none => exact absurd h (hnull a)
      | some b => rw [hf a b h]

theorem ListBlock.toPayload_eq (l : ListBlock) :
    l.toPayload = .record .list [.str l.kind.name, .seq (ListItem.toPayloads l.items),
      .str l.marker, (l.start.map Payload.int).getD .null] := by
  cases l
  rfl

mutual

theorem Block.toPayload_injective (b : Block) : ∀ c : Block, b.toPayload = c.toPayload → b = c := by
  cases b with
  | quote s bs =>
      intro c h
      cases c with
      | quote t cs =>
          simp only [Block.toPayload, Payload.record.injEq, List.cons.injEq, Payload.str.injEq,
            Payload.seq.injEq, true_and, and_true] at h
          rw [h.1, Block.toPayloads_injective bs cs h.2]
      | _ => simp [Block.toPayload, ListBlock.toPayload_eq] at h
  | list l =>
      intro c h
      cases c with
      | list m => rw [ListBlock.toPayload_injective l m h]
      | _ => simp [Block.toPayload, ListBlock.toPayload_eq] at h
  | _ =>
      intro c h
      cases c with
      | list m => simp [Block.toPayload, ListBlock.toPayload_eq] at h
      | _ => simp_all [Block.toPayload]
termination_by structural b

theorem Block.toPayloads_injective (bs : List Block) :
    ∀ cs, Block.toPayloads bs = Block.toPayloads cs → bs = cs := by
  cases bs with
  | nil => intro cs h; cases cs <;> simp_all [Block.toPayloads]
  | cons b bs =>
      intro cs h
      cases cs with
      | nil => simp [Block.toPayloads] at h
      | cons c cs =>
          simp only [Block.toPayloads, List.cons.injEq] at h
          rw [Block.toPayload_injective b c h.1, Block.toPayloads_injective bs cs h.2]
termination_by structural bs

theorem ListItem.toPayload_injective (i : ListItem) :
    ∀ j : ListItem, i.toPayload = j.toPayload → i = j := by
  cases i with
  | mk s bs =>
      rintro ⟨t, cs⟩ h
      simp only [ListItem.toPayload, Payload.record.injEq, List.cons.injEq, Payload.str.injEq,
        Payload.seq.injEq, true_and, and_true] at h
      rw [h.1, Block.toPayloads_injective bs cs h.2]
termination_by structural i

theorem ListItem.toPayloads_injective (is : List ListItem) :
    ∀ js, ListItem.toPayloads is = ListItem.toPayloads js → is = js := by
  cases is with
  | nil => intro js h; cases js <;> simp_all [ListItem.toPayloads]
  | cons i is =>
      intro js h
      cases js with
      | nil => simp [ListItem.toPayloads] at h
      | cons j js =>
          simp only [ListItem.toPayloads, List.cons.injEq] at h
          rw [ListItem.toPayload_injective i j h.1, ListItem.toPayloads_injective is js h.2]
termination_by structural is

theorem ListBlock.toPayload_injective (l : ListBlock) :
    ∀ m : ListBlock, l.toPayload = m.toPayload → l = m := by
  cases l with
  | mk kind items marker start =>
      rintro ⟨kind', items', marker', start'⟩ h
      simp only [ListBlock.toPayload, Payload.record.injEq, List.cons.injEq, Payload.str.injEq,
        Payload.seq.injEq, true_and, and_true] at h
      obtain ⟨hkind, hitems, hmarker, hstart⟩ := h
      have hstart := map_getD_null_injective (by simp) (by simp) hstart
      rw [ListKind.name_injective hkind, ListItem.toPayloads_injective items items' hitems,
        hmarker, hstart]
termination_by structural l

end

theorem Document.toPayload_injective (c d : Document) (h : c.toPayload = d.toPayload) : c = d := by
  simp only [Document.toPayload, Payload.record.injEq, List.cons.injEq, Payload.str.injEq,
    Payload.seq.injEq, true_and, and_true] at h
  have hchildren := Block.toPayloads_injective _ _ h.2
  cases c
  cases d
  simp_all

/-- A block is a record, and no callout. -/
theorem Block.toPayload_eq_record (b : Block) :
    ∃ kind fields, b.toPayload = .record kind fields ∧ kind ≠ .callout := by
  cases b with
  | list l => exact ⟨.list, _, ListBlock.toPayload_eq l, by decide⟩
  | _ => exact ⟨_, _, rfl, by decide⟩

theorem Part.toPayload_injective {p q : Part} (h : p.toPayload = q.toPayload) : p = q := by
  cases p with
  | block b =>
      cases q with
      | block c => rw [Block.toPayload_injective b c h]
      | callout c =>
          obtain ⟨kind, fields, hb, hkind⟩ := b.toPayload_eq_record
          simp only [Part.toPayload, hb, Payload.record.injEq] at h
          exact absurd h.1 hkind
  | callout c =>
      cases q with
      | block b =>
          obtain ⟨kind, fields, hb, hkind⟩ := b.toPayload_eq_record
          simp only [Part.toPayload, hb, Payload.record.injEq] at h
          exact absurd h.1.symm hkind
      | callout d =>
          cases c
          cases d
          simp_all [Part.toPayload]

theorem Parameter.toPayload_injective {p q : Parameter} (h : p.toPayload = q.toPayload) :
    p = q := by
  simp only [Parameter.toPayload, Payload.record.injEq, List.cons.injEq, Payload.str.injEq,
    true_and, and_true] at h
  have hcontent := Document.toPayload_injective _ _ h.2
  cases p
  cases q
  simp_all

theorem Documentation.toPayload_injective {c d : Documentation} (h : c.toPayload = d.toPayload) :
    c = d := by
  simp only [Documentation.toPayload, Payload.record.injEq, List.cons.injEq, Payload.seq.injEq,
    true_and, and_true] at h
  obtain ⟨hsummary, hdiscussion, hparameters, hreturns, hthrows⟩ := h
  have hblock : ∀ b : Block, b.toPayload ≠ .null := by
    intro b hb
    obtain ⟨kind, fields, hrecord, -⟩ := b.toPayload_eq_record
    simp [hrecord] at hb
  have hsummary := map_getD_null_injective Block.toPayload_injective hblock hsummary
  have hdiscussion :=
    List.map_injective_iff.mpr (fun _ _ => Part.toPayload_injective) hdiscussion
  have hparameters :=
    List.map_injective_iff.mpr (fun _ _ => Parameter.toPayload_injective) hparameters
  have hreturns := map_getD_null_injective Document.toPayload_injective
    (by simp [Document.toPayload]) hreturns
  have hthrows := map_getD_null_injective Document.toPayload_injective
    (by simp [Document.toPayload]) hthrows
  cases c
  cases d
  simp_all

/-! ## Whole records -/

/-- The line of a record is loaded as that record and as no other. -/
theorem Documentation.load_line_iff (layout : Json.Layout) (d e : Documentation) :
    Payload.load (d.toPayload.dump layout ++ "\n") = .ok e.toPayload ↔ e = d := by
  have hnewline : ∀ c ∈ ['\n'], Json.isGap c = true := fun c hc => by
    rw [List.mem_singleton.mp hc]
    rfl
  have hload : Payload.load (d.toPayload.dump layout ++ "\n") = .ok d.toPayload :=
    load_dump_gap layout d.canonical_toPayload hnewline
  rw [hload]
  constructor
  · intro h
    exact (Documentation.toPayload_injective (Except.ok.inj h)).symm
  · rintro rfl
    rfl

/-- **Records survive being stored.**  Loading the text of a record, in any layout, gives a record:
that one, and no other. -/
theorem Documentation.load_dump_iff (d e : Documentation) (indent : Option Int) :
    Payload.load (d.toPayload.dump (Json.Layout.ofIndent indent)) = .ok e.toPayload ↔ e = d := by
  rw [show d.toPayload = .record .documentation _ from rfl,
    load_dump _ d.canonical_toPayload]
  constructor
  · intro h
    exact (Documentation.toPayload_injective (Except.ok.inj h)).symm
  · rintro rfl
    rfl

end DocComment
