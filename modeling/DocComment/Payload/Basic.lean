import DocComment.CalloutLabel
import DocComment.Json.Basic

/-!
# Payloads

A payload is what an encoded record decodes to.  Decoding checks the tags and the presence of fields
but not their types: any scalar may stand in any field, and any record in any place.  A payload
therefore is a tree of records of twelve kinds, and `RecordKind.fields` is the schema of each kind.
-/

namespace DocComment

/-- The kinds of records. -/
inductive RecordKind where
  | paragraph | heading | code | html | thematicBreak | quote | item | list | document | callout
  | parameter | documentation
deriving Repr, DecidableEq

/-- A decoded value.  The fields of a record stand in the order of its kind's schema. -/
inductive Payload where
  | null
  | bool (value : Bool)
  | int (value : Int)
  | real (literal : String)
  | str (value : String)
  | seq (elements : List Payload)
  | label (label : CalloutLabel)
  | record (kind : RecordKind) (fields : List Payload)
deriving Inhabited

/-! ## Schemas -/

/-- A field of a record kind; a field without a default has to be present. -/
structure FieldSpec where
  name : String
  default? : Option Payload := none

namespace RecordKind

/-- Every kind. -/
def all : List RecordKind := [
  paragraph, heading, code, html, thematicBreak, quote, item, list, document, callout, parameter,
  documentation]

/-- The tag that marks an encoded record of this kind. -/
def tag : RecordKind → String
  | paragraph => "paragraph"
  | heading => "heading"
  | code => "code_block"
  | html => "html_block"
  | thematicBreak => "thematic_break"
  | quote => "block_quote"
  | item => "list_item"
  | list => "list"
  | document => "document"
  | callout => "callout"
  | parameter => "parameter"
  | documentation => "documentation"

/-- The kind's name in messages. -/
def title : RecordKind → String
  | paragraph => "Paragraph"
  | heading => "Heading"
  | code => "CodeBlock"
  | html => "HTMLBlock"
  | thematicBreak => "ThematicBreak"
  | quote => "BlockQuote"
  | item => "ListItem"
  | list => "ListBlock"
  | document => "Document"
  | callout => "Callout"
  | parameter => "Parameter"
  | documentation => "Documentation"

/-- The fields of a kind, in order. -/
def fields : RecordKind → List FieldSpec
  | paragraph => [⟨"text", none⟩]
  | heading => [⟨"level", none⟩, ⟨"text", none⟩]
  | code => [⟨"info", none⟩, ⟨"literal", none⟩]
  | html => [⟨"literal", none⟩]
  | thematicBreak => [⟨"markup", some (.str "---")⟩]
  | quote => [⟨"text", none⟩, ⟨"children", some (.seq [])⟩]
  | item => [⟨"text", none⟩, ⟨"children", some (.seq [])⟩]
  | list => [⟨"list_kind", none⟩, ⟨"items", some (.seq [])⟩, ⟨"marker", some (.str "-")⟩,
      ⟨"start", some .null⟩]
  | document => [⟨"text", none⟩, ⟨"children", some (.seq [])⟩]
  | callout => [⟨"delimiter", none⟩, ⟨"content", none⟩]
  | parameter => [⟨"name", none⟩, ⟨"content", none⟩]
  | documentation => [⟨"summary", some .null⟩, ⟨"discussion", some (.seq [])⟩,
      ⟨"parameters", some (.seq [])⟩, ⟨"returns", some .null⟩, ⟨"throws", some .null⟩]

/-- The kind that a tag marks. -/
def ofTag? (tag : String) : Option RecordKind :=
  all.find? fun kind => kind.tag == tag

/-- Whether the field of this name holds a callout label. -/
def holdsLabel (kind : RecordKind) (name : String) : Bool :=
  kind == callout && name == "delimiter"

theorem mem_all (kind : RecordKind) : kind ∈ all := by
  cases kind <;> decide

end RecordKind

/-! ## Equality -/

namespace Payload

mutual

/-- Whether two payloads agree in every part. -/
def agree : Payload → Payload → Bool
  | .null, .null => true
  | .bool a, .bool b => a == b
  | .int m, .int n => m == n
  | .real s, .real t => s == t
  | .str s, .str t => s == t
  | .seq ps, .seq qs => agreeAll ps qs
  | .label l, .label m => l == m
  | .record k ps, .record l qs => k == l && agreeAll ps qs
  | _, _ => false

/-- Whether two payload sequences agree. -/
def agreeAll : List Payload → List Payload → Bool
  | [], [] => true
  | p :: ps, q :: qs => agree p q && agreeAll ps qs
  | _, _ => false

end

mutual

theorem agree_iff (p : Payload) : ∀ q, p.agree q = true ↔ p = q := by
  cases p with
  | seq ps => intro q; cases q <;> simp [agree, agreeAll_iff ps]
  | record k ps => intro q; cases q <;> simp [agree, agreeAll_iff ps]
  | _ => intro q; cases q <;> simp [agree]
termination_by structural p

theorem agreeAll_iff (ps : List Payload) : ∀ qs, agreeAll ps qs = true ↔ ps = qs := by
  cases ps with
  | nil => intro qs; cases qs <;> simp [agreeAll]
  | cons p ps => intro qs; cases qs <;> simp [agreeAll, agree_iff p, agreeAll_iff ps]
termination_by structural ps

end

instance : DecidableEq Payload := fun p q => decidable_of_iff _ (agree_iff p q)

end Payload

end DocComment
