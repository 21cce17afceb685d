import DocComment.Proofs.DepthLimit
import DocComment.Proofs.ReadTotal

/-!
# Newline styles

Comments come with three conventions for the end of a line, and the first thing that reading does is
to write all of them as one.  What is read off the text behind that may be anything:
`Markdown.readBy` is the reader of Markdown over an arbitrary reader of blocks, and `Markdown.read`
is one of its instances.

* `unifyNewlines_intercalate`: lines put together in any style are unified to the same source.
* `parse_congr`: two comments that are read alike have the same record, although the calls of their
  runs differ in the comment itself.
* `readBy_text`: a document carries a text without carriage returns, and is read from it again.
  `markdown_of_mem_documents` takes this from single documents to the documents of a record, each of
  which was read from a text that the run handed over.
-/

namespace DocComment

open Text

/-! ## Lines put together -/

/-- A convention for the end of a line. -/
inductive NewlineStyle where
  | lineFeed
  | carriageReturn
  | both
deriving Repr, DecidableEq

/-- The characters that end a line. -/
def NewlineStyle.mark : NewlineStyle → String
  | .lineFeed => "\n"
  | .carriageReturn => "\r"
  | .both => "\r\n"

/-- Lines put together in a style. -/
def NewlineStyle.text (style : NewlineStyle) (lines : List String) : String :=
  joined style.mark lines

namespace Text

theorem unifyNewlines_append {line : List Char} (h : '\r' ∉ line) (rest : List Char) :
    unifyNewlines (line ++ rest) = line ++ unifyNewlines rest := by
  induction line with
  | nil => rfl
  | cons c line ih =>
      simp only [List.mem_cons, not_or] at h
      have hc : c ≠ '\r' := fun hc => h.1 hc.symm
      rw [List.cons_append, unifyNewlines, ih h.2, List.cons_append]
      · exact fun _ heq => absurd heq hc
      · exact hc

/-- A mark is unified to a line feed, unless a line feed behind it would join it. -/
theorem unifyNewlines_mark (style : NewlineStyle) {rest : List Char}
    (h : style = .carriageReturn → rest.head? ≠ some '\n') :
    unifyNewlines (style.mark.toList ++ rest) = '\n' :: unifyNewlines rest := by
  cases style with
  | lineFeed => rfl
  | both => rfl
  | carriageReturn =>
      show unifyNewlines ('\r' :: rest) = _
      rw [unifyNewlines]
      rintro cs rfl
      exact h rfl rfl

/-- Lines put together with a mark do not open with a line feed, if the mark does not. -/
theorem head?_intercalate_ne {mark : List Char} (hmark : mark.head? ≠ some '\n')
    {lines : List (List Char)} (h : ∀ line ∈ lines, '\n' ∉ line) :
    (mark.intercalate lines).head? ≠ some '\n' := by
  cases lines with
  | nil => simp
  | cons line lines =>
      have hline : line.head? ≠ some '\n' := fun hhead =>
        h line List.mem_cons_self (List.mem_of_head? hhead)
      cases lines with
      | nil => simpa using hline
      | cons next lines =>
          rw [List.intercalate_cons_cons, List.append_assoc]
          cases line with
          | cons c line => simpa using hline
          | nil =>
              cases mark with
              | cons c mark => simpa using hmark
              | nil =>
                  exact head?_intercalate_ne hmark fun other hm =>
                    h other (List.mem_cons_of_mem _ hm)

/-- Lines put together in any style are unified to the lines with line feeds between them. -/
theorem unifyNewlines_intercalate (style : NewlineStyle) {lines : List (List Char)}
    (h : ∀ line ∈ lines, '\r' ∉ line ∧ '\n' ∉ line) :
    unifyNewlines (style.mark.toList.intercalate lines) = joinNewlines lines := by
  induction lines with
  | nil => rfl
  | cons line lines ih =>
      have hline := h line List.mem_cons_self
      have hothers : ∀ other ∈ lines, '\r' ∉ other ∧ '\n' ∉ other :=
        fun other hm => h other (List.mem_cons_of_mem line hm)
      cases lines with
      | nil => simpa using unifyNewlines_of_notMem hline.1
      | cons next lines =>
          rw [List.intercalate_cons_cons, List.append_assoc, unifyNewlines_append hline.1,
            unifyNewlines_mark, ih hothers, joinNewlines_cons_cons]
          rintro rfl
          exact head?_intercalate_ne (by decide) fun other hm => (hothers other hm).2

end Text

/-! ## Readers of Markdown -/

namespace Markdown

variable {ε : Type} (blocks : List Char → Except ε (List Block))

/-- The reader of Markdown over a reader of blocks, which is a function of the source with its
newlines unified and is free otherwise. -/
def readBy (text : String) : Except ε Document := do
  let source := unifyNewlines text.toList
  return { text := String.ofList source, children := ← blocks source }

/-- With any limit, the reader of Markdown is such a reader. -/
theorem read_eq_readBy (limit : Option Int) : read limit = readBy (readSource limit) := rfl

theorem readBy_congr {text other : String}
    (h : unifyNewlines text.toList = unifyNewlines other.toList) :
    readBy blocks text = readBy blocks other := by
  rw [readBy, readBy, h]

/-- Lines are read alike in all styles. -/
theorem readBy_style {lines : List String}
    (h : ∀ line ∈ lines, '\r' ∉ line.toList ∧ '\n' ∉ line.toList) (style other : NewlineStyle) :
    readBy blocks (style.text lines) = readBy blocks (other.text lines) := by
  have hlines : ∀ line ∈ lines.map String.toList, '\r' ∉ line ∧ '\n' ∉ line := by
    simpa using h
  apply readBy_congr
  rw [NewlineStyle.text, NewlineStyle.text, joined, joined, String.toList_ofList,
    String.toList_ofList, unifyNewlines_intercalate style hlines,
    unifyNewlines_intercalate other hlines]

/-- A document carries a unified text, and it is read from that text again. -/
theorem readBy_text {text : String} {document : Document}
    (h : readBy blocks text = .ok document) :
    '\r' ∉ document.text.toList ∧ readBy blocks document.text = .ok document := by
  have htext : document.text = String.ofList (unifyNewlines text.toList) := by
    rw [readBy] at h
    cases hblocks : blocks (unifyNewlines text.toList) with
    | error error => simp [hblocks, bind, Except.bind] at h
    | ok children =>
        rw [hblocks] at h
        cases h
        rfl
  have hunified := notMem_unifyNewlines text.toList
  rw [htext, String.toList_ofList]
  refine ⟨hunified, ?_⟩
  rw [← h]
  apply readBy_congr
  rw [String.toList_ofList, unifyNewlines_of_notMem hunified]

end Markdown

/-! ## Comments that are read alike -/

namespace SectionReader

open Extraction

variable {ε : Type} (reader : SectionReader ε)

/-- Comments that are read alike are parsed alike. -/
theorem parse_congr {text other : String} (h : reader.markdown text = reader.markdown other) :
    reader.parse (some text) = reader.parse (some other) := by
  rw [parse, parse]
  cases hread : reader.markdown text with
  | error error =>
      rw [run_some_error reader hread, run_some_error reader (h.symm.trans hread)]
  | ok document =>
      rw [run_some reader hread, run_some reader (h.symm.trans hread)]
      let progress : Progress :=
        { documentation := { summary := (Block.splitSummary document.children).1 } }
      have hagree : ({ progress with calls := [text] } : Progress).documentation
          = ({ progress with calls := [other] } : Progress).documentation := rfl
      have hdetach := Eq.refl <|
        (Event.ofBlocks reader.maxDepth (Block.splitSummary document.children).2).map Event.detach
      obtain ⟨houtcome, hdocumentation, -⟩ := performAll_alike reader hdetach hagree
      generalize runFrom (reader.performAll _) _ = result at houtcome hdocumentation ⊢
      generalize runFrom (reader.performAll _) _ = second at houtcome hdocumentation ⊢
      obtain ⟨outcome, after⟩ := result
      obtain ⟨_, afterOther⟩ := second
      obtain rfl : outcome = _ := houtcome
      cases outcome with
      | error failure => rfl
      | ok done => exact congrArg Except.ok hdocumentation

end SectionReader

/-! ## The documents of a record -/

/-- The documents of a record: the contents of its parameters, and its returns and throws fields. -/
def Documentation.documents (d : Documentation) : List Document :=
  d.parameters.map Parameter.content ++ d.returns.toList ++ d.throws.toList

theorem Event.text?_of_returns? {event : Event} {text : String} (h : event.returns? = some text) :
    event.text? = some text := by
  cases event with
  | returns description => exact h
  | _ => cases h

theorem Event.text?_of_throws? {event : Event} {text : String} (h : event.throws? = some text) :
    event.text? = some text := by
  cases event with
  | throws description => exact h
  | _ => cases h

/-- The documents of a record that events state are read from the texts of these events. -/
theorem Documentation.mem_documents_ofEvents {content : String → Document} {summary : Option Block}
    {events : List Event} {document : Document}
    (h : document ∈ (ofEvents content summary events).documents) :
    ∃ text ∈ events.filterMap Event.text?, document = content text := by
  have hlast {stated? : Event → Option String}
      (hstated : ∀ {event text}, stated? event = some text → event.text? = some text)
      (hmem : document ∈ ((events.filterMap stated?).getLast?.map content).toList) :
      ∃ text ∈ events.filterMap Event.text?, document = content text := by
    obtain ⟨text, htext, rfl⟩ := Option.map_eq_some_iff.mp (Option.mem_toList.mp hmem)
    obtain ⟨event, hevent, heq⟩ := List.mem_filterMap.mp (List.mem_of_getLast? htext)
    exact ⟨text, List.mem_filterMap.mpr ⟨event, hevent, hstated heq⟩, rfl⟩
  simp only [documents, ofEvents, List.mem_append] at h
  rcases h with (hcontent | hreturns) | hthrows
  · obtain ⟨parameter, hparameter, rfl⟩ := List.mem_map.mp hcontent
    obtain ⟨event, hevent, heq⟩ := List.mem_filterMap.mp hparameter
    cases event with
    | parameter name description =>
        cases heq
        exact ⟨description, List.mem_filterMap.mpr ⟨_, hevent, rfl⟩, rfl⟩
    | _ => cases heq
  · exact hlast Event.text?_of_returns? hreturns
  · exact hlast Event.text?_of_throws? hthrows

/-- Every document of a record was read by the Markdown reader from some text. -/
theorem SectionReader.markdown_of_mem_documents {ε : Type} {reader : SectionReader ε}
    {comment : Option String} {d : Documentation} (h : reader.parse comment = .ok d)
    {document : Document} (hdocument : document ∈ d.documents) :
    ∃ text, reader.markdown text = .ok document := by
  cases comment with
  | none =>
      obtain rfl : ({} : Documentation) = d := Except.ok.inj h
      cases hdocument
  | some text =>
      obtain ⟨source, hread, rfl⟩ := parse_ok h
      obtain ⟨called, hcalled, rfl⟩ := Documentation.mem_documents_ofEvents hdocument
      have hreads : ∀ handed ∈ reader.texts text, reader.Reads handed := by
        have hrun := run_handsOver reader text
        rw [h] at hrun
        exact hrun.reads
      have hmem : called ∈ reader.texts text := by
        rw [texts, hread]
        exact List.mem_cons_of_mem text hcalled
      exact ⟨called, (hreads called hmem).markdown_eq⟩

/-! ## All styles, all readers -/

/-- **The newline style never matters, and stored documents describe themselves.**  The reader of
Markdown is, for every limit, a reader over some reader of blocks, and for every such reader and
every depth limit: lines are read alike and parsed alike, in whatever style they are put together;
what is read carries a text without carriage returns, from which it is read again; and so are all
documents of every record that is parsed. -/
theorem newline_style_never_matters :
    (∀ limit, Markdown.read limit = Markdown.readBy (Markdown.readSource limit))
      ∧ ∀ (ε : Type) (blocks : List Char → Except ε (List Block)) (maxDepth : Int),
        let reader : SectionReader ε := { markdown := Markdown.readBy blocks, maxDepth }
        (∀ lines : List String, (∀ line ∈ lines, '\r' ∉ line.toList ∧ '\n' ∉ line.toList) →
          ∀ style other : NewlineStyle,
            reader.markdown (style.text lines) = reader.markdown (other.text lines)
              ∧ reader.parse (some (style.text lines)) = reader.parse (some (other.text lines)))
          ∧ (∀ text document, reader.markdown text = .ok document →
            '\r' ∉ document.text.toList ∧ reader.markdown document.text = .ok document)
          ∧ ∀ comment d, reader.parse comment = .ok d →
            ∀ document ∈ d.documents, reader.markdown document.text = .ok document := by
  refine ⟨Markdown.read_eq_readBy, fun ε blocks maxDepth => ?_⟩
  intro reader
  refine ⟨fun lines hlines style other => ?_, fun text document => Markdown.readBy_text blocks,
    fun comment d hparse document hdocument => ?_⟩
  · have hread := Markdown.readBy_style blocks hlines style other
    exact ⟨hread, SectionReader.parse_congr reader hread⟩
  · obtain ⟨text, hread⟩ := SectionReader.markdown_of_mem_documents hparse hdocument
    exact (Markdown.readBy_text blocks hread).2

/-- The lines of a comment with a parameter and a field of two blocks. -/
def returnsLines : List String :=
  ["Adds.", "", "- Parameter x: first", "- Returns:", "", "  sum", "", "  - exact"]

/-- The record that `returnsLines` state. -/
def returnsLinesRecord : Documentation where
  summary := some (.paragraph "Adds.")
  parameters := [
    { name := "x", content := { text := "first", children := [.paragraph "first"] } }]
  returns := some {
    text := "sum\n\n- exact"
    children := [.paragraph "sum", .list { kind := .bullet, items := [
      { text := "- exact", children := [.paragraph "exact"] }] }] }

theorem newline_style_never_matters_returnsLines :
    (∀ line ∈ returnsLines, '\r' ∉ line.toList ∧ '\n' ∉ line.toList)
      ∧ SectionReader.standard.parse (some (NewlineStyle.lineFeed.text returnsLines))
        = .ok returnsLinesRecord
      ∧ SectionReader.standard.parse (some (NewlineStyle.both.text returnsLines))
        = .ok returnsLinesRecord
      ∧ ∀ document ∈ returnsLinesRecord.documents,
          '\r' ∉ document.text.toList
            ∧ SectionReader.standard.markdown document.text = .ok document := by
  have hlines : ∀ line ∈ returnsLines, '\r' ∉ line.toList ∧ '\n' ∉ line.toList := by decide
  have hparse : SectionReader.standard.parse (some (NewlineStyle.lineFeed.text returnsLines))
      = .ok returnsLinesRecord := by decide +kernel
  obtain ⟨hstyle, htext, hdocuments⟩ := newline_style_never_matters.2 Markdown.ReadError
    (Markdown.readSource Markdown.defaultLimit) 8
  refine ⟨hlines, hparse, (hstyle returnsLines hlines .both .lineFeed).2.trans hparse, ?_⟩
  intro document hdocument
  have hread := hdocuments _ returnsLinesRecord hparse document hdocument
  exact ⟨(htext _ document hread).1, hread⟩

end DocComment
