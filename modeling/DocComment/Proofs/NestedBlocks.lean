import DocComment.Field
import DocComment.Proofs.ContainerMarkup
import DocComment.Proofs.KeptFields
import DocComment.Proofs.LeafMarkup
import Mathlib

/-!
# Blocks nested in a field

Where an item has more than one block, the description of its field is the Markdown of the blocks
after the first, with an empty line between any two.  Reading the description gives these blocks
again (`field?_keeps_blocks`) where

* each of them is tidy: its Markdown has a form that is read as a block like it (`Block.Tidy`);
* no two lists of the same kind and marker are neighbours, because they would be read as one;
* the containers are not nested so deep that the reader gives up on them.

Blocks that are not tidy may be read as others: a heading over two lines is written on one line and
a second one (`field?_splits_heading`).
-/

namespace DocComment

open Text Markdown Markup

/-! ## Tidy blocks -/

/-- The parts between the newlines of the Markdown of a block. -/
def Block.markupParts (block : Block) : List (List Char) :=
  splitNewlines block.markup.toList

/-- Whether the Markdown of a block has a form that is read as a block like it. -/
def Block.HasForm : Block → Prop
  | .paragraph text => ParagraphText text.toList
  | .heading level text => HeadingText level text.toList
  | .code info literal => CodeText info.toList literal.toList
  | .html literal => HtmlText (Markup.html literal).toList
  | .thematicBreak markup => BreakText markup.toList
  | .quote text _ => QuoteText text.toList
  | .list l => ListText l

/-- A block that is read from its Markdown wherever that stands.  There are no newlines to unify in
it, and something stands on its last line. -/
structure Block.Tidy (block : Block) : Prop where
  form : block.HasForm
  unified : '\r' ∉ block.markup.toList
  closed : ∀ last ∈ block.markupParts.getLast?, last.all isIndent = false

/-- Whether two neighbours stay apart: lists of the same kind and marker would be read as one. -/
def Block.Apart : Block → Block → Prop
  | .list l, .list m => l.kind = m.kind → l.marker ≠ m.marker
  | _, _ => True

theorem Block.markupParts_ne_nil (block : Block) : block.markupParts ≠ [] :=
  splitNewlines_ne_nil _

variable {limit : Int} {read : ContentReader} {block next : Block} {rest : List Line}

/-- **A tidy block is read back**, whatever stands behind it. -/
theorem Block.Tidy.readsLike (hstays : StaysWithin limit read) (htakes : TakesInside read)
    (h : block.Tidy) (ended : Bool) (hrest : Behind block rest) :
    ReadsLike limit read block (sourceLines ended block.markupParts) rest := by
  have hform := h.form
  cases block with
  | paragraph text => exact readsLike_paragraph hform ended hrest
  | heading level text => exact readsLike_heading hform ended
  | code info literal => exact readsLike_code hform ended
  | html literal => exact readsLike_html hform ended hrest
  | thematicBreak markup => exact readsLike_thematicBreak hform ended
  | quote text children => exact readsLike_quote hstays htakes hform ended hrest
  | list l => exact readsLike_list hstays htakes hform ended hrest

/-! ## First lines -/

/-- A line that opens with neither a digit nor a bullet goes on with no list. -/
theorem nextMarker?_of_head {c : Char} (hvisible : isIndent c = false ∧ c ≠ '\x00')
    (hdigit : c.isDigit = false) (hbullet : c ≠ '*' ∧ c ≠ '-' ∧ c ≠ '+') (ended : Bool)
    (cs : List Char) (kind : ListKind) (sign : Char) :
    nextMarker? {} kind sign (Line.ofSource ended (c :: cs)) = none := by
  have hbody : (Line.ofSource ended (c :: cs)).body = c :: cs.map Line.visible := by
    rw [ofSource_flush ended (by rintro _ ⟨⟩; exact hvisible.1)]
    simp [Line.visible, hvisible.2]
  simp [nextMarker?, hbody, marker?_of_head hdigit hbullet]

theorem exists_first_heading {level : Int} {text : String} (h : HeadingText level text.toList) :
    ∃ first more, (Block.heading level text).markupParts = ('#' :: first) :: more := by
  have hone := HeadingText.one_le h
  obtain ⟨n, hn⟩ : ∃ n : Nat, level.toNat = n + 1 := ⟨level.toNat - 1, by omega⟩
  have hmarkup : (Markup.heading level text).toList
      = '#' :: (List.replicate n '#' ++ ' ' :: text.toList) := by
    simp [Markup.heading, hn, List.replicate_succ]
  rw [Block.markupParts, Block.markup, hmarkup]
  exact splitNewlines_cons (by decide) _

theorem exists_first_code (info literal : String) :
    ∃ first more, (Block.code info literal).markupParts = (backtick :: first) :: more := by
  obtain ⟨size, hsize, hfence, -⟩ := fence_spec literal
  obtain ⟨n, rfl⟩ : ∃ n, size = n + 1 := ⟨size - 1, by omega⟩
  have hmarkup : ∃ cs, (Markup.code info literal).toList = backtick :: cs := by
    simp [Markup.code, hfence, List.replicate_succ]
  obtain ⟨cs, hcs⟩ := hmarkup
  rw [Block.markupParts, Block.markup, hcs]
  exact splitNewlines_cons (by decide) cs

theorem exists_first_html {literal : String} (h : HtmlText (Markup.html literal).toList) :
    ∃ first more, (Block.html literal).markupParts = ('<' :: first) :: more := by
  obtain ⟨first, more, kind, hsplit, hkind, -⟩ := HtmlText.closed h
  obtain ⟨body, rfl⟩ := exists_of_opening? hkind
  exact ⟨body, more, hsplit⟩

theorem exists_first_quote {text : String} (h : QuoteText text.toList) (children : List Block) :
    ∃ first more, (Block.quote text children).markupParts = ('>' :: first) :: more := by
  obtain ⟨first, more, hsplit⟩ := List.exists_cons_of_ne_nil (splitNewlines_ne_nil text.toList)
  obtain ⟨body, rfl⟩ := List.head?_eq_some_iff.mp
    (QuoteText.flush h first (by rw [hsplit]; rfl))
  exact ⟨body, more, hsplit⟩

/-- The first line of a block that is no list goes on with no list; a list goes on with its own
kind. -/
theorem Block.HasForm.nextMarker? (h : block.HasForm) {ended : Bool} {line : Line}
    {front : List Line} (hlines : sourceLines ended block.markupParts = line :: front)
    {kind : ListKind} {sign : Char} {marker : Marker}
    (hmarker : Markdown.nextMarker? {} kind sign line = some marker) :
    ∃ l, block = .list l ∧ l.kind = kind ∧ l.marker = String.singleton sign := by
  -- a first part that opens with another character opens no item
  have hother {c : Char} (hvisible : isIndent c = false ∧ c ≠ '\x00') (hdigit : c.isDigit = false)
      (hbullet : c ≠ '*' ∧ c ≠ '-' ∧ c ≠ '+') :
      ¬∃ first more, block.markupParts = (c :: first) :: more := by
    rintro ⟨first, more, hparts⟩
    obtain ⟨firstEnded, hfirst⟩ := sourceLines_cons ended (c :: first) more
    rw [hparts, hfirst] at hlines
    obtain ⟨rfl, -⟩ := List.cons.inj hlines
    rw [nextMarker?_of_head hvisible hdigit hbullet] at hmarker
    cases hmarker
  cases block with
  | paragraph text =>
      obtain ⟨c, cs, more, hsplit, hindent, hvisible⟩ := ParagraphText.exists_first h
      obtain ⟨firstEnded, hfirst⟩ := sourceLines_cons ended (c :: cs) more
      have hopens : OpensNothing (c :: cs) := h.opens (c :: cs) (by rw [hsplit]; rfl)
      rw [← hsplit] at hfirst
      obtain ⟨rfl, -⟩ := List.cons.inj (hfirst.symm.trans hlines)
      obtain ⟨-, hmarked, -⟩ := nextMarker?_eq_some hmarker
      rw [ofSource_plain firstEnded hindent hvisible, hopens.marker] at hmarked
      cases hmarked
  | heading level text =>
      exact absurd (exists_first_heading h) (hother (by decide) (by decide) (by decide))
  | code info literal =>
      exact absurd (exists_first_code info literal) (hother (by decide) (by decide) (by decide))
  | html literal =>
      exact absurd (exists_first_html h) (hother (by decide) (by decide) (by decide))
  | quote text children =>
      exact absurd (exists_first_quote h children) (hother (by decide) (by decide) (by decide))
  | thematicBreak markup =>
      obtain ⟨hsplit, hline, -, -, opened, hbreak⟩ := BreakText.opens h ended
      obtain ⟨rfl, -⟩ := List.cons.inj ((congrArg (sourceLines ended) hsplit).symm.trans hlines)
      have hinterrupts : interrupts {} .list (Line.ofSource ended markup.toList) = true := by
        rw [hline]
        simp [interrupts, Line.isCode, hbreak]
      rw [Markdown.nextMarker?, hinterrupts, Bool.or_true, if_pos rfl] at hmarker
      cases hmarker
  | list l =>
      obtain ⟨own, first, items, behind, other, hown, hfirst, hitem⟩ :=
        ListText.exists_first h ended
      obtain ⟨rfl, -⟩ := List.cons.inj (hfirst.symm.trans hlines)
      obtain ⟨-, hmarked, rfl, rfl⟩ := nextMarker?_eq_some hmarker
      obtain rfl : other = marker := Option.some.inj (hitem.marked.symm.trans hmarked)
      exact ⟨l, rfl, hitem.same.1.symm, by rw [hown, hitem.same.2]⟩

/-! ## Blocks one after the other -/

/-- The lines of the Markdown of blocks, with an empty line between any two. -/
def blockLines (blocks : List Block) : List Line :=
  linesOfParts (spaced (blocks.map Block.markupParts))

theorem blockLines_singleton (h : block.Tidy) :
    blockLines [block] = sourceLines false block.markupParts := by
  rw [blockLines, List.map_singleton, spaced_singleton, linesOfParts_eq h.closed]

theorem blockLines_cons_cons (block next : Block) (blocks : List Block) :
    blockLines (block :: next :: blocks)
      = sourceLines true block.markupParts ++ emptyLine :: blockLines (next :: blocks) := by
  have hne : spaced ((next :: blocks).map Block.markupParts) ≠ [] := by
    refine spaced_ne_nil (by simp) fun parts hparts => ?_
    obtain ⟨other, -, rfl⟩ := List.mem_map.mp hparts
    exact other.markupParts_ne_nil
  have hspaced : spaced ((block :: next :: blocks).map Block.markupParts)
      = block.markupParts ++ ([[]] ++ spaced ((next :: blocks).map Block.markupParts)) :=
    spaced_cons_cons _ _ _
  rw [blockLines, hspaced, linesOfParts_append _ (by simp), linesOfParts_append [[]] hne,
    sourceLines_true]
  rfl

/-- Every line is a single one. -/
theorem single_blockLines {blocks : List Block} (htidy : ∀ block ∈ blocks, block.Tidy) :
    ∀ line ∈ blockLines blocks, line.IsSingle := by
  induction blocks with
  | nil => exact fun line hline => nomatch hline
  | cons block blocks ih =>
      have hothers := ih fun other hm => htidy other (List.mem_cons_of_mem block hm)
      cases blocks with
      | nil =>
          rw [blockLines_singleton (htidy block List.mem_cons_self)]
          exact single_sourceLines
      | cons next blocks =>
          rw [blockLines_cons_cons]
          exact List.forall_mem_append.mpr
            ⟨single_sourceLines, List.forall_mem_cons.mpr ⟨List.not_mem_nil, hothers⟩⟩

section Reading

variable (hstays : StaysWithin limit read) (htakes : TakesInside read)

include hstays htakes

/-- Behind a block stands the next one, if the two stay apart. -/
theorem behind_blockLines (hnext : next.Tidy) (hapart : block.Apart next) {blocks : List Block}
    (htidy : ∀ other ∈ next :: blocks, other.Tidy) :
    Behind block (emptyLine :: blockLines (next :: blocks)) := by
  obtain ⟨ended, behind, hlines⟩ : ∃ ended behind, blockLines (next :: blocks)
      = sourceLines ended next.markupParts ++ behind := by
    cases blocks with
    | nil => exact ⟨false, [], by rw [blockLines_singleton hnext, List.append_nil]⟩
    | cons other blocks => exact ⟨true, _, blockLines_cons_cons next other blocks⟩
  have hsingle := single_blockLines htidy
  obtain ⟨line, front, hfirst, hvisible, hflush, -⟩ :=
    hnext.readsLike hstays htakes ended .nothing
  rw [hlines, hfirst, List.cons_append] at hsingle ⊢
  refine .other hvisible hflush hsingle fun l sign hl hsign => ?_
  -- a marker on the first line would be that of a list of the same kind and marker
  by_contra hmarker
  obtain ⟨marker, hmarker⟩ := Option.ne_none_iff_exists'.mp hmarker
  obtain ⟨m, rfl, hkind, hmark⟩ := hnext.form.nextMarker? hfirst hmarker
  subst hl
  exact hapart hkind.symm (hsign.trans hmark.symm)

/-- **Tidy blocks are read back** one after the other. -/
theorem readBlocks_blockLines (hroom : 0 < limit) {blocks : List Block}
    (htidy : ∀ block ∈ blocks, block.Tidy) (hapart : blocks.IsChain Block.Apart) {bound : Nat}
    (hbound : (blockLines blocks).length ≤ bound) {found : Found}
    (hfound : readBlocks (some limit) read {} bound (blockLines blocks) (blockLines blocks).length
      = .ok found) (hlevels : Block.levelsAll found.blocks < limit) :
    List.Forall₂ Block.Agrees blocks found.blocks := by
  induction blocks generalizing bound found with
  | nil =>
      have hnone : found.blocks = [] := by
        cases bound with
        | zero =>
            obtain rfl := Except.ok.inj hfound
            rfl
        | succ bound => rw [readBlocks_gap hfound (.inl rfl)]
      rw [hnone]
      exact .nil
  | cons block blocks ih =>
      have hblock := htidy block List.mem_cons_self
      have hothers : ∀ other ∈ blocks, other.Tidy :=
        fun other hm => htidy other (List.mem_cons_of_mem block hm)
      have hmore {more : Found} {other : Block} (hblocks : found.blocks = other :: more.blocks) :
          (Block.levelsAll more.blocks : Int) < limit := by
        rw [hblocks, ← List.singleton_append, Block.levelsAll_append] at hlevels
        push_cast at hlevels
        omega
      cases blocks with
      | nil =>
          have hread := hblock.readsLike hstays htakes false .nothing
          rw [blockLines_singleton hblock, ← List.append_nil (sourceLines _ _)] at hbound hfound
          obtain ⟨bound, rfl⟩ : ∃ b, bound = b + 1 := ⟨bound - 1, by
            have hpos := List.length_pos_iff.mpr block.markupParts_ne_nil
            rw [List.append_nil, length_sourceLines] at hbound
            omega⟩
          obtain ⟨other, more, hblocks, hagrees, hrest⟩ :=
            readBlocks_behind hread .nothing hroom hfound hlevels
          rw [hblocks]
          exact .cons hagrees (ih hothers .nil (Nat.zero_le bound) hrest (hmore hblocks))
      | cons next blocks =>
          have hbehind := behind_blockLines hstays htakes (hothers next List.mem_cons_self)
            (List.isChain_cons_cons.mp hapart).1 hothers
          have hread := hblock.readsLike hstays htakes true hbehind
          rw [blockLines_cons_cons] at hbound hfound
          obtain ⟨bound, rfl⟩ : ∃ b, bound = b + 1 := ⟨bound - 1, by
            simp only [List.length_append, List.length_cons] at hbound
            omega⟩
          obtain ⟨other, more, hblocks, hagrees, hrest⟩ :=
            readBlocks_behind hread hbehind hroom hfound hlevels
          rw [hblocks]
          refine .cons hagrees
            (ih hothers (List.isChain_cons_cons.mp hapart).2 ?_ hrest (hmore hblocks))
          simp only [List.length_append, List.length_cons] at hbound
          omega

end Reading

/-! ## Descriptions of fields -/

/-- The text of several blocks is cut into the parts of their Markdown. -/
theorem toList_joined_markup {blocks : List Block} :
    (joined "\n\n" (blocks.map Block.markup)).toList
      = joinNewlines (spaced (blocks.map Block.markupParts)) := by
  have hparts : ∀ parts ∈ blocks.map Block.markupParts, parts ≠ [] := by
    intro parts hparts
    obtain ⟨block, -, rfl⟩ := List.mem_map.mp hparts
    exact block.markupParts_ne_nil
  have htexts : (blocks.map Block.markupParts).map joinNewlines
      = (blocks.map Block.markup).map String.toList := by
    rw [List.map_map, List.map_map]
    exact List.map_congr_left fun block _ => joinNewlines_splitNewlines block.markup.toList
  rw [← intercalate_joinNewlines hparts, htexts, joined, String.toList_ofList]
  rfl

/-- The lines of the text of several blocks. -/
theorem linesOf_joined_markup {blocks : List Block} (hne : blocks ≠ []) :
    linesOf (joined "\n\n" (blocks.map Block.markup)).toList = blockLines blocks := by
  have hspaced : spaced (blocks.map Block.markupParts) ≠ [] := by
    refine spaced_ne_nil (by simpa using hne) fun parts hparts => ?_
    obtain ⟨block, -, rfl⟩ := List.mem_map.mp hparts
    exact block.markupParts_ne_nil
  have hsingle : ∀ line ∈ spaced (blocks.map Block.markupParts), '\n' ∉ line := by
    intro line hline
    rcases mem_spaced hline with ⟨parts, hparts, hline⟩ | rfl
    · obtain ⟨block, -, rfl⟩ := List.mem_map.mp hparts
      exact notMem_splitNewlines hline
    · exact List.not_mem_nil
  rw [toList_joined_markup, linesOf, splitNewlines_joinNewlines hspaced hsingle, blockLines]

/-- The newlines of tidy blocks are unified already. -/
theorem unified_joined_markup {blocks : List Block} (htidy : ∀ block ∈ blocks, block.Tidy) :
    '\r' ∉ (joined "\n\n" (blocks.map Block.markup)).toList := by
  rw [joined, String.toList_ofList]
  intro hmem
  rcases mem_intercalate hmem with hmem | ⟨text, htext, hmem⟩
  · exact absurd hmem (by decide)
  · obtain ⟨markup, hmarkup, rfl⟩ := List.mem_map.mp htext
    obtain ⟨block, hblock, rfl⟩ := List.mem_map.mp hmarkup
    exact (htidy block hblock).unified hmem

/-- The description of a field with several blocks. -/
theorem ListItem.description_eq {item : ListItem} {field : Field} (h : item.field? = some field)
    (hblocks : item.children.drop 1 ≠ []) :
    field.description = joined "\n\n" ((item.children.drop 1).map Block.markup) := by
  obtain ⟨split, -, rfl⟩ := Option.map_eq_some_iff.mp h
  cases hdrop : item.children.drop 1 with
  | nil => exact absurd hdrop hblocks
  | cons block blocks => rfl

/-- **The blocks of a field survive as text.**  The description of a field with more than one block
is read without fail; where the blocks after the first are tidy and stay apart, they are read again,
the same kinds in the same order, with the same texts, levels and code. -/
theorem field?_keeps_blocks {limit : Int} (hroom : 0 < limit)
    (hcapacity : limit ≤ containerCapacity) {item : ListItem} {field : Field}
    (hfield : item.field? = some field)
    (hblocks : 1 < item.children.length) (htidy : ∀ block ∈ item.children.drop 1, block.Tidy)
    (hapart : (item.children.drop 1).IsChain Block.Apart) :
    ∃ document, Markdown.read (some limit) field.description = .ok document
      ∧ (Block.levelsAll document.children < limit →
        List.Forall₂ Block.Agrees (item.children.drop 1) document.children) := by
  have hne : item.children.drop 1 ≠ [] := by
    rw [Ne, List.drop_eq_nil_iff]
    omega
  rw [ListItem.description_eq hfield hne]
  generalize item.children.drop 1 = blocks at htidy hapart hne
  have htotal : limit ≤ ({} : Surroundings).level + containerCapacity := by simpa using hcapacity
  obtain ⟨found, hfound⟩ := readContent_total containerCapacity {} (blockLines blocks)
    (blockLines blocks).length htotal
  have hsource : Markdown.read (some limit) (joined "\n\n" (blocks.map Block.markup))
      = .ok { text := joined "\n\n" (blocks.map Block.markup), children := found.blocks } := by
    rw [Markdown.read, unifyNewlines_of_notMem (unified_joined_markup htidy), readSource,
      linesOf_joined_markup hne, hfound, String.ofList_toList]
    rfl
  refine ⟨_, hsource, fun hlevels => ?_⟩
  exact readBlocks_blockLines (readContent_stays limit containerCapacity)
    (readContent_takes limit containerCapacity) hroom htidy hapart (Nat.le_refl _) hfound hlevels

/-- A parameter with code and a list behind its first paragraph. -/
theorem field?_keeps_code_and_list :
    ∃ item field document,
      (Markdown.read (some 20)
          "- Parameter x: A number.\n\n  As in\n\n  ```swift\n  f(1)\n  ```\n\n  * one").map
          Document.children = .ok [.list { kind := .bullet, items := [item] }]
        ∧ item.field? = some field ∧ item.children.length = 4
        ∧ Markdown.read (some 20) field.description = .ok document
        ∧ List.Forall₂ Block.Agrees (item.children.drop 1) document.children := by
  let list : ListBlock := {
    kind := .bullet, marker := "*"
    items := [{ text := "* one", children := [.paragraph "one"] }] }
  let item : ListItem := {
    text := "- Parameter x: A number.\n\n  As in\n\n  ```swift\n  f(1)\n  ```\n\n  * one"
    children := [
      .paragraph "Parameter x: A number.", .paragraph "As in", .code "swift" "f(1)\n", .list list] }
  let field : Field := {
    isParameter := true, name := "x", hasBlocks := true
    description := "As in\n\n```swift\nf(1)\n```\n\n* one" }
  have hfield : item.field? = some field := by decide +kernel
  have hparagraph : (Block.paragraph "As in").Tidy := {
    form := {
      ne_nil := by decide
      visible := by decide
      trimmed := by decide +kernel
      opens := by
        rintro _ ⟨⟩
        exact ⟨by decide, by decide, by decide, by decide, by decide +kernel, by decide⟩
      definition := by decide +kernel
      continues := by decide +kernel }
    unified := by decide
    closed := by decide }
  have hcode : (Block.code "swift" "f(1)\n").Tidy := {
    form := {
      trimmed := by decide +kernel
      unmarked := by decide
      single := by decide
      visible := by decide
      ended := by
        rintro _ ⟨⟩
        rfl }
    unified := by decide +kernel
    closed := by decide +kernel }
  have hitem : ItemText .bullet '*' (splitNewlines "* one".toList) := by
    intro ended
    refine ⟨_, [], { kind := .bullet, sign := '*', number := 1, size := 1, rest := " one".toList },
      rfl, ?_⟩
    cases ended
    all_goals exact ⟨by decide, by decide, ⟨rfl, rfl⟩, by decide, by simp, by simp⟩
  have hlist : (Block.list list).Tidy := {
    form := {
      ne_nil := List.cons_ne_nil _ _
      items := ⟨'*', rfl, List.forall_mem_singleton.mpr hitem⟩ }
    unified := by decide +kernel
    closed := by decide +kernel }
  obtain ⟨document, hread, hagrees⟩ :=
    @field?_keeps_blocks 20 (by decide) (by decide) item field hfield (by decide) (by
      simpa [item] using ⟨hparagraph, hcode, hlist⟩) (by
      simp [item, Block.Apart])
  have hdocument : Markdown.read (some 20) field.description
      = .ok { text := field.description, children := item.children.drop 1 } := by decide +kernel
  obtain rfl := Except.ok.inj (hdocument.symm.trans hread)
  exact ⟨item, field, _, by decide +kernel, hfield, rfl, hread, hagrees (by decide +kernel)⟩

/-- A heading over two lines is not tidy: its Markdown is a heading of its first line, and the
second line is a paragraph of its own. -/
theorem field?_splits_heading :
    ∃ item field document,
      (Markdown.read (some 20) "- Returns:\n\n  a\n  b\n  ===").map Document.children
          = .ok [.list { kind := .bullet, items := [item] }]
        ∧ item.field? = some field ∧ item.children.drop 1 = [.heading 1 "a\nb"]
        ∧ Markdown.read (some 20) field.description = .ok document
        ∧ document.children = [.heading 1 "a", .paragraph "b"]
        ∧ ¬ List.Forall₂ Block.Agrees (item.children.drop 1) document.children := by
  let item : ListItem := {
    text := "- Returns:\n\n  a\n  b\n  ==="
    children := [.paragraph "Returns:", .heading 1 "a\nb"] }
  let field : Field := {
    isParameter := false, name := "Returns", description := "# a\nb", hasBlocks := true }
  let document : Document := { text := "# a\nb", children := [.heading 1 "a", .paragraph "b"] }
  refine ⟨item, field, document, by decide +kernel, by decide +kernel, rfl, by decide +kernel,
    rfl, ?_⟩
  -- there are two blocks in the place of one
  intro hagree
  exact absurd hagree.length_eq (by decide)

end DocComment
