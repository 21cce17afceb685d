import DocComment.Text.Lines

/-!
# Blocks

The block tree of a Markdown text.  Leaves carry their text; quotes and list items also carry the
source lines they were read from, because a field is recognised in the source of its item.  A list
owns its items, and every item its own blocks.
-/

namespace DocComment

/-- Whether the items of a list carry bullets or numbers. -/
inductive ListKind where
  | bullet
  | ordered
deriving Repr, DecidableEq

mutual

/-- A block of a Markdown text. -/
inductive Block where
  | paragraph (text : String)
  | heading (level : Int) (text : String)
  | code (info literal : String)
  | html (literal : String)
  | thematicBreak (markup : String)
  | quote (text : String) (children : List Block)
  | list (list : ListBlock)

/-- An item of a list: its source, marker included, and the blocks in it. -/
structure ListItem where
  text : String
  children : List Block := []

/-- A list.  `marker` is the bullet, or the mark that ends each number; `start` is the number of the
first item where it is not one. -/
structure ListBlock where
  kind : ListKind
  items : List ListItem := []
  marker : String := "-"
  start : Option Int := none

end

instance : Inhabited Block := ⟨.paragraph ""⟩

/-- A whole Markdown text and its top-level blocks. -/
structure Document where
  text : String
  children : List Block := []

/-! ## Simple questions -/

/-- Whether the items carry bullets. -/
def ListBlock.isBullet (list : ListBlock) : Bool :=
  list.kind == .bullet

/-- The list with one more item at its end. -/
def ListBlock.push (list : ListBlock) (item : ListItem) : ListBlock :=
  { list with items := list.items ++ [item] }

/-- The source of a list: its items' sources, a newline between any two. -/
def ListBlock.text (list : ListBlock) : String :=
  Text.joined "\n" (list.items.map ListItem.text)

/-- Whether the block is a paragraph. -/
def Block.isParagraph : Block → Bool
  | .paragraph _ => true
  | _ => false

/-- The list, if the block is one whose items carry bullets. -/
def Block.bulletList? : Block → Option ListBlock
  | .list l => if l.isBullet then some l else none
  | _ => none

/-! ## Equality -/

mutual

/-- Whether two blocks agree in every part. -/
def Block.agree : Block → Block → Bool
  | .paragraph s, .paragraph t => s == t
  | .heading m s, .heading n t => m == n && s == t
  | .code i s, .code j t => i == j && s == t
  | .html s, .html t => s == t
  | .thematicBreak s, .thematicBreak t => s == t
  | .quote s bs, .quote t cs => s == t && Block.agreeAll bs cs
  | .list l, .list m => ListBlock.agree l m
  | _, _ => false

/-- Whether two block sequences agree. -/
def Block.agreeAll : List Block → List Block → Bool
  | [], [] => true
  | b :: bs, c :: cs => Block.agree b c && Block.agreeAll bs cs
  | _, _ => false

/-- Whether two items agree in every part. -/
def ListItem.agree : ListItem → ListItem → Bool
  | ⟨s, bs⟩, ⟨t, cs⟩ => s == t && Block.agreeAll bs cs

/-- Whether two item sequences agree. -/
def ListItem.agreeAll : List ListItem → List ListItem → Bool
  | [], [] => true
  | i :: is, j :: js => ListItem.agree i j && ListItem.agreeAll is js
  | _, _ => false

/-- Whether two lists agree in every part. -/
def ListBlock.agree : ListBlock → ListBlock → Bool
  | ⟨k, is, m, s⟩, ⟨l, js, n, t⟩ => k == l && ListItem.agreeAll is js && m == n && s == t

end

mutual

theorem Block.agree_iff (b : Block) : ∀ c, b.agree c = true ↔ b = c := by
  cases b with
  | quote s bs => intro c; cases c <;> simp [Block.agree, Block.agreeAll_iff bs]
  | list l => intro c; cases c <;> simp [Block.agree, ListBlock.agree_iff l]
  | _ => intro c; cases c <;> simp [Block.agree]
termination_by structural b

theorem Block.agreeAll_iff (bs : List Block) : ∀ cs, Block.agreeAll bs cs = true ↔ bs = cs := by
  cases bs with
  | nil => intro cs; cases cs <;> simp [Block.agreeAll]
  | cons b bs =>
    intro cs
    cases cs <;> simp [Block.agreeAll, Block.agree_iff b, Block.agreeAll_iff bs]
termination_by structural bs

theorem ListItem.agree_iff (i : ListItem) : ∀ j, i.agree j = true ↔ i = j := by
  cases i with
  | mk s bs => intro j; cases j; simp [ListItem.agree, Block.agreeAll_iff bs]
termination_by structural i

theorem ListItem.agreeAll_iff (is : List ListItem) :
    ∀ js, ListItem.agreeAll is js = true ↔ is = js := by
  cases is with
  | nil => intro js; cases js <;> simp [ListItem.agreeAll]
  | cons i is =>
    intro js
    cases js <;> simp [ListItem.agreeAll, ListItem.agree_iff i, ListItem.agreeAll_iff is]
termination_by structural is

theorem ListBlock.agree_iff (l : ListBlock) : ∀ m, l.agree m = true ↔ l = m := by
  cases l with
  | mk k is m s => intro l; cases l; simp [ListBlock.agree, ListItem.agreeAll_iff is, and_assoc]
termination_by structural l

end

instance : DecidableEq Block := fun b c => decidable_of_iff _ (Block.agree_iff b c)

instance : DecidableEq ListItem := fun i j => decidable_of_iff _ (ListItem.agree_iff i j)

instance : DecidableEq ListBlock := fun l m => decidable_of_iff _ (ListBlock.agree_iff l m)

deriving instance DecidableEq for Document

end DocComment
