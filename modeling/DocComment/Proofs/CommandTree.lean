import DocComment.Command.Tree
import Mathlib

/-!
# Trees of files

Reading and writing mean the same file by the same written path, the one that `Tree.named` gives.

* `OnlyPut` is what a write does to a tree: one file holds the text, and every other file is as it
  was.  A write puts the text into the file that its path names, or changes no file (`write_cases`).
* `Consistent` says that nothing is a file and a directory at once.  A tree without files is
  consistent (`consistent_of_files_eq_nil`), and every write keeps it (`Consistent.write`).
* In a consistent tree, what was written is what is found there (`lookup_write`).  A written path
  that ends in a slash or in dots is set apart: it is written as if the end were not there, but
  where it is looked up it has to lead to a directory.
-/

namespace DocComment.Command.Tree

variable {tree after : Tree} {path other : Path} {content : ByteArray} {text : String}

/-! ## Entries -/

theorem entry_eq_file_iff :
    tree.entry path = .file content
      ↔ (tree.files.find? fun file => file.1 == path).map Prod.snd = some content := by
  rw [entry]
  split
  · next found hfound => simp [hfound]
  · next hnone =>
      rw [hnone]
      split <;> simp

/-- A directory is something on the way to a place that is known, and no file. -/
theorem isDirectory_iff :
    tree.isDirectory path = true
      ↔ (∀ content, tree.entry path ≠ .file content) ∧ ∃ place ∈ tree.places, path <+: place := by
  rw [isDirectory, entry]
  cases hfind : tree.files.find? fun file => file.1 == path with
  | some file => simp
  | none =>
      dsimp only
      split <;> simp_all

theorem entry_of_isDirectory (h : tree.isDirectory path = true) : tree.entry path = .directory := by
  unfold isDirectory at h
  split at h
  · assumption
  · cases h

/-- What is found under a written path is what its name leads to, if the way to it exists. -/
theorem lookup_eq_file_iff :
    tree.lookup text = .file content
      ↔ text ≠ "" ∧ tree.passes (tree.startOf text) (slashParts text) = true
        ∧ tree.entry (tree.named text) = .file content := by
  rw [lookup]
  split
  · next h => simp_all
  · next h => simp_all

/-! ## Putting files -/

theorem find?_put (tree : Tree) (path other : Path) (content : ByteArray) :
    ((tree.put path content).files.find? fun file => file.1 == other).map Prod.snd
      = if other = path then some content
        else (tree.files.find? fun file => file.1 == other).map Prod.snd := by
  rw [put]
  split
  · next hany =>
      -- the content is replaced, the paths stay
      have hpaths : ((fun file : Path × ByteArray => file.1 == other) ∘ fun file =>
          if file.1 == path then (path, content) else file) = fun file => file.1 == other := by
        funext file
        by_cases hfile : file.1 = path <;> simp [hfile]
      rw [List.find?_map, hpaths]
      split
      · next heq =>
          subst heq
          obtain ⟨found, hfound⟩ := Option.isSome_iff_exists.mp
            (List.find?_isSome.mpr (List.any_eq_true.mp hany))
          have hkey : found.1 = other := by simpa using List.find?_some hfound
          simp [hfound, hkey]
      · next hne =>
          cases hfound : tree.files.find? fun file => file.1 == other with
          | none => rfl
          | some found =>
              have hkey : found.1 = other := by simpa using List.find?_some hfound
              simp [hkey, hne]
  · next hnone =>
      have hnew : (tree.files.find? fun file => file.1 == path) = none := by
        rw [List.find?_eq_none]
        intro file hfile hpath
        exact hnone (List.any_eq_true.mpr ⟨file, hfile, hpath⟩)
      rw [List.find?_append]
      split
      · next heq => simp [heq, hnew]
      · next hne =>
          have hother : (path == other) = false := by simpa using Ne.symm hne
          simp [hother]

/-- Two trees differ in one file at most: it has this content in the second, where every other file
is as it was. -/
structure OnlyPut (before after : Tree) (path : Path) (content : ByteArray) : Prop where
  there : after.entry path = .file content
  others : ∀ other, other ≠ path →
    ∀ kept, after.entry other = .file kept ↔ before.entry other = .file kept

theorem onlyPut_put (tree : Tree) (path : Path) (content : ByteArray) :
    tree.OnlyPut (tree.put path content) path content where
  there := by rw [entry_eq_file_iff, find?_put, if_pos rfl]
  others := fun other hother kept => by
    rw [entry_eq_file_iff, entry_eq_file_iff, find?_put, if_neg hother]

@[simp]
theorem home_put (tree : Tree) (path : Path) (content : ByteArray) :
    (tree.put path content).home = tree.home := by
  rw [put]
  split <;> rfl

@[simp]
theorem directories_put (tree : Tree) (path : Path) (content : ByteArray) :
    (tree.put path content).directories = tree.directories := by
  rw [put]
  split <;> rfl

/-- A file that is put somewhere is a place, as all others that were. -/
theorem mem_places_put {place : Path} :
    place ∈ (tree.put path content).places ↔ place = path ∨ place ∈ tree.places := by
  rw [put, places, places]
  split
  · next hany =>
      have hpaths : Prod.fst ∘ (fun file : Path × ByteArray =>
          if file.1 == path then (path, content) else file) = Prod.fst := by
        funext file
        by_cases hfile : file.1 = path <;> simp [hfile]
      obtain ⟨file, hfile, hpath⟩ := List.any_eq_true.mp hany
      have hmem : path ∈ tree.files.map Prod.fst :=
        List.mem_map.mpr ⟨file, hfile, beq_iff_eq.mp hpath⟩
      rw [List.map_map, hpaths]
      constructor
      · exact .inr
      · rintro (rfl | hplace)
        · exact List.mem_cons_of_mem _ (List.mem_append_right _ hmem)
        · exact hplace
  · simp only [List.map_append, List.mem_cons, List.mem_append, List.map_nil, List.map_cons,
      List.not_mem_nil, or_false]
    tauto

/-! ## Ways -/

theorem step_of_stays {part : String} (h : ¬moves part = true) : step path part = path := by
  rw [step, if_pos (by simpa using h)]

/-- What stays in place leads nowhere else. -/
theorem foldl_step_plain (parts : List String) (path : Path) :
    (parts.filter moves).foldl step path
      = parts.foldl step path := by
  induction parts generalizing path with
  | nil => rfl
  | cons part parts ih =>
      rw [List.filter_cons]
      split
      · exact ih (step path part)
      · next hstays =>
          rw [ih path, List.foldl_cons, step_of_stays hstays]

/-- Where a written path starts depends on the directory that a run stands in. -/
theorem startOf_congr (h : after.home = tree.home) (text : String) :
    after.startOf text = tree.startOf text := by
  rw [startOf, startOf, h]

theorem named_congr (h : after.home = tree.home) (text : String) :
    after.named text = tree.named text := by
  rw [named, named, startOf_congr h]

theorem named_eq_foldl_plainParts (tree : Tree) (text : String) :
    tree.named text = (plainParts text).foldl step (tree.startOf text) :=
  (foldl_step_plain (slashParts text) (tree.startOf text)).symm

theorem passes_cons (path : Path) (part : String) (parts : List String) :
    tree.passes path (part :: parts)
      = (tree.isDirectory path && tree.passes (step path part) parts) :=
  rfl

theorem passes_append (parts more : List String) (path : Path) :
    tree.passes path (parts ++ more)
      = (tree.passes path parts && tree.passes (parts.foldl step path) more) := by
  induction parts generalizing path with
  | nil => rfl
  | cons part parts ih =>
      rw [List.cons_append, passes_cons, passes_cons, ih, Bool.and_assoc]
      rfl

/-- In front of another part, parts that stay in place ask for no more than that part does. -/
theorem passes_plain (parts : List String) (name : String) (path : Path) :
    tree.passes path ((parts.filter moves) ++ [name])
      = tree.passes path (parts ++ [name]) := by
  induction parts generalizing path with
  | nil => rfl
  | cons part parts ih =>
      rw [List.filter_cons]
      split
      · rw [List.cons_append, List.cons_append, passes_cons, passes_cons, ih]
      · next hstays =>
          have hfirst : (tree.isDirectory path && tree.passes path (parts ++ [name]))
              = tree.passes path (parts ++ [name]) := by
            cases parts <;> simp [passes]
          rw [ih, List.cons_append, passes_cons, step_of_stays hstays, hfirst]

/-! ## Consistent trees -/

/-- Whether nothing is a file and a directory at once: no file is on the way to something else, and
none is where a directory is listed. -/
structure Consistent (tree : Tree) : Prop where
  above : ∀ place ∈ tree.places, ∀ path, path <+: place → path ≠ place →
    ∀ content, tree.entry path ≠ .file content
  listed : ∀ path ∈ tree.home :: tree.directories, ∀ content, tree.entry path ≠ .file content

theorem consistent_of_files_eq_nil (h : tree.files = []) : tree.Consistent := by
  have hnofile (path : Path) (content : ByteArray) : tree.entry path ≠ .file content := by
    intro hfile
    rw [entry_eq_file_iff, h] at hfile
    cases hfile
  exact ⟨fun _ _ path _ _ => hnofile path, fun path _ => hnofile path⟩

/-- What is above a directory is a directory. -/
theorem Consistent.isDirectory_above (h : tree.Consistent)
    (hother : tree.isDirectory other = true) (hunder : path <+: other) :
    tree.isDirectory path = true := by
  obtain ⟨hnofile, place, hplace, hway⟩ := isDirectory_iff.mp hother
  refine isDirectory_iff.mpr ⟨?_, place, hplace, hunder.trans hway⟩
  intro content hfile
  by_cases heq : path = other
  · subst heq
    exact hnofile content hfile
  · have hne : path ≠ place := by
      rintro rfl
      exact heq (hunder.eq_of_length (Nat.le_antisymm hunder.length_le hway.length_le))
    exact h.above place hplace path (hunder.trans hway) hne content hfile

/-- Above what lies right below a directory are directories, and no file. -/
theorem Consistent.not_file_above (h : tree.Consistent) (hpath : tree.isDirectory path = true)
    {name : String} (hway : other <+: path ++ [name]) (hne : other ≠ path ++ [name])
    (content : ByteArray) : tree.entry other ≠ .file content := by
  have hunder : other <+: path := (List.prefix_concat_iff.mp hway).resolve_left hne
  exact (isDirectory_iff.mp (h.isDirectory_above hpath hunder)).1 content

/-- A written path starts in a directory. -/
theorem Consistent.isDirectory_startOf (h : tree.Consistent) (text : String) :
    tree.isDirectory (tree.startOf text) = true := by
  have hhome : tree.isDirectory tree.home = true :=
    isDirectory_iff.mpr ⟨h.listed tree.home List.mem_cons_self, tree.home, List.mem_cons_self,
      List.prefix_refl _⟩
  rw [startOf]
  split
  · exact h.isDirectory_above hhome List.nil_prefix
  · exact hhome

/-- A part leads from a directory to a directory, or to something right below. -/
theorem Consistent.step_cases (h : tree.Consistent) (hpath : tree.isDirectory path = true)
    (part : String) :
    tree.isDirectory (step path part) = true ∨ step path part = path ++ [part] := by
  rw [step]
  split
  · exact .inl hpath
  split
  · exact .inl (h.isDirectory_above hpath (List.dropLast_prefix path))
  · exact .inr rfl

/-- What was a directory is one still, if no file took its place and all places remain. -/
theorem isDirectory_mono (h : tree.isDirectory path = true)
    (hfiles : ∀ content, after.entry path = .file content → tree.entry path = .file content)
    (hplaces : ∀ place ∈ tree.places, place ∈ after.places) : after.isDirectory path = true := by
  obtain ⟨hnofile, place, hplace, hway⟩ := isDirectory_iff.mp h
  exact isDirectory_iff.mpr
    ⟨fun content hfile => hnofile content (hfiles content hfile), place, hplaces place hplace, hway⟩

/-! ## Making directories -/

/-- Two trees differ in directories at most that were made. -/
structure Opens (before after : Tree) : Prop where
  files : after.files = before.files
  home : after.home = before.home
  directories : before.directories ⊆ after.directories

namespace Opens

theorem refl (tree : Tree) : tree.Opens tree :=
  ⟨rfl, rfl, fun _ h => h⟩

variable (h : tree.Opens after)

include h

theorem entry_eq_file_iff : after.entry path = .file content ↔ tree.entry path = .file content := by
  rw [Tree.entry_eq_file_iff, Tree.entry_eq_file_iff, h.files]

theorem isDirectory (hpath : tree.isDirectory path = true) : after.isDirectory path = true := by
  refine isDirectory_mono hpath (fun content => h.entry_eq_file_iff.mp) fun place hplace => ?_
  rw [places, h.files, h.home]
  rcases List.mem_cons.mp hplace with rfl | hplace
  · exact List.mem_cons_self
  · refine List.mem_cons_of_mem _ (List.mem_append.mpr ?_)
    exact (List.mem_append.mp hplace).imp (fun hdirectory => h.directories hdirectory) id

end Opens

/-- The tree with one more directory. -/
def made (tree : Tree) (path : Path) : Tree :=
  { tree with directories := tree.directories ++ [path] }

theorem opens_made (tree : Tree) (path : Path) : tree.Opens (tree.made path) :=
  ⟨rfl, rfl, List.subset_append_left _ _⟩

theorem opens_enter (tree : Tree) (making : Bool) (path : Path) (parts : List String) :
    tree.Opens (tree.enter making path parts).1 := by
  induction parts generalizing tree making path with
  | nil => exact .refl tree
  | cons part parts ih =>
      rw [enter]
      split
      · exact ih tree making (step path part)
      · have hmore := ih (tree.made (step path part)) true (step path part)
        exact ⟨hmore.files, hmore.home, fun _ hm => hmore.directories (List.mem_append_left _ hm)⟩
      · exact .refl tree

theorem mem_places_made {place : Path} :
    place ∈ (tree.made path).places ↔ place = path ∨ place ∈ tree.places := by
  simp only [places, made, List.mem_cons, List.mem_append, List.not_mem_nil, or_false]
  tauto

/-- A directory is made where nothing was and below one that was there. -/
theorem Consistent.made (h : tree.Consistent) (hpath : tree.isDirectory path = true) {part : String}
    (hmissing : tree.entry (step path part) = .missing) :
    (tree.made (step path part)).Consistent
      ∧ (tree.made (step path part)).isDirectory (step path part) = true := by
  have hopens := opens_made tree (step path part)
  have hnofile : ∀ content, tree.entry (step path part) ≠ .file content := by
    intro content hfile
    rw [hmissing] at hfile
    cases hfile
  have hbelow : step path part = path ++ [part] := by
    refine (h.step_cases hpath part).resolve_left fun hdirectory => ?_
    rw [entry_of_isDirectory hdirectory] at hmissing
    cases hmissing
  refine ⟨⟨?_, ?_⟩, ?_⟩
  · intro place hplace above hway hne content hfile
    rw [hopens.entry_eq_file_iff] at hfile
    rcases mem_places_made.mp hplace with rfl | hplace
    · rw [hbelow] at hway hne
      exact h.not_file_above hpath hway hne content hfile
    · exact h.above place hplace above hway hne content hfile
  · intro listed hlisted content hfile
    rw [hopens.entry_eq_file_iff] at hfile
    rcases List.mem_cons.mp hlisted with rfl | hlisted
    · exact h.listed _ List.mem_cons_self content hfile
    · rcases List.mem_append.mp hlisted with hlisted | hlisted
      · exact h.listed _ (List.mem_cons_of_mem _ hlisted) content hfile
      · rw [List.mem_singleton.mp hlisted] at hfile
        exact hnofile content hfile
  · refine isDirectory_iff.mpr ⟨fun content hfile => ?_, step path part, ?_, List.prefix_refl _⟩
    · exact hnofile content (hopens.entry_eq_file_iff.mp hfile)
    · exact mem_places_made.mpr (.inl rfl)

/-- Where no file is in the way, all directories on the way are there afterwards. -/
theorem Consistent.enter (h : tree.Consistent) (making : Bool)
    (hpath : tree.isDirectory path = true) (parts : List String) :
    (tree.enter making path parts).1.Consistent
      ∧ ((tree.enter making path parts).2 = none →
        (tree.enter making path parts).1.passes path parts = true
          ∧ (tree.enter making path parts).1.isDirectory (parts.foldl step path) = true) := by
  induction parts generalizing tree making path with
  | nil => exact ⟨h, fun _ => ⟨rfl, hpath⟩⟩
  | cons part parts ih =>
      have hopens := tree.opens_enter making path (part :: parts)
      have hthere := hopens.isDirectory hpath
      rw [Tree.enter] at hthere ⊢
      cases hentry : tree.entry (step path part) with
      | file content => exact ⟨h, fun hnone => nomatch hnone⟩
      | directory =>
          rw [hentry] at hthere
          have hnext : tree.isDirectory (step path part) = true := by rw [Tree.isDirectory, hentry]
          obtain ⟨hconsistent, hway⟩ := ih h making hnext
          refine ⟨hconsistent, fun hnone => ?_⟩
          obtain ⟨hpasses, hend⟩ := hway hnone
          exact ⟨Bool.and_eq_true_iff.mpr ⟨hthere, hpasses⟩, hend⟩
      | missing =>
          rw [hentry] at hthere
          obtain ⟨hmade, hnext⟩ := h.made hpath hentry
          obtain ⟨hconsistent, hway⟩ := ih hmade true hnext
          refine ⟨hconsistent, fun hnone => ?_⟩
          obtain ⟨hpasses, hend⟩ := hway hnone
          exact ⟨Bool.and_eq_true_iff.mpr ⟨hthere, hpasses⟩, hend⟩

/-! ## Writing -/

theorem opens_opened (tree : Tree) (text : String) : tree.Opens (tree.opened text).1 :=
  tree.opens_enter false (tree.startOf text) (plainParts text).dropLast

/-- A write makes the directory of its file.  Then it fails, or puts the file where no directory
is. -/
theorem write_steps (tree : Tree) (text content : String) :
    ((tree.write text content).2 ≠ none ∧ (tree.write text content).1 = (tree.opened text).1)
      ∨ (tree.opened text).2 = none
        ∧ (tree.opened text).1.isDirectory (tree.named text) = false
        ∧ tree.write text content
            = ((tree.opened text).1.put (tree.named text) content.toUTF8, none) := by
  rw [write]
  rcases tree.opened text with ⟨made, error | error⟩
  · cases hentry : made.entry (tree.named text) with
    | directory => exact .inl (by simp [hentry])
    | missing => exact .inr (by simp [hentry, isDirectory])
    | file kept => exact .inr (by simp [hentry, isDirectory])
  · exact .inl ⟨Option.some_ne_none error, rfl⟩

/-- A text is written to the file that the path names, or no file is changed. -/
theorem write_cases (tree : Tree) (text content : String) :
    ((tree.write text content).2 ≠ none ∧ (tree.write text content).1.files = tree.files)
      ∨ (tree.write text content).2 = none
        ∧ tree.OnlyPut (tree.write text content).1 (tree.named text) content.toUTF8 := by
  have hopens := tree.opens_opened text
  rcases tree.write_steps text content with ⟨hfail, hmade⟩ | ⟨-, -, hwritten⟩
  · exact .inl ⟨hfail, by rw [hmade, hopens.files]⟩
  · have hput := onlyPut_put (tree.opened text).1 (tree.named text) content.toUTF8
    rw [hwritten]
    refine .inr ⟨rfl, hput.there, fun other hother kept => ?_⟩
    exact (hput.others other hother kept).trans hopens.entry_eq_file_iff

/-- The directory of a file that is written is there once it was made, and so are all on the way. -/
theorem Consistent.opened (h : tree.Consistent) (text : String) :
    (tree.opened text).1.Consistent
      ∧ ((tree.opened text).2 = none →
        (tree.opened text).1.passes (tree.startOf text) (plainParts text).dropLast = true
          ∧ (tree.opened text).1.isDirectory
              ((plainParts text).dropLast.foldl step (tree.startOf text)) = true) :=
  h.enter false (h.isDirectory_startOf text) (plainParts text).dropLast

/-- The file that is written lies right below a directory. -/
theorem Consistent.named_below (h : tree.Consistent) (hopened : (tree.opened text).2 = none)
    (hfree : (tree.opened text).1.isDirectory (tree.named text) = false) :
    ∃ front name, plainParts text = front ++ [name]
      ∧ (tree.opened text).1.passes (tree.startOf text) front = true
      ∧ (tree.opened text).1.isDirectory (front.foldl step (tree.startOf text)) = true
      ∧ tree.named text = front.foldl step (tree.startOf text) ++ [name] := by
  obtain ⟨hmade, hway⟩ := h.opened text
  obtain ⟨hpasses, hparent⟩ := hway hopened
  rw [named_eq_foldl_plainParts] at hfree ⊢
  rcases List.eq_nil_or_concat' (plainParts text) with hnil | ⟨front, name, hparts⟩
  · have hstart := (tree.opens_opened text).isDirectory (h.isDirectory_startOf text)
    rw [hnil, List.foldl_nil, hstart] at hfree
    cases hfree
  · rw [hparts, List.dropLast_concat] at hpasses hparent
    rw [hparts, List.foldl_append] at hfree ⊢
    refine ⟨front, name, rfl, hpasses, hparent, (hmade.step_cases hparent name).resolve_left ?_⟩
    intro hdirectory
    exact Bool.false_ne_true (hfree.symm.trans hdirectory)

/-- A file may be put below a directory, where no directory is. -/
theorem Consistent.put (h : tree.Consistent) {name : String} (hpath : tree.isDirectory path = true)
    (hfree : tree.isDirectory (path ++ [name]) = false) (content : ByteArray) :
    (tree.put (path ++ [name]) content).Consistent := by
  have hput := onlyPut_put tree (path ++ [name]) content
  -- nothing is known behind a path that is neither a directory nor a file
  have hbehind (place : Path) (hplace : place ∈ tree.places) (hway : path ++ [name] <+: place) :
      ∃ kept, tree.entry (path ++ [name]) = .file kept := by
    by_contra hnone
    have hdirectory : tree.isDirectory (path ++ [name]) = true :=
      isDirectory_iff.mpr ⟨fun kept hfile => hnone ⟨kept, hfile⟩, place, hplace, hway⟩
    exact Bool.false_ne_true (hfree.symm.trans hdirectory)
  constructor
  · intro place hplace above hway hne kept hfile
    by_cases habove : above = path ++ [name]
    · subst habove
      have hold := (mem_places_put.mp hplace).resolve_left (Ne.symm hne)
      obtain ⟨kept, hkept⟩ := hbehind place hold hway
      exact h.above place hold _ hway hne kept hkept
    · rw [hput.others above habove] at hfile
      rcases mem_places_put.mp hplace with rfl | hold
      · exact h.not_file_above hpath hway habove kept hfile
      · exact h.above place hold above hway hne kept hfile
  · intro listed hlisted kept hfile
    simp only [home_put, directories_put] at hlisted
    have hplace : listed ∈ tree.places := List.mem_append_left (tree.files.map Prod.fst) hlisted
    by_cases heq : listed = path ++ [name]
    · subst heq
      obtain ⟨kept, hkept⟩ := hbehind _ hplace (List.prefix_refl _)
      exact h.listed _ hlisted kept hkept
    · rw [hput.others listed heq] at hfile
      exact h.listed listed hlisted kept hfile

/-- **No write makes a file of a directory, or a directory of a file.** -/
theorem Consistent.write (h : tree.Consistent) (text content : String) :
    (tree.write text content).1.Consistent := by
  have hmade := (h.opened text).1
  rcases tree.write_steps text content with ⟨-, hsame⟩ | ⟨hopened, hfree, hwritten⟩
  · rw [hsame]
    exact hmade
  · obtain ⟨front, name, -, -, hparent, hnamed⟩ := h.named_below hopened hfree
    rw [hnamed] at hfree hwritten
    rw [hwritten]
    exact hmade.put hparent hfree content.toUTF8

/-- Where no directory was, a file may be put without closing a way. -/
theorem passes_put (hfree : tree.isDirectory other = false) {parts : List String}
    (h : tree.passes path parts = true) : (tree.put other content).passes path parts = true := by
  have hput := onlyPut_put tree other content
  induction parts generalizing path with
  | nil => rfl
  | cons part parts ih =>
      rw [passes_cons, Bool.and_eq_true] at h ⊢
      obtain ⟨hpath, hparts⟩ := h
      refine ⟨isDirectory_mono hpath (fun kept => (hput.others path ?_ kept).mp) ?_, ih hparts⟩
      · rintro rfl
        exact Bool.false_ne_true (hfree.symm.trans hpath)
      · exact fun place hplace => mem_places_put.mpr (.inr hplace)

/-- **What was written is what is found**, under a written path that ends in the name of its file.
-/
theorem lookup_write (h : tree.Consistent) {content : String}
    (hname : (slashParts text).getLast? = some (fileName text))
    (hwrite : (tree.write text content).2 = none) :
    (tree.write text content).1.lookup text = .file content.toUTF8 := by
  rcases tree.write_steps text content with ⟨hfail, -⟩ | ⟨hopened, hfree, hwritten⟩
  · exact absurd hwrite hfail
  obtain ⟨front, name, hparts, hpasses, hparent, -⟩ := h.named_below hopened hfree
  have hlast : fileName text = name := by rw [fileName, hparts, List.getLast?_concat]; rfl
  obtain ⟨written, hslashes⟩ := List.getLast?_eq_some_iff.mp hname
  rw [hlast] at hslashes
  have hfront : written.filter moves = front := by
    have hplain : name ∈ plainParts text := by simp [hparts]
    rw [plainParts, hslashes, List.filter_append,
      List.filter_cons_of_pos (List.mem_filter.mp hplain).2, List.filter_nil] at hparts
    exact List.append_cancel_right hparts
  have hway : (tree.opened text).1.passes (tree.startOf text) (slashParts text) = true := by
    rw [hslashes, ← passes_plain, hfront, passes_append, hpasses, passes_cons, hparent]
    rfl
  have hopens := tree.opens_opened text
  have hput := onlyPut_put (tree.opened text).1 (tree.named text) content.toUTF8
  have hhome : ((tree.opened text).1.put (tree.named text) content.toUTF8).home = tree.home :=
    (home_put _ _ _).trans hopens.home
  rw [hwritten]
  refine lookup_eq_file_iff.mpr ⟨?_, ?_, ?_⟩
  · rintro rfl
    simp [plainParts, slashParts, slashParts.go, moves] at hparts
  · rw [startOf_congr hhome]
    exact passes_put hfree hway
  · rw [named_congr hhome]
    exact hput.there

end DocComment.Command.Tree
