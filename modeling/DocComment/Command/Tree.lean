/-!
# The files of a run

A `Tree` holds the contents of the files that a run may see, by path, and the directory that the run
stands in.  A path is the list of names on the way from the root, so a file has one path, however it
is written: `Tree.named` is the path that a written one stands for.  There are no links, so a name
followed by two dots leads back.
-/

namespace DocComment.Command

/-- The names on the way from the root to a file or directory. -/
abbrev Path := List String

/-- The sign of the root. -/
def root : String := "/"

/-- The files that a run may see, and the directory that it stands in.  A directory exists where the
run stands in it or below it, where it is listed, and where something else is below it. -/
structure Tree where
  files : List (Path × ByteArray) := []
  directories : List Path := []
  home : Path := []

/-- What a path leads to. -/
inductive Entry where
  | missing
  | directory
  | file (content : ByteArray)

/-! ## Paths -/

/-- The parts of a written path between its slashes. -/
def slashParts (text : String) : List String :=
  go text.toList
where
  /-- The parts of the characters that are left. -/
  go : List Char → List String
    | [] => [""]
    | c :: cs =>
      if c = '/' then "" :: go cs
      else match go cs with
        | [] => [String.singleton c]
        | part :: parts => (String.singleton c ++ part) :: parts

/-- Whether a part of a written path leads elsewhere. -/
def moves (part : String) : Bool :=
  part != "" && part != "."

/-- The parts of a path that lead elsewhere. -/
def plainParts (text : String) : List String :=
  (slashParts text).filter moves

/-- Whether a written path starts at the root. -/
def isAbsolute (text : String) : Bool :=
  text.toList.head? == some '/'

/-- The slashes with which a path is shown to start at the root.  Two are kept, more are one. -/
def shownStart (text : String) : String :=
  match (text.toList.takeWhile (· == '/')).length with
  | 0 => ""
  | 2 => root ++ root
  | _ => root

/-- A path as it is shown: its plain parts with a slash between any two. -/
def shownPath (text : String) : String :=
  let shown := shownStart text ++ "/".intercalate (plainParts text)
  if shown.isEmpty then "." else shown

/-- The last part of a path. -/
def fileName (text : String) : String :=
  (plainParts text).getLast?.getD ""

/-- Where a part of a written path leads from a directory.  Two dots lead to the directory above;
above the root is the root. -/
def step (path : Path) (part : String) : Path :=
  if !moves part then path
  else if part = ".." then path.dropLast
  else path ++ [part]

namespace Tree

/-- The directory in which a written path starts. -/
def startOf (tree : Tree) (text : String) : Path :=
  if isAbsolute text then [] else tree.home

/-- The path that a written path stands for. -/
def named (tree : Tree) (text : String) : Path :=
  (slashParts text).foldl step (tree.startOf text)

/-! ## Looking -/

/-- The paths of which it is known that something is there. -/
def places (tree : Tree) : List Path :=
  tree.home :: (tree.directories ++ tree.files.map Prod.fst)

/-- What a path leads to. -/
def entry (tree : Tree) (path : Path) : Entry :=
  match tree.files.find? fun file => file.1 == path with
  | some (_, content) => .file content
  | none => if tree.places.any path.isPrefixOf then .directory else .missing

/-- Whether the path leads to a directory. -/
def isDirectory (tree : Tree) (path : Path) : Bool :=
  match tree.entry path with
  | .directory => true
  | _ => false

/-- Whether each of the parts starts in a directory, the first of them in the given one. -/
def passes (tree : Tree) (path : Path) : List String → Bool
  | [] => true
  | part :: parts => tree.isDirectory path && passes tree (step path part) parts

/-- What a written path leads to.  The way to it has to exist. -/
def lookup (tree : Tree) (text : String) : Entry :=
  if !text.isEmpty && tree.passes (tree.startOf text) (slashParts text) then
    tree.entry (tree.named text)
  else .missing

/-! ## Writing -/

/-- Why a file cannot be written. -/
inductive WriteError where
  /-- The path leads to a directory. -/
  | isDirectory
  /-- A directory that is to be made is a file. -/
  | parentIsFile
  /-- The way to a directory that is to be made leads through a file. -/
  | ancestorIsFile
deriving Repr, DecidableEq

/-- Makes the directories on the way that do not exist, as far as no file is in the way.  Once one
of them was made, those behind it are made one by one, so a file among them is one that is to be
made itself. -/
def enter (tree : Tree) (making : Bool) (path : Path) : List String → Tree × Option WriteError
  | [] => (tree, none)
  | part :: parts =>
    let next := step path part
    match tree.entry next with
    | .directory => enter tree making next parts
    | .missing => enter { tree with directories := tree.directories ++ [next] } true next parts
    | .file _ => (tree, some (if making || parts.isEmpty then .parentIsFile else .ancestorIsFile))

/-- Makes the directory of the file that a written path names. -/
def opened (tree : Tree) (text : String) : Tree × Option WriteError :=
  tree.enter false (tree.startOf text) (plainParts text).dropLast

/-- The tree with a file's content replaced, or with one more file. -/
def put (tree : Tree) (path : Path) (content : ByteArray) : Tree :=
  if tree.files.any fun file => file.1 == path then
    { tree with
      files := tree.files.map fun file => if file.1 == path then (path, content) else file }
  else { tree with files := tree.files ++ [(path, content)] }

/-- Writes a text to the file that a written path names.  The directories that were made on the way
remain where that fails. -/
def write (tree : Tree) (text : String) (content : String) : Tree × Option WriteError :=
  match tree.opened text with
  | (made, some error) => (made, some error)
  | (made, none) =>
    match made.entry (tree.named text) with
    | .directory => (made, some .isDirectory)
    | _ => (made.put (tree.named text) content.toUTF8, none)

end Tree

end DocComment.Command
