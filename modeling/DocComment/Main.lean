import DocComment.Command.Run

/-!
# The program

Looks at the files that the words of the command name, lets `Command.run` decide, and writes what it
decided.
-/

namespace DocComment.Main

open Command

/-- The result of an action, unless it fails. -/
def attempt {α : Type} (action : IO α) : IO (Option α) := do
  try
    return some (← action)
  catch _ =>
    return none

/-- What is found at a path: the content of a file, or no content where it is a directory. -/
def peek (path : String) : IO (Option (Option ByteArray)) := do
  match ← attempt (IO.FS.Handle.mk path .read) with
  | none => return none
  | some handle => return some (← attempt handle.readBinToEnd)

/-- A path from the root as it is written. -/
def writtenPath (path : Path) : String :=
  root ++ "/".intercalate path

/-- Adds what is found on the way of a written path. -/
def gather (tree : Tree) (text : String) : IO Tree := do
  let mut found := tree
  let mut way := tree.startOf text
  for part in plainParts text do
    way := step way part
    match ← peek (writtenPath way) with
    | some (some content) => found := found.put way content
    | some none => found := { found with directories := found.directories ++ [way] }
    | none => pure ()
  return found

/-- The paths that the words of a command name. -/
def namedPaths (words : List String) : List String :=
  match scan words with
  | .ok found => found.arguments.take 1 ++ (found.value? .output).toList
  | .error _ => []

/-- Makes the directories and writes the files that differ from those before. -/
def store (before after : Tree) : IO Unit := do
  for path in after.directories do
    unless before.directories.contains path do IO.FS.createDirAll (writtenPath path)
  for (path, content) in after.files do
    unless before.files.any (fun file => file.1 == path && file.2 == content) do
      IO.FS.writeBinFile (writtenPath path) content

/-- Runs the command on the given words. -/
def runWords (words : List String) : IO UInt32 := do
  let home := plainParts (← IO.currentDir).toString
  let tree ← (namedPaths words).foldlM gather { home }
  let outcome := Command.run words tree
  store tree outcome.tree
  (← IO.getStdout).putStr outcome.stdout
  for line in outcome.stderr do
    (← IO.getStderr).putStrLn line
  if let some crash := outcome.crash then
    (← IO.getStderr).putStrLn ("Error: " ++ crash.message)
  return UInt32.ofNat outcome.exitCode

end DocComment.Main

/-- The program. -/
def main (words : List String) : IO UInt32 :=
  DocComment.Main.runWords words
