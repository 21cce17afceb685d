import DocComment.Command.Options
import DocComment.Documentation.Markup
import DocComment.Extraction.Visit
import DocComment.Json.Printer
import DocComment.Markdown.Reader
import DocComment.Payload.Encode
import DocComment.Payload.Typed

/-!
# The command

`run` is the whole command as a function from its words and the files it sees to what it writes: the
two output streams, the exit code and the files afterwards.
-/

namespace DocComment.Command

/-! ## Outcomes -/

/-- Why a run breaks off without a message of its own. -/
inductive Crash where
  /-- The input is no UTF-8. -/
  | undecodable
  /-- The output cannot be written. -/
  | unwritable (error : Tree.WriteError)
deriving Repr, DecidableEq

/-- What is said about a run that breaks off. -/
def Crash.message : Crash → String
  | .undecodable => "the input is not UTF-8"
  | .unwritable .isDirectory => "the output path is a directory"
  | .unwritable .parentIsFile | .unwritable .ancestorIsFile =>
    "the output path leads through a file"

/-- What a run leaves behind. -/
structure Outcome where
  exitCode : Nat := 0
  stdout : String := ""
  stderr : List String := []
  crash : Option Crash := none
  tree : Tree

/-- The text that explains the command. -/
def helpText : String :=
  "Usage: main [OPTIONS] INPUT_PATH\n\n"
    ++ "  Parse a Swift Markup documentation comment into structured documentation.\n\n"
    ++ "Options:\n"
    ++ "  -o, --output PATH       Write to a file instead of stdout\n"
    ++ "  --format [json|markup]  Output format  [default: json]\n"
    ++ "  --indent INTEGER        JSON indentation  [default: 2]\n"
    ++ "  --max-nesting INTEGER   Maximum Markdown block nesting  [default: 20]\n"
    ++ "  -v, --verbose           Log parser decisions to stderr\n"
    ++ "  -h, --help              Show this message and exit.\n"

/-! ## Steps -/

/-- The line of a log record. -/
def logLine (record : LogRecord) : String :=
  record.severity.name ++ " " ++ LogRecord.channel ++ ": " ++ record.message

/-- The lines of a log; without `verbose` only warnings are shown. -/
def logLines (verbose : Bool) (log : List LogRecord) : List String :=
  (log.filter fun record => verbose || record.severity == .warning).map logLine

/-- The section reader with a limit for the nesting of containers. -/
def sectionReader (maxNesting : Int) : SectionReader Markdown.ReadError :=
  { markdown := Markdown.read (some maxNesting) }

/-- The message about a comment that cannot be read. -/
def failureMessage : Failure Markdown.ReadError → String
  | .markdown error => error.message
  | .misuse misuse => misuse.message

/-- A documentation record in the requested format. -/
def written (request : Request) (documentation : Documentation) : String :=
  match request.format with
  | .markup => documentation.markup
  | .json =>
    documentation.toPayload.dump (Json.Layout.ofIndent (some request.indent)) ++ "\n"

/-- Puts the result where it is wanted. -/
def deliver (request : Request) (log : List String) (result : String) (tree : Tree) : Outcome :=
  match request.output with
  | none => { stdout := result, stderr := log, tree }
  | some path =>
    match tree.write path result with
    | (changed, none) =>
      { stdout := "Written: " ++ shownPath path ++ "\n", stderr := log, tree := changed }
    | (made, some error) =>
      { exitCode := 1, stderr := log, crash := some (.unwritable error), tree := made }

/-- Reads the requested file and writes what it documents. -/
def fulfil (request : Request) (tree : Tree) : Outcome :=
  match String.fromUTF8? request.content with
  | none => { exitCode := 1, crash := some .undecodable, tree }
  | some text =>
    let comment := String.ofList (Text.unifyNewlines text.toList)
    let (outcome, progress) := (sectionReader request.maxNesting).run (some comment)
    let log := logLines request.verbose progress.log
    match outcome with
    | .ok documentation => deliver request log (written request documentation) tree
    | .error failure =>
      let message := "Error: " ++ fileName request.inputPath ++ ": " ++ failureMessage failure
      { exitCode := 1, stderr := log ++ [message], tree }

/-- A run of the command.  The words are scanned before anything else; asking for help comes before
every other fault. -/
def run (words : List String) (tree : Tree) : Outcome :=
  let usage (error : UsageError) : Outcome :=
    { exitCode := 2, stderr := ["Error: " ++ error.message], tree }
  match scan words with
  | .error error => usage error
  | .ok found =>
    if found.has .help then { stdout := helpText, tree }
    else match found.request tree with
      | .error error => usage error
      | .ok request => fulfil request tree

end DocComment.Command
