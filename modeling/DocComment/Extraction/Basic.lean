import DocComment.Documentation
import DocComment.Text.Quoted

/-!
# Runs of the section reader

Extraction walks over the blocks of a comment and grows a `Documentation`.  A run also hands texts
to a Markdown reader and writes log records.  `Extraction` is the type of its steps: what a step did
before it failed remains done, so the progress is kept beside the outcome.
-/

namespace DocComment

/-! ## Stages -/

/-- What the next block or item is taken for. -/
inductive Stage where
  | initial
  | summary
  | discussion
  | parameters
deriving Repr, DecidableEq

/-- The stage's name in messages. -/
def Stage.name : Stage → String
  | .initial => "initial"
  | .summary => "summary"
  | .discussion => "discussion"
  | .parameters => "parameters"

/-- The stage in which a top-level block is read: a paragraph at the start is a summary, and any
other start is discussion. -/
def Stage.opening (isParagraph : Bool) : Stage → Stage
  | .initial => if isParagraph then .summary else .discussion
  | stage => stage

/-- Whether list items are expected. -/
def Stage.takesItems (stage : Stage) : Bool :=
  stage == .discussion || stage == .parameters

/-- The place at which a stage is not expected. -/
inductive Stage.Misuse where
  | block (stage : Stage)
  | item (stage : Stage)
deriving Repr, DecidableEq

/-- The message about a stage that was not expected. -/
def Stage.Misuse.message : Stage.Misuse → String
  | .block stage => "unexpected state for a top-level block: " ++ stage.name
  | .item stage => "unexpected state for a list item: " ++ stage.name

/-! ## Log records -/

/-- The severity of a log record. -/
inductive Severity where
  | debug
  | warning
deriving Repr, DecidableEq

/-- The severity's name in a log. -/
def Severity.name : Severity → String
  | .debug => "DEBUG"
  | .warning => "WARNING"

/-- What the section reader has to report. -/
inductive LogRecord where
  /-- A section was not entered because of the depth limit. -/
  | sectionTooDeep (maxDepth : Int)
  /-- A field's name is no keyword and no callout label. -/
  | unrecognizedField (name : String)
  /-- A comment was read to its end. -/
  | finished (parts parameters : Nat)
deriving Repr, DecidableEq

namespace LogRecord

/-- How severe a record is: only a section that is not entered deserves a warning. -/
def severity : LogRecord → Severity
  | .sectionTooDeep _ => .warning
  | _ => .debug

/-- The record's text. -/
def message : LogRecord → String
  | .sectionTooDeep maxDepth =>
    "Parameters nested deeper than " ++ toString maxDepth ++ " levels; keeping item as discussion"
  | .unrecognizedField name =>
    "Unrecognized field " ++ Text.quoted name ++ "; keeping item as discussion"
  | .finished parts parameters =>
    "Parsed documentation: " ++ toString parts ++ " discussion part(s), "
      ++ toString parameters ++ " parameter(s)"

/-- The name of the log that every record is written to. -/
def channel : String := "swiftmarkup.parser.documentation"

end LogRecord

/-! ## Steps -/

/-- What a run has done so far. -/
structure Progress where
  documentation : Documentation := {}
  calls : List String := []
  log : List LogRecord := []

/-- Why a run fails: the Markdown reader refused a text, or a stage was not expected. -/
inductive Failure (ε : Type) where
  | markdown (error : ε)
  | misuse (misuse : Stage.Misuse)
deriving Repr, DecidableEq

/-- A step of a run; its progress remains even where it fails. -/
abbrev Extraction (ε α : Type) := ExceptT (Failure ε) (StateM Progress) α

namespace Extraction

variable {ε : Type}

/-- Changes the documentation. -/
def grow (change : Documentation → Documentation) : Extraction ε Unit :=
  modify fun progress => { progress with documentation := change progress.documentation }

/-- Writes a log record. -/
def report (record : LogRecord) : Extraction ε Unit :=
  modify fun progress => { progress with log := progress.log ++ [record] }

/-- Hands a text to the Markdown reader. -/
def markdown (read : String → Except ε Document) (text : String) : Extraction ε Document := do
  modify fun progress => { progress with calls := progress.calls ++ [text] }
  match read text with
  | .ok document => pure document
  | .error error => throw (.markdown error)

/-- A step's outcome and the progress after it. -/
def runFrom {α : Type} (step : Extraction ε α) (progress : Progress) :
    Except (Failure ε) α × Progress :=
  (step.run).run progress

end Extraction

end DocComment
