import DocComment.Command.Number
import DocComment.Command.Tree
import DocComment.Text.Letters
import DocComment.Text.Quoted

/-!
# Arguments of the command

Options and arguments may stand in any order; after `--` everything is an argument.  A long option
takes its value after an equals sign or from the next word, a short one from the rest of its word or
from the next word, and short flags may share a word.

The words are scanned first, and only then are the values read, in the order in which their options
first occur; the input path comes last.  So the first fault in this order is the one reported.
-/

namespace DocComment.Command

/-! ## Options -/

/-- The options of the command. -/
inductive OptionName where
  | output
  | format
  | indent
  | maxNesting
  | verbose
  | help
deriving Repr, DecidableEq

namespace OptionName

/-- Whether the option has a value. -/
def takesValue : OptionName → Bool
  | output | format | indent | maxNesting => true
  | verbose | help => false

/-- The option of a long spelling. -/
def ofLong? : String → Option OptionName
  | "--output" => some output
  | "--format" => some format
  | "--indent" => some indent
  | "--max-nesting" => some maxNesting
  | "--verbose" => some verbose
  | "--help" => some help
  | _ => none

/-- The option of a short letter. -/
def ofLetter? : Char → Option OptionName
  | 'o' => some output
  | 'v' => some verbose
  | 'h' => some help
  | _ => none

end OptionName

/-- How a documentation record is written. -/
inductive Format where
  | json
  | markup
deriving Repr, DecidableEq

/-- The format of a word, letter case apart. -/
def Format.ofWord? (word : String) : Option Format :=
  let key := word.toList.map Text.foldLetter
  if key = "json".toList then some .json
  else if key = "markup".toList then some .markup
  else none

/-! ## Faults -/

/-- What is wrong with the words of a command. -/
inductive UsageError where
  | noSuchOption (spelling : String)
  | needsArgument (spelling : String)
  | takesNoValue (spelling : String)
  | notInteger (spelling value : String)
  | notFormat (value : String)
  | missingInput
  | noFile (path : String)
  | isDirectory (path : String)
  | extraArguments (arguments : List String)
deriving Repr, DecidableEq

/-- The message about wrong words. -/
def UsageError.message : UsageError → String
  | .noSuchOption spelling => "No such option " ++ Text.quoted spelling ++ "."
  | .needsArgument spelling => "Option " ++ Text.quoted spelling ++ " requires an argument."
  | .takesNoValue spelling => "Option " ++ Text.quoted spelling ++ " does not take a value."
  | .notInteger spelling value =>
    "Invalid value for " ++ Text.quoted spelling ++ ": " ++ Text.quoted value
      ++ " is not a valid integer."
  | .notFormat value =>
    "Invalid value for '--format': " ++ Text.quoted value ++ " is not one of 'json', 'markup'."
  | .missingInput => "Missing argument 'INPUT_PATH'."
  | .noFile path =>
    "Invalid value for 'INPUT_PATH': File " ++ Text.quoted path ++ " does not exist."
  | .isDirectory path =>
    "Invalid value for 'INPUT_PATH': File " ++ Text.quoted path ++ " is a directory."
  | .extraArguments arguments =>
    "Got unexpected extra argument" ++ (if arguments.length = 1 then "" else "s")
      ++ " (" ++ " ".intercalate arguments ++ ")"

/-! ## Scanning words -/

/-- An option as it was given; a flag has the empty value. -/
structure Setting where
  name : OptionName
  value : String := ""
deriving Repr, DecidableEq

/-- The words of a command, sorted. -/
structure Scan where
  settings : List Setting := []
  arguments : List String := []
deriving Repr, DecidableEq

/-- What a word says: an argument, or options, of which the last may still need the next word as its
value. -/
inductive Word where
  | argument
  | options (settings : List Setting) (pending : Option (OptionName × String))

/-- The options that the letters after a hyphen stand for. -/
def scanLetters : List Char → Except UsageError (List Setting × Option (OptionName × String))
  | [] => .ok ([], none)
  | letter :: letters =>
    let spelling := "-" ++ String.singleton letter
    match OptionName.ofLetter? letter with
    | none => .error (.noSuchOption spelling)
    | some name =>
      if name.takesValue then
        if letters.isEmpty then .ok ([], some (name, spelling))
        else .ok ([{ name, value := String.ofList letters }], none)
      else do
        let (settings, pending) ← scanLetters letters
        return ({ name } :: settings, pending)

/-- A word that starts with a hyphen.  Only a word that starts with two is never taken for
letters. -/
def scanOption (word : List Char) : Except UsageError Word :=
  let spelling := String.ofList (word.takeWhile (· != '='))
  let given := (word.dropWhile (· != '=')).tail?.map String.ofList
  match OptionName.ofLong? spelling with
  | some name =>
    if name.takesValue then
      match given with
      | some value => .ok (.options [{ name, value }] none)
      | none => .ok (.options [] (some (name, spelling)))
    else if given.isSome then .error (.takesNoValue spelling)
    else .ok (.options [{ name }] none)
  | none =>
    match word with
    | '-' :: '-' :: _ => .error (.noSuchOption spelling)
    | _ => (scanLetters (word.drop 1)).map fun (settings, pending) => .options settings pending

/-- A word of the command. -/
def scanWord (word : String) : Except UsageError Word :=
  match word.toList with
  | '-' :: c :: cs => scanOption ('-' :: c :: cs)
  | _ => .ok .argument

/-- All words of the command. -/
def scan : List String → Except UsageError Scan
  | [] => .ok {}
  | word :: words =>
    if word = "--" then .ok { arguments := words }
    else do
      match ← scanWord word with
      | .argument =>
        let rest ← scan words
        return { rest with arguments := word :: rest.arguments }
      | .options settings none =>
        let rest ← scan words
        return { rest with settings := settings ++ rest.settings }
      | .options settings (some (name, spelling)) =>
        match words with
        | [] => throw (.needsArgument spelling)
        | value :: words =>
          let rest ← scan words
          return { rest with settings := settings ++ { name, value } :: rest.settings }

/-! ## Reading values -/

/-- The value of an option that was given last. -/
def Scan.value? (found : Scan) (name : OptionName) : Option String :=
  (found.settings.reverse.find? fun setting => setting.name == name).map Setting.value

/-- Whether an option was given. -/
def Scan.has (found : Scan) (name : OptionName) : Bool :=
  found.settings.any fun setting => setting.name == name

/-- The format in which the record is written. -/
def Scan.format (found : Scan) : Except UsageError Format :=
  match found.value? .format with
  | none => .ok .json
  | some word =>
    match Format.ofWord? word with
    | some format => .ok format
    | none => .error (.notFormat word)

/-- The value of an option that holds an integer. -/
def Scan.int (found : Scan) (name : OptionName) (spelling : String) (default : Int) :
    Except UsageError Int :=
  match found.value? name with
  | none => .ok default
  | some word =>
    match readInt? word with
    | some value => .ok value
    | none => .error (.notInteger spelling word)

/-- The indentation of JSON. -/
def Scan.indent (found : Scan) : Except UsageError Int :=
  found.int .indent "--indent" 2

/-- The number of levels up to which containers are read. -/
def Scan.maxNesting (found : Scan) : Except UsageError Int :=
  found.int .maxNesting "--max-nesting" 20

/-- Whether the value of an option can be read. -/
def Scan.check (found : Scan) : OptionName → Except UsageError Unit
  | .format => do let _ ← found.format
  | .indent => do let _ ← found.indent
  | .maxNesting => do let _ ← found.maxNesting
  | .output | .verbose | .help => .ok ()

/-- The content of the input file that the first argument names. -/
def Scan.input (found : Scan) (tree : Tree) : Except UsageError (String × ByteArray) :=
  match found.arguments with
  | [] => .error .missingInput
  | path :: _ =>
    match tree.lookup path with
    | .missing => .error (.noFile path)
    | .directory => .error (.isDirectory path)
    | .file content => .ok (path, content)

/-- What a command asks for. -/
structure Request where
  inputPath : String
  content : ByteArray
  output : Option String
  format : Format
  indent : Int
  maxNesting : Int
  verbose : Bool

/-- The request that the scanned words make. -/
def Scan.request (found : Scan) (tree : Tree) : Except UsageError Request := do
  found.settings.forM fun setting => found.check setting.name
  let (inputPath, content) ← found.input tree
  match found.arguments.drop 1 with
  | [] => pure ()
  | extra => throw (.extraArguments extra)
  return {
    inputPath, content
    output := found.value? .output
    format := ← found.format
    indent := ← found.indent
    maxNesting := ← found.maxNesting
    verbose := found.has .verbose }

end DocComment.Command
