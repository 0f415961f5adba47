import GradualJs.Check
import GradualJs.Json.Writer
import GradualJs.Source

/-! The command line. Its words are taken from left to right and the first fault ends the
reading; `--version` and `--help` end it as well. An option may be given once. -/
namespace GradualJs

inductive OutputFormat where
  | text
  | json
  deriving DecidableEq

def OutputFormat.ofName? : String → Option OutputFormat
  | "text" => some .text
  | "json" => some .json
  | _ => none

inductive UsageError where
  | unknownArgument (word : String)
  | repeated (option : String)
  | missingValue (option : String)
  | invalidValue (option value : String)
  | missingInput
  deriving DecidableEq

namespace UsageError

def message : UsageError → String
  | .unknownArgument word => "unexpected argument '" ++ word ++ "' found"
  | .repeated option => "the argument '" ++ option ++ "' cannot be used multiple times"
  | .missingValue option => "a value is required for '" ++ option ++ "' but none was supplied"
  | .invalidValue option value => "invalid value '" ++ value ++ "' for '" ++ option ++ "'"
  | .missingInput => "the following required arguments were not provided: <INPUT>"

end UsageError

structure Settings where
  input : Option String := none
  externs : Option String := none
  config : Option String := none
  mixed : Bool := false
  reportUnknownTypes : Bool := false
  legacy : Bool := false
  format : Option OutputFormat := none
  verbose : Bool := false

inductive Request where
  | check (input : String) (settings : Settings)
  | version
  | help

inductive Reading where
  | goOn (settings : Settings)
  | done (request : Request)

namespace Settings

def onePath (option : String) (old : Option String) (path : String) : Except UsageError (Option String) :=
  if old.isSome then .error (.repeated option)
  else if path.isEmpty then .error (.missingValue option)
  else .ok (some path)

def once (option : String) (old : Bool) : Except UsageError Bool :=
  if old then .error (.repeated option) else .ok true

def isValued (option : String) : Bool :=
  option = "--externs" || option = "--config" || option = "--format"

def setValue (s : Settings) (option value : String) : Except UsageError Settings :=
  match option with
  | "--externs" => do return {s with externs := ← onePath option s.externs value}
  | "--config" => do return {s with config := ← onePath option s.config value}
  | "--format" =>
    if s.format.isSome then .error (.repeated option)
    else match OutputFormat.ofName? value with
      | some format => .ok {s with format := some format}
      | none => .error (.invalidValue option value)
  | _ => .error (.unknownArgument option)

def setSwitch (s : Settings) (option : String) : Except UsageError Reading :=
  match option with
  | "--mixed" => do return .goOn {s with mixed := ← once option s.mixed}
  | "--report-unknown-types" => do
    return .goOn {s with reportUnknownTypes := ← once option s.reportUnknownTypes}
  | "--legacy" => do return .goOn {s with legacy := ← once option s.legacy}
  | "--verbose" => do return .goOn {s with verbose := ← once option s.verbose}
  | "--version" => .ok (.done .version)
  | "--help" => .ok (.done .help)
  | _ => .error (.unknownArgument option)

/-- Short options may stand together behind one dash. -/
def setShort (s : Settings) : List Char → Except UsageError Reading
  | [] => .ok (.goOn s)
  | letter :: rest =>
    let option := match letter with
      | 'v' => "--verbose"
      | 'V' => "--version"
      | 'h' => "--help"
      | other => "-" ++ String.singleton other
    match s.setSwitch option with
    | .ok (.goOn s) => s.setShort rest
    | stop => stop

def setInput (s : Settings) (path : String) : Except UsageError Settings :=
  if s.input.isSome then .error (.unknownArgument path)
  else do return {s with input := ← onePath "<INPUT>" none path}

def finish (s : Settings) : Except UsageError Request :=
  match s.input with
  | some input => .ok (.check input s)
  | none => .error .missingInput

/-- Whether a word would be taken for an option. A single dash would not. -/
def looksLikeOption (word : String) : Bool :=
  match word.toList with
  | '-' :: _ :: _ => true
  | _ => false

/-- An option with its value attached, as in `--format=json`. -/
def attached? (word : String) : Option (String × String) :=
  let cs := word.toList
  match cs.dropWhile (· ≠ '=') with
  | [] => none
  | _ :: value => some (.ofList (cs.takeWhile (· ≠ '=')),.ofList value)

def setLong (s : Settings) (word : String) : Except UsageError Reading :=
  match attached? word with
  | some (option,value) =>
    if isValued option then do return .goOn (← s.setValue option value)
    else .error (.unknownArgument word)
  | none => s.setSwitch word

def readWord (s : Settings) (word : String) : Except UsageError Reading :=
  match word.toList with
  | '-' :: '-' :: _ => s.setLong word
  | '-' :: letter :: letters => s.setShort (letter :: letters)
  | _ => do return .goOn (← s.setInput word)

/-- Reads the words. Behind `--` every word is an input. -/
def readFrom (s : Settings) : List String → Except UsageError Request
  | [] => s.finish
  | word :: rest => do
    if word = "--" then return ← (← rest.foldlM setInput s).finish
    if isValued word then
      match rest with
      | value :: rest =>
        if looksLikeOption value then throw (.missingValue word)
        else readFrom (← s.setValue word value) rest
      | [] => throw (.missingValue word)
    else
      match ← s.readWord word with
      | .goOn s => readFrom s rest
      | .done request => return request

end Settings

def Request.ofWords (words : List String) : Except UsageError Request := Settings.readFrom {} words

structure Outcome where
  exitCode : Nat := 0
  output : String := ""
  error : Option String := none

namespace Diagnostic

def lines (path : String) (d : Diagnostic) : List String :=
  let mark := match d.level with
    | .error => "  - error["
    | .warning => "  ~ warning["
  (mark ++ d.kind.name ++ "]: " ++ d.message) ::
    d.span.toList.map fun span => "     --> " ++ path ++ s!":{span.line}:{span.column}"

def toJson (d : Diagnostic) : Json :=
  let span (s : Span) : Json := .object [("column",Json.nat s.column),
    ("end_column",Json.nat s.endColumn),("end_line",Json.nat s.endLine),
    ("line",Json.nat s.line)]
  .object [("group",.string d.kind.group),("kind",.string d.kind.name),
    ("level",.string d.level.name),("message",.string d.message),
    ("span",(d.span.map span).getD .null)]

end Diagnostic

namespace CheckResult

def text (result : CheckResult) (path : String) : String :=
  let count := if result.errors.length + result.warnings.length > 0
    then [s!"{result.errors.length} error(s), {result.warnings.length} warning(s)"] else []
  String.join ((result.diagnostics.flatMap (·.lines path) ++ count).map (· ++ "\n"))

def json (result : CheckResult) : String :=
  (Json.object [("diagnostics",.array (result.diagnostics.map Diagnostic.toJson))]).pretty ++ "\n"

def outcome (result : CheckResult) (format : OutputFormat) (path : String) : Outcome :=
  let output := match format with
    | .text => result.text path
    | .json => result.json
  match result.errors.length with
  | 0 => {output}
  | 1 => {exitCode := 1, output, error := some ("1 error found in " ++ path)}
  | n => {exitCode := 1, output, error := some (s!"{n} errors found in " ++ path)}

end CheckResult

namespace Settings

/-- Switches add to what the configuration file says. -/
def options (s : Settings) (files : Files) : Except SourceError Options := do
  let base ← match s.config with
    | some path => do (← files.read path).options
    | none => pure {}
  return {
    inputMode := if s.mixed then .mixed else base.inputMode
    reportUnknownTypes := base.reportUnknownTypes || s.reportUnknownTypes
    legacyCompatibility := base.legacyCompatibility || s.legacy }

def load (files : Files) (what path : String) : Except String Program :=
  (files.loadProgram path).mapError fun _ => "failed to load " ++ what ++ " " ++ path

def check (s : Settings) (files : Files) (input : String) : Except String Outcome := do
  let options ← (s.options files).mapError SourceError.message
  let program ← load files "program" input
  let externs ← s.externs.mapM (load files "externs")
  match options.check program externs with
  | some result => return result.outcome (s.format.getD .text) input
  | none => throw "types are nested too deep"

end Settings

def versionText : String := "jsflow 0.1.0\n"

def helpLines : List String :=
  ["Check a parsed JavaScript program against its JSDoc type annotations.", "",
    "Usage: jsflow [OPTIONS] <INPUT>", "", "Options:",
    "      --externs <PATH>         Program that declares the globals of the environment",
    "      --config <PATH>          File with options",
    "      --mixed                  Accept newer forms and report them",
    "      --report-unknown-types   Warn where a type cannot be determined",
    "      --legacy                 Relax arity and variance checks",
    "      --format <FORMAT>        text or json",
    "  -v, --verbose                Accepted and ignored",
    "  -h, --help                   Print this text",
    "  -V, --version                Print the version"]

def Request.run (request : Request) (files : Files) : Outcome :=
  match request with
  | .version => {output := versionText}
  | .help => {output := String.join (helpLines.map (· ++ "\n"))}
  | .check input settings =>
    match settings.check files input with
    | .ok outcome => outcome
    | .error message => {exitCode := 1, error := some message}

/-- Runs the program on its words. A command line that cannot be read is an error of its
own. -/
def runWords (words : List String) (files : Files) : Outcome :=
  match Request.ofWords words with
  | .ok request => request.run files
  | .error e => {exitCode := 2, error := some e.message}

def Request.paths : Request → List String
  | .check input settings => settings.config.toList ++ [input] ++ settings.externs.toList
  | .version | .help => []

end GradualJs
