import Reckoner.CommandLine.Arguments
import Reckoner.Console.Run
import Reckoner.Report
import Reckoner.Settings.File

/-! # Running a command line

A command line is run in a world: what the standard input holds, what files hold, what the
recognizer makes of an image, and what the console needs. The settings are read first, then the
text, then the operators; then the text is worked out. The first of these steps that fails ends the
run with a failure, whose `report` is the text shown for it.

Two texts are left out. The cause that is shown for invalid settings is in the words of the TOML
reader, of which only the verdict is here. The lines that are logged beside the output are no part
of it at any level, the warnings of a division by zero, a result that is not finite and a refused
edit included. -/

namespace Reckoner.CommandLine

/-! ### The world -/

/-- Why a file or a stream cannot be read as text. -/
inductive ReadFault where
  | notFound
  | notADirectory
  | isADirectory
  | notText
  /-- Any other cause, in the words of the system. -/
  | other (message : String)
  deriving DecidableEq

/-- The text shown for a cause. -/
def ReadFault.message : ReadFault → String
  | notFound => "No such file or directory (os error 2)"
  | notADirectory => "Not a directory (os error 20)"
  | isADirectory => "Is a directory (os error 21)"
  | notText => "stream did not contain valid UTF-8"
  | other message => message

/-- How a run of the recognizer ended: well, with a text, or with a status and a complaint. Bytes
that are not UTF-8 are replaced in either text. -/
inductive Recognition where
  | found (text : List Char)
  | gaveUp (status : String) (complaint : List Char)

/-- The program that turns an image into text. -/
structure Recognizer where
  program : String := "tesseract"
  language : String := "eng"
  /-- What comes of running the program with some arguments. -/
  run : List String → Except ReadFault Recognition := fun _ => .error .notFound

/-- The arguments that an image is recognized with: mode 6 takes it for a single block of text. -/
def Recognizer.arguments (r : Recognizer) (image : List Char) : List String :=
  [String.ofList image, "stdout", "-l", r.language, "--psm", "6"]

/-- What a command line finds around it. -/
structure World where
  surroundings : Surroundings
  /-- The bytes on the standard input. -/
  input : List UInt8
  /-- The text of a file. -/
  read : List Char → Except ReadFault (List Char)
  /-- Where the user's settings are kept, if there is such a place. -/
  userSettings : Option (List Char)
  recognizer : Recognizer := {}

/-! ### Failures -/

/-- Why a run failed. -/
inductive Failure where
  | unreadableSettings (path : List Char) (cause : ReadFault)
  | invalidSettings (path : List Char)
  | unreadableFile (path : List Char) (cause : ReadFault)
  | unreadableInput (cause : ReadFault)
  | imageNotFound (path : List Char)
  | recognizerNotRun (program : String) (cause : ReadFault)
  | recognizerGaveUp (program status : String) (complaint : List Char)
  | unknownOperator (c : Char)
  | fault (f : Fault)
  | nothingEvaluated
  deriving DecidableEq

namespace Failure

/-- The text shown for a failure. -/
def message : Failure → String
  | unreadableSettings path _ => "Failed to read config file " ++ String.ofList path
  | invalidSettings path => "Invalid config file " ++ String.ofList path
  | unreadableFile path _ => "Failed to read " ++ String.ofList path
  | unreadableInput cause => cause.message
  | imageNotFound path => "Image not found: " ++ String.ofList path
  | recognizerNotRun program _ => "Failed to run " ++ program
  | recognizerGaveUp program status complaint =>
    program ++ " exited with " ++ status ++ ": " ++ String.ofList complaint
  | unknownOperator c => "Unknown operator '" ++ String.ofList [c] ++ "'"
  | fault f => f.message
  | nothingEvaluated => "Nothing was evaluated"

/-- The cause behind a failure, if it has one of its own. Invalid settings have one too, the error
of the TOML reader, which is not modelled. -/
def cause? : Failure → Option ReadFault
  | unreadableSettings _ cause => some cause
  | unreadableFile _ cause => some cause
  | recognizerNotRun _ cause => some cause
  | _ => none

/-- What is written about a failure. -/
def report (f : Failure) : String :=
  "Error: " ++ f.message ++ "\n" ++
    match f.cause? with
    | some cause => "\nCaused by:\n    " ++ cause.message ++ "\n"
    | none => ""

end Failure

/-! ### Outcomes -/

/-- What a run writes, and why it failed, if it did. -/
structure Outcome where
  output : String := ""
  /-- A remark that belongs to no output. -/
  remark : String := ""
  failure : Option Failure := none

/-- What is written beside the output, the log apart: the remark, and the failure if there is
one. -/
def Outcome.errors (o : Outcome) : String := o.remark ++ (o.failure.map Failure.report).getD ""

/-- The code that the program ends with. -/
def Outcome.exitCode (o : Outcome) : UInt32 := if o.failure.isNone then 0 else 1

/-- Lines of text, each with its end. -/
def ofLines (lines : List String) : String := String.join (lines.map (· ++ "\n"))

/-- A run that failed before it wrote anything. -/
def Outcome.failed (f : Failure) : Outcome := { failure := some f }

/-- A run that writes lines. -/
def Outcome.lines (lines : List String) : Outcome := { output := ofLines lines }

/-! ### Steps -/

/-- Reads a settings file. -/
def settingsOf (w : World) (path : List Char) : Except Failure Settings :=
  match w.read path with
  | .error cause => .error (.unreadableSettings path cause)
  | .ok text =>
    match Settings.ofToml? text with
    | some s => .ok s
    | none => .error (.invalidSettings path)

/-- Whether there is a file or a directory at a path. -/
def World.holds (w : World) (path : List Char) : Bool :=
  match w.read path with
  | .error .notFound => false
  | .error .notADirectory => false
  | _ => true

/-- The settings from the named file, or else from the user's file if there is one. -/
def baseSettings (w : World) (named : Option (List Char)) : Except Failure Settings :=
  match named, w.userSettings with
  | some path, _ => settingsOf w path
  | none, some path => if w.holds path then settingsOf w path else .ok {}
  | none, none => .ok {}

/-- The settings with the options on top: a separator given replaces, a switch given turns on. -/
def Options.override (o : Options) (s : Settings) : Settings where
  separators :=
    ⟨o.thousands.getD s.separators.thousand, o.decimal.getD s.separators.decimal⟩
  rowMode := s.rowMode || o.rowMode
  combineMode := s.combineMode || o.combine

/-- The settings of a run. -/
def settings (w : World) (o : Options) : Except Failure Settings :=
  (baseSettings w o.config).map o.override

/-- The text that the recognizer finds in an image. -/
def Recognizer.recognize (r : Recognizer) (image : List Char) : Except Failure (List Char) :=
  match r.run (r.arguments image) with
  | .ok (.found text) => .ok text
  | .ok (.gaveUp status complaint) =>
    .error (.recognizerGaveUp r.program status (Text.trim complaint))
  | .error cause => .error (.recognizerNotRun r.program cause)

/-- The text of an input. -/
def textOf (w : World) : Input → Except Failure (List Char)
  | .standard =>
    match Text.decode? w.input with
    | some text => .ok text
    | none => .error (.unreadableInput .notText)
  | .file path => (w.read path).mapError (.unreadableFile path)
  | .image path =>
    match w.read path with
    | .ok _ | .error .notText | .error (.other _) => w.recognizer.recognize path
    | .error _ => .error (.imageNotFound path)

/-- The operators given, none where the option is missing. -/
def operatorsOf : Option (List Char) → Except Failure (List Operator)
  | none => .ok []
  | some text => (Operator.listOfText text).mapError .unknownOperator

/-! ### Jobs -/

/-- Shows the numbers of a text. -/
def parse (s : Settings) (json : Bool) (text : List Char) : Outcome :=
  let readings := Reading.ofText s.separators s.rowMode text
  if json then .lines [(Json.array (readings.map Reading.json)).pretty]
  else if readings.isEmpty then { remark := "No numbers found\n" }
  else .lines (readings.map fun r => String.ofList (display s.separators r.value))

/-- Works a text out in a new session and shows the entry. -/
def evaluate (w : World) (s : Settings) (json : Bool) (ops : List Operator) (text : List Char) :
    Outcome :=
  match (Session.calculate w.surroundings.now ops text { settings := s }).1 with
  | .error f => .failed (.fault f)
  | .ok none => .failed .nothingEvaluated
  | .ok (some e) => .lines [if json then e.json.pretty else String.ofList (e.text s.separators)]

/-- What the console adds to its replies when its input has ended. -/
def closing (json : Bool) (c : Console) : Outcome :=
  if c.ending = some .notText then .failed (.unreadableInput .notText)
  else if json then .lines [c.session.history.json.pretty]
  else {}

/-- Runs the console on the standard input. -/
def console (w : World) (s : Settings) (json : Bool) : Outcome :=
  let (replies, c) := Console.run w.surroundings { settings := s } w.input
  let closed := closing json c
  { closed with output := ofLines replies ++ closed.output }

/-- Does a job. -/
def perform (w : World) (o : Options) (job : Job) : Except Failure Outcome := do
  let s ← settings w o
  match job with
  | .parse input =>
    let text ← textOf w input
    pure (parse s o.json text)
  | .evaluate input ops =>
    let text ← textOf w input
    let operators ← operatorsOf ops
    pure (evaluate w s o.json operators text)
  | .console => pure (console w s o.json)

/-- What comes of a job. -/
def outcome (w : World) (o : Options) (job : Job) : Outcome :=
  match perform w o job with
  | .error f => .failed f
  | .ok outcome => outcome

/-! ### Command lines -/

/-- The answer to a request for the version. -/
def versionText : String := "ocrcalc 0.1.0"

/-- The answer to a request for help. -/
def helpText : List String :=
  ["Add up numbers from screenshots.",
    "",
    "Usage: ocrcalc [OPTIONS] <COMMAND>",
    "",
    "Commands:",
    "  parse [FILE]  Print the numbers found in the input",
    "  eval [FILE]   Evaluate the numbers found in the input",
    "  repl          Interactive session on stdin",
    "  help          Print this message",
    "",
    "Options:",
    "      --config <CONFIG>        Config file (default: $XDG_CONFIG_HOME/ocrcalc/config.toml)",
    "      --thousands <THOUSANDS>  Thousand separator: comma, period, space, none",
    "      --decimal <DECIMAL>      Decimal point: comma, period, space, none",
    "      --row-mode               Treat every line as exactly one number",
    "      --combine                Append new batches to the current numbers",
    "      --json                   Print JSON instead of formatted text",
    "  -v, --verbose                Log at debug level",
    "  -h, --help                   Print help",
    "  -V, --version                Print version",
    "",
    "Options of parse and eval:",
    "      --image <IMAGE>          Run OCR on this image instead of reading text",
    "      --ops <OPS>              Operators between the numbers, repeated as needed (eval)"]

/-- Runs a command line; `none` where its arguments are wrong. -/
def run (w : World) (args : List (List Char)) : Option Outcome :=
  match Invocation.ofArguments args with
  | .wrong => none
  | .help => some (.lines helpText)
  | .version => some (.lines [versionText])
  | .run options job => some (outcome w options job)

end Reckoner.CommandLine
