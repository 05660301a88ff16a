import Std.Time.DateTime.Timestamp
import Reckoner.CommandLine.Run

/-! # The program

The thin layer around the command line: it reads the arguments, the clock, the standard input and
the files that the arguments name, and writes what comes out. The console is run line by line, so
that every reply comes before the next line is read. -/

namespace Reckoner.CommandLine

/-- The present moment. -/
def currentTime : IO Timestamp := do
  let t ← Std.Time.Timestamp.now
  return ⟨t.val.second.val, t.val.nano.val.toNat⟩

/-- No clipboard can be reached from here. -/
def noClipboard (_ : List Char) : Except String Unit :=
  .error "Failed to access clipboard: no clipboard is available"

/-- The recognizer that the environment names. No other program can be run from here. -/
def namedRecognizer : IO Recognizer := do
  return { program := (← IO.getEnv "TESSERACT").getD "tesseract" }

/-- The cause that the system gives for a file that cannot be read. -/
def readFault (e : IO.Error) : ReadFault :=
  match e with
  | .noFileOrDirectory .. => .notFound
  | .inappropriateType _ 20 _ => .notADirectory
  | .inappropriateType _ 21 _ => .isADirectory
  | e => .other (toString e)

/-- Reads a file as text. -/
def readFile (path : List Char) : IO (Except ReadFault (List Char)) := do
  try
    let bytes ← IO.FS.readBinFile (String.ofList path)
    match String.fromUTF8? bytes with
    | some text => return .ok text.toList
    | none => return .error .notText
  catch e => return .error (readFault e)

/-- Where the user's settings are kept. -/
def userSettingsPath : IO (Option (List Char)) := do
  let home := (← IO.getEnv "HOME").map (· ++ "/.config")
  let directory := match ← IO.getEnv "XDG_CONFIG_HOME" with
    | some d => if d.startsWith "/" then some d else home
    | none => home
  return directory.map fun d => (d ++ "/ocrcalc/config.toml").toList

/-- The paths that a run may read. -/
def pathsOf (user : Option (List Char)) (o : Options) (job : Job) : List (List Char) :=
  let input := match job with
    | .parse (.file path) | .parse (.image path) => [path]
    | .evaluate (.file path) _ | .evaluate (.image path) _ => [path]
    | _ => []
  o.config.toList ++ user.toList ++ input

/-- The files at some paths. -/
def readFiles (paths : List (List Char)) :
    IO (List (List Char × Except ReadFault (List Char))) :=
  paths.mapM fun path => return (path, ← readFile path)

/-- The world with some files read and the given standard input. -/
def worldOf (now : Timestamp) (user : Option (List Char)) (recognizer : Recognizer)
    (files : List (List Char × Except ReadFault (List Char))) (input : List UInt8) : World where
  surroundings := ⟨now, noClipboard⟩
  input := input
  read path := (files.lookup path).getD (.error .notFound)
  userSettings := user
  recognizer := recognizer

/-- Whether a job reads the standard input as a whole. -/
def readsInput : Job → Bool
  | .parse .standard => true
  | .evaluate .standard _ => true
  | _ => false

/-- Writes what came out and gives the exit code. -/
def conclude (outcome : Outcome) : IO UInt32 := do
  IO.print outcome.output
  IO.eprint outcome.errors
  return outcome.exitCode

/-- Reads the bytes of a line without its line feed; `none` at the end of the input. -/
partial def readLine (input : IO.FS.Stream) (bytes : List UInt8) : IO (Option (List UInt8)) := do
  match (← input.read 1).toList with
  | [] => return if bytes.isEmpty then none else some bytes.reverse
  | b :: _ => if b == Text.lineFeed then return some bytes.reverse else readLine input (b :: bytes)

/-- Runs the console line by line. -/
partial def converse (input : IO.FS.Stream) (c : Console) : IO Console := do
  let line ← if c.ending.isSome then pure none else readLine input []
  let surroundings : Surroundings := ⟨← currentTime, noClipboard⟩
  match line with
  | none =>
    let (replies, c) := c.finish surroundings
    IO.print (ofLines replies)
    return c
  | some bytes =>
    let (replies, c) := c.step surroundings bytes
    IO.print (ofLines replies)
    (← IO.getStdout).flush
    converse input c

/-- Does what the arguments ask for. -/
def runProgram (args : List (List Char)) : IO UInt32 := do
  match Invocation.ofArguments args with
  | .wrong =>
    IO.eprint (ofLines ("error: the arguments are not valid" :: "" :: helpText))
    return 2
  | .help => conclude (.lines helpText)
  | .version => conclude (.lines [versionText])
  | .run o job =>
    let user ← userSettingsPath
    let files ← readFiles (pathsOf user o job)
    let input ← if readsInput job then (← IO.getStdin).readBinToEnd else pure ByteArray.empty
    let w := worldOf (← currentTime) user (← namedRecognizer) files input.toList
    match job, settings w o with
    | .console, .ok s =>
      let c ← converse (← IO.getStdin) { session := { settings := s } }
      conclude (closing o.json c)
    | _, _ => conclude (outcome w o job)

end Reckoner.CommandLine

/-- Runs the program. -/
def main (args : List String) : IO UInt32 :=
  Reckoner.CommandLine.runProgram (args.map String.toList)
