import Reckoner.Console.Command
import Reckoner.Session
import Reckoner.Text.Utf8

/-! # The console

The console reads lines. Lines of text are collected as one block, which a blank line, a command or
the end of the input merges into the session; a line that starts with a colon is a command. `step`
takes one line and gives the replies; a console that has ended takes no more lines. `run` reads a
script to its end. -/

namespace Reckoner

/-- What the console needs from outside: the time, and a clipboard that takes a text or says why it
does not. -/
structure Surroundings where
  now : Timestamp
  copy : List Char → Except String Unit

/-- How the input of a console ended. -/
inductive Ending where
  | finished
  /-- A line was not UTF-8. -/
  | notText
  deriving DecidableEq, Repr

/-- A console: its session, the block of lines not merged yet, and how it ended, if it has. -/
structure Console where
  session : Session
  block : List Char := []
  ending : Option Ending := none

namespace Console

/-! ### Replies -/

/-- The reply to `:help`. -/
def helpText : List String :=
  ["Paste recognized text, then an empty line to add it.",
    "  :op N OP        operator after number N (+ - * /)",
    "  :set N VALUE    replace number N",
    "  :del N          delete number N",
    "  :eval           evaluate",
    "  :clear          clear numbers and result",
    "  :show           list numbers",
    "  :history        list past results, newest first",
    "  :combine on|off append new batches instead of replacing",
    "  :row on|off     one number per line",
    "  :thousands SEP  comma, period, space or none",
    "  :decimal SEP    comma, period or none",
    "  :copy [N]       copy the result, or history entry N",
    "  :quit"]

/-- A switch in words. -/
def onOff (on : Bool) : String := if on then "on" else "off"

/-- The reply that reports a fault. -/
def errorLine (message : String) : String := "error: " ++ message

/-- A value in the convention of a session. -/
def shown (s : Session) (x : Float) : List Char := display s.settings.separators x

/-- The result of a session. -/
def resultLine (s : Session) : String :=
  match s.result with
  | some x => String.ofList ("= ".toList ++ shown s x)
  | none => "= (not evaluated)"

/-- The expression of a session and its result. -/
def expressionLines (s : Session) : List String :=
  [String.ofList (chainText (shown s) s.expression.values s.expression.operators), resultLine s]

/-- Lines numbered from one. -/
def numbered (lines : List (List Char)) : List String :=
  lines.mapIdx fun i line => "[" ++ toString (i + 1) ++ "] " ++ String.ofList line

/-- An item with the operator behind it. -/
def itemText (s : Session) (i : Item) : List Char :=
  shown s i.operand.value ++ ' ' :: (i.next.map Operator.symbol).toList

/-! ### Commands -/

/-- A reply and the session after it. -/
abbrev Reply := List String × Session

/-- The session after an edit, with its expression as the reply. -/
def edited (s : Session) : Reply := (expressionLines s, s)

/-- Puts a value on the clipboard. -/
def copyValue (w : Surroundings) (s : Session) : Option Float → Reply
  | none => (["nothing to copy"], s)
  | some x =>
    match w.copy (plain x) with
    | .ok () => ([String.ofList ("copied ".toList ++ plain x)], s)
    | .error message => ([errorLine ("Clipboard error: " ++ message)], s)

/-- Carries out a command. -/
def execute (w : Surroundings) (s : Session) : Command → Except Fault Reply
  | .setOperator index op => (s.setOperator index op).map edited
  | .setValue index input => (s.editValue index input).map fun (_, s') => edited s'
  | .delete index => (s.deleteAt index).map edited
  | .evaluate => (s.evaluate w.now).map fun (_, s') => edited s'
  | .clear => .ok (["cleared"], s.clear)
  | .showNumbers => .ok (numbered (s.expression.items.map (itemText s)) ++ [resultLine s], s)
  | .showHistory =>
    let entries := s.history.newestFirst.map (Entry.text s.settings.separators)
    .ok (if entries = [] then ["no history"] else numbered entries, s)
  | .combine on => .ok (["combine " ++ onOff on], s.setCombineMode on)
  | .row on => .ok (["row mode " ++ onOff on], s.setRowMode on)
  | .thousands t =>
    .ok (["thousand separator: " ++ t.title],
      s.setSeparators { s.settings.separators with thousand := t })
  | .decimal d =>
    .ok (["decimal point: " ++ d.title],
      s.setSeparators { s.settings.separators with decimal := d })
  | .copy none => .ok (copyValue w s s.result)
  | .copy (some n) => .ok (copyValue w s ((s.history.recent? n).map fun e => e.result))
  | .help => .ok (helpText, s)
  | .quit => .ok ([], s)

/-- Carries out a command; a fault is reported and changes nothing. -/
def reply (w : Surroundings) (s : Session) (c : Command) : Reply :=
  match execute w s c with
  | .ok r => r
  | .error fault => ([errorLine fault.message], s)

/-! ### Blocks -/

/-- Merges a block of text. -/
def mergeBlock (w : Surroundings) (s : Session) (block : List Char) : Reply :=
  match s.ingest w.now block with
  | .error .noNumbers => (["no numbers found"], s)
  | .error fault => ([errorLine fault.message], s)
  | .ok (m, s') =>
    let verb := match m.mode with
      | .replaced => "started with "
      | .appended => "appended "
    let failed := match m.evaluation with
      | .error fault => [errorLine fault.message]
      | .ok _ => []
    ((verb ++ toString m.added ++ " number(s)") :: failed ++ expressionLines s', s')

/-- Merges the block that is waiting, if there is one. -/
def flush (w : Surroundings) (c : Console) : List String × Console :=
  if c.block = [] then ([], c)
  else
    let (lines, s) := mergeBlock w c.session c.block
    (lines, { c with session := s, block := [] })

/-! ### Lines -/

/-- Takes a command line without its colon. -/
def takeCommand (w : Surroundings) (c : Console) (line : List Char) : List String × Console :=
  match Command.ofText line with
  | .error fault => ([errorLine fault.message], c)
  | .ok .quit => ([], { c with ending := some .finished })
  | .ok command =>
    let (lines, s) := reply w c.session command
    (lines, { c with session := s })

/-- Takes a line of text. -/
def takeLine (w : Surroundings) (c : Console) (line : List Char) : List String × Console :=
  match Text.trim line with
  | [] => c.flush w
  | ':' :: command =>
    let (merged, c') := c.flush w
    let (lines, c'') := c'.takeCommand w command
    (merged ++ lines, c'')
  | _ => ([], { c with block := c.block ++ line ++ ['\n'] })

/-- Takes the bytes of a line, unless the console has ended. -/
def step (w : Surroundings) (c : Console) (bytes : List UInt8) : List String × Console :=
  if c.ending.isSome then ([], c)
  else
    match Text.decode? bytes with
    | none => ([], { c with ending := some .notText })
    | some line => c.takeLine w line

/-- Takes lines one after another. -/
def steps (w : Surroundings) (c : Console) : List (List UInt8) → List String × Console
  | [] => ([], c)
  | bytes :: more =>
    let (lines, c') := c.step w bytes
    let (others, c'') := c'.steps w more
    (lines ++ others, c'')

theorem step_of_ending (w : Surroundings) {c : Console} (h : c.ending.isSome) (bytes : List UInt8) :
    c.step w bytes = ([], c) := by
  simp [step, h]

/-- Lines taken one after another: the replies follow each other, and the second part starts where
the first has led. -/
theorem steps_append (w : Surroundings) (c : Console) (ls ms : List (List UInt8)) :
    c.steps w (ls ++ ms) =
      ((c.steps w ls).1 ++ ((c.steps w ls).2.steps w ms).1, ((c.steps w ls).2.steps w ms).2) := by
  induction ls generalizing c with
  | nil => simp [steps]
  | cons l ls ih => simp [steps, ih, List.append_assoc]

/-- Ends the input: the waiting block is merged, unless the console has ended before. -/
def finish (w : Surroundings) (c : Console) : List String × Console :=
  if c.ending.isSome then ([], c)
  else
    let (lines, c') := c.flush w
    (lines, { c' with ending := some .finished })

/-- Reads a script to its end. -/
def run (w : Surroundings) (s : Session) (script : List UInt8) : List String × Console :=
  let (lines, c) := steps w { session := s } (Text.scriptLines script)
  let (others, c') := c.finish w
  (lines ++ others, c')

end Console

end Reckoner
