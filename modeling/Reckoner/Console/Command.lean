import Reckoner.Decimal.Digits
import Reckoner.Numeral.Basic
import Reckoner.Operator
import Reckoner.Separator

/-! # Console commands

A command is a line that starts with a colon: a name and words behind it. `ofText` reads one and
says what is wrong with any other line. Positions are typed from one and held from zero. -/

namespace Reckoner

/-- A command of the console. -/
inductive Command where
  | setOperator (index : Nat) (op : Operator)
  | setValue (index : Nat) (input : List Char)
  | delete (index : Nat)
  | evaluate
  | clear
  | showNumbers
  | showHistory
  | combine (on : Bool)
  | row (on : Bool)
  | thousands (s : Separator)
  | decimal (s : Separator)
  /-- Copies the result or the entry with so many newer ones. -/
  | copy (index : Option Nat)
  | help
  | quit
  deriving DecidableEq

/-- Why a line is no command. -/
inductive CommandFault where
  | notAPosition (word : List Char)
  | unknownOperator (word : List Char)
  | notAFlag (word : List Char)
  | unknownSeparator (word : List Char)
  | unknownCommand (line : List Char)
  deriving DecidableEq

/-- The text shown for a line that is no command. -/
def CommandFault.message : CommandFault → String
  | notAPosition word => "'" ++ String.ofList word ++ "' is not a position (1, 2, ...)"
  | unknownOperator word => "unknown operator '" ++ String.ofList word ++ "'"
  | notAFlag word => "expected on/off, got '" ++ String.ofList word ++ "'"
  | unknownSeparator word => "invalid variant: " ++ String.ofList word
  | unknownCommand line => "unknown command ':" ++ String.ofList line ++ "', try :help"

namespace Command

/-- The greatest position that can be typed. -/
def maxPosition : Nat := UInt64.size - 1

/-- The digits of a position, which a plus may precede. -/
def positionDigits : List Char → List Char
  | '+' :: s => s
  | s => s

/-- Reads a position: a whole number from one on. -/
def position (word : List Char) : Except CommandFault Nat :=
  let digits := positionDigits word
  let n := Decimal.ofDigits digits
  if digits ≠ [] && isDigits digits && 0 < n && n ≤ maxPosition then .ok (n - 1)
  else .error (.notAPosition word)

/-- Reads an operator. -/
def operator (word : List Char) : Except CommandFault Operator :=
  match Operator.ofText? word with
  | some op => .ok op
  | none => .error (.unknownOperator word)

/-- Reads a switch. -/
def flag (word : List Char) : Except CommandFault Bool :=
  match String.ofList word with
  | "on" | "true" | "yes" => .ok true
  | "off" | "false" | "no" => .ok false
  | _ => .error (.notAFlag word)

/-- Reads the name of a separator, in capitals or not. -/
def separator (word : List Char) : Except CommandFault Separator :=
  match Separator.ofName? (String.ofList (word.map Char.toLower)) with
  | some s => .ok s
  | none => .error (.unknownSeparator word)

/-- Reads a command line without its colon. -/
def ofText (line : List Char) : Except CommandFault Command :=
  let unknown := .error (.unknownCommand line)
  match Text.words line with
  | [] => unknown
  | name :: args =>
    match String.ofList name, args with
    | "op", [n, op] => do
      let index ← position n
      let op ← operator op
      pure (setOperator index op)
    | "set", n :: value :: more => do
      let index ← position n
      pure (setValue index ([' '].intercalate (value :: more)))
    | "del", [n] => delete <$> position n
    | "eval", [] => pure evaluate
    | "clear", [] => pure clear
    | "show", [] => pure showNumbers
    | "history", [] => pure showHistory
    | "combine", [word] => combine <$> flag word
    | "row", [word] => row <$> flag word
    | "thousands", [word] => thousands <$> separator word
    | "decimal", [word] => decimal <$> separator word
    | "copy", [] => pure (copy none)
    | "copy", [n] => (fun index => copy (some index)) <$> position n
    | "help", [] => pure help
    | "quit", [] | "q", [] => pure quit
    | _, _ => unknown

end Command

end Reckoner
