import Reckoner.Decimal.Digits
import Reckoner.Toml.Reader

/-! # Quoted strings

Strings in double quotes know escapes, strings in single quotes do not. Either kind may be written
in three quotes at each end; it may then span lines, and a line feed right behind the opening quotes
does not count. -/

namespace Reckoner.Toml

/-! ### Escapes -/

/-- The value of a hexadecimal digit. -/
def hexValue? (c : Char) : Option Nat :=
  if c.isDigit then some (c.toNat - '0'.toNat)
  else if 'a' ≤ c ∧ c ≤ 'f' then some (c.toNat - 'a'.toNat + 10)
  else if 'A' ≤ c ∧ c ≤ 'F' then some (c.toNat - 'A'.toNat + 10)
  else none

/-- The number that hexadecimal digits denote. -/
def hexNumber? (s : List Char) : Option Nat :=
  s.foldlM (fun n c => (hexValue? c).map (16 * n + ·)) 0

/-- The character of a code given in so many hexadecimal digits. -/
def takeCode (width : Nat) : Reader Char := fun s =>
  if width ≤ s.length then do
    let n ← hexNumber? (s.take width)
    if n.isValidChar then some (Char.ofNat n, s.drop width) else none
  else none

/-- The character of an escape, behind its backslash. -/
def takeEscape : Reader Char
  | 'b' :: s => some ('\x08', s)
  | 't' :: s => some ('\t', s)
  | 'n' :: s => some ('\n', s)
  | 'f' :: s => some ('\x0c', s)
  | 'r' :: s => some ('\r', s)
  | 'e' :: s => some ('\x1b', s)
  | '"' :: s => some ('"', s)
  | '\\' :: s => some ('\\', s)
  | 'x' :: s => takeCode 2 s
  | 'u' :: s => takeCode 4 s
  | 'U' :: s => takeCode 8 s
  | _ => none

/-! ### On one line -/

/-- One character of a string in double quotes. -/
def basicStep : Step Char
  | '"' :: s => some (none, s)
  | '\\' :: s => (takeEscape s).map fun (c, rest) => (some c, rest)
  | c :: s => if isPlain c then some (some c, s) else none
  | [] => none

/-- One character of a string in single quotes. -/
def literalStep : Step Char
  | '\x27' :: s => some (none, s)
  | c :: s => if isPlain c then some (some c, s) else none
  | [] => none

/-! ### On several lines -/

/-- What a text over several lines may hold unescaped: plain characters, line feeds, and up to two
of its quotes in front of the three that close it. -/
def multiLineStep (quote : Char) : Step (List Char)
  | [] => none
  | c :: s =>
    if c = quote then
      let run := ((c :: s).takeWhile (· == quote)).length
      if run = 3 then some (none, s.drop 2)
      else if run ≤ 5 then some (some [c], s)
      else none
    else
      match newLine? (c :: s) with
      | some rest => some (some ['\n'], rest)
      | none => if isPlain c then some (some [c], s) else none

/-- The text without the blanks and line ends at its front. A carriage return that no line feed
follows is none of them. -/
def skipBlankLines : List Char → List Char
  | '\r' :: '\n' :: s => skipBlankLines s
  | c :: s => if isSpace c || c == '\n' then skipBlankLines s else c :: s
  | [] => []

/-- What follows a backslash at the end of a line, blanks and line ends after it left out. -/
def skipLineEnd? (s : List Char) : Option (List Char) :=
  (newLine? (skipSpaces s)).map skipBlankLines

/-- One piece of a string in three double quotes. -/
def multiLineBasicStep : Step (List Char)
  | '\\' :: s =>
    match skipLineEnd? s with
    | some rest => some (some [], rest)
    | none => (takeEscape s).map fun (c, rest) => (some [c], rest)
  | s => multiLineStep '"' s

/-- The text without a line feed at its front. -/
def skipFirstLineFeed (s : List Char) : List Char := (newLine? s).getD s

/-! ### Strings -/

/-- A string on one line, behind nothing. -/
def takeLineString : Reader (List Char)
  | '"' :: s => gather basicStep s
  | '\x27' :: s => gather literalStep s
  | _ => none

/-- A string of any of the four kinds. -/
def takeString : Reader (List Char)
  | '"' :: '"' :: '"' :: s =>
    (gather multiLineBasicStep (skipFirstLineFeed s)).map fun (pieces, rest) =>
      (pieces.flatten, rest)
  | '\x27' :: '\x27' :: '\x27' :: s =>
    (gather (multiLineStep '\x27') (skipFirstLineFeed s)).map fun (pieces, rest) =>
      (pieces.flatten, rest)
  | s => takeLineString s

end Reckoner.Toml
