/-! # Readers

A reader takes what it understands off the front of a text and gives that and the rest. `gather`
repeats a step until it says that the end is reached; every step takes at least one character, so
the length of the text bounds their number. -/

namespace Reckoner.Toml

/-- Takes a value off the front of a text, or fails. -/
abbrev Reader (α : Type) := List Char → Option (α × List Char)

/-- One step of a repetition: a value and the rest, or only the rest where the end is reached. -/
abbrev Step (α : Type) := List Char → Option (Option α × List Char)

/-- The values of at most `fuel` steps, up to the one that reaches the end. -/
def gatherFrom {α : Type} (step : Step α) : Nat → Reader (List α)
  | 0, _ => none
  | fuel + 1, s =>
    match step s with
    | none => none
    | some (none, rest) => some ([], rest)
    | some (some a, rest) =>
      (gatherFrom step fuel rest).map fun (others, rest) => (a :: others, rest)

/-- The values of all steps up to the one that reaches the end. -/
def gather {α : Type} (step : Step α) : Reader (List α) :=
  fun s => gatherFrom step (s.length + 1) s

/-- Takes one given character. -/
def expect (c : Char) : List Char → Option (List Char)
  | [] => none
  | d :: s => if c = d then some s else none

/-- Whether a character is a blank within a line. -/
def isSpace (c : Char) : Bool := c == ' ' || c == '\t'

/-- The text without the blanks at its front. -/
def skipSpaces (s : List Char) : List Char := s.dropWhile isSpace

/-- Whether a character may stand in a comment or a string as it is. -/
def isPlain (c : Char) : Bool := c == '\t' || (0x20 ≤ c.toNat && c.toNat ≠ 0x7F)

/-- What follows a line feed, which a carriage return may precede. -/
def newLine? : List Char → Option (List Char)
  | '\n' :: s => some s
  | '\r' :: '\n' :: s => some s
  | _ => none

/-- What follows the end of a line: blanks, a comment, and a line feed or the end of the text. -/
def endOfLine? (s : List Char) : Option (List Char) :=
  let s := skipSpaces s
  let s := if s.head? = some '#' then s.dropWhile isPlain else s
  if s = [] then some [] else newLine? s

/-- One piece of what may stand between the items of a list: blanks, a line end or a comment. -/
def triviaStep : Step Unit
  | [] => some (none, [])
  | c :: s =>
    if isSpace c then some (some (), s)
    else if c == '#' || c == '\n' || c == '\r' then (endOfLine? (c :: s)).map (some (), ·)
    else some (none, c :: s)

/-- What follows blanks, line ends and comments. -/
def skipTrivia (s : List Char) : Option (List Char) := (gather triviaStep s).map Prod.snd

end Reckoner.Toml
