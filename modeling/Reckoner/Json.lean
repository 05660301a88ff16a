import Reckoner.Decimal.Shortest
import Reckoner.Numeral.Basic

/-! # JSON

Structured output is JSON text. `compact` writes it without any blank, `pretty` with one member a
line and two blanks for every level. A number has the fewest digits that read back and always a
point or an exponent; what is not finite is written `null`. -/

namespace Reckoner

/-- A JSON value; the members of an object keep their order. -/
inductive Json where
  | null
  | number (x : Float)
  | string (s : List Char)
  | array (items : List Json)
  | object (members : List (String × Json))

namespace Json

/-! ### Atoms -/

/-- A digit of the hexadecimal system. -/
def hexDigit (n : Nat) : Char := Nat.digitChar n

/-- A character of a string: quotes, backslashes and control characters are escaped. -/
def escape (c : Char) : List Char :=
  if c == '"' then ['\\', '"']
  else if c == '\\' then ['\\', '\\']
  else if c == '\x08' then ['\\', 'b']
  else if c == '\x0c' then ['\\', 'f']
  else if c == '\n' then ['\\', 'n']
  else if c == '\r' then ['\\', 'r']
  else if c == '\t' then ['\\', 't']
  else if c.toNat < 0x20 then
    ['\\', 'u', '0', '0', hexDigit (c.toNat / 16), hexDigit (c.toNat % 16)]
  else [c]

/-- A string in quotes. -/
def quoted (s : List Char) : String := String.ofList ('"' :: (s.flatMap escape ++ ['"']))

/-- The digits of a positive finite number: plain from `0.00001` up to but not including `1e+16`,
else with an exponent. -/
def magnitudeText (x : Float) : List Char :=
  let d := Decimal.shortest .even x
  if -4 ≤ d.point ∧ d.point ≤ 16 then d.positional ['.', '0'] else d.scientific

/-- A number. -/
def numberText (x : Float) : String :=
  if !x.isFinite then "null"
  else
    let sign := Numeral.sign (Binary64.isNegative x)
    String.ofList (sign ++ if Binary64.units x = 0 then ['0', '.', '0'] else magnitudeText x)

/-! ### Compact text -/

mutual

/-- The value without any blank. -/
def compact : Json → String
  | null => "null"
  | number x => numberText x
  | string s => quoted s
  | array items => "[" ++ ",".intercalate (compactItems items) ++ "]"
  | object members => "\x7b" ++ ",".intercalate (compactMembers members) ++ "\x7d"

/-- The texts of items. -/
def compactItems : List Json → List String
  | [] => []
  | v :: items => compact v :: compactItems items

/-- The texts of members. -/
def compactMembers : List (String × Json) → List String
  | [] => []
  | (k, v) :: members => (quoted k.toList ++ ":" ++ compact v) :: compactMembers members

end

/-! ### Indented text -/

/-- A new line of a level, two blanks for each. -/
def newLine (level : Nat) : String := String.ofList ('\n' :: List.replicate (2 * level) ' ')

/-- Texts between brackets, each on a line inside `level` others; nothing stands between the
brackets of an empty list. -/
def bracketed (level : Nat) (opening closing : String) (texts : List String) : String :=
  if texts.isEmpty then opening ++ closing
  else
    opening ++ ",".intercalate (texts.map (newLine (level + 1) ++ ·)) ++ newLine level ++ closing

mutual

/-- The value with every item and member on a line of its own, inside `level` others. -/
def prettyAt (level : Nat) : Json → String
  | null => "null"
  | number x => numberText x
  | string s => quoted s
  | array items => bracketed level "[" "]" (prettyItems (level + 1) items)
  | object members => bracketed level "\x7b" "\x7d" (prettyMembers (level + 1) members)

/-- The texts of items of a level. -/
def prettyItems (level : Nat) : List Json → List String
  | [] => []
  | v :: items => prettyAt level v :: prettyItems level items

/-- The texts of members of a level. -/
def prettyMembers (level : Nat) : List (String × Json) → List String
  | [] => []
  | (k, v) :: members =>
    (quoted k.toList ++ ": " ++ prettyAt level v) :: prettyMembers level members

end

/-- The value with every item and member on a line of its own. -/
def pretty (v : Json) : String := prettyAt 0 v

end Json

end Reckoner
