import Reckoner.Numeral.Basic
import Reckoner.Separator

/-! # Numbers written in the convention

A text is written in a convention if it is an optional minus, digits that are grouped in threes by
the thousand mark or not grouped at all, and optionally the decimal mark with digits after it. An
ambiguous convention has no such texts. `ofConvention?` reads them and refuses all others. -/

namespace Reckoner.Numeral

/-- Whether the pieces between thousand marks are proper groups: at least two of them, of three
digits each but the first, which may have one to three. -/
def areGroups : List (List Char) → Bool
  | first :: second :: others =>
    (1 ≤ first.length && first.length ≤ 3 && isDigits first) &&
      (second :: others).all fun g => g.length == 3 && isDigits g
  | _ => false

/-- The digits of a whole number, grouped or not. -/
def wholeDigits? (thousand : Option Char) (s : List Char) : Option (List Char) :=
  if s ≠ [] && isDigits s then some s
  else
    match thousand with
    | none => none
    | some t => if areGroups (s.splitOn t) then some (s.splitOn t).flatten else none

/-- What is in front of the decimal mark, and the digits after it. -/
def splitFraction? (decimal : Option Char) (s : List Char) : Option (List Char × List Char) :=
  match decimal with
  | none => some (s, [])
  | some d =>
    match s.dropWhile (· != d) with
    | [] => some (s, [])
    | _ :: fraction =>
      if fraction ≠ [] && isDigits fraction then some (s.takeWhile (· != d), fraction) else none

/-- Reads a text that is written exactly in the convention. -/
def ofConvention? (c : Separators) (s : List Char) : Option Numeral :=
  if c.ambiguous then none
  else do
    let (negative, body) := takeSign s
    let (front, fraction) ← splitFraction? c.decimal.mark? body
    let whole ← wholeDigits? c.thousand.mark? front
    make? negative whole fraction

end Reckoner.Numeral
