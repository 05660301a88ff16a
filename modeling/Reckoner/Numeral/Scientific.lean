import Reckoner.Binary64
import Reckoner.Decimal.Digits
import Reckoner.Numeral.Basic

/-! # Scientific notation

The plain syntax of floating-point numbers: a sign, digits with a period before, between or after
them, and an exponent of ten, as in `1e3`, `.5` or `-2.E+4`. -/

namespace Reckoner

/-- A number in scientific notation: `± digits · 10 ^ exponent`. -/
structure Scientific where
  negative : Bool
  digits : List Char
  exponent : Int

namespace Scientific

/-- A sign of either kind at the front, and what is left without it. -/
def takeSign : List Char → Bool × List Char
  | '-' :: s => (true, s)
  | '+' :: s => (false, s)
  | s => (false, s)

/-- The exponent at the end of a number: nothing, or the letter, a sign and digits. -/
def exponent? : List Char → Option Int
  | [] => some 0
  | e :: s =>
    let (negative, digits) := takeSign s
    if (e == 'e' || e == 'E') && digits ≠ [] && isDigits digits then
      some (if negative then -(Decimal.ofDigits digits : Int) else Decimal.ofDigits digits)
    else none

/-- The fraction behind the period, if there is one, and what follows it. -/
def takeFraction : List Char → List Char × List Char
  | '.' :: s => (s.takeWhile Char.isDigit, s.dropWhile Char.isDigit)
  | s => ([], s)

/-- Reads a number in scientific notation. -/
def ofText? (s : List Char) : Option Scientific := do
  let (negative, body) := takeSign s
  let whole := body.takeWhile Char.isDigit
  let (fraction, rest) := takeFraction (body.dropWhile Char.isDigit)
  let exponent ← exponent? rest
  if whole = [] && fraction = [] then none
  else some ⟨negative, whole ++ fraction, exponent - fraction.length⟩

/-- The finite value nearest to the number, if it is in range.

The number of digits and the exponent alone tell when it lies above every finite value or closer to
zero than half a unit, so no power of ten is larger than the digits call for. -/
def value? (n : Scientific) : Option Float :=
  let m := Decimal.ofDigits n.digits
  let places : Int := (Decimal.digits m).length + n.exponent
  if m = 0 ∨ places < -330 then Binary64.nearest? n.negative 0 1
  else if 310 < places then none
  else Binary64.nearest? n.negative (m * Decimal.scale n.exponent.toNat)
    (Decimal.scale (-n.exponent).toNat)

end Scientific

end Reckoner
