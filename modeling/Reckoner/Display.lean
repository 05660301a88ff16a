import Reckoner.Binary64
import Reckoner.Decimal.Digits
import Reckoner.Numeral.Basic
import Reckoner.Separator

/-! # Showing a value

A value is shown with at most fifteen digits, at most ten of them after the point and none of those
a trailing zero: its digits are rounded to `places` and split into `Digits`. `plain` writes them as
a numeral; `display` groups the whole part and uses the marks of a convention. A minus is written
unless all digits shown are zero. -/

namespace Reckoner

/-- The digits of a value as they are shown. -/
structure Digits where
  whole : List Char
  fraction : List Char
  deriving DecidableEq

namespace Digits

/-- How many digits after the point are kept: what the digits of the whole part leave of fifteen,
and at most ten. -/
def places (x : Float) : Nat :=
  min 10 (15 - (Decimal.digits (Binary64.units x / Binary64.one)).length)

/-- The digits of the absolute value of a finite value, rounded to `places` after the point. -/
def ofFinite (x : Float) : Digits :=
  let scale := Decimal.scale (places x)
  let n := roundDiv (Binary64.units x * scale) Binary64.one
  ⟨Decimal.digits (n / scale), Decimal.trimZeros (Decimal.padded (places x) (n % scale))⟩

/-- The digits of a value; what is not finite shows a word instead. -/
def ofFloat (x : Float) : Digits :=
  if x.isNaN then ⟨"NaN".toList, []⟩
  else if x.isFinite then ofFinite x
  else ⟨"inf".toList, []⟩

/-- Whether all digits shown are zero. -/
def isZero (d : Digits) : Bool := d.whole = ['0'] && d.fraction = []

/-- The minus of a negative value, unless all digits shown are zero. -/
def sign (x : Float) (d : Digits) : List Char := Numeral.sign (Binary64.isNegative x && !d.isZero)

end Digits

/-- The digits with `mark` in front of every group of three, counted from the right. -/
def grouped (mark : Char) : List Char → List Char
  | [] => []
  | d :: s =>
    if s.length % 3 = 0 ∧ s ≠ [] then d :: mark :: grouped mark s else d :: grouped mark s

/-- The digits of a whole part with the thousand mark of a convention. -/
def Separators.group (c : Separators) (whole : List Char) : List Char :=
  match c.thousand.mark? with
  | none => whole
  | some mark => grouped mark whole

/-- A value as a plain numeral, the form that is copied. -/
def plain (x : Float) : List Char :=
  let d := Digits.ofFloat x
  d.sign x ++ d.whole ++ Numeral.pointed '.' d.fraction

/-- A value in a convention. Without a decimal mark the fraction is cut off. -/
def display (c : Separators) (x : Float) : List Char :=
  match c.decimal.mark? with
  | none =>
    let d : Digits := ⟨(Digits.ofFloat x).whole, []⟩
    d.sign x ++ c.group d.whole
  | some point =>
    let d := Digits.ofFloat x
    d.sign x ++ c.group d.whole ++ Numeral.pointed point d.fraction

end Reckoner
