import Reckoner.Binary64
import Reckoner.Decimal.Digits

/-! # The shortest decimal that reads back

Among the decimals that round to a given binary64 value, `shortest` takes one with the fewest digits
and of those the nearest. It works in whole numbers: a quarter of a unit over `scale gridPlaces`
divides the value, the ends of the interval of numbers that round to it, and every decimal that is
tried. For one digit, two digits and so on only the two neighbours of the value on that decimal grid
can be hits. -/

namespace Reckoner.Decimal

/-- The decimal `digits · 10 ^ exponent`. -/
structure Scaled where
  digits : List Char
  exponent : Int

/-- Which of two equally near decimals is taken. -/
inductive Tie where
  /-- The greater one. -/
  | up
  /-- The one with the even last digit. -/
  | even

namespace Shortest

/-- Enough decimal places that the smallest positive value is not lost. -/
def gridPlaces : Nat := 400

/-- A positive value and the ends of the interval that rounds to it, in the whole numbers of the
search. -/
structure Interval where
  low : Nat
  value : Nat
  high : Nat
  /-- Whether the two ends round to the value as well. -/
  closed : Bool

/-- The interval of numbers that round to a positive finite value. Below a power of two the numbers
lie twice as close. -/
def interval (x : Float) : Interval :=
  let scale := scale gridPlaces
  let gap := 1 <<< Binary64.binade x
  let lowGap :=
    if Binary64.significandField x = 0 ∧ 1 < Binary64.exponentField x then gap else 2 * gap
  let value := 4 * Binary64.units x
  ⟨(value - lowGap) * scale, value * scale, (value + 2 * gap) * scale,
    Binary64.significand x % 2 = 0⟩

/-- Whether a number rounds to the value. -/
def Interval.contains (i : Interval) (n : Nat) : Bool :=
  if i.closed then i.low ≤ n && n ≤ i.high else i.low < n && n < i.high

/-- The hit nearest to the value among the multiples of `step`, as a count of steps. -/
def Interval.hit? (tie : Tie) (i : Interval) (step : Nat) : Option Nat :=
  let below := i.value / step
  let rest := i.value % step
  let nearer :=
    if 2 * rest < step then below
    else if step < 2 * rest then below + 1
    else
      match tie with
      | .up => below + 1
      | .even => below + below % 2
  match i.contains (below * step), i.contains ((below + 1) * step) with
  | true, true => some nearer
  | true, false => some below
  | false, true => some (below + 1)
  | false, false => none

end Shortest

/-- The shortest decimal that rounds to a positive finite value, without zeros at its end. -/
def shortest (tie : Tie) (x : Float) : Scaled :=
  let i := Shortest.interval x
  let unit := 4 * Binary64.one
  let size := (digits (i.value / unit)).length
  let found := (List.range 17).findSome? fun count =>
    let place := size - (count + 1)
    (i.hit? tie (unit * scale place)).map fun n => (n, place)
  let (n, place) := found.getD (i.value / unit, 0)
  let kept := trimZeros (digits n)
  ⟨kept, (place + ((digits n).length - kept.length) : Nat) - (Shortest.gridPlaces : Int)⟩

namespace Scaled

/-- The place of the point: how many digits stand in front of it. -/
def point (d : Scaled) : Int := d.digits.length + d.exponent

/-- The decimal without an exponent; `whole` is written behind a number that is whole. -/
def positional (whole : List Char) (d : Scaled) : List Char :=
  if d.point ≤ 0 then
    '0' :: '.' :: (List.replicate (-d.point).toNat '0' ++ d.digits)
  else if 0 ≤ d.exponent then
    d.digits ++ List.replicate d.exponent.toNat '0' ++ whole
  else d.digits.take d.point.toNat ++ '.' :: d.digits.drop d.point.toNat

/-- The decimal with an exponent that has a sign, and one digit in front of the point. -/
def scientific (d : Scaled) : List Char :=
  let mantissa :=
    match d.digits with
    | first :: second :: others => first :: '.' :: second :: others
    | few => few
  let exponent := d.point - 1
  mantissa ++ 'e' :: (if exponent < 0 then '-' else '+') :: Decimal.digits exponent.natAbs

end Scaled

end Reckoner.Decimal
