import Reckoner.Decimal.Rounding

/-! # Binary64 values in whole numbers

Every finite value is a whole number of units, a unit being the smallest positive value
`2 ^ (-1074)`. `units` reads that number off the bits, and `nearest?` goes back: the value nearest
to a fraction, a half going to the even significand. The bits of `nearest?` are
`binade * leadingBit + significand`, so a significand that rounds up to `2 * leadingBit` carries
into the exponent by itself. -/

namespace Reckoner.Binary64

/-- The exponent of a unit, so that `1` is `2 ^ unitPlaces` units. -/
def unitPlaces : Nat := 1074

/-- The number of units in `1`. -/
def one : Nat := 1 <<< unitPlaces

/-- The leading bit of a significand, the first one past the significand field. -/
def leadingBit : Nat := 0x10000000000000

/-- The sign bit, the highest of the 64. -/
def signBit : Nat := 0x8000000000000000

/-- Whether the sign bit is set. -/
def isNegative (x : Float) : Bool := x.toBits.toNat / signBit == 1

/-- The exponent field of the bits. -/
def exponentField (x : Float) : Nat := x.toBits.toNat / leadingBit % 0x800

/-- The significand field of the bits. -/
def significandField (x : Float) : Nat := x.toBits.toNat % leadingBit

/-- The significand, with the leading bit that the field leaves out. -/
def significand (x : Float) : Nat :=
  if exponentField x = 0 then significandField x else leadingBit + significandField x

/-- How often the significand is doubled to give the units. -/
def binade (x : Float) : Nat := exponentField x - 1

/-- The absolute value of a finite value, counted in units. -/
def units (x : Float) : Nat := significand x <<< binade x

/-- The value with this sign and these lower 63 bits. -/
def ofMagnitude (negative : Bool) (magnitude : Nat) : Float :=
  Float.ofBits (UInt64.ofNat ((if negative then signBit else 0) + magnitude))

/-- The lower bits of infinity, the first ones past the finite values. -/
def infinity : Nat := 2047 * leadingBit

/-- The lower 63 bits of the value nearest to `num / den`, unless they would be those of infinity or
more. -/
def nearestMagnitude (num den : Nat) : Nat :=
  let binade := (num * one / den).log2 - 52
  binade * leadingBit + roundDiv (num * one) (den <<< binade)

/-- The finite value nearest to `num / den` with the given sign, unless that is out of range. -/
def nearest? (negative : Bool) (num den : Nat) : Option Float :=
  let magnitude := nearestMagnitude num den
  if magnitude < infinity then some (ofMagnitude negative magnitude) else none

end Reckoner.Binary64
