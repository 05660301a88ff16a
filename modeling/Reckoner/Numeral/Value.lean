import Reckoner.Binary64
import Reckoner.Decimal.Digits
import Reckoner.Numeral.Basic

/-! # The value of a numeral

A numeral stands for the binary64 value nearest to the fraction it denotes, and for none where that
is out of range. -/

namespace Reckoner.Numeral

/-- The digits of a numeral without its point, as a number. -/
def numerator (n : Numeral) : Nat := Decimal.ofDigits (n.whole ++ n.fraction)

/-- The power of ten that the point divides by. -/
def denominator (n : Numeral) : Nat := Decimal.scale n.fraction.length

/-- The finite value of a numeral, if it is in range. -/
def value? (n : Numeral) : Option Float :=
  Binary64.nearest? n.negative n.numerator n.denominator

end Reckoner.Numeral
