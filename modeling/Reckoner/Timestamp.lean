import Reckoner.Decimal.Digits

/-! # Timestamps

A moment in Coordinated Universal Time, and its text in the form of RFC 3339: date and time of day
of the proleptic Gregorian calendar, and as many groups of three decimals of a second as are
needed. -/

namespace Reckoner

/-- Seconds since the start of 1970, and nanoseconds past them. A leap second is the second before
it with a billion nanoseconds or more. -/
structure Timestamp where
  seconds : Int
  nanos : Nat
  deriving DecidableEq, Repr

/-- A day of the Gregorian calendar. -/
structure Date where
  year : Int
  month : Nat
  day : Nat
  deriving DecidableEq, Repr

/-- The date so many days after the first of January 1970.

Years are counted from March, so that the leap day ends a year: `yearOfEra` and `dayOfYear` divide
an era of 400 years, and month `m` of such a year starts at day `(153 * m + 2) / 5`. -/
def Date.ofEpochDay (days : Int) : Date :=
  let shifted := days + 719468
  let era := shifted / 146097
  let dayOfEra := (shifted % 146097).toNat
  let yearOfEra := (dayOfEra - dayOfEra / 1460 + dayOfEra / 36524 - dayOfEra / 146096) / 365
  let dayOfYear := dayOfEra - (365 * yearOfEra + yearOfEra / 4 - yearOfEra / 100)
  let m := (5 * dayOfYear + 2) / 153
  let month := if m < 10 then m + 3 else m - 9
  ⟨yearOfEra + era * 400 + (if month ≤ 2 then 1 else 0), month, dayOfYear - (153 * m + 2) / 5 + 1⟩

/-- A year with four digits at least, with a sign outside the years 0 to 9999. -/
def yearText (year : Int) : List Char :=
  if year < 0 then '-' :: Decimal.padded 4 year.natAbs
  else if 9999 < year then '+' :: Decimal.padded 4 year.natAbs
  else Decimal.padded 4 year.natAbs

/-- Decimals of a second, in the fewest groups of three that are exact. -/
def decimalsText (nanos : Nat) : List Char :=
  if nanos = 0 then []
  else if nanos % 1000000 = 0 then '.' :: Decimal.padded 3 (nanos / 1000000)
  else if nanos % 1000 = 0 then '.' :: Decimal.padded 6 (nanos / 1000)
  else '.' :: Decimal.padded 9 nanos

/-- The moment in the form of RFC 3339. -/
def Timestamp.text (t : Timestamp) : List Char :=
  let date := Date.ofEpochDay (t.seconds / 86400)
  let second := (t.seconds % 86400).toNat
  let leap := if 1000000000 ≤ t.nanos then 1 else 0
  yearText date.year ++ '-' :: Decimal.padded 2 date.month ++ '-' :: Decimal.padded 2 date.day ++
    'T' :: Decimal.padded 2 (second / 3600) ++ ':' :: Decimal.padded 2 (second / 60 % 60) ++
    ':' :: Decimal.padded 2 (second % 60 + leap) ++ decimalsText (t.nanos % 1000000000) ++ ['Z']

end Reckoner
