/-! # Faults

What can go wrong in a calculation. A fault leaves the calculation as it was; `message` is the text
that is shown for it. -/

namespace Reckoner

/-- Why an operation was refused. -/
inductive Fault where
  /-- Recognised text held no number. -/
  | noNumbers
  /-- The operand at this position, counted from zero, is a zero divisor. -/
  | divisionByZero (position : Nat)
  /-- A step of the evaluation gave an infinity or no number. -/
  | notFinite
  /-- Typed text is no number. -/
  | notANumber (input : List Char)
  /-- There is no place with this index among so many. -/
  | outOfRange (index length : Nat)
  deriving DecidableEq, Repr

/-- The text shown for a fault. -/
def Fault.message : Fault → String
  | noNumbers => "No numbers found in the recognized text"
  | divisionByZero position => "Cannot divide by zero (number " ++ toString position ++ ")"
  | notFinite => "Result is not a finite number"
  | notANumber input => "'" ++ String.ofList input ++ "' is not a valid number"
  | outOfRange index length =>
    "Index " ++ toString index ++ " is out of range (length " ++ toString length ++ ")"

end Reckoner
