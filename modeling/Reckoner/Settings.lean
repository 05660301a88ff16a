import Reckoner.Separator

/-! # Settings

What a session starts from: the number convention, whether every line of a text is one number, and
whether new numbers are added to the expression or replace it. -/

namespace Reckoner

/-- The settings of a session. -/
structure Settings where
  separators : Separators := {}
  /-- Every line of recognised text is exactly one number. -/
  rowMode : Bool := false
  /-- New numbers are added to the expression. -/
  combineMode : Bool := false
  deriving DecidableEq

end Reckoner
