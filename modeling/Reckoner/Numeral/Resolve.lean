import Reckoner.Numeral.Convention
import Reckoner.Numeral.Evident
import Reckoner.Text.Blank

/-! # From tokens to numerals

`resolve` reads a token in the convention if it is written in it. Any other token is read by what
its marks tell or, where no decimal mark is in use, as a whole number with all marks taken out. -/

namespace Reckoner.Numeral

/-- Whether `c` is a mark without meaning where no decimal mark is in use. -/
def isGrouping (c : Separators) (ch : Char) : Bool := isPointOrComma ch || c.thousand.isMark ch

theorem not_isGrouping_of_isDigit (c : Separators) {ch : Char} (h : ch.isDigit) :
    isGrouping c ch = false := by
  rw [isGrouping, not_isPointOrComma_of_isDigit h, Bool.false_or,
    c.thousand.isMark_eq_false_of_isDigit h]

theorem not_isGrouping_minus (c : Separators) : isGrouping c '-' = false := by
  rw [isGrouping, c.thousand.isMark_minus]
  rfl

/-- Reads a text as a whole number, whatever marks it carries. -/
def ofDigits? (c : Separators) (s : List Char) : Option Numeral :=
  let (negative, digits) := takeSign (s.filter (!isGrouping c ·))
  make? negative digits []

/-- The number that a token stands for under a convention, if it can be read as one. -/
def resolve (c : Separators) (token : List Char) : Option Numeral :=
  let s := Text.trim token
  match ofConvention? c s with
  | some n => some n
  | none => if c.decimal = .disabled then ofDigits? c s else ofMarks? c s

end Reckoner.Numeral
