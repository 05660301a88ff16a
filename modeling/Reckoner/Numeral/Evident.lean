import Reckoner.Numeral.Basic
import Reckoner.Separator

/-! # Numbers whose marks tell their role

Recognition keeps the count of digits around a mark better than the mark itself. So in a text of
digits, periods and commas the marks and the digits after the last of them decide whether that last
mark is the decimal point (`opensFraction`); all other marks group. The convention breaks the tie of
a single mark with three digits after it. -/

namespace Reckoner.Numeral

/-- Whether the last of the marks opens the fraction, with `trailing` digits after it.

A single mark does in front of one or two digits, and in front of three if it is the decimal mark.
Of several marks the last one does if it occurs once and the other symbol more often, or, where both
symbols occur equally often, in front of at most three digits. -/
def opensFraction (c : Separators) (marks : List Char) (trailing : Nat) : Bool :=
  match marks.getLast? with
  | none => false
  | some last =>
    0 < trailing &&
      if marks.length = 1 then trailing ≤ 2 || (trailing = 3 && c.decimal.isMark last)
      else if marks.count ',' = marks.count '.' then trailing ≤ 3
      else marks.count last = 1

/-- The digits, or a zero where there are none. -/
def orZero (digits : List Char) : List Char := if digits = [] then ['0'] else digits

/-- The digits that end a text. -/
def trailingDigits (s : List Char) : List Char := (s.reverse.takeWhile Char.isDigit).reverse

/-- The text without the digits that end it. -/
def beforeTrailing (s : List Char) : List Char := (s.reverse.dropWhile Char.isDigit).reverse

theorem beforeTrailing_append_trailingDigits (s : List Char) :
    beforeTrailing s ++ trailingDigits s = s := by
  rw [beforeTrailing, trailingDigits, ← List.reverse_append, List.takeWhile_append_dropWhile,
    List.reverse_reverse]

theorem orZero_ne_nil (digits : List Char) : orZero digits ≠ [] := by
  unfold orZero
  split
  · simp
  · assumption

theorem isDigits_orZero {digits : List Char} (h : isDigits digits) : isDigits (orZero digits) := by
  unfold orZero
  split
  · rfl
  · exact h

theorem isDigits_trailingDigits (s : List Char) : isDigits (trailingDigits s) := by
  rw [isDigits, trailingDigits, List.all_reverse]
  exact List.all_takeWhile

/-- Reads a text of digits, periods and commas by what its marks tell. -/
def ofMarks? (c : Separators) (s : List Char) : Option Numeral :=
  let (negative, body) := takeSign s
  if body.all fun ch => ch.isDigit || isPointOrComma ch then
    if opensFraction c (body.filter isPointOrComma) (trailingDigits body).length then
      make? negative (orZero ((beforeTrailing body).filter Char.isDigit)) (trailingDigits body)
    else make? negative (body.filter Char.isDigit) []
  else none

end Reckoner.Numeral
