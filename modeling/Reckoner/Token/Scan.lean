import Reckoner.Text.Lines
import Reckoner.Token.Clean

/-! # Tokens of a text

A token is a piece of a line that looks like a number. Line by line, `ofText` either keeps what is
left of the whole line (one number a row) or scans the line, letters and currency signs taken out,
for runs of the shape

    sign  digits  (mark, three digits, no word character next)*  (mark, digits)

from left to right, each as long as it can be. A space may join groups where the convention says
so. -/

namespace Reckoner.Token

/-! ### One number at the front of a text -/

/-- What may stand between two groups: a period, a comma and, where `spaced`, a space. -/
def isJoint (spaced : Bool) (c : Char) : Bool := isPointOrComma c || (spaced && c == ' ')

/-- The joined groups of three digits at the front, and what follows them. -/
def takeGroups (spaced : Bool) : List Char → List Char × List Char
  | j :: d₁ :: d₂ :: d₃ :: rest =>
    if isJoint spaced j && [d₁, d₂, d₃].all Char.isDigit && !Text.startsWord rest then
      let (groups, after) := takeGroups spaced rest
      (j :: d₁ :: d₂ :: d₃ :: groups, after)
    else ([], j :: d₁ :: d₂ :: d₃ :: rest)
  | s => ([], s)

/-- A mark with digits after it at the front, and what follows them. -/
def takeFraction : List Char → List Char × List Char
  | m :: d :: rest =>
    if isPointOrComma m && d.isDigit then
      (m :: d :: rest.takeWhile Char.isDigit, rest.dropWhile Char.isDigit)
    else ([], m :: d :: rest)
  | s => ([], s)

/-- The number whose digits start the text, and what follows it. -/
def takeUnsigned (spaced : Bool) (s : List Char) : List Char × List Char :=
  let (groups, afterGroups) := takeGroups spaced (s.dropWhile Char.isDigit)
  let (fraction, after) := takeFraction afterGroups
  (s.takeWhile Char.isDigit ++ groups ++ fraction, after)

theorem takeGroups_append (spaced : Bool) (s : List Char) :
    (takeGroups spaced s).1 ++ (takeGroups spaced s).2 = s := by
  fun_induction takeGroups spaced s <;> simp_all

theorem takeFraction_append (s : List Char) : (takeFraction s).1 ++ (takeFraction s).2 = s := by
  fun_cases takeFraction s <;> simp_all [List.takeWhile_append_dropWhile]

/-- Nothing is lost: the number and what follows it are the text. -/
theorem takeUnsigned_append (spaced : Bool) (s : List Char) :
    (takeUnsigned spaced s).1 ++ (takeUnsigned spaced s).2 = s := by
  simp only [takeUnsigned, List.append_assoc, takeFraction_append, takeGroups_append,
    List.takeWhile_append_dropWhile]

theorem length_takeUnsigned_le (spaced : Bool) (s : List Char) :
    (takeUnsigned spaced s).2.length ≤ s.length := by
  have h := congrArg List.length (takeUnsigned_append spaced s)
  simp only [List.length_append] at h
  omega

/-- A number takes the first digit with it. -/
theorem length_takeUnsigned_lt (spaced : Bool) {d : Char} (hd : d.isDigit) (s : List Char) :
    (takeUnsigned spaced (d :: s)).2.length < (d :: s).length := by
  have h := congrArg List.length (takeUnsigned_append spaced (d :: s))
  have h1 : 0 < (takeUnsigned spaced (d :: s)).1.length := by simp [takeUnsigned, hd]
  simp only [List.length_append] at h
  omega

/-! ### All numbers of a line -/

/-- The numbers of a line, from left to right; a minus belongs to the digit right after it. -/
def scan (spaced : Bool) : List Char → List (List Char)
  | [] => []
  | c :: s =>
    if _hc : c.isDigit then
      (takeUnsigned spaced (c :: s)).1 :: scan spaced (takeUnsigned spaced (c :: s)).2
    else if c = '-' && (s.head?.any Char.isDigit) then
      ('-' :: (takeUnsigned spaced s).1) :: scan spaced (takeUnsigned spaced s).2
    else scan spaced s
  termination_by s => s.length
  decreasing_by
    · exact length_takeUnsigned_lt spaced _hc s
    · exact Nat.lt_succ_of_le (length_takeUnsigned_le spaced s)
    · exact Nat.lt_succ_self _

/-- The letters and currency signs that a scan looks past. -/
def isNoise (c : Char) : Bool := c.isAlpha || "$€£¥₹".toList.contains c

/-- What is kept of a line that is one number. -/
def isNumeric (c : Char) : Bool := c.isDigit || isPointOrComma c || c == '-'

/-! ### The tokens of a text -/

/-- The tokens of one line. -/
def ofLine (c : Separators) (rowMode : Bool) (line : List Char) : List (List Char) :=
  let candidates :=
    if rowMode then [line.filter isNumeric]
    else scan (c.thousand = .space) (line.filter (!isNoise ·))
  (candidates.map (clean c)).filter (!·.isEmpty)

/-- The tokens of a text, line by line. -/
def ofText (c : Separators) (rowMode : Bool) (text : List Char) : List (List Char) :=
  (Text.lines text).flatMap (ofLine c rowMode)

/-- A line end separates the tokens in front of it from the tokens behind it. -/
theorem ofText_append_cons (c : Separators) (rowMode : Bool) (s t : List Char) {e : Char}
    (h : Text.isLineEnd e) :
    ofText c rowMode (s ++ e :: t) = ofText c rowMode s ++ ofText c rowMode t := by
  rw [ofText, Text.lines_append_cons s t h, List.flatMap_append]
  rfl

end Reckoner.Token
