import Reckoner.Numeral.Scientific
import Reckoner.Toml.Quoted

/-! # Scalars without quotes

Whole numbers in four bases, floating-point numbers, booleans, dates and times are written in the
same few characters. A run of those characters is taken as a whole and must be one of these
forms. -/

namespace Reckoner.Toml

/-- A value without parts. -/
inductive Scalar where
  | string (s : List Char)
  | integer (n : Int)
  /-- A floating-point number in range. -/
  | float (text : List Char)
  | boolean (b : Bool)
  /-- A date, a time or both. -/
  | moment (text : List Char)
  deriving DecidableEq

/-! ### Numbers -/

/-- Digits that single underscores may join, without the underscores. -/
def joinedDigits? (isDigit : Char → Bool) (s : List Char) : Option (List Char) :=
  let pieces := s.splitOn '_'
  if pieces.all fun p => p ≠ [] && p.all isDigit then some pieces.flatten else none

/-- Digits of a decimal number, without a zero in front of others. -/
def decimalDigits? (s : List Char) : Option (List Char) := do
  let digits ← joinedDigits? Char.isDigit s
  if digits.head? = some '0' ∧ digits.length ≠ 1 then none else some digits

/-- The number that digits of a base denote. -/
def basedNumber? (base : Nat) (s : List Char) : Option Nat := do
  let digits ← joinedDigits? (fun c => (hexValue? c).any (· < base)) s
  digits.foldlM (fun n c => (hexValue? c).map (base * n + ·)) 0

/-- A whole number that fits into 64 bits, with a sign or without. -/
def integer? (s : List Char) : Option Scalar := do
  let n ← match s with
    | '0' :: 'x' :: digits => Int.ofNat <$> basedNumber? 16 digits
    | '0' :: 'o' :: digits => Int.ofNat <$> basedNumber? 8 digits
    | '0' :: 'b' :: digits => Int.ofNat <$> basedNumber? 2 digits
    | _ =>
      let (negative, body) := Scientific.takeSign s
      (decimalDigits? body).map fun digits =>
        if negative then -(Decimal.ofDigits digits : Int) else Decimal.ofDigits digits
  if Int64.minValue.toInt ≤ n ∧ n < UInt64.size then some (.integer n) else none

/-- A floating-point number in range: a whole part with a fraction, an exponent or both, or one of
the words for infinity and for no number. -/
def float? (s : List Char) : Option Scalar := do
  let (negative, body) := Scientific.takeSign s
  let sign := Numeral.sign negative
  if body = "inf".toList ∨ body = "nan".toList then return .float (sign ++ body)
  let isExponent (c : Char) : Bool := c == 'e' || c == 'E'
  let mantissa := body.takeWhile (!isExponent ·)
  let whole ← decimalDigits? (mantissa.takeWhile (· != '.'))
  let fraction ← match mantissa.dropWhile (· != '.') with
    | [] => some []
    | _ :: digits => (joinedDigits? Char.isDigit digits).map ('.' :: ·)
  let exponent ← match body.dropWhile (!isExponent ·) with
    | [] => some []
    | _ :: e =>
      let (negative, digits) := Scientific.takeSign e
      (joinedDigits? Char.isDigit digits).map fun digits => 'e' :: (Numeral.sign negative ++ digits)
  if fraction = [] ∧ exponent = [] then none
  let text := sign ++ whole ++ fraction ++ exponent
  let number ← Scientific.ofText? text
  if number.value?.isSome then some (.float text) else none

/-! ### Dates and times -/

/-- The number that exactly two digits denote, if it is at most `greatest`. -/
def twoDigits? (greatest : Nat) (a b : Char) : Option Nat :=
  let n := Decimal.ofDigits [a, b]
  if a.isDigit && b.isDigit && n ≤ greatest then some n else none

/-- The number of days of a month. -/
def daysOfMonth (year month : Nat) : Nat :=
  if month = 2 then
    if year % 4 = 0 ∧ (year % 100 ≠ 0 ∨ year % 400 = 0) then 29 else 28
  else if month = 4 ∨ month = 6 ∨ month = 9 ∨ month = 11 then 30
  else 31

/-- Whether the text is a date of the calendar. -/
def isDate : List Char → Bool
  | [y₁, y₂, y₃, y₄, '-', m₁, m₂, '-', d₁, d₂] =>
    let year := Decimal.ofDigits [y₁, y₂, y₃, y₄]
    [y₁, y₂, y₃, y₄].all Char.isDigit &&
      match twoDigits? 12 m₁ m₂, twoDigits? 31 d₁ d₂ with
      | some month, some day => 1 ≤ month && 1 ≤ day && day ≤ daysOfMonth year month
      | _, _ => false
  | _ => false

/-- What follows the seconds and their decimals, which may be left out. -/
def skipSeconds? : List Char → Option (List Char)
  | ':' :: a :: b :: s => do
    let _ ← twoDigits? 60 a b
    match s with
    | '.' :: s => if s.head?.any Char.isDigit then some (s.dropWhile Char.isDigit) else none
    | s => some s
  | ':' :: _ => none
  | s => some s

/-- What follows a time of day. -/
def skipTime? : List Char → Option (List Char)
  | h₁ :: h₂ :: ':' :: m₁ :: m₂ :: s => do
    let _ ← twoDigits? 23 h₁ h₂
    let _ ← twoDigits? 59 m₁ m₂
    skipSeconds? s
  | _ => none

/-- Whether the text is a distance from Coordinated Universal Time, or nothing. -/
def isOffset : List Char → Bool
  | [] => true
  | ['Z'] => true
  | ['z'] => true
  | [sign, h₁, h₂, ':', m₁, m₂] =>
    (sign == '+' || sign == '-') && (twoDigits? 23 h₁ h₂).isSome && (twoDigits? 59 m₁ m₂).isSome
  | _ => false

/-- A date, a time, or a date and a time with a distance. -/
def moment? (s : List Char) : Option Scalar :=
  let date := s.take 10
  let valid :=
    if isDate date then
      match s.drop 10 with
      | [] => true
      | sep :: time =>
        (sep == 'T' || sep == 't' || sep == ' ') && (skipTime? time).any isOffset
    else (skipTime? s).any (· = [])
  if valid then some (.moment s) else none

/-! ### Any scalar -/

/-- Whether a character may belong to a scalar without quotes. -/
def isScalarChar (c : Char) : Bool :=
  c.isAlphanum || c == '+' || c == '-' || c == '_' || c == '.' || c == ':'

/-- The run of characters of a scalar without quotes. A blank may stand between a date and a
time. -/
def takeRun (s : List Char) : List Char × List Char :=
  let run := s.takeWhile isScalarChar
  let rest := s.dropWhile isScalarChar
  match rest with
  | ' ' :: d :: after =>
    if isDate run && d.isDigit then
      (run ++ ' ' :: (d :: after).takeWhile isScalarChar, (d :: after).dropWhile isScalarChar)
    else (run, rest)
  | _ => (run, rest)

/-- The scalar that a run of characters is. -/
def ofRun? (run : List Char) : Option Scalar :=
  if run = "true".toList then some (.boolean true)
  else if run = "false".toList then some (.boolean false)
  else
    match integer? run with
    | some v => some v
    | none =>
      match float? run with
      | some v => some v
      | none => moment? run

/-- A scalar, with quotes or without. -/
def takeScalar : Reader Scalar := fun s =>
  if s.head? = some '"' ∨ s.head? = some '\x27' then
    (takeString s).map fun (text, rest) => (.string text, rest)
  else
    let (run, rest) := takeRun s
    (ofRun? run).map (·, rest)

end Reckoner.Toml
