/-! # Decimal digits

`digits` writes a natural number in decimal, `ofDigits` reads one, and `padded` writes one with a
fixed number of digits at least. `scale` is the power of ten that moves the point. -/

namespace Reckoner.Decimal

/-- The decimal digits of a number, `0` for zero. -/
def digits (n : Nat) : List Char := Nat.toDigits 10 n

/-- The number that decimal digits denote. -/
def ofDigits (s : List Char) : Nat := Nat.ofDigitChars 10 s 0

/-- What a number is multiplied by when its point moves by this many places. -/
def scale (places : Nat) : Nat := Nat.pow 10 places

/-- The digits of a number, filled up with zeros at the front to at least `width` of them. -/
def padded (width n : Nat) : List Char := (digits n).leftpad width '0'

/-- The digits without the zeros at their end. -/
def trimZeros (s : List Char) : List Char := (s.reverse.dropWhile (· == '0')).reverse

theorem isDigit_of_mem_digits {n : Nat} {c : Char} (h : c ∈ digits n) : c.isDigit :=
  Nat.isDigit_of_mem_toDigits (by decide) (by decide) h

theorem ofDigits_digits (n : Nat) : ofDigits (digits n) = n := by
  simp [ofDigits, digits]

@[simp] theorem scale_zero : scale 0 = 1 := rfl

theorem scale_succ (places : Nat) : scale (places + 1) = scale places * 10 := rfl

theorem scale_pos (places : Nat) : 0 < scale places := Nat.pow_pos (by decide)

end Reckoner.Decimal
