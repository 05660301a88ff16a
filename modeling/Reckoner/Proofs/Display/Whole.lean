import Reckoner.Proofs.Display.Copied

/-! # Whole numbers are shown exactly

A whole number needs no rounding at whatever place it is rounded to: what is left behind the point
is zero and comes off, and zeros in front of the point stay, so the digits are those of the number,
up to 309 of them. The value is a quotient with denominator one then, and reading its digits gives
the value back, but for the sign of a zero.

* `Denotes`: the integer that a value denotes.
* `ofFinite_of_units`: the digits of a whole number of ones.
* `plain_of_denotes`: an integer is shown as it is written, and read back. -/

namespace Reckoner

open Reckoner.Numeral

namespace Binary64

/-- The value is the integer `z`, its sign bit being the sign of its units. -/
def Denotes (x : Float) (z : ℤ) : Prop :=
  (if isNegative x then -(units x : ℤ) else units x) = z * one

instance (x : Float) (z : ℤ) : Decidable (Denotes x z) :=
  inferInstanceAs (Decidable ((if isNegative x then -(units x : ℤ) else units x) = z * one))

section Denotes

variable {x : Float} {z : ℤ} (h : Denotes x z)
include h

theorem units_of_denotes : units x = z.natAbs * one := by
  have habs := congrArg Int.natAbs h
  rw [Int.natAbs_mul, Int.natAbs_natCast] at habs
  rw [← habs]
  split_ifs with hsign
  · rw [Int.natAbs_neg, Int.natAbs_natCast]
  · rw [Int.natAbs_natCast]

theorem isNegative_of_denotes (hz : z ≠ 0) : isNegative x = decide (z < 0) := by
  have hone : (0 : ℤ) < one := Int.natCast_pos.mpr one_pos
  have hunits : (0 : ℤ) ≤ units x := Int.natCast_nonneg _
  rw [Denotes] at h
  cases hsign : isNegative x with
  | false =>
    rw [hsign, if_neg (by decide)] at h
    have hnonneg : 0 ≤ z := nonneg_of_mul_nonneg_left (h ▸ hunits) hone
    exact (decide_eq_false (not_lt.mpr hnonneg)).symm
  | true =>
    rw [hsign, if_pos rfl] at h
    have hnonpos : z ≤ 0 := by
      by_contra hpos
      have := mul_pos (not_le.mp hpos) hone
      omega
    exact (decide_eq_true (lt_of_le_of_ne hnonpos hz)).symm

end Denotes

end Binary64

/-- **The digits of a whole number of ones** are its decimal digits, without a fraction. -/
theorem Digits.ofFinite_of_units {x : Float} {m : ℕ} (h : Binary64.units x = m * Binary64.one) :
    Digits.ofFinite x = ⟨Decimal.digits m, []⟩ := by
  have hrounded : rounded x = m * Decimal.scale (places x) := by
    rw [rounded, h, mul_right_comm, roundDiv_mul_right _ Binary64.one_pos]
  have hwhole := whole_ofFinite x
  have hfraction := fraction_ofFinite x
  rw [hrounded, Nat.mul_div_cancel _ (Decimal.scale_pos _)] at hwhole
  rw [hrounded, Nat.mul_mod_left, Decimal.trimZeros_padded_zero] at hfraction
  rw [← hwhole, ← hfraction]

theorem Binary64.length_digits_le {x : Float} (hx : x.isFinite) {m : ℕ}
    (h : Binary64.units x = m * Binary64.one) : (Decimal.digits m).length ≤ 309 := by
  have hrange : 2 ^ 1024 - 2 ^ 971 < Decimal.scale 309 := by decide +kernel
  have hunits := Binary64.units_le hx
  rw [h] at hunits
  exact Decimal.length_digits_le (by decide)
    ((Nat.le_of_mul_le_mul_right hunits Binary64.one_pos).trans_lt hrange)

/-- The plain numeral of an integer. -/
def Numeral.ofInt (z : ℤ) : Numeral where
  negative := z < 0
  whole := Decimal.digits z.natAbs
  fraction := []
  whole_ne_nil := Nat.toDigits_ne_nil
  whole_digits := Decimal.isDigits_digits _
  fraction_digits := isDigits_nil

theorem Numeral.text_ofInt (z : ℤ) :
    (ofInt z).text = (if z < 0 then ['-'] else []) ++ Decimal.digits z.natAbs := by
  have hsign : sign (decide (z < 0)) = if z < 0 then ['-'] else [] := by simp [sign]
  rw [← hsign]
  exact List.append_nil _

section Integer

variable {x : Float} (hx : x.isFinite) {z : ℤ} (h : Binary64.Denotes x z)
include hx h

/-- **An integer is shown as it is written.** A zero has no minus, whatever its sign bit. -/
theorem plain_eq_text_ofInt : plain x = (ofInt z).text := by
  have hdigits := Digits.ofFinite_of_units (Binary64.units_of_denotes h)
  have hsign : (Binary64.isNegative x && !Digits.isZero ⟨Decimal.digits z.natAbs, []⟩) =
      decide (z < 0) := by
    by_cases hz : z = 0
    · rw [hz]
      exact Bool.and_false _
    · have hshown : Digits.isZero ⟨Decimal.digits z.natAbs, []⟩ = false := by
        simp [Digits.isZero, Decimal.digits_eq_zero_iff, hz]
      rw [hshown, Binary64.isNegative_of_denotes h hz]
      exact Bool.and_true _
  rw [plain, Digits.ofFloat_of_isFinite hx, hdigits, Digits.sign, hsign]
  rfl

/-- **An integer that is written is read back**, and a zero as the positive one. -/
theorem value?_ofInt : (ofInt z).value? = some (if z = 0 then 0 else x) := by
  have hvalue : (ofInt z).value? = Binary64.nearest? (decide (z < 0)) z.natAbs 1 := by
    rw [value?, numerator, denominator, ofInt, List.append_nil, Decimal.ofDigits_digits]
    rfl
  rw [hvalue]
  split_ifs with hz
  · rw [hz]
    decide
  · rw [← Binary64.isNegative_of_denotes h hz]
    refine Binary64.nearest?_of_units hx Nat.one_pos ?_
    rw [Binary64.units_of_denotes h, mul_one]

end Integer

/-- **Whole numbers are shown exactly, at any size.** A finite value that is an integer is copied as
the digits of that integer, with a minus if it is negative and without a point, and what is copied
has the value itself, but for the sign of a zero. -/
theorem plain_of_denotes {x : Float} (hx : x.isFinite) {z : ℤ} (h : Binary64.Denotes x z) :
    plain x = (if z < 0 then ['-'] else []) ++ Decimal.digits z.natAbs ∧ '.' ∉ plain x ∧
      (Decimal.digits z.natAbs).length ≤ 309 ∧
      ∃ n : Numeral, n.text = plain x ∧ n.value? = some (if z = 0 then 0 else x) := by
  have hplain := plain_eq_text_ofInt hx h
  have htext := hplain.trans (text_ofInt z)
  refine ⟨htext, ?_, Binary64.length_digits_le hx (Binary64.units_of_denotes h),
    ofInt z, hplain.symm, value?_ofInt hx h⟩
  rw [htext]
  intro hpoint
  rcases List.mem_append.mp hpoint with hpoint | hpoint
  · split_ifs at hpoint <;> simp at hpoint
  · exact absurd (isDigits_iff.mp (Decimal.isDigits_digits _) _ hpoint) (by decide)

example : plain (-1e22) = "-10000000000000000000000".toList := by decide +kernel

/-- An integer of more digits than are kept of a fraction, with zeros at its end. -/
theorem plain_of_tenSextillion :
    ((-1e22 : Float).isFinite ∧ Binary64.Denotes (-1e22) (-10 ^ 22)) ∧
      plain (-1e22) = (if (-10 ^ 22 : ℤ) < 0 then ['-'] else []) ++
          Decimal.digits (-10 ^ 22 : ℤ).natAbs ∧
        '.' ∉ plain (-1e22) ∧ (Decimal.digits (-10 ^ 22 : ℤ).natAbs).length ≤ 309 ∧
        ∃ n : Numeral, n.text = plain (-1e22) ∧
          n.value? = some (if (-10 ^ 22 : ℤ) = 0 then 0 else -1e22) := by
  have hfinite : (-1e22 : Float).isFinite := by decide
  have hdenotes : Binary64.Denotes (-1e22) (-10 ^ 22) := by decide +kernel
  exact ⟨⟨hfinite, hdenotes⟩, plain_of_denotes hfinite hdenotes⟩

end Reckoner
