import Reckoner.Proofs.Binary64.Nearest
import Reckoner.Proofs.Decimal.Digits
import Reckoner.Proofs.Display.Layout
import Reckoner.Proofs.Reading

/-! # Numerals that are shown digit by digit

A numeral is *canonical* if none of its digits says nothing and it has no more of them than are
shown of a value: fifteen, and ten of them behind the point. Its value is off by less than half of
the last place that is shown, and the whole part of the value is the whole part of the numeral. So
rounding to that place gives back the digits of the numeral.

* `units_div_one`, `roundDiv_units`: the whole part of the value, and its digits as a whole number.
* `digits_of_canonical`: a canonical numeral has a value, and its digits are shown of it. -/

namespace Reckoner

open Reckoner.Numeral

/-- A numeral without zeros in vain and without a minus in vain, of at most as many digits as are
shown. -/
structure Numeral.Canonical (n : Numeral) : Prop where
  leading : n.whole.head? = some '0' → n.whole = ['0']
  trailing : n.fraction.getLast? ≠ some '0'
  length_whole : n.whole.length ≤ 15
  length_fraction : n.fraction.length ≤ min 10 (15 - n.whole.length)
  nonzero : n.negative → ¬(n.whole = ['0'] ∧ n.fraction = [])

namespace Numeral

theorem numerator_eq (n : Numeral) :
    n.numerator = Decimal.ofDigits n.whole * n.denominator + Decimal.ofDigits n.fraction :=
  Decimal.ofDigits_append n.whole n.fraction

theorem denominator_pos (n : Numeral) : 0 < n.denominator := Decimal.scale_pos _

theorem ofDigits_fraction_lt (n : Numeral) : Decimal.ofDigits n.fraction < n.denominator :=
  Decimal.ofDigits_lt n.fraction_digits

theorem exists_value?_of_lt {n : Numeral} (h : n.numerator < 2 ^ 53 * n.denominator) :
    ∃ x, n.value? = some x := by
  refine Option.isSome_iff_exists.mp (Option.isSome_iff_ne_none.mpr fun hnone => ?_)
  have hover := (value?_eq_none_iff n).mp hnone
  have hmax : 2 ^ 53 ≤ 2 ^ 1024 - 2 ^ 970 := by decide +kernel
  have := Nat.mul_le_mul_right n.denominator hmax
  omega

theorem normal_of_length_fraction {n : Numeral} (h : n.fraction.length ≤ 10) :
    n.numerator = 0 ∨ 2 ^ 52 * n.denominator ≤ n.numerator * Binary64.one := by
  rcases Nat.eq_zero_or_pos n.numerator with h0 | hpos
  · exact .inl h0
  · right
    calc 2 ^ 52 * n.denominator ≤ 2 ^ 52 * Decimal.scale 10 :=
          Nat.mul_le_mul_left _ (Nat.pow_le_pow_right (by decide) h)
      _ ≤ Binary64.one := by decide
      _ ≤ n.numerator * Binary64.one := Nat.le_mul_of_pos_left _ hpos

/-- How many places are shown behind the point of a numeral of this length. -/
def places (n : Numeral) : Nat := min 10 (15 - n.whole.length)

/-- What the numerator is multiplied by when the fraction is filled up to the places that are
shown. -/
def filling (n : Numeral) : Nat := Decimal.scale (n.places - n.fraction.length)

section Canonical

variable {n : Numeral} (h : n.Canonical)
include h

theorem length_fraction_le_places : n.fraction.length ≤ n.places := h.length_fraction

theorem denominator_mul_filling : n.denominator * n.filling = Decimal.scale n.places := by
  rw [denominator, filling, ← Decimal.scale_add,
    Nat.add_sub_cancel' (length_fraction_le_places h)]

theorem numerator_mul_filling_lt : n.numerator * n.filling < 2 ^ 52 := by
  have hdigits : n.numerator < Decimal.scale (n.whole.length + n.fraction.length) := by
    have := Decimal.ofDigits_lt (isDigits_append.mpr ⟨n.whole_digits, n.fraction_digits⟩)
    rwa [List.length_append] at this
  have hplaces : n.whole.length + n.places ≤ 15 := by
    have := h.length_whole
    rw [places]
    omega
  calc n.numerator * n.filling
      < Decimal.scale (n.whole.length + n.fraction.length) * n.filling :=
        Nat.mul_lt_mul_of_pos_right hdigits (Decimal.scale_pos _)
    _ = Decimal.scale (n.whole.length + n.places) := by
        rw [filling, ← Decimal.scale_add, Nat.add_assoc,
          Nat.add_sub_cancel' (length_fraction_le_places h)]
    _ ≤ Decimal.scale 15 := Nat.pow_le_pow_right (by decide) hplaces
    _ ≤ 2 ^ 52 := by decide

theorem numerator_lt : n.numerator < 2 ^ 53 * n.denominator := by
  have h1 := numerator_mul_filling_lt h
  have h2 := Nat.le_mul_of_pos_right n.numerator (Decimal.scale_pos (n.places - n.fraction.length))
  have h3 := Nat.le_mul_of_pos_right (2 ^ 53) n.denominator_pos
  rw [← filling] at h2
  omega

/-- **A canonical numeral is in range.** -/
theorem exists_value? : ∃ x, n.value? = some x := exists_value?_of_lt (numerator_lt h)

section Value

variable {x : Float} (hx : n.value? = some x)
include hx

/-- **The value is off by less than half of the last place that is shown.** -/
theorem near_of_value? :
    2 * (n.numerator * n.filling * Binary64.one) <
        2 * (Binary64.units x * Decimal.scale n.places) + Binary64.one ∧
      2 * (Binary64.units x * Decimal.scale n.places) <
        2 * (n.numerator * n.filling * Binary64.one) + Binary64.one := by
  have hnormal := normal_of_length_fraction (h.length_fraction.trans (Nat.min_le_left _ _))
  obtain ⟨hup, hdown⟩ := Binary64.error_of_nearest? n.denominator_pos hx hnormal
  have hsize := Nat.mul_lt_mul_of_pos_right (numerator_mul_filling_lt h) Binary64.one_pos
  have hunits : Binary64.units x * n.denominator * n.filling =
      Binary64.units x * Decimal.scale n.places := by
    rw [mul_assoc, denominator_mul_filling h]
  -- both sides of the error are brought to the last place
  have hup' := Nat.mul_le_mul_right n.filling hup
  have hdown' := Nat.mul_le_mul_right n.filling hdown
  rw [mul_assoc, hunits, mul_assoc, mul_right_comm n.numerator] at hup'
  rw [mul_assoc, mul_right_comm n.numerator, mul_assoc (2 ^ 53), hunits] at hdown'
  generalize Binary64.units x * Decimal.scale n.places = u at *
  generalize n.numerator * n.filling * Binary64.one = v at *
  omega

/-- **The whole part of the value is the whole part of the numeral.** -/
theorem units_div_one : Binary64.units x / Binary64.one = Decimal.ofDigits n.whole := by
  have hwhole : Decimal.ofDigits n.whole * n.denominator ≤ n.numerator := by
    rw [numerator_eq]
    exact Nat.le_add_right _ _
  have hlow := Binary64.mul_one_le_units n.denominator_pos hx hwhole (numerator_lt h)
  refine Nat.div_eq_of_lt_le hlow (Nat.lt_of_not_le fun hge => ?_)
  -- the next whole number is at least a last place away
  have hnext : n.numerator + 1 ≤ (Decimal.ofDigits n.whole + 1) * n.denominator := by
    have := n.ofDigits_fraction_lt
    rw [numerator_eq, Nat.add_mul, Nat.one_mul]
    omega
  have hfilled := Nat.mul_le_mul_right n.filling hnext
  rw [mul_assoc, denominator_mul_filling h, Nat.add_mul, Nat.one_mul] at hfilled
  have hpos : 0 < n.filling := Decimal.scale_pos _
  have hplace : n.numerator * n.filling + 1 ≤
      (Decimal.ofDigits n.whole + 1) * Decimal.scale n.places := by omega
  have hgap := Nat.mul_le_mul_right Binary64.one hplace
  have hreach := Nat.mul_le_mul_right (Decimal.scale n.places) hge
  rw [mul_right_comm] at hreach
  rw [Nat.add_mul, Nat.one_mul] at hgap
  have := (near_of_value? h hx).2
  have := Binary64.one_pos
  omega

/-- **Rounding to the last place gives back the digits.** -/
theorem roundDiv_units :
    roundDiv (Binary64.units x * Decimal.scale n.places) Binary64.one = n.numerator * n.filling :=
  roundDiv_eq_of_near Binary64.one_pos (near_of_value? h hx).1 (near_of_value? h hx).2

theorem ofFinite_of_canonical : Digits.ofFinite x = ⟨n.whole, n.fraction⟩ := by
  have hdigits := Decimal.digits_ofDigits n.whole_digits n.whole_ne_nil h.leading
  have hplaces : Digits.places x = n.places := by
    rw [Digits.places, units_div_one h hx, hdigits, places]
  have hscale := denominator_mul_filling h
  have hrest : Decimal.ofDigits n.fraction * n.filling < Decimal.scale n.places := by
    rw [← hscale]
    exact Nat.mul_lt_mul_of_pos_right n.ofDigits_fraction_lt (Decimal.scale_pos _)
  have hsplit : n.numerator * n.filling =
      Decimal.scale n.places * Decimal.ofDigits n.whole +
        Decimal.ofDigits n.fraction * n.filling := by
    rw [numerator_eq, ← hscale]
    ring
  have hfraction :=
    Decimal.trimZeros_padded n.fraction_digits h.trailing (length_fraction_le_places h)
  rw [Digits.ofFinite, hplaces, roundDiv_units h hx, hsplit, Nat.mul_add_div (Decimal.scale_pos _),
    Nat.div_eq_of_lt hrest, Nat.mul_add_mod, Nat.mod_eq_of_lt hrest, Nat.add_zero, hdigits, filling,
    hfraction]

end Value

end Canonical

end Numeral

/-- **The digits of a canonical numeral are shown of its value**, which is finite and has its
sign. -/
theorem digits_of_canonical {n : Numeral} (h : n.Canonical) :
    ∃ x, n.value? = some x ∧ x.isFinite ∧ Binary64.isNegative x = n.negative ∧
      Digits.ofFloat x = ⟨n.whole, n.fraction⟩ := by
  obtain ⟨x, hx⟩ := exists_value? h
  obtain ⟨hfinite, hsign, -⟩ := Binary64.nearest?_eq_some n.denominator_pos hx rfl
  exact ⟨x, hx, hfinite, hsign, by
    rw [Digits.ofFloat_of_isFinite hfinite, ofFinite_of_canonical h hx]⟩

end Reckoner
