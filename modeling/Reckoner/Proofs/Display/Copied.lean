import Reckoner.Proofs.Display.Canonical
import Reckoner.Proofs.Numeral.Agreement

/-! # The numeral that is copied of a value

A finite value is rounded to a whole number of its last place, and the digits of that number are
those of the numeral that is copied, but for the zeros that come off the end of its fraction. So the
numeral is in range as the value is, and with a fraction it has fifteen digits at most and is not
zero.

* `rounded_le_scale`, `wholePlaces_add_places`: how many digits rounding gives.
* `numerator_mul_scale`: the digits of the numeral and the rounded value.
* `exists_value?_of_plain`: what is copied is in range.
* `numerator_le_of_fraction`, `numerator_pos_of_fraction`: the digits of a numeral with a
  fraction. -/

namespace Reckoner

open Reckoner.Numeral

/-- The whole number of last places that the absolute value of a finite value is rounded to. -/
def Digits.rounded (x : Float) : Nat :=
  roundDiv (Binary64.units x * Decimal.scale (Digits.places x)) Binary64.one

theorem Digits.whole_ofFinite (x : Float) : (Digits.ofFinite x).whole =
    Decimal.digits (Digits.rounded x / Decimal.scale (Digits.places x)) := rfl

theorem Digits.fraction_ofFinite (x : Float) : (Digits.ofFinite x).fraction =
    Decimal.trimZeros (Decimal.padded (Digits.places x)
      (Digits.rounded x % Decimal.scale (Digits.places x))) := rfl

theorem Digits.rounded_le {x : Float} (hx : x.isFinite) :
    Digits.rounded x ≤ (2 ^ 1024 - 2 ^ 971) * Decimal.scale (Digits.places x) := by
  refine roundDiv_le Binary64.one_pos ?_
  calc Binary64.units x * Decimal.scale (Digits.places x)
      ≤ (2 ^ 1024 - 2 ^ 971) * Binary64.one * Decimal.scale (Digits.places x) :=
        Nat.mul_le_mul_right _ (Binary64.units_le hx)
    _ = (2 ^ 1024 - 2 ^ 971) * Decimal.scale (Digits.places x) * Binary64.one :=
        mul_right_comm _ _ _

/-- How many digits the whole part has before it is rounded. -/
def Digits.wholePlaces (x : Float) : Nat :=
  (Decimal.digits (Binary64.units x / Binary64.one)).length

theorem Digits.rounded_le_scale (x : Float) :
    Digits.rounded x ≤ Decimal.scale (Digits.wholePlaces x + Digits.places x) := by
  have hwhole : Binary64.units x ≤ Decimal.scale (Digits.wholePlaces x) * Binary64.one := by
    have hlt := Decimal.lt_scale_length_digits (Binary64.units x / Binary64.one)
    rw [Nat.div_lt_iff_lt_mul Binary64.one_pos] at hlt
    exact hlt.le
  refine roundDiv_le Binary64.one_pos ?_
  calc Binary64.units x * Decimal.scale (Digits.places x)
      ≤ Decimal.scale (Digits.wholePlaces x) * Binary64.one * Decimal.scale (Digits.places x) :=
        Nat.mul_le_mul_right _ hwhole
    _ = Decimal.scale (Digits.wholePlaces x + Digits.places x) * Binary64.one := by
        rw [Decimal.scale_add]
        exact mul_right_comm _ _ _

theorem Digits.wholePlaces_add_places {x : Float} (hp : Digits.places x ≠ 0) :
    Digits.wholePlaces x + Digits.places x ≤ 15 := by
  have hplaces : Digits.places x = min 10 (15 - Digits.wholePlaces x) := rfl
  omega

theorem Digits.rounded_le_of_places {x : Float} (hp : Digits.places x ≠ 0) :
    Digits.rounded x ≤ Decimal.scale 15 :=
  (Digits.rounded_le_scale x).trans
    (Decimal.scale_le_scale (Digits.wholePlaces_add_places hp))

section Copied

variable {x : Float} (hx : x.isFinite) {n : Numeral} (h : n.text = plain x)
include hx h

theorem parts_of_plain :
    n.negative = (Binary64.isNegative x && !(Digits.ofFinite x).isZero) ∧
      n.whole = (Digits.ofFinite x).whole ∧ n.fraction = (Digits.ofFinite x).fraction := by
  obtain ⟨hne, hw, hf⟩ := digits_ofFloat hx
  rw [Digits.ofFloat_of_isFinite hx] at hne hw hf
  let k : Numeral := ⟨Binary64.isNegative x && !(Digits.ofFinite x).isZero, _, _, hne, hw, hf⟩
  have hk : n.text = k.text := by
    rw [h, plain, Digits.ofFloat_of_isFinite hx]
    rfl
  rw [text_inj.mp hk]
  exact ⟨rfl, rfl, rfl⟩

/-- **The digits of the numeral are those of the rounded value**, but for zeros at the end of the
fraction. -/
theorem numerator_mul_scale :
    n.fraction.length ≤ Digits.places x ∧
      n.numerator * Decimal.scale (Digits.places x - n.fraction.length) = Digits.rounded x := by
  obtain ⟨-, hwhole, hfraction⟩ := parts_of_plain hx h
  rw [Digits.whole_ofFinite] at hwhole
  rw [Digits.fraction_ofFinite] at hfraction
  generalize Digits.rounded x = m at *
  generalize Digits.places x = p at *
  rcases Nat.eq_zero_or_pos p with rfl | hp
  · rw [Decimal.scale_zero, Nat.mod_one] at hfraction
    rw [Decimal.scale_zero, Nat.div_one] at hwhole
    have hnil : n.fraction = [] := hfraction
    rw [numerator, hnil, hwhole, List.append_nil, Decimal.ofDigits_digits]
    exact ⟨Nat.zero_le _, Nat.mul_one m⟩
  · have hrest : m % Decimal.scale p < Decimal.scale p := Nat.mod_lt _ (Decimal.scale_pos p)
    obtain ⟨k, hk⟩ := Decimal.exists_eq_trimZeros_append (Decimal.padded p (m % Decimal.scale p))
    rw [← hfraction] at hk
    have hlength := congrArg List.length hk
    rw [Decimal.length_padded hp hrest, List.length_append, List.length_replicate] at hlength
    have hvalue := congrArg Decimal.ofDigits hk
    rw [Decimal.ofDigits_padded, Decimal.ofDigits_append, List.length_replicate,
      Decimal.ofDigits_replicate_zero, Nat.add_zero] at hvalue
    have hsub : p - n.fraction.length = k := by omega
    have hscale : Decimal.scale p = n.denominator * Decimal.scale k := by
      rw [hlength, Decimal.scale_add, denominator]
    refine ⟨by omega, ?_⟩
    calc n.numerator * Decimal.scale (p - n.fraction.length)
        = (Decimal.ofDigits n.whole * n.denominator + Decimal.ofDigits n.fraction) *
            Decimal.scale k := by rw [hsub, numerator_eq]
      _ = m / Decimal.scale p * Decimal.scale p + m % Decimal.scale p := by
          rw [hwhole, Decimal.ofDigits_digits, Nat.add_mul, ← hvalue, mul_assoc, ← hscale]
      _ = m := Nat.div_add_mod' m _

/-- **What is copied is in range.** -/
theorem exists_value?_of_plain : ∃ y, n.value? = some y := by
  refine Option.ne_none_iff_exists'.mp fun hnone => ?_
  obtain ⟨hlength, hrounded⟩ := numerator_mul_scale hx h
  have hover := Nat.mul_le_mul_right (Decimal.scale (Digits.places x - n.fraction.length))
    ((value?_eq_none_iff n).mp hnone)
  rw [hrounded, mul_assoc, denominator, ← Decimal.scale_add, Nat.add_sub_cancel' hlength] at hover
  have hrange : 2 ^ 1024 - 2 ^ 971 < 2 ^ 1024 - 2 ^ 970 := by decide +kernel
  have hle := Nat.le_of_mul_le_mul_right (hover.trans (Digits.rounded_le hx))
    (Decimal.scale_pos (Digits.places x))
  exact absurd hle (Nat.not_le.mpr hrange)

section Fraction

variable (hf : n.fraction ≠ [])
include hf

/-- **With a fraction there are fifteen digits at most.** -/
theorem numerator_le_of_fraction : n.numerator ≤ Decimal.scale 15 := by
  obtain ⟨hlength, hrounded⟩ := numerator_mul_scale hx h
  have hpos := List.length_pos_iff.mpr hf
  calc n.numerator ≤ n.numerator * Decimal.scale (Digits.places x - n.fraction.length) :=
        Nat.le_mul_of_pos_right _ (Decimal.scale_pos _)
    _ = Digits.rounded x := hrounded
    _ ≤ Decimal.scale 15 := Digits.rounded_le_of_places (by omega)

theorem numerator_pos_of_fraction : 0 < n.numerator := by
  refine Nat.pos_of_ne_zero fun hzero => hf ?_
  obtain ⟨-, hrounded⟩ := numerator_mul_scale hx h
  obtain ⟨-, -, hfraction⟩ := parts_of_plain hx h
  rw [hzero, Nat.zero_mul] at hrounded
  rw [hfraction, Digits.fraction_ofFinite, ← hrounded, Nat.zero_mod, Decimal.trimZeros_padded_zero]

end Fraction

end Copied

end Reckoner
