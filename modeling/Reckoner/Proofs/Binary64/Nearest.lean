import Reckoner.Proofs.Binary64.Fields
import Reckoner.Proofs.Binary64.Overflow

/-! # How near the nearest value is

The value nearest to a quotient is a whole number of units of the quotient's binade, rounded to 53
bits. So it is off by at most one part in `2 ^ 53`, unless the quotient is closer to zero than the
normal values, and it does not fall below a whole number that the quotient reaches.

* `nearest?_eq_some`: the nearest value in units, its sign and that it is finite.
* `error_of_nearest?`: the bound on the error.
* `mul_one_le_units`: whole numbers stay below.
* `nearest?_of_units`: a finite value is the one nearest to itself. -/

namespace Reckoner.Binary64

theorem significand_bounds (u : ℕ) {den : ℕ} (h : 0 < den) {b : ℕ} (hb : b = (u / den).log2 - 52) :
    roundDiv u (den * 2 ^ b) ≤ 2 * leadingBit ∧
      (b = 0 ∨ leadingBit ≤ roundDiv u (den * 2 ^ b)) := by
  obtain ⟨hlt, hle⟩ := binade_bounds u h hb
  have hD : 0 < den * 2 ^ b := Nat.mul_pos h (Nat.two_pow_pos b)
  exact ⟨roundDiv_le hD hlt.le, hle.imp_right (le_roundDiv hD)⟩

section Nearest

variable {negative : Bool} {num den : ℕ} (hden : 0 < den) {x : Float}
  (hx : nearest? negative num den = some x)
include hden hx

/-- **The nearest value** is finite, has the sign that was asked for, and is the quotient rounded to
a whole number of units of its binade. -/
theorem nearest?_eq_some {b : ℕ} (hb : b = (num * one / den).log2 - 52) :
    x.isFinite ∧ isNegative x = negative ∧
      units x = roundDiv (num * one) (den * 2 ^ b) * 2 ^ b := by
  obtain ⟨hr, hlow⟩ := significand_bounds (num * one) hden hb
  rw [nearest?, nearestMagnitude, ← hb, Nat.shiftLeft_eq] at hx
  split_ifs at hx with hlt
  obtain rfl := Option.some.inj hx
  refine ⟨isFinite_ofMagnitude negative hlt, isNegative_ofMagnitude negative hlt, ?_⟩
  rw [units_ofMagnitude negative hlt hr hlow, Nat.shiftLeft_eq]

/-- **The nearest value is off by at most one part in `2 ^ 53`**, if the quotient is zero or not
closer to zero than the normal values. -/
theorem error_of_nearest? (hnormal : num = 0 ∨ 2 ^ 52 * den ≤ num * one) :
    2 ^ 53 * (units x * den) ≤ (2 ^ 53 + 1) * (num * one) ∧
      (2 ^ 53 - 1) * (num * one) ≤ 2 ^ 53 * (units x * den) := by
  obtain ⟨b, hb⟩ : ∃ b, b = (num * one / den).log2 - 52 := ⟨_, rfl⟩
  have hD : 0 < den * 2 ^ b := Nat.mul_pos hden (Nat.two_pow_pos b)
  have hunits : units x * den = roundDiv (num * one) (den * 2 ^ b) * (den * 2 ^ b) := by
    rw [(nearest?_eq_some hden hx hb).2.2]
    ring
  rcases hnormal with rfl | hnormal
  · have hzero := @roundDiv_le (0 * one) (den * 2 ^ b) 0 hD (by simp)
    rw [hunits, Nat.le_zero.mp hzero]
    simp
  have hlow : 2 ^ 52 * (den * 2 ^ b) ≤ num * one := by
    rcases (binade_bounds (num * one) hden hb).2 with h0 | hle
    · rwa [h0, pow_zero, mul_one]
    · exact hle
  obtain ⟨hup, hdown⟩ := @roundDiv_bounds (num * one) _ hD
  have hsucc : (2 * roundDiv (num * one) (den * 2 ^ b) + 1) * (den * 2 ^ b) =
      2 * (units x * den) + den * 2 ^ b := by
    rw [hunits]
    ring
  rw [hsucc] at hup
  rw [← hunits] at hdown
  generalize units x * den = p at *
  generalize num * one = u at *
  generalize den * 2 ^ b = d at *
  omega

/-- **A whole number that the quotient reaches is reached by the nearest value**, as far as whole
numbers have 53 bits. -/
theorem mul_one_le_units {n : ℕ} (hn : n * den ≤ num) (hfit : num < 2 ^ 53 * den) :
    n * one ≤ units x := by
  obtain ⟨b, hb⟩ : ∃ b, b = (num * one / den).log2 - 52 := ⟨_, rfl⟩
  have hD : 0 < den * 2 ^ b := Nat.mul_pos hden (Nat.two_pow_pos b)
  have hle : b ≤ unitPlaces := by
    have hlt : num * one / den < 2 ^ (53 + unitPlaces) := by
      rw [Nat.div_lt_iff_lt_mul hden, pow_add, ← one_eq]
      calc num * one < 2 ^ 53 * den * one := Nat.mul_lt_mul_of_pos_right hfit one_pos
        _ = 2 ^ 53 * one * den := by ring
    rcases Nat.eq_zero_or_pos (num * one / den) with h0 | hpos
    · rw [hb, h0, Nat.log2_zero]
      exact Nat.zero_le _
    · have := (Nat.log2_lt hpos.ne').mpr hlt
      omega
  have hone : 2 ^ (unitPlaces - b) * 2 ^ b = one := by
    rw [← pow_add, Nat.sub_add_cancel hle, one_eq]
  have hsignificand : n * 2 ^ (unitPlaces - b) ≤ roundDiv (num * one) (den * 2 ^ b) := by
    refine le_roundDiv hD ?_
    calc n * 2 ^ (unitPlaces - b) * (den * 2 ^ b) = n * den * (2 ^ (unitPlaces - b) * 2 ^ b) := by
          ring
      _ ≤ num * one := by rw [hone]; exact Nat.mul_le_mul_right one hn
  rw [(nearest?_eq_some hden hx hb).2.2]
  calc n * one = n * 2 ^ (unitPlaces - b) * 2 ^ b := by rw [mul_assoc, hone]
    _ ≤ _ := Nat.mul_le_mul_right _ hsignificand

end Nearest

/-- **A finite value is the one nearest to itself**, however it is written as a quotient. -/
theorem nearest?_of_units {x : Float} (hx : x.isFinite) {num den : ℕ} (hden : 0 < den)
    (h : num * one = units x * den) : nearest? (isNegative x) num den = some x := by
  obtain ⟨hlt, hself⟩ := ofMagnitude_eq hx
  have hmagnitude : nearestMagnitude num den = binade x * leadingBit + significand x := by
    have hshift : units x * den = significand x * (den * 2 ^ binade x) := by
      rw [units, Nat.shiftLeft_eq]
      ring
    rw [nearestMagnitude, h, Nat.mul_div_cancel _ hden, log2_units, hshift, Nat.shiftLeft_eq,
      roundDiv_mul_right _ (Nat.mul_pos hden (Nat.two_pow_pos _))]
  rw [nearest?, hmagnitude, if_pos hlt, hself]

end Reckoner.Binary64
