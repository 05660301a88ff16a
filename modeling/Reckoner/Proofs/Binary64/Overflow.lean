import Mathlib.Tactic.NormNum.Basic
import Reckoner.Binary64
import Reckoner.Proofs.Decimal.Rounding

/-! # Out of range

A quotient has a nearest finite binary64 value unless it is at least `2 ^ 1024 - 2 ^ 970`, the
middle between the greatest finite value and `2 ^ 1024`; the middle itself goes up, to the even
significand. At the other end, what is less than half a unit goes to zero.

* `binade_bounds`: the binade of a quotient and its significand there.
* `magnitude_lt_infinity_iff`: the range in units.
* `nearest?_eq_none_iff`: the quotients that are out of range.
* `nearest?_eq_zero`: the quotients that are too small to be told from zero. -/

namespace Reckoner.Binary64

theorem one_eq : one = 2 ^ unitPlaces := Nat.one_shiftLeft unitPlaces

theorem one_pos : 0 < one := one_eq ▸ Nat.two_pow_pos unitPlaces

theorem binade_bounds (u : ℕ) {den : ℕ} (h : 0 < den) {b : ℕ} (hb : b = (u / den).log2 - 52) :
    u < 2 ^ 53 * (den * 2 ^ b) ∧ (b = 0 ∨ 2 ^ 52 * (den * 2 ^ b) ≤ u) := by
  have hlt : u < den * 2 ^ ((u / den).log2 + 1) := by
    have := Nat.lt_log2_self (n := u / den)
    rwa [Nat.div_lt_iff_lt_mul h, Nat.mul_comm] at this
  constructor
  · have hpow : 2 ^ ((u / den).log2 + 1) ≤ 2 ^ (53 + b) :=
      Nat.pow_le_pow_right (by decide) (by omega)
    calc u < den * 2 ^ ((u / den).log2 + 1) := hlt
      _ ≤ den * 2 ^ (53 + b) := Nat.mul_le_mul_left den hpow
      _ = 2 ^ 53 * (den * 2 ^ b) := by rw [pow_add, Nat.mul_left_comm]
  · rcases Nat.eq_zero_or_pos b with h0 | hpos
    · exact .inl h0
    · right
      have hq : u / den ≠ 0 := by
        intro hq
        rw [hq, Nat.log2_zero] at hb
        omega
      have hle := Nat.log2_self_le hq
      rw [Nat.le_div_iff_mul_le h, show (u / den).log2 = 52 + b by omega, pow_add] at hle
      calc 2 ^ 52 * (den * 2 ^ b) = 2 ^ 52 * 2 ^ b * den := by ring
        _ ≤ u := hle

/-- **The range, in units**: half a unit of the last binade above its greatest value is too much. -/
theorem magnitude_lt_infinity_iff (u : ℕ) {den : ℕ} (h : 0 < den) {b : ℕ}
    (hb : b = (u / den).log2 - 52) :
    b * leadingBit + roundDiv u (den * 2 ^ b) < infinity ↔ u < (2 ^ 54 - 1) * (den * 2 ^ 2044) := by
  obtain ⟨hlt, hle⟩ := binade_bounds u h hb
  have hD : 0 < den * 2 ^ b := Nat.mul_pos h (Nat.two_pow_pos b)
  have hmax := roundDiv_le hD hlt.le
  have hpow : ∀ i j : ℕ, i ≤ j → den * 2 ^ i ≤ den * 2 ^ j := fun i j hij =>
    Nat.mul_le_mul_left den (Nat.pow_le_pow_right (by decide) hij)
  have hsucc : ∀ i : ℕ, den * 2 ^ (i + 1) = 2 * (den * 2 ^ i) := fun i => by
    rw [pow_succ, ← mul_assoc, mul_comm]
  have hinf : infinity = 2047 * 2 ^ 52 := by norm_num [infinity, leadingBit]
  have hlead : leadingBit = 2 ^ 52 := by norm_num [leadingBit]
  rw [hinf, hlead]
  have h45 := hsucc 2044
  have h46 := hsucc 2045
  rcases Nat.lt_trichotomy b 2045 with hb' | rfl | hb'
  · have hX := hpow b 2044 (by omega)
    generalize den * 2 ^ 2044 = X at *
    generalize den * 2 ^ b = D at *
    omega
  · have := roundDiv_eq_iff hD hlt.le (by norm_num) (by norm_num)
    rw [show 2 * 2 ^ 53 - 1 = 2 ^ 54 - 1 by norm_num] at this
    generalize den * 2 ^ 2044 = X at *
    generalize den * 2 ^ 2045 = D at *
    omega
  · have hX := hpow 2046 b (by omega)
    have := le_roundDiv hD (hle.resolve_left (by omega))
    generalize den * 2 ^ 2044 = X at *
    generalize den * 2 ^ b = D at *
    omega

/-- **A quotient is out of range from the middle on** between the greatest finite value and the
power of two above it. -/
theorem nearest?_eq_none_iff (negative : Bool) (num : ℕ) {den : ℕ} (h : 0 < den) :
    nearest? negative num den = none ↔ (2 ^ 1024 - 2 ^ 970) * den ≤ num := by
  have hmag := magnitude_lt_infinity_iff (num * one) h rfl
  have hunits : (2 ^ 54 - 1) * (den * 2 ^ 2044) = (2 ^ 1024 - 2 ^ 970) * den * one := by
    have h1 : 2 ^ 1024 - 2 ^ 970 = (2 ^ 54 - 1) * 2 ^ 970 := by
      rw [show 1024 = 54 + 970 from rfl, pow_add, Nat.sub_mul, one_mul]
    have h2 : 2 ^ 2044 = 2 ^ 970 * one := by
      rw [one_eq, ← pow_add, unitPlaces]
    rw [h1, h2]
    generalize (2 : ℕ) ^ 970 = X
    generalize one = Y
    ring
  rw [hunits, Nat.mul_lt_mul_right one_pos] at hmag
  rw [nearest?, nearestMagnitude, ← not_lt, ← hmag]
  simp [Nat.shiftLeft_eq]

theorem nearestMagnitude_eq_zero {num den : ℕ} (h : 2 * (num * one) < den) :
    nearestMagnitude num den = 0 := by
  have hround : roundDiv (num * one) den = 0 :=
    @roundDiv_eq_of_near (num * one) den 0 (by omega) (by omega) (by omega)
  have hquotient : num * one / den = 0 := Nat.div_eq_of_lt (by omega)
  rw [nearestMagnitude, hquotient, Nat.log2_zero]
  simpa using hround

/-- **A quotient of less than half a unit is rounded to zero.** -/
theorem nearest?_eq_zero (negative : Bool) {num den : ℕ} (h : 2 * (num * one) < den) :
    nearest? negative num den = nearest? negative 0 1 := by
  have hzero : nearestMagnitude 0 1 = 0 := nearestMagnitude_eq_zero (by omega)
  rw [nearest?, nearest?, nearestMagnitude_eq_zero h, hzero]

end Reckoner.Binary64
