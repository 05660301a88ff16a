import Mathlib.Tactic.Ring
import Reckoner.Decimal.Rounding

/-! # Where a quotient is rounded to

The whole number that a quotient is rounded to is reached from the middle below it on. So it lies
between the whole numbers that the quotient lies between, and a whole number closer than a half is
what the quotient is rounded to.

* `succ_le_roundDiv_iff`: when rounding reaches a whole number.
* `roundDiv_le`, `le_roundDiv`: it stays between whole numbers.
* `roundDiv_eq_iff`, `roundDiv_eq_of_near`: the whole number it gives. -/

namespace Reckoner

/-- A quotient is rounded up to `k + 1` from the middle on, and from the middle itself if `k` is
odd. -/
theorem succ_le_roundDiv_iff {num den : ℕ} (h : 0 < den) (k : ℕ) :
    k + 1 ≤ roundDiv num den ↔
      (2 * k + 1) * den < 2 * num ∨ ((2 * k + 1) * den = 2 * num ∧ k % 2 = 1) := by
  have hdiv := Nat.div_add_mod num den
  have hmod := Nat.mod_lt num h
  have hk : (2 * k + 1) * den = 2 * (den * k) + den := by ring
  unfold roundDiv
  dsimp only
  generalize num / den = q at *
  generalize num % den = r at *
  rcases Nat.lt_trichotomy k q with hlt | rfl | hgt
  · have := Nat.mul_le_mul_left den hlt
    rw [Nat.mul_succ] at this
    split_ifs <;> omega
  · split_ifs <;> omega
  · have := Nat.mul_le_mul_left den hgt
    rw [Nat.mul_succ] at this
    split_ifs <;> omega

section Bounds

variable {num den k : ℕ} (h : 0 < den)
include h

theorem roundDiv_le (hk : num ≤ k * den) : roundDiv num den ≤ k := by
  have hiff := @succ_le_roundDiv_iff num den h k
  have hmul : (2 * k + 1) * den = 2 * (k * den) + den := by ring
  omega

theorem le_roundDiv (hk : k * den ≤ num) : k ≤ roundDiv num den := by
  rcases k with - | k
  · exact Nat.zero_le _
  · have hiff := @succ_le_roundDiv_iff num den h k
    have hmul : (2 * k + 1) * den + den = 2 * ((k + 1) * den) := by ring
    omega

theorem roundDiv_eq_iff (hk : num ≤ k * den) (heven : k % 2 = 0) (hpos : 0 < k) :
    roundDiv num den = k ↔ (2 * k - 1) * den ≤ 2 * num := by
  have hle := roundDiv_le h hk
  obtain ⟨j, rfl⟩ := Nat.exists_eq_succ_of_ne_zero hpos.ne'
  have hiff := @succ_le_roundDiv_iff num den h j
  rw [show 2 * j.succ - 1 = 2 * j + 1 by omega]
  omega

theorem roundDiv_eq_of_near (hlow : 2 * (k * den) < 2 * num + den)
    (hup : 2 * num < 2 * (k * den) + den) : roundDiv num den = k := by
  have hnext := @succ_le_roundDiv_iff num den h k
  have hmul : (2 * k + 1) * den = 2 * (k * den) + den := by ring
  rcases k with - | k
  · omega
  · have hiff := @succ_le_roundDiv_iff num den h k
    have hmul' : (2 * k + 1) * den + den = 2 * ((k + 1) * den) := by ring
    omega

end Bounds

end Reckoner
