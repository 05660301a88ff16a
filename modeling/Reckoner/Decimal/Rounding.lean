/-! # Rounding a quotient

`roundDiv num den` is the whole number nearest to `num / den`; of two equally near ones it is the
even one. -/

namespace Reckoner

/-- The whole number nearest to `num / den`, a half going to the even neighbour. -/
def roundDiv (num den : Nat) : Nat :=
  let q := num / den
  let r := num % den
  if 2 * r < den ∨ (2 * r = den ∧ q % 2 = 0) then q else q + 1

theorem roundDiv_bounds {num den : Nat} (h : 0 < den) :
    2 * num ≤ (2 * roundDiv num den + 1) * den ∧ 2 * (roundDiv num den * den) ≤ 2 * num + den := by
  have h1 := Nat.div_add_mod num den
  have h2 := Nat.mod_lt num h
  have h3 : (2 * (num / den) + 1) * den = 2 * (den * (num / den)) + den := by
    rw [Nat.add_mul, Nat.one_mul, Nat.mul_assoc, Nat.mul_comm (num / den)]
  have h4 : (num / den + 1) * den = den * (num / den) + den := by
    rw [Nat.add_mul, Nat.one_mul, Nat.mul_comm]
  have h5 : (2 * (num / den + 1) + 1) * den = 2 * (den * (num / den)) + 3 * den := by
    rw [show 2 * (num / den + 1) + 1 = 2 * (num / den) + 3 by omega, Nat.add_mul, Nat.mul_assoc,
      Nat.mul_comm (num / den)]
  have h6 : num / den * den = den * (num / den) := Nat.mul_comm ..
  simp only [roundDiv]
  split
  · rw [h3, h6]; omega
  · rw [h4, h5]; omega

theorem roundDiv_mul_right (n : Nat) {den : Nat} (h : 0 < den) : roundDiv (n * den) den = n := by
  simp [roundDiv, Nat.mul_div_cancel n h, h]

end Reckoner
