import Mathlib.Tactic.Ring
import Reckoner.Binary64

/-! # Bits and fields

A value is finite if its exponent field is not full, and then its bits are those that it was made
from. So the fields of `ofMagnitude` can be read off its two parts below `infinity`, and a
magnitude that is put together from a binade and a significand stands for that many units, the
significand that carries into the exponent included.

* `unpacks`, `isFinite_iff`, `units_le`: the exponent field decides what bits stand for.
* `packComponents_fields`, `pack_of_lt`, `pack_of_ne`, `toBits_ofBits`: bits that are kept.
* `significand_bounds_of_fields`, `log2_units`: the binade of a value is that of its units.
* `beq_zero_iff`: the two zeros.
* `toNat_toBits_ofMagnitude`, `isFinite_ofMagnitude`, `isNegative_ofMagnitude`: bits with a sign.
* `units_ofMagnitude`: the units of a binade and a significand.
* `ofMagnitude_eq`: a finite value is put together again from its parts. -/

namespace Reckoner.Binary64

open Float.Model Float.Model.UnpackedFloat

/-! ### The exponent field -/

theorem toNat_unpackExponent (b : BitVec 64) :
    (@unpackExponent .binary64 b).toNat = b.toNat / leadingBit % 0x800 := by
  simp [unpackExponent, leadingBit, Nat.shiftRight_eq_div_pow]

theorem unpackExponent_eq_iff (b : BitVec 64) :
    @unpackExponent .binary64 b = -1#11 ↔ b.toNat / leadingBit % 0x800 = 0x7ff := by
  rw [← BitVec.toNat_inj, toNat_unpackExponent]
  rfl

/-- What bits stand for: nothing finite, a zero, or a significand without or with its leading
bit. -/
inductive Unpacks (b : BitVec Format.binary64.numBits) : UnpackedFloat → Prop where
  | full {u : UnpackedFloat} (hfull : unpackExponent b = -1#11) (hu : u.isFinite = false) :
      Unpacks b u
  | zero (hfull : unpackExponent b ≠ -1#11) (hexponent : unpackExponent b = 0#11)
      (hmantissa : unpackMantissa b = 0#52) : Unpacks b (.zero (Sign.ofBitVec (unpackSign b)))
  | short (hfull : unpackExponent b ≠ -1#11) (hexponent : unpackExponent b = 0#11)
      (hpos : 0 < (unpackMantissa b).toNat) :
      Unpacks b (.finite (Sign.ofBitVec (unpackSign b)) (unpackMantissa b).toNat (-1074) hpos)
  | long (hfull : unpackExponent b ≠ -1#11) (hexponent : unpackExponent b ≠ 0#11)
      (hpos : 0 < (1#1 ++ unpackMantissa b).toNat) :
      Unpacks b (.finite (Sign.ofBitVec (unpackSign b)) (1#1 ++ unpackMantissa b).toNat
        ((unpackExponent b).toNat - 1075) hpos)

theorem unpacks (b : BitVec Format.binary64.numBits) :
    Unpacks b (UnpackedFloat.unpack .binary64 b) := by
  unfold UnpackedFloat.unpack
  by_cases hfull : unpackExponent b = -1#11
  · rw [if_pos hfull]
    by_cases hmantissa : unpackMantissa b = 0#52
    · rw [if_pos hmantissa]
      exact .full hfull rfl
    · rw [if_neg hmantissa]
      exact .full hfull rfl
  rw [if_neg hfull]
  by_cases hexponent : unpackExponent b = 0#11
  · rw [if_pos hexponent]
    by_cases hmantissa : unpackMantissa b = 0#52
    · rw [dif_pos hmantissa]
      exact .zero hfull hexponent hmantissa
    · rw [dif_neg hmantissa, hexponent]
      exact .short hfull hexponent _
  · rw [if_neg hexponent]
    exact .long hfull hexponent _

/-- **A value is finite unless its exponent field is full.** -/
theorem isFinite_iff (x : Float) : x.isFinite ↔ exponentField x ≠ 0x7ff := by
  have hunpacks := unpacks x.toBits.toBitVec
  change (UnpackedFloat.unpack .binary64 x.toBits.toBitVec).isFinite = true ↔ _
  rw [exponentField, ← UInt64.toNat_toBitVec, ne_eq, ← unpackExponent_eq_iff]
  generalize UnpackedFloat.unpack .binary64 x.toBits.toBitVec = u at hunpacks ⊢
  cases hunpacks with
  | full hfull hu => simp [hfull, hu]
  | zero hfull => exact iff_of_true rfl hfull
  | short hfull => exact iff_of_true rfl hfull
  | long hfull => exact iff_of_true rfl hfull

/-! ### The significand -/

theorem significand_bounds_of_fields (x : Float) :
    significand x < 2 ^ 53 ∧ (binade x = 0 ∨ 2 ^ 52 ≤ significand x) := by
  have hfield : significandField x < leadingBit := Nat.mod_lt _ (by decide)
  unfold leadingBit at hfield
  unfold significand binade leadingBit
  split_ifs <;> omega

/-- **The binade of a value is that of its units.** -/
theorem log2_units (x : Float) : (units x).log2 - 52 = binade x := by
  obtain ⟨hlt, hle⟩ := significand_bounds_of_fields x
  rcases Nat.eq_zero_or_pos (significand x) with h0 | hpos
  · have hbinade := hle.resolve_right (by omega)
    rw [units, h0, Nat.zero_shiftLeft, Nat.log2_zero, hbinade]
  have hunits : units x ≠ 0 := by
    rw [units, Nat.shiftLeft_eq]
    exact (Nat.mul_pos hpos (Nat.two_pow_pos _)).ne'
  have hup : (units x).log2 < 53 + binade x := by
    rw [Nat.log2_lt hunits, units, Nat.shiftLeft_eq, pow_add]
    exact Nat.mul_lt_mul_of_pos_right hlt (Nat.two_pow_pos _)
  rcases hle with h0 | hle
  · omega
  · have hdown : 52 + binade x ≤ (units x).log2 := by
      rw [Nat.le_log2 hunits, units, Nat.shiftLeft_eq, pow_add]
      exact Nat.mul_le_mul_right _ hle
    omega

/-- **The greatest finite value** has a significand of 53 bits in the last binade. -/
theorem units_le {x : Float} (hx : x.isFinite) : units x ≤ (2 ^ 1024 - 2 ^ 971) * one := by
  have hgreatest : (2 ^ 53 - 1) * 2 ^ 2045 = (2 ^ 1024 - 2 ^ 971) * one := by decide +kernel
  have hexponent : exponentField x < 0x800 := Nat.mod_lt _ (by decide)
  have hfull := (isFinite_iff x).mp hx
  have hsignificand : significand x ≤ 2 ^ 53 - 1 :=
    Nat.le_sub_one_of_lt (significand_bounds_of_fields x).1
  have hbinade : binade x ≤ 2045 := by
    unfold binade
    omega
  have hpow : 2 ^ binade x ≤ 2 ^ 2045 := pow_le_pow_right₀ one_le_two hbinade
  rw [units, Nat.shiftLeft_eq, ← hgreatest]
  exact Nat.mul_le_mul hsignificand hpow

/-! ### Bits that are kept -/

theorem packComponents_fields (b : BitVec Format.binary64.numBits) :
    packComponents .binary64 (Sign.ofBitVec (unpackSign b)) (unpackExponent b) (unpackMantissa b) =
      b := by
  have hsign (s : BitVec 1) : (Sign.ofBitVec s).toBitVec = s := by
    revert s
    decide
  have hparts : b.extractLsb' 63 1 ++ b.extractLsb' 52 11 ++ b.extractLsb' 0 52 = b := by
    rw [BitVec.extractLsb'_append_extractLsb'_eq_extractLsb' (by rfl),
      BitVec.extractLsb'_append_extractLsb'_eq_extractLsb' (by rfl), BitVec.extractLsb'_eq_self]
  unfold packComponents
  rw [hsign]
  exact hparts

theorem pack_finite (s : Sign) (m : ℕ) (e : ℤ) (hm : 0 < m) :
    UnpackedFloat.pack .binary64 (.finite s m e hm) =
      if 2 ^ 11 ≤ (e + (1023 : ℕ) + (52 : ℕ)).toNat + 1 then packedInfinity .binary64 s
      else if m.log2 + 1 = 53 then
        packComponents .binary64 s (BitVec.ofNat 11 (e + (1023 : ℕ) + (52 : ℕ)).toNat)
          (BitVec.ofNat 52 m)
      else packComponents .binary64 s 0#11 (BitVec.ofNat 52 m) := rfl

theorem pack_of_lt (s : Sign) {m : ℕ} (hpos : 0 < m) (hm : m < 2 ^ 52) :
    UnpackedFloat.pack .binary64 (.finite s m (-1074) hpos) =
      packComponents .binary64 s 0#11 (BitVec.ofNat 52 m) := by
  have hlog : m.log2 < 52 := (Nat.log2_lt hpos.ne').mpr hm
  rw [pack_finite, if_neg (by decide), if_neg (by omega)]

theorem pack_of_ne (s : Sign) {e : BitVec 11} {m : BitVec 52} (he : e ≠ -1#11)
    (hpos : 0 < (1#1 ++ m).toNat) :
    UnpackedFloat.pack .binary64 (.finite s (1#1 ++ m).toNat (e.toNat - 1075) hpos) =
      packComponents .binary64 s e m := by
  have hm : (1#1 ++ m).toNat = 2 ^ 52 + m.toNat := by
    rw [BitVec.toNat_append, ← Nat.shiftLeft_add_eq_or_of_lt m.isLt]
    rfl
  have hlog : (1#1 ++ m).toNat.log2 = 52 := by
    rw [Nat.log2_eq_iff hpos.ne', hm]
    omega
  have hmantissa : BitVec.ofNat 52 (1#1 ++ m).toNat = m := by
    rw [← BitVec.toNat_inj, BitVec.toNat_ofNat, hm]
    omega
  have hbiased : ((e.toNat : ℤ) - 1075 + (1023 : ℕ) + (52 : ℕ)).toNat = e.toNat := by omega
  have hfield : ¬2 ^ 11 ≤ e.toNat + 1 := by
    have hfull : e.toNat ≠ 0x7ff := fun h => he (BitVec.eq_of_toNat_eq h)
    omega
  rw [pack_finite, hbiased, if_neg hfield, hlog, if_pos rfl, hmantissa, BitVec.ofNat_toNat,
    BitVec.setWidth_eq]

/-- **Bits whose exponent field is not full are kept.** -/
theorem toBits_ofBits {b : UInt64} (h : b.toNat / leadingBit % 0x800 ≠ 0x7ff) :
    (Float.ofBits b).toBits = b := by
  have hfull := (unpackExponent_eq_iff b.toBitVec).not.mpr h
  have hunpacks := unpacks b.toBitVec
  have hpacked := packComponents_fields b.toBitVec
  change UInt64.ofBitVec (UnpackedFloat.pack .binary64
    (UnpackedFloat.unpack .binary64 b.toBitVec)) = b
  refine congrArg UInt64.ofBitVec (Eq.trans ?_ hpacked)
  generalize UnpackedFloat.unpack .binary64 b.toBitVec = u at hunpacks ⊢
  cases hunpacks with
  | full h => exact absurd h hfull
  | zero _ hexponent hmantissa =>
    rw [hexponent, hmantissa]
    rfl
  | short _ hexponent hpos =>
    have hlt := (@unpackMantissa .binary64 b.toBitVec).isLt
    rw [pack_of_lt _ hpos hlt, hexponent, BitVec.ofNat_toNat, BitVec.setWidth_eq]
  | long _ _ hpos => exact pack_of_ne _ hfull hpos

/-! ### Zero -/

theorem compare_zero_iff (u : UnpackedFloat) :
    (u.compare (.zero .positive) == some Ordering.eq) = true ↔ ∃ sign, u = .zero sign := by
  cases u with
  | infinity sign => cases sign <;> exact iff_of_false Bool.false_ne_true nofun
  | notANumber => exact iff_of_false Bool.false_ne_true nofun
  | zero sign => exact iff_of_true rfl ⟨sign, rfl⟩
  | finite sign => cases sign <;> exact iff_of_false Bool.false_ne_true nofun

/-- **A value equals zero if its bits are those of a zero**, with or without the sign bit. -/
theorem beq_zero_iff (x : Float) :
    (x == 0) = true ↔ x.toBits.toNat = 0 ∨ x.toBits.toNat = signBit := by
  have hzero : (0 : Float).toModel.unpack = .zero .positive := by rfl
  have hexponent : @unpackExponent .binary64 x.toBits.toBitVec = 0#11 ↔
      x.toBits.toNat / leadingBit % 0x800 = 0 := by
    rw [← BitVec.toNat_inj, toNat_unpackExponent]
    rfl
  have hmantissa : @unpackMantissa .binary64 x.toBits.toBitVec = 0#52 ↔
      x.toBits.toNat % leadingBit = 0 := by
    rw [← BitVec.toNat_inj]
    simp [unpackMantissa, leadingBit]
  have hbits : x.toBits.toNat = 0 ∨ x.toBits.toNat = signBit ↔
      x.toBits.toNat / leadingBit % 0x800 = 0 ∧ x.toBits.toNat % leadingBit = 0 := by
    have := x.toBits.toNat_lt
    unfold signBit leadingBit
    omega
  change ((UnpackedFloat.unpack .binary64 x.toBits.toBitVec).compare (0 : Float).toModel.unpack ==
    some Ordering.eq) = true ↔ _
  rw [hzero, compare_zero_iff, hbits, ← hexponent, ← hmantissa]
  have hunpacks := unpacks x.toBits.toBitVec
  generalize UnpackedFloat.unpack .binary64 x.toBits.toBitVec = u at hunpacks ⊢
  cases hunpacks with
  | full hfull hu =>
    refine iff_of_false ?_ fun h => absurd (hfull.symm.trans h.1) (by decide)
    rintro ⟨sign, rfl⟩
    cases hu
  | zero _ hexponent hmantissa => exact iff_of_true ⟨_, rfl⟩ ⟨hexponent, hmantissa⟩
  | short _ _ hpos => exact iff_of_false nofun fun h => hpos.ne' (congrArg BitVec.toNat h.2)
  | long _ hexponent => exact iff_of_false nofun fun h => hexponent h.1

/-! ### A sign and a magnitude -/

section Magnitude

variable (negative : Bool) {m : ℕ} (h : m < infinity)
include h

theorem toNat_toBits_ofMagnitude :
    (ofMagnitude negative m).toBits.toNat = (if negative then signBit else 0) + m := by
  unfold infinity leadingBit at h
  have hbits : (UInt64.ofNat ((if negative then signBit else 0) + m)).toNat =
      (if negative then signBit else 0) + m := by
    rw [UInt64.toNat_ofNat', Nat.mod_eq_of_lt]
    unfold signBit
    split_ifs <;> omega
  rw [ofMagnitude, toBits_ofBits, hbits]
  rw [hbits]
  unfold signBit leadingBit
  split_ifs <;> omega

theorem exponentField_ofMagnitude : exponentField (ofMagnitude negative m) = m / leadingBit := by
  rw [exponentField, toNat_toBits_ofMagnitude negative h]
  unfold infinity leadingBit at h
  unfold signBit leadingBit
  split_ifs <;> omega

theorem significandField_ofMagnitude :
    significandField (ofMagnitude negative m) = m % leadingBit := by
  rw [significandField, toNat_toBits_ofMagnitude negative h]
  unfold signBit leadingBit
  split_ifs <;> omega

theorem isNegative_ofMagnitude : isNegative (ofMagnitude negative m) = negative := by
  rw [isNegative, toNat_toBits_ofMagnitude negative h]
  unfold infinity leadingBit at h
  cases negative with
  | false => rw [if_neg (by decide), beq_eq_false_iff_ne]; unfold signBit; omega
  | true => rw [if_pos rfl, beq_iff_eq]; unfold signBit; omega

/-- **Magnitudes below infinity are those of finite values.** -/
theorem isFinite_ofMagnitude : (ofMagnitude negative m).isFinite := by
  rw [isFinite_iff, exponentField_ofMagnitude negative h]
  unfold infinity at h
  exact (Nat.div_lt_of_lt_mul (by rwa [Nat.mul_comm])).ne

end Magnitude

theorem isFinite_of_nearest? {negative : Bool} {num den : ℕ} {x : Float}
    (h : nearest? negative num den = some x) : x.isFinite := by
  rw [nearest?] at h
  split_ifs at h with hlt
  obtain rfl := Option.some.inj h
  exact isFinite_ofMagnitude negative hlt

/-- **The units of a binade and a significand.** A significand without its leading bit is one of the
first binade, and one that is twice the leading bit is the leading bit in the next binade. -/
theorem units_ofMagnitude (negative : Bool) {b r : ℕ} (h : b * leadingBit + r < infinity)
    (hr : r ≤ 2 * leadingBit) (hb : b = 0 ∨ leadingBit ≤ r) :
    units (ofMagnitude negative (b * leadingBit + r)) = r <<< b := by
  have hpos : 0 < leadingBit := by decide
  rw [units, significand, binade, exponentField_ofMagnitude negative h,
    significandField_ofMagnitude negative h]
  rcases Nat.lt_or_ge r leadingBit with hlt | hge
  · obtain rfl := hb.resolve_right (by omega)
    simp [Nat.div_eq_of_lt hlt, Nat.mod_eq_of_lt hlt]
  · obtain ⟨s, rfl⟩ := Nat.exists_eq_add_of_le hge
    have hm : b * leadingBit + (leadingBit + s) = s + (b + 1) * leadingBit := by ring
    have hfield : s / leadingBit + (b + 1) ≠ 0 := Nat.succ_ne_zero _
    rw [hm, Nat.add_mul_div_right s _ hpos, Nat.add_mul_mod_self_right, if_neg hfield]
    rcases Nat.lt_or_ge s leadingBit with hlt | hge
    · rw [Nat.div_eq_of_lt hlt, Nat.mod_eq_of_lt hlt]
      simp
    · -- the significand is carried into the exponent
      obtain rfl : s = leadingBit := by omega
      rw [Nat.div_self hpos, Nat.mod_self]
      simp only [Nat.shiftLeft_eq, Nat.add_zero, Nat.add_sub_cancel_left]
      rw [pow_succ]
      ring

theorem toBits_inj {x y : Float} : x.toBits = y.toBits ↔ x = y := by
  refine ⟨fun h => ?_, congrArg Float.toBits⟩
  obtain ⟨⟨bits, _⟩⟩ := x
  obtain ⟨⟨bits', _⟩⟩ := y
  obtain rfl : bits = bits' := h
  rfl

/-- **A finite value is put together again** from its sign, its binade and its significand. -/
theorem ofMagnitude_eq {x : Float} (hx : x.isFinite) :
    binade x * leadingBit + significand x < infinity ∧
      ofMagnitude (isNegative x) (binade x * leadingBit + significand x) = x := by
  have hbits := x.toBits.toNat_lt
  have hfields : binade x * leadingBit + significand x =
      exponentField x * leadingBit + significandField x := by
    unfold binade significand
    split_ifs with h0
    · rw [h0]
    · obtain ⟨e, he⟩ := Nat.exists_eq_succ_of_ne_zero h0
      rw [he, Nat.succ_sub_one, Nat.succ_mul, Nat.add_assoc]
  have hlt : binade x * leadingBit + significand x < infinity := by
    have hfull := (isFinite_iff x).mp hx
    rw [hfields]
    unfold infinity exponentField significandField leadingBit at *
    omega
  refine ⟨hlt, toBits_inj.mp (UInt64.toNat_inj.mp ?_)⟩
  rw [toNat_toBits_ofMagnitude _ hlt, hfields]
  unfold isNegative exponentField significandField signBit leadingBit
  split_ifs with hsign <;> rw [beq_iff_eq] at hsign <;> omega

end Reckoner.Binary64
