import Mathlib.Data.List.TakeWhile
import Reckoner.Numeral.Scientific
import Reckoner.Numeral.Value
import Reckoner.Proofs.Binary64.Overflow
import Reckoner.Proofs.Decimal.Digits

/-! # Numbers in scientific notation

The value of a number in scientific notation is the one nearest to it: the powers of ten that are
not formed are those whose product with the digits is out of range or rounds to zero. Without an
exponent and a plus the notation is digits with a period in front of, between or behind them, and
then the value is that of the numeral with these digits.

* `value?_eq_nearest?`: the value is the nearest one, whatever the exponent.
* `ofText?_point`, `exists_of_ofText?`: texts without an exponent. -/

namespace Reckoner

namespace Scientific

/-! ### The value -/

open Decimal (ofDigits scale scale_pos scale_add scale_zero scale_le_scale)

theorem two_mul_one_le_scale : 2 * Binary64.one ≤ scale 330 := by decide +kernel

theorem range_le_scale : 2 ^ 1024 - 2 ^ 970 ≤ scale 310 := by decide +kernel

/-- **The value is the one nearest to the number**: the number of digits and the exponent cut off
nothing but what is out of range or rounds to zero. -/
theorem value?_eq_nearest? (x : Scientific) :
    x.value? = Binary64.nearest? x.negative (ofDigits x.digits * scale x.exponent.toNat)
      (scale (-x.exponent).toNat) := by
  obtain ⟨negative, ds, exponent⟩ := x
  rw [value?]
  dsimp only
  generalize ofDigits ds = m
  have hup := Decimal.lt_scale_length_digits m
  split_ifs with hsmall hlarge
  · refine (Binary64.nearest?_eq_zero negative ?_).symm
    rcases hsmall with rfl | hplaces
    · simpa using scale_pos _
    · -- the point stands more than 330 places in front of the digits
      have hexponent : exponent.toNat = 0 := by omega
      have hone := Binary64.one_pos
      rw [hexponent, scale_zero, mul_one]
      generalize (Decimal.digits m).length = length at *
      calc 2 * (m * Binary64.one) = m * (2 * Binary64.one) := by ring
        _ < scale length * (2 * Binary64.one) := Nat.mul_lt_mul_of_pos_right hup (by omega)
        _ ≤ scale length * scale 330 := Nat.mul_le_mul_left _ two_mul_one_le_scale
        _ = scale (length + 330) := (scale_add ..).symm
        _ ≤ scale (-exponent).toNat := scale_le_scale (by omega)
  · -- there are more than 310 places in front of the point
    have hdown := Decimal.scale_le_of_pos (n := m) (by omega)
    refine ((Binary64.nearest?_eq_none_iff negative _ (scale_pos _)).mpr ?_).symm
    generalize (Decimal.digits m).length = length at *
    calc (2 ^ 1024 - 2 ^ 970) * scale (-exponent).toNat
        ≤ scale 310 * scale (-exponent).toNat := Nat.mul_le_mul_right _ range_le_scale
      _ = scale (310 + (-exponent).toNat) := (scale_add ..).symm
      _ ≤ scale (length - 1 + exponent.toNat) := scale_le_scale (by omega)
      _ = scale (length - 1) * scale exponent.toNat := scale_add ..
      _ ≤ m * scale exponent.toNat := Nat.mul_le_mul_right _ hdown
  · rfl

theorem value?_eq_value? {n : Numeral} {ds : List Char} (h : ofDigits ds = n.numerator) :
    (⟨n.negative, ds, -n.fraction.length⟩ : Scientific).value? = n.value? := by
  rw [value?_eq_nearest?, Numeral.value?, Numeral.denominator]
  dsimp only
  rw [h, Int.toNat_neg_natCast, scale_zero, mul_one, neg_neg, Int.toNat_natCast]

/-! ### Texts without an exponent -/

theorem takeSign_sign_append (negative : Bool) {s : List Char} (hplus : s.head? ≠ some '+')
    (hminus : s.head? ≠ some '-') : takeSign (Numeral.sign negative ++ s) = (negative, s) := by
  cases negative with
  | true => rfl
  | false =>
    rw [show Numeral.sign false ++ s = s from rfl]
    unfold takeSign
    split
    · simp at hminus
    · simp at hplus
    · rfl

theorem ofText?_point (negative : Bool) {whole fraction : List Char} (hwhole : isDigits whole)
    (hfraction : isDigits fraction) (hne : whole ++ fraction ≠ []) :
    ofText? (Numeral.sign negative ++ whole ++ '.' :: fraction) =
      some ⟨negative, whole ++ fraction, -fraction.length⟩ := by
  have hhead : ∀ ch, ch.isDigit = false → ch ≠ '.' →
      (whole ++ '.' :: fraction).head? ≠ some ch := by
    intro ch hch hpoint h
    cases whole with
    | nil => exact hpoint (Option.some.inj h).symm
    | cons d s =>
      obtain rfl := Option.some.inj h
      simp [(isDigits_cons.mp hwhole).1] at hch
  have htake : (whole ++ '.' :: fraction).takeWhile Char.isDigit = whole := by
    rw [List.takeWhile_append_of_pos (isDigits_iff.mp hwhole)]
    simp
  have hdrop : (whole ++ '.' :: fraction).dropWhile Char.isDigit = '.' :: fraction := by
    rw [List.dropWhile_append_of_pos (isDigits_iff.mp hwhole)]
    simp
  have htake' := List.takeWhile_eq_self_iff.mpr (isDigits_iff.mp hfraction)
  have hdrop' := List.dropWhile_eq_nil_iff.mpr (isDigits_iff.mp hfraction)
  have hdigits : ¬(whole = [] ∧ fraction = []) := fun h => hne (by rw [h.1, h.2]; rfl)
  rw [List.append_assoc]
  simp [ofText?, takeSign_sign_append negative (hhead '+' rfl (by decide))
    (hhead '-' rfl (by decide)),
    htake, hdrop, takeFraction, htake', hdrop', exponent?, hdigits]

theorem isDigits_takeWhile (s : List Char) : isDigits (s.takeWhile Char.isDigit) :=
  isDigits_iff.mpr fun _ hch => List.mem_takeWhile_imp hch

/-- **Without an exponent and a plus the notation is digits** with a period between them or none. -/
theorem exists_of_ofText? {s : List Char} {x : Scientific} (hplus : '+' ∉ s) (he : 'e' ∉ s)
    (hE : 'E' ∉ s) (h : ofText? s = some x) :
    ∃ whole fraction, isDigits whole ∧ isDigits fraction ∧ whole ++ fraction ≠ [] ∧
      x = ⟨x.negative, whole ++ fraction, -fraction.length⟩ ∧
      (s = Numeral.sign x.negative ++ whole ∧ fraction = [] ∨
        s = Numeral.sign x.negative ++ whole ++ '.' :: fraction) := by
  have hsign : s = Numeral.sign (takeSign s).1 ++ (takeSign s).2 := by
    unfold takeSign
    split
    · rfl
    · simp at hplus
    · rfl
  rw [ofText?] at h
  generalize takeSign s = signed at h hsign
  obtain ⟨negative, body⟩ := signed
  simp only [Option.bind_eq_bind, Option.bind_eq_some_iff] at h
  have hbody := List.takeWhile_append_dropWhile (p := Char.isDigit) (l := body)
  have hwhole := isDigits_takeWhile body
  generalize body.takeWhile Char.isDigit = whole at *
  generalize body.dropWhile Char.isDigit = behind at *
  obtain ⟨exponent, hexponent, hx⟩ := h
  -- nothing stands behind the digits but an exponent, whose letter is not in the text
  have hend : ∀ rest : List Char, (∀ ch ∈ rest, ch ∈ s) → exponent? rest = some exponent →
      rest = [] ∧ exponent = 0 := by
    intro rest hrest hsome
    cases rest with
    | nil => exact ⟨rfl, (Option.some.inj hsome).symm⟩
    | cons ch rest =>
      have hch := hrest ch (by simp)
      have hletter : (ch == 'e' || ch == 'E') = false := by
        rw [Bool.or_eq_false_iff, beq_eq_false_iff_ne, beq_eq_false_iff_ne]
        exact ⟨fun h => he (h ▸ hch), fun h => hE (h ▸ hch)⟩
      simp [exponent?, hletter] at hsome
  have hmem : ∀ ch ∈ behind, ch ∈ s := fun ch hch => by
    rw [hsign, ← hbody]
    exact List.mem_append_right _ (List.mem_append_right _ hch)
  by_cases hpoint : behind.head? = some '.'
  · obtain ⟨rest, rfl⟩ := List.head?_eq_some_iff.mp hpoint
    have hrest := List.takeWhile_append_dropWhile (p := Char.isDigit) (l := rest)
    have hfraction := isDigits_takeWhile rest
    rw [takeFraction] at hexponent hx
    dsimp only at hexponent hx
    obtain ⟨hnil, rfl⟩ := hend _ (fun ch hch => hmem ch
      (List.mem_cons_of_mem _ ((List.dropWhile_sublist _).subset hch))) hexponent
    rw [hnil, List.append_nil] at hrest
    rw [hrest] at hx hfraction
    split_ifs at hx with hdigits
    obtain rfl := Option.some.inj hx
    refine ⟨whole, rest, hwhole, hfraction, ?_, by rw [Int.zero_sub], .inr ?_⟩
    · simpa [imp_iff_not_or] using hdigits
    · rw [hsign, ← hbody, List.append_assoc]
  · have htake : takeFraction behind = ([], behind) := by
      unfold takeFraction
      split
      · simp at hpoint
      · rfl
    rw [htake] at hexponent hx
    obtain ⟨rfl, rfl⟩ := hend behind hmem hexponent
    split_ifs at hx with hdigits
    obtain rfl := Option.some.inj hx
    refine ⟨whole, [], hwhole, rfl, by simpa using hdigits, rfl, .inl ⟨?_, rfl⟩⟩
    rw [hsign, ← hbody, List.append_nil]

end Scientific

end Reckoner
