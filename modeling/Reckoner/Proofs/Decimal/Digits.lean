import Mathlib.Data.List.Basic
import Reckoner.Decimal.Digits
import Reckoner.Numeral.Basic
import Reckoner.Text.Blank

/-! # Digits that are read and written

A number that is read from digits and written again gives the same digits, if no zero stands in
front of them in vain; filled up to their number it gives them in any case. Zeros behind a fraction
come off again.

* `isDigits_digits`, `isDigits_padded`, `isDigits_trimZeros`: what is written are digits.
* `ofDigits_append`, `ofDigits_lt`: the number that digits denote.
* `lt_scale_length_digits`, `scale_le_of_pos`: how many digits a number has.
* `digits_ofDigits`, `padded_ofDigits`: digits are written as they were read.
* `digits_eq_of_head?`, `getLast?_trimZeros`: no zero is written in vain.
* `trimZeros_append_replicate`, `exists_eq_trimZeros_append`: zeros at the end come off, and nothing
  else. -/

namespace Reckoner.Decimal

/-! ### What is written -/

theorem isDigits_digits (n : Nat) : isDigits (digits n) :=
  isDigits_iff.mpr fun _ h => isDigit_of_mem_digits h

theorem isDigits_padded (width n : Nat) : isDigits (padded width n) := by
  rw [padded, List.leftpad, isDigits_append]
  exact ⟨isDigits_replicate_zero _, isDigits_digits n⟩

theorem isDigits_trimZeros {s : List Char} (h : isDigits s) : isDigits (trimZeros s) := by
  refine isDigits_iff.mpr fun c hc => isDigits_iff.mp h c ?_
  rw [trimZeros, List.mem_reverse] at hc
  exact List.mem_reverse.mp ((List.dropWhile_sublist _).subset hc)

/-! ### The number that digits denote -/

theorem scale_add (m n : Nat) : scale (m + n) = scale m * scale n := Nat.pow_add 10 m n

theorem ofDigits_append (s t : List Char) :
    ofDigits (s ++ t) = ofDigits s * scale t.length + ofDigits t := by
  rw [ofDigits, Nat.ofDigitChars_append, Nat.ofDigitChars_eq_ofDigitChars_zero, Nat.mul_comm]
  rfl

theorem ofDigits_replicate_zero (n : Nat) : ofDigits (List.replicate n '0') = 0 := by
  rw [ofDigits, Nat.ofDigitChars_replicate_zero, Nat.mul_zero]

theorem ofDigits_zero_cons (s : List Char) : ofDigits ('0' :: s) = ofDigits s := by
  have hzero : ofDigits ['0'] = 0 := rfl
  rw [← List.singleton_append, ofDigits_append, hzero, Nat.zero_mul, Nat.zero_add]

theorem exists_digitChar {c : Char} (h : c.isDigit) : ∃ d < 10, c = Nat.digitChar d := by
  obtain ⟨h1, h2⟩ := Text.toNat_of_isDigit h
  refine ⟨c.toNat - 48, by omega, Char.toNat_inj.mp ?_⟩
  rw [Nat.toNat_digitChar_of_lt_ten (by omega)]
  omega

theorem ofDigits_digitChar {d : Nat} (hd : d < 10) : ofDigits [Nat.digitChar d] = d := by
  rw [ofDigits, Nat.ofDigitChars_cons_digitChar_of_lt_ten hd, Nat.ofDigitChars_nil]
  omega

theorem ofDigits_lt {s : List Char} (hs : isDigits s) : ofDigits s < scale s.length := by
  induction s with
  | nil => decide
  | cons c s ih =>
    rw [isDigits_cons] at hs
    obtain ⟨d, hd, rfl⟩ := exists_digitChar hs.1
    have htail := ih hs.2
    have happend := ofDigits_append [Nat.digitChar d] s
    rw [List.singleton_append, ofDigits_digitChar hd] at happend
    rw [happend, List.length_cons, scale_succ]
    have := Nat.mul_le_mul_right (scale s.length) (Nat.lt_succ_iff.mp hd)
    omega

/-! ### Writing what was read -/

theorem digits_append {n : Nat} (hn : 0 < n) {s : List Char} (hs : isDigits s) :
    digits n ++ s = digits (Nat.ofDigitChars 10 s n) := by
  induction s generalizing n with
  | nil => rw [Nat.ofDigitChars_nil, List.append_nil]
  | cons c s ih =>
    rw [isDigits_cons] at hs
    obtain ⟨d, hd, rfl⟩ := exists_digitChar hs.1
    have hnext : digits n ++ [Nat.digitChar d] = digits (10 * n + d) := by
      rw [digits, ← Nat.toDigits_of_lt_base hd, Nat.toDigits_append_toDigits (by decide) hn hd,
        digits]
    have htail := @ih (10 * n + d) (by omega) hs.2
    rw [Nat.ofDigitChars_cons_digitChar_of_lt_ten hd, ← htail, ← hnext, List.append_assoc,
      List.singleton_append]

/-- **Digits are written as they were read**, if a zero in front of them is all there is. -/
theorem digits_ofDigits {s : List Char} (hs : isDigits s) (hne : s ≠ [])
    (hzero : s.head? = some '0' → s = ['0']) : digits (ofDigits s) = s := by
  obtain ⟨c, s, rfl⟩ := List.exists_cons_of_ne_nil hne
  rw [isDigits_cons] at hs
  obtain ⟨d, hd, rfl⟩ := exists_digitChar hs.1
  rcases Nat.eq_zero_or_pos d with rfl | hpos
  · rw [hzero rfl]
    rfl
  · have htail := digits_append hpos hs.2
    rw [ofDigits, Nat.ofDigitChars_cons_digitChar_of_lt_ten hd, Nat.mul_zero, Nat.zero_add, ← htail,
      digits, Nat.toDigits_of_lt_base hd, List.singleton_append]

theorem length_digits_le {n k : Nat} (hk : 0 < k) (h : n < scale k) : (digits n).length ≤ k :=
  (Nat.length_toDigits_le_iff (by decide) hk).mpr h

theorem scale_le_scale {m n : Nat} (h : m ≤ n) : scale m ≤ scale n :=
  Nat.pow_le_pow_right (by decide) h

theorem lt_scale_length_digits (n : Nat) : n < scale (digits n).length := by
  simpa only [ofDigits_digits] using ofDigits_lt (isDigits_digits n)

theorem scale_le_of_pos {n : Nat} (hn : 0 < n) : scale ((digits n).length - 1) ≤ n := by
  rcases Nat.eq_zero_or_pos ((digits n).length - 1) with h0 | hpos
  · rw [h0]
    exact hn
  · by_contra hlt
    have := length_digits_le hpos (Nat.lt_of_not_le hlt)
    omega

theorem digits_eq_of_head? {n : Nat} (h : (digits n).head? = some '0') : digits n = ['0'] := by
  obtain ⟨s, hs⟩ : ∃ s, digits n = '0' :: s := by
    cases hd : digits n with
    | nil => simp [hd] at h
    | cons c s =>
      rw [hd, List.head?_cons] at h
      exact ⟨s, by rw [Option.some.inj h]⟩
  have hdigits : isDigits s := by
    have hall := isDigits_digits n
    rw [hs, isDigits_cons] at hall
    exact hall.2
  have hvalue : n = ofDigits s := by rw [← ofDigits_zero_cons, ← hs, ofDigits_digits]
  rcases List.eq_nil_or_concat s with rfl | ⟨_, _, hne⟩
  · exact hs
  · -- the digits behind the zero would be too many
    have hpos : 0 < s.length := by simp [hne]
    have hlt := ofDigits_lt hdigits
    have hle := length_digits_le hpos (hvalue ▸ hlt)
    rw [hs, List.length_cons] at hle
    omega

theorem digits_eq_zero_iff {n : Nat} : digits n = ['0'] ↔ n = 0 := by
  constructor
  · intro h
    rw [← ofDigits_digits n, h]
    rfl
  · rintro rfl
    rfl

theorem ofDigits_padded (width n : Nat) : ofDigits (padded width n) = n := by
  rw [padded, List.leftpad, ofDigits_append, ofDigits_replicate_zero, Nat.zero_mul, Nat.zero_add,
    ofDigits_digits]

theorem length_padded {width n : Nat} (hw : 0 < width) (h : n < scale width) :
    (padded width n).length = width := by
  have := length_digits_le hw h
  rw [padded, List.length_leftpad]
  omega

/-- **Digits that are filled up to as many as were read** are those that were read. -/
theorem padded_ofDigits {s : List Char} (hs : isDigits s) (hne : s ≠ []) :
    padded s.length (ofDigits s) = s := by
  induction s with
  | nil => exact absurd rfl hne
  | cons c s ih =>
    by_cases hzero : (c :: s).head? = some '0' → c :: s = ['0']
    · rw [padded, digits_ofDigits hs hne hzero, List.leftpad, Nat.sub_self]
      rfl
    · obtain ⟨hc, hs0⟩ := Classical.not_imp.mp hzero
      obtain rfl := Option.some.inj hc
      have hs' := (isDigits_cons.mp hs).2
      have hne' : s ≠ [] := fun h => hs0 (by rw [h])
      have htail := ih hs' hne'
      have hlen := length_digits_le (List.length_pos_iff.mpr hne') (ofDigits_lt hs')
      rw [padded, List.leftpad] at htail ⊢
      rw [ofDigits_zero_cons, List.length_cons, Nat.succ_sub hlen, List.replicate_succ,
        List.cons_append, htail]

/-! ### Zeros at the end -/

theorem trimZeros_append_replicate {s : List Char} (h : s.getLast? ≠ some '0') (n : Nat) :
    trimZeros (s ++ List.replicate n '0') = s := by
  have hzeros : ∀ c ∈ List.replicate n '0', (c == '0') = true := by
    intro c hc
    rw [List.eq_of_mem_replicate hc]
    rfl
  rw [trimZeros, List.reverse_append, List.reverse_replicate, List.dropWhile_append_of_pos hzeros]
  rcases List.eq_nil_or_concat s with rfl | ⟨s, c, rfl⟩
  · rfl
  · have hc : c ≠ '0' := fun hc => h (by rw [hc, List.concat_eq_append, List.getLast?_concat])
    simp [hc]

theorem exists_eq_trimZeros_append (s : List Char) :
    ∃ n, s = trimZeros s ++ List.replicate n '0' := by
  have hzeros : ∀ c ∈ s.reverse.takeWhile (· == '0'), c = '0' := fun c hc => by
    simpa using List.all_eq_true.mp List.all_takeWhile c hc
  have hsplit := List.takeWhile_append_dropWhile (p := (· == '0')) (l := s.reverse)
  rw [List.eq_replicate_of_mem hzeros] at hsplit
  refine ⟨(s.reverse.takeWhile (· == '0')).length, ?_⟩
  rw [trimZeros, ← List.reverse_replicate, ← List.reverse_append, hsplit, List.reverse_reverse]

theorem getLast?_trimZeros (s : List Char) : (trimZeros s).getLast? ≠ some '0' := by
  intro h
  have hhead := List.head?_dropWhile_not (· == '0') s.reverse
  rw [trimZeros, List.getLast?_reverse] at h
  rw [h] at hhead
  exact absurd hhead (by decide)

theorem length_trimZeros_le (s : List Char) : (trimZeros s).length ≤ s.length := by
  obtain ⟨n, hn⟩ := exists_eq_trimZeros_append s
  have hlength := congrArg List.length hn
  rw [List.length_append] at hlength
  omega

theorem trimZeros_padded {s : List Char} (hs : isDigits s) (h : s.getLast? ≠ some '0')
    {places : Nat} (hlen : s.length ≤ places) :
    trimZeros (padded places (ofDigits s * scale (places - s.length))) = s := by
  obtain ⟨n, rfl⟩ := Nat.exists_eq_add_of_le hlen
  rw [Nat.add_sub_cancel_left]
  have hvalue : ofDigits s * scale n = ofDigits (s ++ List.replicate n '0') := by
    rw [ofDigits_append, List.length_replicate, ofDigits_replicate_zero, Nat.add_zero]
  rcases Nat.eq_zero_or_pos (s.length + n) with h0 | hpos
  · obtain rfl := List.length_eq_zero_iff.mp (Nat.eq_zero_of_add_eq_zero_right h0)
    obtain rfl := Nat.eq_zero_of_add_eq_zero_left h0
    rfl
  · have hpadded := padded_ofDigits (s := s ++ List.replicate n '0')
      (isDigits_append.mpr ⟨hs, isDigits_replicate_zero n⟩)
      (List.length_pos_iff.mp (by rwa [List.length_append, List.length_replicate]))
    rw [List.length_append, List.length_replicate] at hpadded
    rw [hvalue, hpadded, trimZeros_append_replicate h]

theorem trimZeros_padded_zero (places : Nat) : trimZeros (padded places 0) = [] := by
  have hzeros := trimZeros_padded (s := []) rfl (by simp) (Nat.zero_le places)
  rwa [show ofDigits [] = 0 from rfl, Nat.zero_mul] at hzeros

end Reckoner.Decimal
