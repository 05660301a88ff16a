import Reckoner.Proofs.Display.Copied
import Reckoner.Proofs.Display.ReadBack
import Reckoner.Proofs.Typed

/-! # Values that are typed as they are shown

Typed text loses its blanks before it is read. Between groups they say nothing, so a value that is
shown with a comma or a period in front of its fraction is typed back as it is copied. But where the
space opens the fraction, the point is lost, and the digits of the fraction are read as digits of
the whole number: behind groups too, since the marks of a text whose last group is too long tell of
no fraction.

* `resolve_unpointed`: a number without its point is read as a whole number.
* `units_lt_of_undivided`: the whole number of all digits is a different value.
* `typedValue_display`: what a shown value is typed back as. -/

namespace Reckoner

open Reckoner.Numeral

/-! ### A number without its point -/

namespace Numeral

/-- All digits of a numeral, as a whole number. -/
def undivided (n : Numeral) : Numeral where
  negative := n.negative
  whole := n.whole ++ n.fraction
  fraction := []
  whole_ne_nil := by simp [n.whole_ne_nil]
  whole_digits := isDigits_append.mpr ⟨n.whole_digits, n.fraction_digits⟩
  fraction_digits := isDigits_nil

theorem undivided_eq_self {n : Numeral} (h : n.fraction = []) : n.undivided = n := by
  obtain ⟨negative, whole, fraction, hne, hwhole, hfraction⟩ := n
  obtain rfl : fraction = [] := h
  simp [undivided]

/-- The number in writing, its point left out. -/
def Layout.unpointed (mark : Char) (l : Layout) : List Char :=
  sign l.negative ++ (l.front mark ++ l.fraction)

section Unpointed

variable {c : Separators} {mark : Char} {l : Layout}

theorem isPointOrComma_of_thousand (hc : c.ambiguous = false) (hd : c.decimal = .space)
    (hm : c.thousand.mark? = some mark) : isPointOrComma mark := by
  refine Separator.isPointOrComma_of_mark? hm fun hspace => ?_
  rw [Separators.ambiguous, hspace, hd] at hc
  exact absurd hc (by decide)

theorem opensFraction_replicate (c : Separators) (hm : isPointOrComma mark) (k : ℕ) {trailing : ℕ}
    (hlong : 3 < trailing) : opensFraction c (List.replicate k mark) trailing = false := by
  rcases Nat.eq_zero_or_pos k with rfl | hpos
  · rfl
  have hlast : (List.replicate k mark).getLast? = some mark := by
    rw [List.getLast?_replicate, if_neg hpos.ne']
  have hcounts : (List.replicate k mark).count ',' ≠ (List.replicate k mark).count '.' := by
    rcases isPointOrComma_iff.mp hm with rfl | rfl <;>
      simp [List.count_replicate, hpos.ne, hpos.ne']
  rw [opensFraction, hlast]
  dsimp only
  rw [List.length_replicate, if_neg hcounts, List.count_replicate_self]
  split_ifs with hone
  · simp only [Bool.and_eq_false_iff, Bool.or_eq_false_iff, decide_eq_false_iff_not]
    omega
  · simp [hone]

theorem trailingDigits_unpointed (hm : isPointOrComma mark) (hg : l.groups ≠ []) :
    (trailingDigits (l.front mark ++ l.fraction)).length = 3 + l.fraction.length := by
  obtain ⟨gs, g, hgs⟩ := (List.eq_nil_or_concat l.groups).resolve_left hg
  have hmem : g ∈ l.groups := by simp [hgs]
  have hlast : isDigits (g ++ l.fraction) :=
    isDigits_append.mpr ⟨l.groups_digits g hmem, l.fraction_digits⟩
  have hfront : l.front mark ++ l.fraction =
      l.first ++ Layout.joined mark gs ++ mark :: (g ++ l.fraction) := by
    simp [Layout.front, hgs, Layout.joined]
  rw [hfront, (trailingDigits_append_cons (not_isDigit_of_isPointOrComma hm) hlast).1,
    List.length_append, l.length_group g hmem]

section Groups

variable (hm : isPointOrComma mark) (hg : l.groups ≠ [])
include hm

theorem mem_unpointed {ch : Char} (h : ch ∈ l.front mark ++ l.fraction) :
    ch.isDigit ∨ isPointOrComma ch := by
  rcases List.mem_append.mp h with h | h
  · rcases Layout.mem_front h with hd | ⟨rfl, -⟩
    · exact .inl hd
    · exact .inr hm
  · exact .inl (isDigits_iff.mp l.fraction_digits ch h)

include hg

/-- **Behind groups the marks tell of no fraction.** -/
theorem ofMarks?_unpointed (c : Separators) (hf : l.fraction ≠ []) :
    ofMarks? c (l.unpointed mark) = some l.numeral.undivided := by
  have hmem : ∀ ch ∈ l.front mark ++ l.fraction, ch.isDigit ∨ isPointOrComma ch := fun _ =>
    mem_unpointed hm
  have hall :
      (l.front mark ++ l.fraction).all (fun ch => ch.isDigit || isPointOrComma ch) = true := by
    simpa only [List.all_eq_true, Bool.or_eq_true] using hmem
  have hmarks : (l.front mark ++ l.fraction).filter isPointOrComma =
      List.replicate l.groups.length mark := by
    rw [Layout.front, List.filter_append, List.filter_append,
      filter_isPointOrComma_of_isDigits l.first_digits,
      filter_isPointOrComma_joined (fun _ => hm) l.groups_digits,
      filter_isPointOrComma_of_isDigits l.fraction_digits, List.nil_append, List.append_nil]
  have hplain : l.Plain mark '.' := ⟨fun _ => hm, fun _ => rfl⟩
  have hdigits : (l.front mark ++ l.fraction).filter Char.isDigit = l.whole ++ l.fraction := by
    rw [List.filter_append, filter_isDigit_front hplain,
      List.filter_eq_self.mpr (isDigits_iff.mp l.fraction_digits)]
  have hlong : 3 < (trailingDigits (l.front mark ++ l.fraction)).length := by
    have := List.length_pos_iff.mpr hf
    rw [trailingDigits_unpointed hm hg]
    omega
  have hopens := opensFraction_replicate c hm l.groups.length hlong
  rw [ofMarks?, Layout.unpointed, takeSign_sign_append_marked hmem]
  dsimp only
  rw [if_pos hall, hmarks, hopens, if_neg (by decide), hdigits]
  exact make?_eq_some_iff.mpr ⟨rfl, rfl, rfl⟩

/-- **The last group is too long for a convention** whose point would be a space. -/
theorem ofConvention?_unpointed (hd : c.decimal = .space) (hf : l.fraction ≠ []) :
    ofConvention? c (l.unpointed mark) = none := by
  refine Option.eq_none_iff_forall_ne_some.mpr fun n hn => ?_
  obtain ⟨-, l', mark', point, hfits, htext, -⟩ := exists_layout_of_ofConvention? hn
  have hmem : ∀ ch ∈ l.front mark ++ l.fraction, ch.isDigit ∨ isPointOrComma ch := fun _ =>
    mem_unpointed hm
  have hbody : l.front mark ++ l.fraction = l'.body mark' point := by
    have hsigns := congrArg takeSign htext
    rw [Layout.unpointed, takeSign_sign_append_marked hmem, Layout.takeSign_text] at hsigns
    exact (Prod.mk.inj hsigns).2
  -- no space is left, so there is no fraction
  have hfraction : l'.fraction = [] := by
    by_contra hne
    have hpoint : point = ' ' := by simpa [hd, Separator.mark?, eq_comm] using hfits.decimal hne
    have hspace : ' ' ∈ l.front mark ++ l.fraction := by
      rw [hbody, Layout.body, pointed, if_neg hne, hpoint]
      simp
    rcases hmem ' ' hspace with h | h <;> exact absurd h (by decide)
  have hmark : mark ∈ l.front mark ++ l.fraction := by
    obtain ⟨g, gs, hgs⟩ := List.exists_cons_of_ne_nil hg
    simp [Layout.front, hgs, Layout.joined]
  rw [Layout.body, hfraction, pointed, if_pos rfl, List.append_nil] at hbody
  -- so the mark stands between groups, and the last of them has three digits
  rw [hbody] at hmark
  rcases Layout.mem_front hmark with hdigit | ⟨rfl, hg'⟩
  · rw [not_isDigit_of_isPointOrComma hm] at hdigit
    exact absurd hdigit (by decide)
  · have hlong := trailingDigits_unpointed hm hg
    have hshort := trailingDigits_unpointed hm hg'
    rw [hfraction, List.append_nil] at hshort
    rw [hbody, hshort] at hlong
    have := List.length_pos_iff.mpr hf
    simp only [List.length_nil] at hlong
    omega

end Groups

/-- **A number without its point is read as a whole number**, where the space is the point. -/
theorem resolve_unpointed (hc : c.ambiguous = false) (hd : c.decimal = .space)
    (hm : l.groups ≠ [] → c.thousand.mark? = some mark) :
    resolve c (l.unpointed mark) = some l.numeral.undivided := by
  by_cases hf : l.fraction = []
  · have htext : l.unpointed mark = l.text mark ' ' := by
      rw [Layout.unpointed, Layout.text, Layout.body, hf, pointed, if_pos rfl]
    have hfits : l.Fits c mark ' ' := ⟨hm, fun h => absurd hf h⟩
    rw [htext, Layout.resolve_text hc hfits, undivided_eq_self hf]
  by_cases hg : l.groups = []
  · have htext : l.unpointed mark = l.numeral.undivided.text := by
      simp [Layout.unpointed, Layout.front, hg, Layout.joined, Numeral.text, undivided,
        Layout.numeral, Layout.whole, pointed]
    rw [htext, resolve_text_of_whole rfl]
  · have hmark : isPointOrComma mark := isPointOrComma_of_thousand hc hd (hm hg)
    have hmem : ∀ ch ∈ l.front mark ++ l.fraction, ch.isDigit ∨ isPointOrComma ch := fun _ =>
      mem_unpointed hmark
    have hinUse : c.decimal ≠ .disabled := by simp [hd]
    have htrim : Text.trim (l.unpointed mark) = l.unpointed mark := trim_sign_append hmem
    rw [resolve, htrim, ofConvention?_unpointed hmark hg hd hf]
    dsimp only
    rw [if_neg hinUse, ofMarks?_unpointed hmark hg c hf]

end Unpointed

/-! ### The value of all digits -/

theorem numerator_undivided (n : Numeral) : n.undivided.numerator = n.numerator := by
  rw [numerator, numerator, undivided, List.append_nil]

theorem denominator_undivided (n : Numeral) : n.undivided.denominator = 1 := rfl

section Value

variable {n : Numeral} (hf : n.fraction ≠ [])
include hf

/-- **A number with a fraction has a smaller value than the whole number of all its digits**, unless
it is zero. -/
theorem units_lt_of_undivided (hpos : 0 < n.numerator) (hfit : n.numerator < 2 ^ 53)
    (hplaces : n.fraction.length ≤ 10) {y z : Float} (hy : n.value? = some y)
    (hz : n.undivided.value? = some z) : Binary64.units y < Binary64.units z := by
  have hwhole : n.numerator * Binary64.one ≤ Binary64.units z := by
    refine Binary64.mul_one_le_units n.undivided.denominator_pos hz ?_ ?_
    · rw [numerator_undivided, denominator_undivided, Nat.mul_one]
    · rw [numerator_undivided, denominator_undivided, Nat.mul_one]
      exact hfit
  have herror :=
    (Binary64.error_of_nearest? n.denominator_pos hy (normal_of_length_fraction hplaces)).1
  have hten : 10 ≤ n.denominator := by
    have hone := Decimal.scale_le_scale (List.length_pos_iff.mpr hf)
    exact hone
  have hdivided := Nat.mul_le_mul_left (Binary64.units y) hten
  have hnonzero : 0 < n.numerator * Binary64.one := Nat.mul_pos hpos Binary64.one_pos
  generalize Binary64.units y * n.denominator = u at *
  generalize n.numerator * Binary64.one = v at *
  omega

end Value

end Numeral

/-! ### Typing what is shown -/

theorem compact_text_of_space {mark : Char} {l : Layout}
    (hm : l.groups ≠ [] → isPointOrComma mark) :
    Text.compact (l.text mark ' ') = l.unpointed mark := by
  have hpointed : Text.compact (pointed ' ' l.fraction) = l.fraction := by
    unfold pointed
    split_ifs with hf
    · exact hf.symm
    · rw [Text.compact, List.filter_cons_of_neg (by decide), ← Text.compact,
        Token.compact_of_isDigits l.fraction_digits]
  rw [Layout.text, Layout.body, Text.compact_append, Text.compact_append, Token.compact_sign,
    Token.compact_front hm, hpointed, Layout.unpointed]

section Typed

variable {c : Separators} (hc : c.ambiguous = false) {x : Float} (hx : x.isFinite)
include hc hx

/-- **Typed back, a shown value stands for the numeral that is copied**, unless the space is the
point. -/
theorem resolve_compact_display (hd : c.decimal ≠ .disabled) (hspace : c.decimal ≠ .space)
    {n : Numeral} (hn : n.text = plain x) : resolve c (Text.compact (display c x)) = some n := by
  obtain ⟨l, mark, point, hfits, htext, hnumeral⟩ := exists_display_eq_text hc hx
  rw [shownNumeral, if_neg hd, ← hn, text_inj] at hnumeral
  rw [htext, Token.compact_text (fun hg => Token.isPointOrComma_or_space (hfits.thousand hg))
    (isPointOrComma_of_decimal hspace hfits), Layout.resolve_text hc hfits.unspaced,
    Layout.numeral_unspaced, hnumeral]

/-- **Where the space is the point, a shown value stands for all its digits** when it is typed
back. -/
theorem resolve_compact_display_of_space (hspace : c.decimal = .space) {n : Numeral}
    (hn : n.text = plain x) : resolve c (Text.compact (display c x)) = some n.undivided := by
  obtain ⟨l, mark, point, hfits, htext, hnumeral⟩ := exists_display_eq_text hc hx
  rw [shownNumeral, if_neg (by simp [hspace]), ← hn, text_inj] at hnumeral
  have hmark : l.groups ≠ [] → isPointOrComma mark := fun hg =>
    isPointOrComma_of_thousand hc hspace (hfits.thousand hg)
  have hspaced : l.text mark point = l.text mark ' ' := by
    by_cases hf : l.fraction = []
    · simp [Layout.text, Layout.body, pointed, hf]
    · have hpoint : point = ' ' := by
        simpa [hspace, Separator.mark?, eq_comm] using hfits.decimal hf
      rw [hpoint]
  rw [htext, hspaced, compact_text_of_space hmark, resolve_unpointed hc hspace hfits.thousand,
    hnumeral]

/-- **What a shown value is typed back as.** With a comma or a period as the point it is the value
that is copied. With a space as the point it is the value of all its digits as a whole number, which
is the same only if there is no fraction. -/
theorem typedValue_display (hd : c.decimal ≠ .disabled) :
    ∃ (n : Numeral) (y : Float), n.text = plain x ∧ n.value? = some y ∧
      (c.decimal ≠ .space → typedValue c (display c x) = .ok y) ∧
      (c.decimal = .space → ∃ z, n.undivided.value? = some z ∧ typedValue c (display c x) = .ok z ∧
        (z = y ↔ n.fraction = [])) := by
  obtain ⟨l, mark, point, hfits, htext, hnumeral⟩ := exists_display_eq_text hc hx
  rw [shownNumeral, if_neg hd] at hnumeral
  obtain ⟨y, hy⟩ := exists_value?_of_plain hx hnumeral
  refine ⟨l.numeral, y, hnumeral, hy, fun hspace => ?_, fun hspace => ?_⟩
  · exact typedValue_of_value? (resolve_compact_display hc hx hd hspace hnumeral) hy
  · have hresolve := resolve_compact_display_of_space hc hx hspace hnumeral
    by_cases hf : l.numeral.fraction = []
    · rw [undivided_eq_self hf] at hresolve ⊢
      exact ⟨y, hy, typedValue_of_value? hresolve hy, by simp [hf]⟩
    · have hfit : l.numeral.numerator < 2 ^ 53 :=
        (numerator_le_of_fraction hx hnumeral hf).trans_lt (by decide)
      have hplaces : l.numeral.fraction.length ≤ 10 :=
        (numerator_mul_scale hx hnumeral).1.trans (Nat.min_le_left _ _)
      obtain ⟨z, hz⟩ := exists_value?_of_lt (n := l.numeral.undivided) (by
        rwa [numerator_undivided, denominator_undivided, Nat.mul_one])
      have hlt :=
        units_lt_of_undivided hf (numerator_pos_of_fraction hx hnumeral hf) hfit hplaces hy hz
      have hne : z ≠ y := by
        rintro rfl
        exact hlt.false
      exact ⟨z, hz, typedValue_of_value? hresolve hz, by simp [hf, hne]⟩

end Typed

/-- A value with one group, and a space in front of its fraction. -/
theorem typedValue_display_grouped :
    (Separators.ambiguous ⟨.comma, .space⟩ = false ∧ (1234.5 : Float).isFinite ∧
      Separator.space ≠ .disabled) ∧
    ∃ (n : Numeral) (y : Float), n.text = plain 1234.5 ∧ n.value? = some y ∧
      (Separator.space ≠ .space →
        typedValue ⟨.comma, .space⟩ (display ⟨.comma, .space⟩ 1234.5) = .ok y) ∧
      (Separator.space = .space → ∃ z, n.undivided.value? = some z ∧
        typedValue ⟨.comma, .space⟩ (display ⟨.comma, .space⟩ 1234.5) = .ok z ∧
        (z = y ↔ n.fraction = [])) := by
  have hc : Separators.ambiguous ⟨.comma, .space⟩ = false := by decide
  have hx : (1234.5 : Float).isFinite := by decide
  have hd : (⟨.comma, .space⟩ : Separators).decimal ≠ .disabled := by decide
  exact ⟨⟨hc, hx, hd⟩, typedValue_display hc hx hd⟩

/-- **Typed back, a half is five.** -/
theorem half_undivided :
    (Separators.ambiguous ⟨.comma, .space⟩ = false ∧ (0.5 : Float).isFinite) ∧
    display ⟨.comma, .space⟩ 0.5 = "0 5".toList ∧
    (∃ n : Numeral, n.text = plain 0.5 ∧ n.value?.map Float.toBits = some 0x3fe0000000000000) ∧
    (typedValue ⟨.comma, .space⟩ "0 5".toList).toOption.map Float.toBits =
      some 0x4014000000000000 :=
  ⟨⟨by decide, by decide⟩, by decide +kernel,
    ⟨⟨false, ['0'], ['5'], by decide, by decide, by decide⟩, by decide +kernel, by decide +kernel⟩,
    by decide +kernel⟩

end Reckoner
