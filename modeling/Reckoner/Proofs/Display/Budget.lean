import Reckoner.Proofs.Display.Copied

/-! # How many digits are shown

The places behind the point are what the digits of the whole part leave of fifteen, and these digits
are counted before the value is rounded. Rounding may carry into one more of them, but then the
value is rounded to a power of ten, and zeros are all there is behind the point: they come off, and
the digits that are left keep to their number. The sign is decided last, by the digits that are
shown, so a convention without a decimal mark decides it anew for the whole part.

* `length_ofFinite`: with a fraction there are fifteen digits at most.
* `exists_ne_zero_iff`, `exists_numeral_of_digits`: a minus stands in front of what is not zero.
* `undo_display_of_mark`, `undo_display_of_disabled`: what a convention shows, without its marks.
* `shown_of_isFinite`: what is shown has one form. -/

namespace Reckoner

open Reckoner.Numeral

/-! ### The digits of a finite value -/

/-- No digit is written in vain, at most ten stand behind the point, and with them there are at most
fifteen. -/
structure Numeral.Normal (n : Numeral) : Prop where
  leading : n.whole.head? = some '0' → n.whole = ['0']
  trailing : n.fraction.getLast? ≠ some '0'
  length_fraction : n.fraction.length ≤ 10
  length : n.fraction ≠ [] → n.whole.length + n.fraction.length ≤ 15

namespace Digits

theorem length_fraction_ofFinite (x : Float) : (ofFinite x).fraction.length ≤ places x := by
  rw [fraction_ofFinite]
  rcases Nat.eq_zero_or_pos (places x) with h0 | hpos
  · rw [h0, Decimal.scale_zero, Nat.mod_one, Decimal.trimZeros_padded_zero]
    exact Nat.zero_le _
  · have hrest := Nat.mod_lt (rounded x) (Decimal.scale_pos (places x))
    exact (Decimal.length_trimZeros_le _).trans (Decimal.length_padded hpos hrest).le

/-- **With a fraction there are fifteen digits at most.** A digit that rounding puts in front of the
whole part leaves no fraction. -/
theorem length_ofFinite {x : Float} (hf : (ofFinite x).fraction ≠ []) :
    (ofFinite x).whole.length + (ofFinite x).fraction.length ≤ 15 := by
  have hfraction := length_fraction_ofFinite x
  have hpos := List.length_pos_iff.mpr hf
  have hbudget := wholePlaces_add_places (x := x) (by omega)
  have hwhole : (ofFinite x).whole.length ≤ wholePlaces x := by
    have hlt : rounded x < Decimal.scale (wholePlaces x + places x) := by
      refine (rounded_le_scale x).lt_of_ne fun hcarry => hf ?_
      rw [fraction_ofFinite, hcarry, Decimal.scale_add, Nat.mul_mod_left,
        Decimal.trimZeros_padded_zero]
    have hdigits : 0 < wholePlaces x := List.length_pos_iff.mpr Nat.toDigits_ne_nil
    rw [Decimal.scale_add, ← Nat.div_lt_iff_lt_mul (Decimal.scale_pos _)] at hlt
    rw [whole_ofFinite]
    exact Decimal.length_digits_le hdigits hlt
  omega

theorem head?_ofFinite {x : Float} (h : (ofFinite x).whole.head? = some '0') :
    (ofFinite x).whole = ['0'] := Decimal.digits_eq_of_head? h

theorem getLast?_ofFinite (x : Float) : (ofFinite x).fraction.getLast? ≠ some '0' :=
  Decimal.getLast?_trimZeros _

theorem normal_of_ofFinite {x : Float} {n : Numeral} (hwhole : n.whole = (ofFinite x).whole)
    (hfraction : n.fraction = (ofFinite x).fraction) : n.Normal where
  leading := by
    rw [hwhole]
    exact head?_ofFinite
  trailing := by
    rw [hfraction]
    exact getLast?_ofFinite x
  length_fraction := by
    rw [hfraction]
    exact (length_fraction_ofFinite x).trans (Nat.min_le_left _ _)
  length := by
    rw [hwhole, hfraction]
    exact length_ofFinite

theorem isZero_iff {d : Digits} : d.isZero = true ↔ d.whole = ['0'] ∧ d.fraction = [] := by
  simp [isZero]

end Digits

/-! ### The minus -/

/-- The minus is there if the value has the sign bit and not all digits are zero. -/
def Numeral.SignedAs (x : Float) (n : Numeral) : Prop :=
  n.negative = true ↔ Binary64.isNegative x = true ∧ ∃ ch ∈ n.whole ++ n.fraction, ch ≠ '0'

namespace Numeral

theorem exists_ne_zero_iff {n : Numeral} (hleading : n.whole.head? = some '0' → n.whole = ['0'])
    (htrailing : n.fraction.getLast? ≠ some '0') :
    (∃ ch ∈ n.whole ++ n.fraction, ch ≠ '0') ↔ ¬ (n.whole = ['0'] ∧ n.fraction = []) := by
  constructor
  · rintro ⟨ch, hch, hne⟩ ⟨hw, hf⟩
    rw [hw, hf] at hch
    exact hne (List.mem_singleton.mp hch)
  · intro hnot
    by_contra hzeros
    have hall : ∀ ch ∈ n.whole ++ n.fraction, ch = '0' := by
      intro ch hch
      by_contra hne
      exact hzeros ⟨ch, hch, hne⟩
    refine hnot ⟨hleading ?_, ?_⟩
    · obtain ⟨ch, s, hs⟩ := List.exists_cons_of_ne_nil n.whole_ne_nil
      rw [hs, List.head?_cons, hall ch (by simp [hs])]
    · by_contra hf
      refine htrailing ?_
      rw [List.getLast?_eq_some_getLast hf,
        hall _ (List.mem_append_right _ (List.getLast_mem hf))]

theorem text_ne_minusZero {x : Float} {n : Numeral} (h : n.SignedAs x) : n.text ≠ ['-', '0'] := by
  intro htext
  have hn : n = ⟨true, ['0'], [], by simp, rfl, rfl⟩ := text_inj.mp htext
  obtain ⟨-, ch, hch, hne⟩ := h.mp (by rw [hn])
  rw [hn] at hch
  exact hne (List.mem_singleton.mp hch)

end Numeral

theorem exists_numeral_of_digits (x : Float) {d : Digits} (hne : d.whole ≠ [])
    (hw : isDigits d.whole)
    (hf : isDigits d.fraction) (hleading : d.whole.head? = some '0' → d.whole = ['0'])
    (htrailing : d.fraction.getLast? ≠ some '0') :
    ∃ n : Numeral, n.text = d.sign x ++ d.whole ++ pointed '.' d.fraction ∧ n.whole = d.whole ∧
      n.fraction = d.fraction ∧ n.SignedAs x := by
  let n : Numeral := ⟨Binary64.isNegative x && !d.isZero, d.whole, d.fraction, hne, hw, hf⟩
  refine ⟨n, rfl, rfl, rfl, ?_⟩
  rw [SignedAs, exists_ne_zero_iff (n := n) hleading htrailing, ← Digits.isZero_iff]
  simp [n]

/-! ### Taking the marks out -/

/-- What is shown in a convention, without the thousand marks and with a period for the decimal
mark. -/
def Separators.undo (c : Separators) (s : List Char) : List Char :=
  (s.filter (!c.thousand.isMark ·)).map fun ch => if c.decimal.isMark ch then '.' else ch

section Undo

variable {c : Separators}

theorem filter_isMark_sign (negative : Bool) :
    (sign negative).filter (!c.thousand.isMark ·) = sign negative :=
  filter_isMark_eq_self fun _ hch hm => Separator.ne_minus_of_mark? hm (eq_minus_of_mem_sign hch)

theorem filter_isMark_group {s : List Char} (hne : s ≠ []) (hs : isDigits s) :
    (c.group s).filter (!c.thousand.isMark ·) = s := by
  obtain ⟨l, mark, hnumeral, hmark, hgroup⟩ := exists_group_eq_front c false s [] hne hs rfl
  have hwhole : l.first ++ l.groups.flatten = s := congrArg Numeral.whole hnumeral
  rw [hgroup, Layout.front, List.filter_append,
    filter_isMark_eq_self (mark?_ne_of_isDigits l.first_digits),
    filter_isMark_joined hmark l.groups_digits, hwhole]

theorem map_point_eq_self {s : List Char} (h : ∀ ch ∈ s, c.decimal.isMark ch = false) :
    (s.map fun ch => if c.decimal.isMark ch then '.' else ch) = s := by
  refine (List.map_congr_left fun ch hch => ?_).trans (List.map_id s)
  rw [h ch hch]
  rfl

theorem undo_append (s t : List Char) : c.undo (s ++ t) = c.undo s ++ c.undo t := by
  rw [Separators.undo, List.filter_append, List.map_append]
  rfl

theorem undo_sign (negative : Bool) : c.undo (sign negative) = sign negative := by
  rw [Separators.undo, filter_isMark_sign, map_point_eq_self]
  intro ch hch
  rw [eq_minus_of_mem_sign hch]
  exact Separator.isMark_minus c.decimal

theorem map_point_of_isDigits {s : List Char} (hs : isDigits s) :
    (s.map fun ch => if c.decimal.isMark ch then '.' else ch) = s :=
  map_point_eq_self fun ch hch =>
    Separator.isMark_eq_false_of_isDigit _ (isDigits_iff.mp hs ch hch)

theorem undo_digits {s : List Char} (hs : isDigits s) : c.undo s = s := by
  rw [Separators.undo, filter_isMark_eq_self (mark?_ne_of_isDigits hs), map_point_of_isDigits hs]

theorem undo_group {s : List Char} (hne : s ≠ []) (hs : isDigits s) : c.undo (c.group s) = s := by
  rw [Separators.undo, filter_isMark_group hne hs, map_point_of_isDigits hs]

theorem undo_pointed (hc : c.ambiguous = false) {point : Char}
    (hpoint : c.decimal.mark? = some point)
    {s : List Char} (hs : isDigits s) : c.undo (pointed point s) = pointed '.' s := by
  rcases eq_or_ne s [] with rfl | hne
  · rfl
  have hmark : c.decimal.isMark point = true := by rw [Separator.isMark, hpoint, beq_self_eq_true]
  have hstays : ∀ ch ∈ point :: s, c.thousand.mark? ≠ some ch := by
    intro ch hch hm
    rcases List.mem_cons.mp hch with rfl | hch
    · exact Separators.mark?_ne_of_not_ambiguous hc hm hpoint rfl
    · exact mark?_ne_of_isDigits hs ch hch hm
  rw [pointed, pointed, if_neg hne, if_neg hne, Separators.undo, filter_isMark_eq_self hstays,
    List.map_cons, map_point_of_isDigits hs, if_pos hmark]

end Undo

/-! ### What is shown -/

section Shown

variable {c : Separators} {x : Float} (hx : x.isFinite)
include hx

theorem undo_display_of_mark (hc : c.ambiguous = false) (hd : c.decimal ≠ .disabled) :
    c.undo (display c x) = plain x := by
  obtain ⟨hne, hw, hf⟩ := digits_ofFloat hx
  obtain ⟨point, hpoint⟩ := Option.ne_none_iff_exists'.mp (Separator.mark?_eq_none_iff.not.mpr hd)
  rw [display, hpoint, undo_append, undo_append, Digits.sign, undo_sign, undo_group hne hw,
    undo_pointed hc hpoint hf]
  rfl

theorem undo_display_of_disabled (hd : c.decimal = .disabled) :
    c.undo (display c x) = (⟨(Digits.ofFloat x).whole, []⟩ : Digits).sign x ++
      (Digits.ofFloat x).whole := by
  obtain ⟨hne, hw, -⟩ := digits_ofFloat hx
  rw [display, Separator.mark?_eq_none_iff.mpr hd, undo_append, Digits.sign, undo_sign,
    undo_group hne hw]

end Shown

/-- What is shown of a value, by itself and in every convention, is this numeral. -/
structure Numeral.ShownOf (x : Float) (n : Numeral) : Prop where
  copied : n.text = plain x
  normal : n.Normal
  /-- Its digits are those of the value, rounded to the places that are kept, but for zeros at the
  end. -/
  digits : n.fraction.length ≤ Digits.places x ∧
    n.numerator * Decimal.scale (Digits.places x - n.fraction.length) = Digits.rounded x
  signed : n.SignedAs x
  shown : ∀ c : Separators, c.ambiguous = false → c.decimal ≠ .disabled →
    c.undo (display c x) = plain x
  /-- Without a decimal mark the fraction is cut off, and the sign is that of what is left. -/
  shown_whole : ∀ c : Separators, c.decimal = .disabled → ∃ k : Numeral,
    k.text = c.undo (display c x) ∧ k.whole = n.whole ∧ k.fraction = [] ∧ k.SignedAs x

theorem Numeral.ShownOf.display_ne_minusZero {x : Float} {n : Numeral} (h : n.ShownOf x)
    {c : Separators} (hc : c.ambiguous = false) : display c x ≠ ['-', '0'] := by
  intro hzero
  have hundo : c.undo (display c x) = ['-', '0'] := by
    have hsplit : ['-', '0'] = sign true ++ ['0'] := rfl
    rw [hzero, hsplit, undo_append, undo_sign, undo_digits rfl]
  by_cases hd : c.decimal = .disabled
  · obtain ⟨k, hk, -, -, hsigned⟩ := h.shown_whole c hd
    exact text_ne_minusZero hsigned (hk.trans hundo)
  · exact text_ne_minusZero h.signed (h.copied.trans ((h.shown c hc hd).symm.trans hundo))

/-- **The digits that are shown keep their budget and have one form.** What is copied of a finite
value is a numeral of its rounded digits without a digit or a minus in vain, and what a convention
shows is that numeral, or its whole part where no decimal mark is in use. -/
theorem shown_of_isFinite {x : Float} (hx : x.isFinite) :
    ∃ n : Numeral, n.ShownOf x ∧ plain x ≠ ['-', '0'] ∧
      ∀ c : Separators, c.ambiguous = false → display c x ≠ ['-', '0'] := by
  have hdigits := Digits.ofFloat_of_isFinite hx
  obtain ⟨hne, hw, hf⟩ := digits_ofFloat hx
  have hleading : (Digits.ofFloat x).whole.head? = some '0' → (Digits.ofFloat x).whole = ['0'] :=
    hdigits ▸ Digits.head?_ofFinite
  have htrailing : (Digits.ofFloat x).fraction.getLast? ≠ some '0' :=
    hdigits ▸ Digits.getLast?_ofFinite x
  obtain ⟨n, htext, hwhole, hfraction, hsigned⟩ :=
    exists_numeral_of_digits x hne hw hf hleading htrailing
  -- where the fraction is cut off, the sign is decided by the whole part alone
  obtain ⟨k, hktext, hkwhole, hkfraction, hksigned⟩ :=
    exists_numeral_of_digits x (d := ⟨(Digits.ofFloat x).whole, []⟩) hne hw rfl hleading (by simp)
  have hn : n.ShownOf x :=
    { copied := htext
      normal := Digits.normal_of_ofFinite (hdigits ▸ hwhole) (hdigits ▸ hfraction)
      digits := numerator_mul_scale hx htext
      signed := hsigned
      shown := fun c hc hd => undo_display_of_mark hx hc hd
      shown_whole := fun c hd =>
        ⟨k, by rw [hktext, undo_display_of_disabled hx hd, pointed, if_pos rfl, List.append_nil],
          hkwhole.trans hwhole.symm, hkfraction, hksigned⟩ }
  exact ⟨n, hn, hn.copied ▸ text_ne_minusZero hsigned, fun c hc => hn.display_ne_minusZero hc⟩

example : plain (-1234.99999999996) = "-1235".toList := by decide +kernel

/-- Rounding carries through the whole fraction, and nothing is left of it. -/
theorem shown_of_carry :
    (-1234.99999999996 : Float).isFinite ∧
      ∃ n : Numeral, n.ShownOf (-1234.99999999996) ∧ plain (-1234.99999999996) ≠ ['-', '0'] ∧
        ∀ c : Separators, c.ambiguous = false → display c (-1234.99999999996) ≠ ['-', '0'] :=
  ⟨by decide, shown_of_isFinite (by decide)⟩

end Reckoner
