import Reckoner.Proofs.Numeral.Digits
import Reckoner.Proofs.Numeral.Scientific

/-! # Typed values

Typed text is read as a token first, and scientific notation is there for what is no token. But a
numeral that is out of range is taken for no numeral, so there scientific notation decides as well.
It denotes the same number as the numeral, which is out of range then, unless a period that the
numeral leaves out is its point (`OverlooksPoint`).

Where no digit stands in front of the decimal mark, a text is not written in the convention. Its
only mark is taken for the point in front of three digits at most; in front of more it is taken to
group, and the digits are those of a whole number.

* `value?_of_resolved`: scientific notation of a token that is read, in range or not.
* `typedValue_eq_ok_iff_of_out_of_range`: what scientific notation adds to a numeral that is out of
  range.
* `typedValue_of_resolved`: what typed text stands for.
* `typedValue_of_leadingPoint`: digits behind the decimal mark alone. -/

namespace Reckoner

open Reckoner.Numeral

variable {c : Separators} {input t : List Char} {n : Numeral}

/-! ### Whole numbers and the two readings of a period -/

theorem Numeral.resolve_text_of_whole (h : n.fraction = []) : resolve c n.text = some n := by
  obtain ⟨negative, whole, fraction, hne, hwhole, hfraction⟩ := n
  obtain rfl : fraction = [] := h
  let l : Layout := ⟨negative, whole, [], [], hne, hwhole, fun h => absurd rfl h, by simp, by simp,
    rfl⟩
  have hfits : l.Fits c ',' '.' := ⟨fun h => absurd rfl h, fun h => absurd rfl h⟩
  have hplain : l.Plain ',' '.' := ⟨fun h => absurd rfl h, fun h => absurd rfl h⟩
  have hnumeral : l.numeral = ⟨negative, whole, [], hne, hwhole, hfraction⟩ := by
    simp [l, Layout.numeral, Layout.whole]
  have htext : l.text ',' '.' = (⟨negative, whole, [], hne, hwhole, hfraction⟩ : Numeral).text := by
    simp [l, Layout.text, Layout.body, Layout.front, Layout.joined, text]
  rw [← htext, ← hnumeral]
  cases hc : c.ambiguous with
  | false => exact Layout.resolve_text hc hfits
  | true =>
    -- nothing is written in an ambiguous convention, and there are no marks
    have hdecimal : c.decimal ≠ .disabled := fun hd => by
      have hsome := (Separators.ambiguous_iff.mp hc).2
      simp [hd, Separator.mark?] at hsome
    have hmarks : ofMarks? c (l.text ',' '.') = some l.undivided :=
      ofMarks?_text_of_not_opens hplain rfl
    rw [resolve, Layout.trim_text, ofConvention?, if_pos hc, if_neg hdecimal, hmarks,
      Layout.undivided_eq_numeral rfl]

/-- `m` reads the period of the text as its point, and `n` leaves the period out. -/
def OverlooksPoint (t : List Char) (n m : Numeral) : Prop :=
  ∃ front, t = sign m.negative ++ front ++ '.' :: m.fraction ∧ m.whole = orZero front ∧
    n.negative = m.negative ∧ n.whole = front ++ m.fraction ∧ n.fraction = []

theorem ofDigits_orZero_append (front fraction : List Char) :
    Decimal.ofDigits (orZero front ++ fraction) = Decimal.ofDigits (front ++ fraction) := by
  unfold orZero
  split_ifs with hnil
  · rw [hnil]
    exact Decimal.ofDigits_zero_cons fraction
  · rfl

/-- **The two readings of a period behind digits**: as the point, or as a mark that is left out. -/
theorem point_or_overlooked {negative : Bool} {front fraction : List Char} (hfront : isDigits front)
    (hfraction : isDigits fraction) (ht : t = sign negative ++ front ++ '.' :: fraction)
    (htrim : Text.trim t = t) (h : resolve c t = some n) :
    n.negative = negative ∧
      (n.whole = orZero front ∧ n.fraction = fraction ∨
        n.whole = front ++ fraction ∧ n.fraction = []) := by
  obtain ⟨hsign, hdigits, hkept⟩ := keeps_of_resolve h
  rw [htrim] at hsign hdigits hkept
  obtain ⟨htrailing, hbefore⟩ :=
    trailingDigits_append_cons (s := sign negative ++ front) (m := '.') rfl hfraction
  rw [← ht] at htrailing hbefore
  have hminus : '-' ∈ t ↔ negative = true := by
    rw [ht, List.append_assoc, minus_mem_sign_append]
    simp [minus_not_mem_of_isDigits hfront, minus_not_mem_of_isDigits hfraction]
  have hall : Text.digits t = front ++ fraction := by
    rw [ht, Text.digits_append, Text.digits_append, Text.digits_sign, List.nil_append,
      Text.digits_of_isDigits hfront, Text.digits_cons_of_not_isDigit rfl,
      Text.digits_of_isDigits hfraction]
  rw [digits_text, hall] at hdigits
  refine ⟨Bool.eq_iff_iff.mpr ((minus_mem_text n).symm.trans (hsign.trans hminus)), ?_⟩
  by_cases hnil : n.fraction = []
  · right
    rw [hnil, List.append_nil] at hdigits
    exact ⟨hdigits.resolve_right fun hzero => hzero.2.1 rfl, hnil⟩
  · left
    have hn : n.fraction = fraction := (hkept hnil).trans htrailing
    rw [hn] at hdigits
    refine ⟨?_, hn⟩
    rcases hdigits with hdigits | ⟨hdigits, -, hnone⟩
    · have hwhole : n.whole = front := List.append_cancel_right hdigits
      rw [hwhole, orZero, if_neg (hwhole ▸ n.whole_ne_nil)]
    · -- no digit stands in front of the period
      have hempty : front = [] := by
        rw [hbefore] at hnone
        rw [← Text.digits_of_isDigits hfront, Text.digits_eq_nil_iff]
        exact fun ch hch => hnone ch (by simp [hch])
      rw [hempty] at hdigits ⊢
      have hwhole : n.whole ++ fraction = ['0'] ++ fraction := hdigits
      exact List.append_cancel_right hwhole

/-! ### The characters of a token that is read -/

/-- Digits, the minus and whatever can be a mark. -/
def Numeral.IsSymbol (ch : Char) : Prop := ch.isDigit ∨ ch = '-' ∨ ch ∈ [',', '.', ' ']

instance : DecidablePred Numeral.IsSymbol := fun ch =>
  inferInstanceAs (Decidable (ch.isDigit ∨ ch = '-' ∨ ch ∈ [',', '.', ' ']))

section Symbols

variable {ch : Char}

theorem isSymbol_of_isDigit (h : ch.isDigit) : IsSymbol ch := .inl h

theorem isSymbol_of_mem_sign {negative : Bool} (h : ch ∈ sign negative) : IsSymbol ch :=
  .inr (.inl (eq_minus_of_mem_sign h))

theorem isSymbol_of_mark? {s : Separator} (h : s.mark? = some ch) : IsSymbol ch := by
  rcases Separator.mark?_eq_some_iff.mp h with ⟨-, rfl⟩ | ⟨-, rfl⟩ | ⟨-, rfl⟩ <;> decide

theorem isSymbol_of_isPointOrComma (h : isPointOrComma ch) : IsSymbol ch := by
  rcases isPointOrComma_iff.mp h with rfl | rfl <;> decide

theorem isSymbol_of_ofConvention? (h : ofConvention? c t = some n) (hch : ch ∈ t) :
    IsSymbol ch := by
  obtain ⟨-, l, mark, point, hfits, rfl, -⟩ := exists_layout_of_ofConvention? h
  rcases List.mem_append.mp hch with hch | hch
  · exact isSymbol_of_mem_sign hch
  · rcases Layout.mem_body hch with hd | ⟨rfl, hg⟩ | ⟨rfl, hf⟩
    · exact isSymbol_of_isDigit hd
    · exact isSymbol_of_mark? (hfits.thousand hg)
    · exact isSymbol_of_mark? (hfits.decimal hf)

theorem isSymbol_of_ofDigits? (h : ofDigits? c t = some n) (hch : ch ∈ t) : IsSymbol ch := by
  by_cases hgrouping : isGrouping c ch
  · rw [isGrouping, Bool.or_eq_true, Separator.isMark, beq_iff_eq] at hgrouping
    exact hgrouping.elim isSymbol_of_isPointOrComma isSymbol_of_mark?
  · -- what is no mark is in the sign or in the digits
    have hkept : ch ∈ t.filter (!isGrouping c ·) :=
      List.mem_filter.mpr ⟨hch, by simpa using hgrouping⟩
    have hwhole : n.whole = (takeSign (t.filter (!isGrouping c ·))).2 :=
      (make?_eq_some_iff.mp h).2.1
    rw [← sign_takeSign (t.filter _), ← hwhole] at hkept
    rcases List.mem_append.mp hkept with hch | hch
    · exact isSymbol_of_mem_sign hch
    · exact isSymbol_of_isDigit (isDigits_iff.mp n.whole_digits ch hch)

theorem isSymbol_of_ofMarks? (h : ofMarks? c t = some n) (hch : ch ∈ t) : IsSymbol ch := by
  have hall : (takeSign t).2.all (fun ch => ch.isDigit || isPointOrComma ch) = true := by
    by_contra hnot
    rw [ofMarks?] at h
    dsimp only at h
    rw [if_neg hnot] at h
    simp at h
  rw [← sign_takeSign t] at hch
  rcases List.mem_append.mp hch with hch | hch
  · exact isSymbol_of_mem_sign hch
  · rcases Bool.or_eq_true_iff.mp (List.all_eq_true.mp hall ch hch) with hd | hm
    · exact isSymbol_of_isDigit hd
    · exact isSymbol_of_isPointOrComma hm

/-- **A token that stands for a numeral holds digits, minuses and marks.** -/
theorem isSymbol_of_resolve (h : resolve c t = some n) (hch : ch ∈ Text.trim t) : IsSymbol ch := by
  rw [resolve] at h
  cases hconvention : ofConvention? c (Text.trim t) with
  | some n' => exact isSymbol_of_ofConvention? hconvention hch
  | none =>
    rw [hconvention] at h
    dsimp only at h
    split_ifs at h with hdecimal
    · exact isSymbol_of_ofDigits? h hch
    · exact isSymbol_of_ofMarks? h hch

end Symbols

/-! ### Numerals that are out of range -/

theorem OverlooksPoint.scientific {m : Numeral} (h : OverlooksPoint t n m) :
    (Scientific.ofText? t).bind Scientific.value? = m.value? := by
  obtain ⟨front, ht, hwhole, -, hn, -⟩ := h
  have hfront : isDigits front := (isDigits_append.mp (hn ▸ n.whole_digits)).1
  have hnumerator : Decimal.ofDigits (front ++ m.fraction) = m.numerator := by
    rw [numerator, hwhole, ofDigits_orZero_append]
  rw [ht, Scientific.ofText?_point m.negative hfront m.fraction_digits (hn ▸ n.whole_ne_nil),
    Option.bind_some, Scientific.value?_eq_value? hnumerator]

/-- **What scientific notation makes of a token that is read**: its numeral or, where that leaves a
period out, the number whose point the period is. -/
theorem value?_of_resolved {x : Scientific} (h : resolve c t = some n) (htrim : Text.trim t = t)
    (hx : Scientific.ofText? t = some x) :
    x.value? = n.value? ∨ ∃ m, OverlooksPoint t n m ∧ x.value? = m.value? := by
  -- neither a plus nor the letter of an exponent is in a token that is read
  have hnot : ∀ ch : Char, ¬IsSymbol ch → ch ∉ t := fun ch hch hmem =>
    hch (isSymbol_of_resolve h (htrim.symm ▸ hmem))
  obtain ⟨whole, fraction, hwhole, hfraction, hne, hx', htext⟩ := Scientific.exists_of_ofText?
    (hnot '+' (by decide)) (hnot 'e' (by decide)) (hnot 'E' (by decide)) hx
  generalize x.negative = negative at hx' htext
  subst hx'
  rcases htext with ⟨ht, rfl⟩ | ht
  · rw [List.append_nil] at hne
    let m : Numeral := ⟨negative, whole, [], hne, hwhole, rfl⟩
    have hm : m.text = t := by rw [ht, text, pointed, if_pos rfl, List.append_nil]
    have hself : resolve c m.text = some m := resolve_text_of_whole rfl
    rw [hm, h] at hself
    rw [Option.some.inj hself]
    exact .inl (Scientific.value?_eq_value? (n := m) rfl)
  · obtain ⟨hnegative, ⟨hw, hf⟩ | ⟨hw, hf⟩⟩ := point_or_overlooked hwhole hfraction ht htrim h
    · left
      have hnumerator : Decimal.ofDigits (whole ++ fraction) = n.numerator := by
        rw [numerator, hw, hf, ofDigits_orZero_append]
      have hvalue := Scientific.value?_eq_value? hnumerator
      rwa [hnegative, hf] at hvalue
    · have hover : OverlooksPoint t n
          ⟨negative, orZero whole, fraction, orZero_ne_nil _, isDigits_orZero hwhole, hfraction⟩ :=
        ⟨whole, ht, rfl, hnegative, hw, hf⟩
      exact .inr ⟨_, hover, by rw [← hover.scientific, hx, Option.bind_some]⟩

/-- **What scientific notation makes of a numeral that is out of range**: a value only where the
numeral leaves a period out that would be its point. -/
theorem scientific_eq_some_iff_of_out_of_range (h : resolve c t = some n) (htrim : Text.trim t = t)
    (hn : n.value? = none) {v : Float} :
    (Scientific.ofText? t).bind Scientific.value? = some v ↔
      ∃ m, OverlooksPoint t n m ∧ m.value? = some v := by
  refine ⟨fun hv => ?_, fun ⟨m, hm, hv⟩ => hm.scientific.trans hv⟩
  obtain ⟨x, hx, hv⟩ := Option.bind_eq_some_iff.mp hv
  rcases value?_of_resolved h htrim hx with hvalue | ⟨m, hm, hvalue⟩
  · simp [hv, hn] at hvalue
  · exact ⟨m, hm, hvalue.symm.trans hv⟩

/-! ### What typed text stands for -/

theorem typedValue_eq_error_iff :
    typedValue c input = .error (.notANumber input) ↔ ∀ v, typedValue c input ≠ .ok v := by
  refine ⟨fun h v hv => by simp [h] at hv, fun h => ?_⟩
  cases hvalue : typedValue c input with
  | ok v => exact absurd hvalue (h v)
  | error fault => rw [typedValue_eq_error hvalue]

theorem typedValue_of_value? {v : Float} (h : resolve c (Text.compact input) = some n)
    (hv : n.value? = some v) : typedValue c input = .ok v := by
  rw [typedValue, h, Option.bind_some, hv]

theorem typedValue_of_scientific
    (h : (resolve c (Text.compact input)).bind Numeral.value? = none) (v : Float) :
    typedValue c input = .ok v ↔
      (Scientific.ofText? (Text.compact input)).bind Scientific.value? = some v := by
  rw [typedValue, h]
  dsimp only
  split
  · rename_i v' hv
    rw [hv, Except.ok.injEq, Option.some.injEq]
  · rename_i hv
    simp [hv]

/-- **Where the numeral of typed text is out of range**, the text stands for a number after all if
the numeral leaves its point out. -/
theorem typedValue_eq_ok_iff_of_out_of_range (h : resolve c (Text.compact input) = some n)
    (hn : n.value? = none) (v : Float) :
    typedValue c input = .ok v ↔
      ∃ m, OverlooksPoint (Text.compact input) n m ∧ m.value? = some v := by
  have hnone : (resolve c (Text.compact input)).bind Numeral.value? = none := by
    rw [h, Option.bind_some, hn]
  rw [typedValue_of_scientific hnone, scientific_eq_some_iff_of_out_of_range h
    (Text.trim_eq_self fun ch hch => Text.not_isBlank_of_mem_compact hch) hn]

/-- **What typed text stands for.** A numeral that is read of it as a token decides if it is in
range. If it is out of range, the text stands for the number that overlooking its point made so
large, and for nothing if there is no such number in range. Where no numeral is read, scientific
notation decides. What stands for nothing is refused, and the fault names the text as it was
typed. -/
theorem typedValue_of_resolved (c : Separators) (input : List Char) :
    (∀ n, resolve c (Text.compact input) = some n →
      (∀ v, n.value? = some v → typedValue c input = .ok v) ∧
      (n.value? = none →
        (∀ v, typedValue c input = .ok v ↔
          ∃ m, OverlooksPoint (Text.compact input) n m ∧ m.value? = some v) ∧
        (typedValue c input = .error (.notANumber input) ↔
          ∀ m, OverlooksPoint (Text.compact input) n m → m.value? = none))) ∧
    (resolve c (Text.compact input) = none →
      (∀ v, typedValue c input = .ok v ↔
        (Scientific.ofText? (Text.compact input)).bind Scientific.value? = some v) ∧
      (typedValue c input = .error (.notANumber input) ↔
        (Scientific.ofText? (Text.compact input)).bind Scientific.value? = none)) := by
  refine ⟨fun n hn => ⟨fun v hv => typedValue_of_value? hn hv, fun hnone => ?_⟩, fun hnone => ?_⟩
  · have hok := typedValue_eq_ok_iff_of_out_of_range hn hnone
    refine ⟨hok, typedValue_eq_error_iff.trans ⟨fun h m hm => ?_, fun h v hv => ?_⟩⟩
    · exact Option.eq_none_iff_forall_ne_some.mpr fun v hv => h v ((hok v).mpr ⟨m, hm, hv⟩)
    · obtain ⟨m, hm, hv⟩ := (hok v).mp hv
      simp [h m hm] at hv
  · have hvalue : (resolve c (Text.compact input)).bind Numeral.value? = none := by
      rw [hnone, Option.bind_none]
    have hok := typedValue_of_scientific hvalue
    exact ⟨hok,
      by simp only [typedValue_eq_error_iff, hok, ne_eq, Option.eq_none_iff_forall_ne_some]⟩

/-- A one, a period and more digits than a finite value has. -/
def manyPlaces : List Char := '1' :: '.' :: List.replicate 309 '9'

set_option maxRecDepth 20000 in
/-- With the period between groups the text is a whole number of 310 digits, which is out of range,
and it is not refused: its value is two. -/
theorem manyPlaces_accepted :
    (∃ n, resolve .continental (Text.compact manyPlaces) = some n ∧ n.value? = none) ∧
      (typedValue .continental manyPlaces).toOption.map Float.toBits = some 0x4000000000000000 := by
  have hsome : (resolve .continental (Text.compact manyPlaces)).isSome := by decide +kernel
  have hnone : (resolve .continental (Text.compact manyPlaces)).bind Numeral.value? = none :=
    Option.isNone_iff_eq_none.mp (by decide +kernel)
  obtain ⟨n, hn⟩ := Option.isSome_iff_exists.mp hsome
  rw [hn, Option.bind_some] at hnone
  exact ⟨⟨n, hn, hnone⟩, by decide +kernel⟩

/-! ### Digits behind the decimal mark alone -/

/-- The digits of the fraction behind their mark, with nothing in front of it. -/
def Numeral.leading (point : Char) (n : Numeral) : List Char :=
  sign n.negative ++ point :: n.fraction

/-- The digits of the fraction as a whole number. -/
def Numeral.shifted (n : Numeral) (h : n.fraction ≠ []) : Numeral where
  negative := n.negative
  whole := n.fraction
  fraction := []
  whole_ne_nil := h
  whole_digits := n.fraction_digits
  fraction_digits := isDigits_nil

theorem Numeral.value?_isSome_of_whole_zero (hwhole : n.whole = ['0']) : n.value?.isSome := by
  have hlt : n.numerator < n.denominator := by
    rw [numerator, hwhole, List.singleton_append, Decimal.ofDigits_zero_cons]
    exact Decimal.ofDigits_lt n.fraction_digits
  by_contra hnone
  have hrange := (value?_eq_none_iff n).mp (Option.not_isSome_iff_eq_none.mp hnone)
  have hlimit : 0 < 2 ^ 1024 - 2 ^ 970 := by decide +kernel
  exact absurd ((Nat.le_mul_of_pos_left _ hlimit).trans hrange) (Nat.not_le.mpr hlt)

section Leading

variable {d : Char} (hmark : isPointOrComma d)
include hmark

theorem not_isBlank_of_mem_leading {ch : Char} (h : ch ∈ n.leading d) :
    Text.isBlank ch = false := by
  rcases List.mem_append.mp h with h | h
  · rw [eq_minus_of_mem_sign h]
    rfl
  · rcases List.mem_cons.mp h with rfl | h
    · rcases isPointOrComma_iff.mp hmark with rfl | rfl <;> rfl
    · exact Text.not_isBlank_of_isDigit (isDigits_iff.mp n.fraction_digits ch h)

theorem takeSign_leading : takeSign (n.leading d) = (n.negative, d :: n.fraction) := by
  refine takeSign_sign_append _ ?_
  rcases isPointOrComma_iff.mp hmark with rfl | rfl <;> simp

theorem ofConvention?_leading (c : Separators) : ofConvention? c (n.leading d) = none := by
  refine Option.eq_none_iff_forall_ne_some.mpr fun n' hn' => ?_
  obtain ⟨-, l, mark, point, -, htext, -⟩ := exists_layout_of_ofConvention? hn'
  obtain ⟨e, s, hbody, he⟩ := Layout.body_eq_cons mark point l
  have hsign := takeSign_leading (n := n) hmark
  rw [htext, Layout.takeSign_text, hbody, Prod.mk.injEq, List.cons.injEq] at hsign
  obtain ⟨-, rfl, -⟩ := hsign
  rw [not_isDigit_of_isPointOrComma hmark] at he
  exact absurd he (by decide)

/-- **How digits behind the decimal mark alone are read**: up to three are a fraction, more are
those of a whole number. -/
theorem resolve_leading (hdecimal : c.decimal.mark? = some d) (h : n.fraction ≠ [])
    (hwhole : n.whole = ['0']) :
    resolve c (n.leading d) = some (if n.fraction.length ≤ 3 then n else n.shifted h) := by
  have hinUse : c.decimal ≠ .disabled := fun hd => by simp [hd, Separator.mark?] at hdecimal
  have hdigit := not_isDigit_of_isPointOrComma hmark
  have hmarks : (d :: n.fraction).filter isPointOrComma = [d] := by
    rw [List.filter_cons_of_pos hmark, filter_isPointOrComma_of_isDigits n.fraction_digits]
  have hall : (d :: n.fraction).all (fun ch => ch.isDigit || isPointOrComma ch) = true := by
    rw [List.all_cons, hmark, Bool.or_true, Bool.true_and, List.all_eq_true]
    exact fun ch hch => by simp [isDigits_iff.mp n.fraction_digits ch hch]
  obtain ⟨htrailing, hbefore⟩ := trailingDigits_append_cons (s := []) hdigit n.fraction_digits
  rw [List.nil_append] at htrailing hbefore
  have hpos := List.length_pos_iff.mpr h
  have hopens : opensFraction c [d] n.fraction.length = true ↔ n.fraction.length ≤ 3 := by
    have hdecimal : c.decimal.isMark d = true := by simp [Separator.isMark, hdecimal]
    simp only [opensFraction, List.getLast?_singleton, List.length_singleton, if_pos, hdecimal,
      Bool.and_true, Bool.and_eq_true, Bool.or_eq_true, decide_eq_true_eq]
    omega
  rw [resolve, Text.trim_eq_self fun ch hch => not_isBlank_of_mem_leading hmark hch,
    ofConvention?_leading hmark, if_neg hinUse, ofMarks?, takeSign_leading hmark]
  dsimp only
  rw [if_pos hall, hmarks, htrailing, hbefore]
  by_cases hshort : n.fraction.length ≤ 3
  · rw [if_pos hshort, if_pos (hopens.mpr hshort)]
    refine make?_eq_some_iff.mpr ⟨rfl, ?_, rfl⟩
    simp [hwhole, hdigit, orZero]
  · rw [if_neg hshort, if_neg (mt hopens.mp hshort), List.filter_cons_of_neg (by simp [hdigit]),
      List.filter_eq_self.mpr (isDigits_iff.mp n.fraction_digits)]
    exact make?_eq_some_iff.mpr ⟨rfl, rfl, rfl⟩

/-- **Digits behind the decimal mark alone.** Up to three are the fraction that they look like. More
are taken for a whole number; only where that is out of range does the text stand for the fraction,
if its mark is a period, and for nothing if it is a comma. -/
theorem typedValue_of_leadingPoint (hdecimal : c.decimal.mark? = some d) (h : n.fraction ≠ [])
    (hwhole : n.whole = ['0']) :
    ∃ x, n.value? = some x ∧
      (n.fraction.length ≤ 3 → typedValue c (n.leading d) = .ok x) ∧
      (3 < n.fraction.length →
        (∀ y, (n.shifted h).value? = some y → typedValue c (n.leading d) = .ok y) ∧
        ((n.shifted h).value? = none → d = '.' → typedValue c (n.leading d) = .ok x) ∧
        ((n.shifted h).value? = none → d = ',' →
          typedValue c (n.leading d) = .error (.notANumber (n.leading d)))) := by
  obtain ⟨x, hx⟩ := Option.isSome_iff_exists.mp (value?_isSome_of_whole_zero hwhole)
  have hcompact : Text.compact (n.leading d) = n.leading d :=
    List.filter_eq_self.mpr fun ch hch => by simp [not_isBlank_of_mem_leading hmark hch]
  have hresolve := resolve_leading hmark hdecimal h hwhole
  rw [← hcompact] at hresolve
  refine ⟨x, hx, fun hshort => ?_, fun hlong => ?_⟩
  · rw [if_pos hshort] at hresolve
    exact typedValue_of_value? hresolve hx
  · rw [if_neg (Nat.not_le.mpr hlong)] at hresolve
    have hok := typedValue_eq_ok_iff_of_out_of_range hresolve
    rw [hcompact] at hok
    refine ⟨fun y hy => typedValue_of_value? hresolve hy, fun hnone hperiod => ?_,
      fun hnone hcomma => ?_⟩
    · refine (hok hnone x).mpr ⟨n, ⟨[], ?_, hwhole, rfl, rfl, rfl⟩, hx⟩
      rw [hperiod, leading, List.append_nil]
    · -- there is no period in the text
      refine typedValue_eq_error_iff.mpr fun v hv => ?_
      obtain ⟨m, ⟨front, htext, -⟩, -⟩ := (hok hnone v).mp hv
      have hperiod : '.' ∈ sign n.negative ++ ',' :: n.fraction := by
        rw [← hcomma, ← leading, htext]
        simp
      rcases List.mem_append.mp hperiod with hch | hch
      · exact absurd (eq_minus_of_mem_sign hch) (by decide)
      · rcases List.mem_cons.mp hch with hch | hch
        · exact absurd hch (by decide)
        · exact absurd (isDigits_iff.mp n.fraction_digits _ hch) (by decide)

end Leading

/-- A fraction of four digits. -/
def fourPlaces : Numeral where
  negative := false
  whole := orZero []
  fraction := ['1', '2', '3', '4']
  whole_ne_nil := orZero_ne_nil []
  whole_digits := isDigits_orZero isDigits_nil
  fraction_digits := by decide

theorem typedValue_of_leadingPoint_fourPlaces :
    isPointOrComma '.' ∧ ({} : Separators).decimal.mark? = some '.' ∧
    fourPlaces.fraction ≠ [] ∧ fourPlaces.whole = ['0'] ∧
    ∃ x, fourPlaces.value? = some x ∧
      (fourPlaces.fraction.length ≤ 3 → typedValue {} (fourPlaces.leading '.') = .ok x) ∧
      (3 < fourPlaces.fraction.length →
        (∀ y, (fourPlaces.shifted (by decide)).value? = some y →
          typedValue {} (fourPlaces.leading '.') = .ok y) ∧
        ((fourPlaces.shifted (by decide)).value? = none → '.' = '.' →
          typedValue {} (fourPlaces.leading '.') = .ok x) ∧
        ((fourPlaces.shifted (by decide)).value? = none → '.' = ',' →
          typedValue {} (fourPlaces.leading '.') =
            .error (.notANumber (fourPlaces.leading '.')))) :=
  ⟨rfl, rfl, by decide, rfl, typedValue_of_leadingPoint rfl rfl (by decide) rfl⟩

/-- Four digits behind a period stand for a number ten thousand times as large. -/
theorem fourPlaces_shifted :
    fourPlaces.text = "0.1234".toList ∧ fourPlaces.leading '.' = ".1234".toList ∧
      fourPlaces.value?.map Float.toBits = some 0x3fbf972474538ef3 ∧
      (typedValue {} ".1234".toList).toOption.map Float.toBits = some 0x4093480000000000 :=
  ⟨by decide, by decide, by decide +kernel, by decide +kernel⟩

end Reckoner
