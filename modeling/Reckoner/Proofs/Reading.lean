import Reckoner.Proofs.Binary64.Overflow
import Reckoner.Proofs.Token.Candidate
import Reckoner.Reading

/-! # No number of a scanned text is lost

A token of a scanned text always stands for a numeral, whatever the convention: in the convention,
by its marks, or with its marks taken out. So the readings of the text are its tokens with the
values of their numerals, and a token is left out only where its numeral is too large for a finite
value.

* `resolve_sign_append_isSome`: digits, periods and commas stand for a numeral.
* `resolve_isSome`: so a candidate with periods and commas as joints does.
* `readings_of_scanned_text`: the readings of a text that is scanned. -/

namespace Reckoner

open Reckoner.Numeral Reckoner.Token

/-! ### Tokens are resolved -/

theorem filter_isGrouping_sign (c : Separators) (negative : Bool) :
    (sign negative).filter (!isGrouping c ·) = sign negative := by
  cases negative <;> simp [sign, not_isGrouping_minus]

section Marked

variable {c : Separators} {negative : Bool} {s : List Char}
  (hs : ∀ ch ∈ s, ch.isDigit ∨ isPointOrComma ch)
include hs

theorem takeSign_sign_append_marked : takeSign (sign negative ++ s) = (negative, s) := by
  refine takeSign_sign_append negative fun hhead => ?_
  rcases hs '-' (List.mem_of_mem_head? hhead) with h | h <;> exact absurd h (by decide)

theorem trim_sign_append : Text.trim (sign negative ++ s) = sign negative ++ s := by
  refine Text.trim_eq_self fun ch hch => ?_
  rcases List.mem_append.mp hch with hch | hch
  · rw [eq_minus_of_mem_sign hch]
    rfl
  · rcases hs ch hch with hd | hm
    · exact Text.not_isBlank_of_isDigit hd
    · exact not_isBlank_of_isPointOrComma hm

variable (hd : ∃ ch ∈ s, ch.isDigit)
include hd

theorem ofDigits?_isSome : (ofDigits? c (sign negative ++ s)).isSome := by
  have hkept : ∀ ch ∈ s.filter (!isGrouping c ·), ch.isDigit := fun ch hch => by
    obtain ⟨hmem, hkept⟩ := List.mem_filter.mp hch
    refine (hs ch hmem).resolve_right fun hm => ?_
    simp [isGrouping, hm] at hkept
  obtain ⟨d, hmem, hdigit⟩ := hd
  have hne : s.filter (!isGrouping c ·) ≠ [] := List.ne_nil_of_mem
    (List.mem_filter.mpr ⟨hmem, by rw [not_isGrouping_of_isDigit c hdigit]; rfl⟩)
  rw [ofDigits?, List.filter_append, filter_isGrouping_sign,
    takeSign_sign_append_marked fun ch hch => .inl (hkept ch hch), make?_isSome]
  exact ⟨hne, isDigits_iff.mpr hkept, rfl⟩

theorem ofMarks?_isSome : (ofMarks? c (sign negative ++ s)).isSome := by
  have hall : s.all (fun ch => ch.isDigit || isPointOrComma ch) = true := by simpa using hs
  obtain ⟨d, hmem, hdigit⟩ := hd
  have hne : s.filter Char.isDigit ≠ [] := List.ne_nil_of_mem (List.mem_filter.mpr ⟨hmem, hdigit⟩)
  rw [ofMarks?, takeSign_sign_append_marked hs]
  simp only [hall, if_true]
  split_ifs
  · exact make?_isSome.mpr ⟨orZero_ne_nil _, isDigits_orZero (isDigits_filter _),
      isDigits_trailingDigits _⟩
  · exact make?_isSome.mpr ⟨hne, isDigits_filter _, rfl⟩

/-- **Digits and marks behind a sign stand for a numeral**, if there is a digit. -/
theorem resolve_sign_append_isSome : (resolve c (sign negative ++ s)).isSome := by
  rw [resolve, trim_sign_append hs]
  split
  · rfl
  · split_ifs
    · exact ofDigits?_isSome hs hd
    · exact ofMarks?_isSome hs hd

end Marked

/-- **A candidate stands for a numeral**, if its joints are periods and commas. -/
theorem resolve_isSome {c : Separators} {t : List Char} (h : IsCandidate isPointOrComma t) :
    (resolve c t).isSome := by
  obtain ⟨negative, d, s, rfl, hd, hs⟩ := h
  refine resolve_sign_append_isSome ?_ ⟨d, List.mem_cons_self .., hd⟩
  intro ch hch
  rcases List.mem_cons.mp hch with rfl | hch
  · exact .inl hd
  · exact hs ch hch

/-! ### The readings of a text -/

theorem exists_map_resolve {c : Separators} {tokens : List (List Char)}
    (h : ∀ t ∈ tokens, (resolve c t).isSome) :
    ∃ ns : List Numeral, tokens.map (resolve c) = ns.map some := by
  induction tokens with
  | nil => exact ⟨[], rfl⟩
  | cons t tokens ih =>
    obtain ⟨ns, hns⟩ := ih fun t' ht' => h t' (by simp [ht'])
    obtain ⟨n, hn⟩ := Option.isSome_iff_exists.mp (h t (by simp))
    exact ⟨n :: ns, by rw [List.map_cons, List.map_cons, hn, hns]⟩

theorem map_ofToken? {c : Separators} {tokens : List (List Char)} {ns : List Numeral}
    (h : tokens.map (resolve c) = ns.map some) :
    tokens.map (Reading.ofToken? c) = (tokens.zip ns).map fun p => p.2.value?.map (⟨·, p.1⟩) := by
  induction tokens generalizing ns with
  | nil => rfl
  | cons t tokens ih =>
    obtain - | ⟨n, ns⟩ := ns
    · simp at h
    · obtain ⟨hn, hns⟩ := List.cons.inj h
      rw [List.map_cons, ih hns, Reading.ofToken?, hn, Option.bind_some, List.zip_cons_cons,
        List.map_cons]

theorem filterMap_ofToken? {c : Separators} {tokens : List (List Char)} {ns : List Numeral}
    (h : tokens.map (resolve c) = ns.map some) :
    tokens.filterMap (Reading.ofToken? c) =
      (tokens.zip ns).filterMap fun p => p.2.value?.map (⟨·, p.1⟩) := by
  rw [← Function.id_comp (Reading.ofToken? c), ← List.filterMap_map, map_ofToken? h,
    List.filterMap_map, Function.id_comp]

theorem value?_eq_none_iff (n : Numeral) :
    n.value? = none ↔ (2 ^ 1024 - 2 ^ 970) * n.denominator ≤ n.numerator :=
  Binary64.nearest?_eq_none_iff _ _ (Decimal.scale_pos _)

/-- **No number of a scanned text is lost**: its tokens stand for numerals, and its readings are the
tokens in order with the values of these, but for those that are out of range. -/
theorem readings_of_scanned_text (c : Separators) (text : List Char) :
    ∃ ns : List Numeral,
      (Token.ofText c false text).map (resolve c) = ns.map some ∧
      Reading.ofText c false text =
        ((Token.ofText c false text).zip ns).filterMap (fun p => p.2.value?.map (⟨·, p.1⟩)) ∧
      ∀ n ∈ ns, n.value? = none ↔ (2 ^ 1024 - 2 ^ 970) * n.denominator ≤ n.numerator := by
  obtain ⟨ns, hns⟩ := exists_map_resolve fun t ht =>
    resolve_isSome (isCandidate_of_mem_ofText ht)
  exact ⟨ns, hns, filterMap_ofToken? hns, fun n _ => value?_eq_none_iff n⟩

end Reckoner
