import Reckoner.Proofs.Typed

/-! # A number that is typed and a number that fills its line

A text of digits, marks and minuses that cleaning leaves as it is can be typed, and it can be the
one token of its line. Both ways it is read as a token first. Scientific notation, which decides for
typed text what is no token, adds nothing: without the letter of an exponent it is a sign, digits
and at most a period, and such a text is a token that stands for a numeral.

* `ofText_of_isNumeric`: the one token of the line.
* `ofText?_eq_none_of_resolve`: what is no numeral is no number in scientific notation either.
* `typedValue_iff_readings`: the two ways to read a text give the same. -/

namespace Reckoner

open Reckoner.Numeral

variable {c : Separators} {t : List Char}

/-! ### The line -/

/-- **A text that cleaning leaves as it is is the one token of its line**, if the line keeps it. -/
theorem Token.ofText_of_isNumeric (hne : t ≠ []) (ht : ∀ ch ∈ t, isNumeric ch)
    (hclean : clean c t = t) : ofText c true t = [t] := by
  have hline : ∀ ch ∈ t, Text.isLineEnd ch = false := fun ch hch =>
    not_isLineEnd_of_isNumeric (.inl (ht ch hch))
  have hkept : t.filter isNumeric = t := List.filter_eq_self.mpr ht
  rw [ofText_line hline, ofLine, if_pos rfl, hkept]
  simp [hclean, hne]

/-! ### Scientific notation -/

/-- **What is no numeral is no number in scientific notation either**, where there is no exponent
and no plus. -/
theorem ofText?_eq_none_of_resolve (ht : ∀ ch ∈ t, Token.isNumeric ch) (h : resolve c t = none) :
    Scientific.ofText? t = none := by
  have hnot : ∀ ch : Char, ¬ Token.isNumeric ch → ch ∉ t := fun ch hch hmem => hch (ht ch hmem)
  refine Option.eq_none_iff_forall_ne_some.mpr fun x hx => ?_
  obtain ⟨whole, fraction, hwhole, hfraction, hne, -, htext⟩ := Scientific.exists_of_ofText?
    (hnot '+' (by decide)) (hnot 'e' (by decide)) (hnot 'E' (by decide)) hx
  have hdigits := isDigits_iff.mp (isDigits_append.mpr ⟨hwhole, hfraction⟩)
  obtain ⟨d, hd⟩ := List.exists_mem_of_ne_nil _ hne
  -- digits and periods behind the sign would stand for a numeral
  have hread : ∀ s, t = sign x.negative ++ s → (∀ ch ∈ s, ch ∈ whole ++ fraction ∨ ch = '.') →
      d ∈ s → False := by
    intro s hs hall hmem
    have hmarked : ∀ ch ∈ s, ch.isDigit ∨ isPointOrComma ch := by
      intro ch hch
      rcases hall ch hch with hch | rfl
      · exact .inl (hdigits ch hch)
      · exact .inr rfl
    have hsome := @resolve_sign_append_isSome c x.negative s hmarked ⟨d, hmem, hdigits d hd⟩
    rw [← hs, h] at hsome
    exact absurd hsome (by decide)
  rcases htext with ⟨htext, rfl⟩ | htext
  · rw [List.append_nil] at hread hd
    exact hread whole htext (fun ch hch => .inl hch) hd
  · rw [List.append_assoc] at htext
    refine hread (whole ++ '.' :: fraction) htext (fun ch hch => ?_) ?_
    · rcases List.mem_append.mp hch with hch | hch
      · exact .inl (List.mem_append_left _ hch)
      · exact (List.mem_cons.mp hch).symm.imp_left (List.mem_append_right _)
    · rcases List.mem_append.mp hd with hd | hd
      · exact List.mem_append_left _ hd
      · exact List.mem_append_right _ (.tail _ hd)

/-! ### The two ways -/

/-- **Typing a number and recognising it give the same.** A text of digits, marks and minuses that
cleaning leaves as it is, and whose numeral is in range if there is one, stands for a value when it
is typed if and only if the line that it fills gives that one value, with the text as its source;
and it is refused if and only if the line gives nothing. -/
theorem typedValue_iff_readings (hne : t ≠ []) (ht : ∀ ch ∈ t, Token.isNumeric ch)
    (hclean : Token.clean c t = t) (hrange : ∀ n, resolve c t = some n → n.value? ≠ none) :
    (∀ v, typedValue c t = .ok v ↔ Reading.ofText c true t = [⟨v, t⟩]) ∧
      ((∃ fault, typedValue c t = .error fault) ↔ Reading.ofText c true t = []) := by
  have hcompact : Text.compact t = t :=
    Token.compact_eq_self fun ch hch => Token.not_isBlank_of_isNumeric (ht ch hch)
  have hline : Reading.ofText c true t = (Reading.ofToken? c t).toList := by
    rw [Reading.ofText, Token.ofText_of_isNumeric hne ht hclean]
    cases h : Reading.ofToken? c t <;> simp [h]
  cases hresolve : resolve c t with
  | some n =>
    obtain ⟨x, hx⟩ := Option.ne_none_iff_exists'.mp (hrange n hresolve)
    have htyped : typedValue c t = .ok x := typedValue_of_value? (by rwa [hcompact]) hx
    rw [htyped, hline, Reading.ofToken?, hresolve, Option.bind_some, hx]
    simp
  | none =>
    have hnone : (resolve c (Text.compact t)).bind Numeral.value? = none := by
      rw [hcompact, hresolve, Option.bind_none]
    have hrefused : ∀ v, typedValue c t ≠ .ok v := fun v => by
      rw [ne_eq, typedValue_of_scientific hnone, hcompact, ofText?_eq_none_of_resolve ht hresolve]
      simp
    have hfault := typedValue_eq_error_iff.mpr hrefused
    rw [hfault, hline, Reading.ofToken?, hresolve, Option.bind_none]
    simp

/-- Several marks, the last of which is the rarer one. -/
theorem typedValue_iff_readings_marks :
    ("-1.2.3,4".toList ≠ [] ∧ (∀ ch ∈ "-1.2.3,4".toList, Token.isNumeric ch) ∧
      Token.clean {} "-1.2.3,4".toList = "-1.2.3,4".toList ∧
      ∀ n, resolve {} "-1.2.3,4".toList = some n → n.value? ≠ none) ∧
    (∀ v, typedValue {} "-1.2.3,4".toList = .ok v ↔
      Reading.ofText {} true "-1.2.3,4".toList = [⟨v, "-1.2.3,4".toList⟩]) ∧
    ((∃ fault, typedValue {} "-1.2.3,4".toList = .error fault) ↔
      Reading.ofText {} true "-1.2.3,4".toList = []) := by
  have hchars : ∀ ch ∈ "-1.2.3,4".toList, Token.isNumeric ch := by
    rw [← List.all_eq_true]
    decide +kernel
  have hclean : Token.clean {} "-1.2.3,4".toList = "-1.2.3,4".toList := by decide +kernel
  have hvalue : ((resolve {} "-1.2.3,4".toList).bind Numeral.value?).isSome := by decide +kernel
  have hrange : ∀ n, resolve {} "-1.2.3,4".toList = some n → n.value? ≠ none := by
    intro n hn hnone
    rw [hn, Option.bind_some, hnone] at hvalue
    exact absurd hvalue (by decide)
  exact ⟨⟨by decide, hchars, hclean, hrange⟩,
    typedValue_iff_readings (by decide) hchars hclean hrange⟩

end Reckoner
