import Reckoner.Proofs.Display.Canonical
import Reckoner.Proofs.Display.ReadBack

/-! # Canonical tokens are shown as they were read

A token is canonical in a convention if its numeral is canonical and its whole part is in groups of
three wherever the convention has a thousand mark. Reading it gives one value, and showing the value
gives the token back, mark by mark.

* `group_whole`: the groups of a canonical token are those that the convention makes.
* `display_of_digits`: a value that shows the digits of the numeral is shown as the token.
* `display_of_reading`: the round trip. -/

namespace Reckoner

open Reckoner.Numeral

namespace Numeral.Layout

/-- A canonical numeral that is laid out in a convention, in groups of three if there is a mark for
them. -/
structure Canonical (c : Separators) (mark point : Char) (l : Layout) : Prop
    extends l.Fits c mark point where
  length_first_le : c.thousand ≠ .disabled → l.first.length ≤ 3
  numeral : l.numeral.Canonical

end Numeral.Layout

section Canonical

variable {c : Separators} {mark point : Char} {l : Layout} (h : l.Canonical c mark point)
include h

theorem group_whole : c.group l.whole = l.front mark := by
  rw [Separators.group]
  cases hm : c.thousand.mark? with
  | none =>
    have hgroups : l.groups = [] := by
      by_contra hg
      simpa [hm] using h.thousand hg
    simp [Layout.whole, Layout.front, hgroups, Layout.joined]
  | some m =>
    have hfirst := h.length_first_le fun hdis => by simp [hdis, Separator.mark?] at hm
    dsimp only
    rw [Layout.whole, grouped_append_flatten m l.first_ne_nil hfirst l.length_group, Layout.front]
    by_cases hg : l.groups = []
    · rw [hg]
      rfl
    · rw [Option.some.inj (hm.symm.trans (h.thousand hg))]

/-- **A value that shows the digits of a canonical token is shown as the token.** -/
theorem display_of_digits (hd : c.decimal ≠ .disabled) {x : Float}
    (hdigits : Digits.ofFloat x = ⟨l.whole, l.fraction⟩)
    (hsign : Binary64.isNegative x = l.negative) : display c x = l.text mark point := by
  have hminus : Digits.sign x ⟨l.whole, l.fraction⟩ = sign l.negative := by
    rw [Digits.sign, hsign]
    cases hneg : l.negative with
    | false => rfl
    | true =>
      have hnonzero := h.numeral.nonzero hneg
      have hshown : Digits.isZero ⟨l.whole, l.fraction⟩ = false := by
        simpa [Digits.isZero, Layout.numeral] using hnonzero
      rw [hshown]
      rfl
  rw [display]
  cases hp : c.decimal.mark? with
  | none => exact absurd (Separator.mark?_eq_none_iff.mp hp) hd
  | some p =>
    have hpoint : pointed p l.fraction = pointed point l.fraction := by
      by_cases hf : l.fraction = []
      · simp [pointed, hf]
      · rw [Option.some.inj (hp.symm.trans (h.decimal hf))]
    dsimp only
    rw [hdigits, hminus, group_whole h, hpoint, Layout.text, Layout.body, List.append_assoc]

/-- **Reading and showing is the identity on canonical tokens.** In a convention that is not
ambiguous and opens fractions by a comma or a period, and in either mode, a canonical token gives
one reading, and the value of the reading is shown as the token. -/
theorem display_of_reading (hc : c.ambiguous = false)
    (hd : c.decimal = .comma ∨ c.decimal = .period) (rowMode : Bool) :
    ∃ r, Reading.ofText c rowMode (l.text mark point) = [r] ∧
      display c r.value = l.text mark point := by
  have hspace : c.decimal ≠ .space := by rcases hd with hd | hd <;> simp [hd]
  have hdisabled : c.decimal ≠ .disabled := by rcases hd with hd | hd <;> simp [hd]
  have hp := isPointOrComma_of_decimal hspace h.toFits
  obtain ⟨x, hx, hfinite, hsign, hdigits⟩ := digits_of_canonical h.numeral
  have hshown := display_of_digits h hdisabled hdigits hsign
  have hline : ∀ ch ∈ l.text mark point, Text.isLineEnd ch = false := by
    rw [← hshown]
    exact not_isLineEnd_of_mem_display hc hspace hfinite
  refine ⟨⟨x, Token.clean c (l.text mark point)⟩, ?_, hshown⟩
  rw [Reading.ofText, Token.ofText_line hline, Token.ofLine_text rowMode h.toFits hp,
    List.filterMap_cons, Reading.ofToken?, Token.resolve_clean_text h.toFits hp hc,
    Option.bind_some, hx]
  rfl

end Canonical

/-- Fifteen digits, in groups that spaces join and with a fraction as long as it may be. -/
def spacedMillions : Layout where
  negative := true
  first := ['9', '9', '9']
  groups := [['9', '9', '9'], ['9', '9', '9']]
  fraction := ['9', '9', '9', '9', '9', '9']
  first_ne_nil := by decide
  first_digits := by decide
  length_first := by decide
  groups_digits := by decide
  length_group := by decide
  fraction_digits := by decide

theorem display_of_reading_spacedMillions :
    (spacedMillions.Canonical ⟨.space, .comma⟩ ' ' ',' ∧
      Separators.ambiguous ⟨.space, .comma⟩ = false) ∧
    ∃ r, Reading.ofText ⟨.space, .comma⟩ false (spacedMillions.text ' ' ',') = [r] ∧
      display ⟨.space, .comma⟩ r.value = spacedMillions.text ' ' ',' := by
  have hcanonical : spacedMillions.Canonical ⟨.space, .comma⟩ ' ' ',' :=
    { toFits := ⟨by decide, by decide⟩
      length_first_le := by decide
      numeral := ⟨by decide, by decide, by decide, by decide, by decide⟩ }
  exact ⟨⟨hcanonical, by decide⟩, display_of_reading hcanonical (by decide) (.inl rfl) false⟩

end Reckoner
