import Reckoner.Proofs.Display.Layout
import Reckoner.Proofs.Token.Layout

/-! # What is shown is read back

Finite values that are shown one a line are found again in the text: one token a value, in order and
in either mode of reading, each of which stands for the numeral that was shown. The convention must
tell its two marks apart and must not use the space as its decimal mark, which a scan takes for the
end of a number.

* `ofLine_display`: one value on one line.
* `tokens_of_displayed_lines`: any number of them, in either mode of reading. -/

namespace Reckoner

open Reckoner.Numeral

variable {c : Separators} {mark point : Char}

theorem isPointOrComma_of_decimal {l : Layout} (hd : c.decimal ≠ .space)
    (h : l.Fits c mark point) (hf : l.fraction ≠ []) : isPointOrComma point :=
  Separator.isPointOrComma_of_mark? (h.decimal hf) hd

theorem mem_display (hc : c.ambiguous = false) (hd : c.decimal ≠ .space) {x : Float}
    (hx : x.isFinite) {ch : Char} (hch : ch ∈ display c x) : Token.isNumeric ch ∨ ch = ' ' := by
  obtain ⟨l, mark, point, hfits, htext, -⟩ := exists_display_eq_text hc hx
  rw [htext] at hch
  exact Token.mem_text_of_fits hfits (isPointOrComma_of_decimal hd hfits) hch

theorem not_isLineEnd_of_mem_display (hc : c.ambiguous = false) (hd : c.decimal ≠ .space)
    {x : Float} (hx : x.isFinite) :
    ∀ ch ∈ display c x, Text.isLineEnd ch = false := fun _ hch =>
  Token.not_isLineEnd_of_isNumeric (mem_display hc hd hx hch)

theorem resolve_clean_display (hc : c.ambiguous = false) (hd : c.decimal ≠ .space) {x : Float}
    (hx : x.isFinite) :
    (resolve c (Token.clean c (display c x))).map Numeral.text = some (shownNumeral c x) := by
  obtain ⟨l, mark, point, hfits, htext, hnum⟩ := exists_display_eq_text hc hx
  rw [htext, Token.resolve_clean_text hfits (isPointOrComma_of_decimal hd hfits) hc,
    Option.map_some, hnum]

/-- **A value that is shown on a line is the one token of the line.** -/
theorem ofLine_display (hc : c.ambiguous = false) (hd : c.decimal ≠ .space) (rowMode : Bool)
    {x : Float} (hx : x.isFinite) :
    (Token.ofLine c rowMode (display c x)).map (fun t => (resolve c t).map Numeral.text) =
      [some (shownNumeral c x)] := by
  have hline : Token.ofLine c rowMode (display c x) = [Token.clean c (display c x)] := by
    obtain ⟨l, mark, point, hfits, htext, -⟩ := exists_display_eq_text hc hx
    rw [htext, Token.ofLine_text rowMode hfits (isPointOrComma_of_decimal hd hfits)]
  rw [hline, List.map_singleton, resolve_clean_display hc hd hx]

/-- **Shown values are read back**: their lines have one token a value, in order, and every token
stands for the numeral that is shown of its value. -/
theorem tokens_of_displayed_lines (hc : c.ambiguous = false) (hd : c.decimal ≠ .space)
    (rowMode : Bool) {xs : List Float} (hxs : ∀ x ∈ xs, x.isFinite) :
    (Token.ofText c rowMode (['\n'].intercalate (xs.map (display c)))).map
        (fun t => (resolve c t).map Numeral.text) =
      xs.map fun x => some (shownNumeral c x) := by
  have hlines : ∀ line ∈ xs.map (display c), ∀ ch ∈ line, Text.isLineEnd ch = false := by
    intro line hline
    obtain ⟨x, hx, rfl⟩ := List.mem_map.mp hline
    exact not_isLineEnd_of_mem_display hc hd (hxs x hx)
  rw [Token.ofText_intercalate hlines]
  clear hlines
  induction xs with
  | nil => rfl
  | cons x xs ih =>
    have htail := ih fun y hy => hxs y (by simp [hy])
    rw [List.map_cons, List.flatMap_cons, List.map_append, htail,
      ofLine_display hc hd rowMode (hxs x (by simp))]
    rfl

/-- Values that are grouped by spaces, with a comma in front of the fraction. -/
theorem tokens_of_spaced_lines :
    (Separators.ambiguous ⟨.space, .comma⟩ = false ∧ Separator.comma ≠ .space ∧
      ∀ x ∈ [(1234567.5 : Float), -0.25], x.isFinite) ∧
    (Token.ofText ⟨.space, .comma⟩ false
        (['\n'].intercalate ([(1234567.5 : Float), -0.25].map (display ⟨.space, .comma⟩)))).map
        (fun t => (resolve ⟨.space, .comma⟩ t).map Numeral.text) =
      [(1234567.5 : Float), -0.25].map fun x => some (shownNumeral ⟨.space, .comma⟩ x) :=
  ⟨⟨by decide, by decide, by decide⟩,
    tokens_of_displayed_lines (by decide) (by decide) false (by decide)⟩

end Reckoner
