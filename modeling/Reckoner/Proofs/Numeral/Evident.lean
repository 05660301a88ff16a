import Reckoner.Proofs.Numeral.Marks
import Reckoner.Proofs.Reading
import Reckoner.Proofs.Token.Layout

/-! # Numbers whose notation is evident

Groups that are joined by one mark and a fraction behind the other one can be read in one way only,
if there are two groups at least or the fraction has at most two digits (`Layout.Evident`). Cleaning
leaves such a number alone, no convention reads it otherwise, and where it is not written in the
convention its marks tell their roles.

* `mendGroup_text_of_evident`: none of its periods is taken for a comma.
* `ofConvention?_text_of_evident`: a convention reads it as it is meant or refuses it.
* `ofMarks?_text_of_evident`: its marks tell what is meant.
* `readings_of_evident`: its reading under every convention that has a decimal mark. -/

namespace Reckoner

open Reckoner.Numeral Reckoner.Token

namespace Numeral

/-- A comma and a period, of which one joins groups and the other opens a fraction, with two groups
at least or two digits behind the point at most. -/
structure Layout.Evident (mark point : Char) (l : Layout) : Prop where
  marks : AreOpposite mark point
  groups_ne_nil : l.groups ≠ []
  fraction_ne_nil : l.fraction ≠ []
  length : l.fraction.length ≤ 2 ∨ 2 ≤ l.groups.length

variable {c : Separators} {mark point : Char} {l : Layout}

theorem Layout.Evident.body_eq (h : l.Evident mark point) :
    l.body mark point = l.front mark ++ point :: l.fraction := by
  rw [body, pointed, if_neg h.fraction_ne_nil]

/-! ### In a convention -/

theorem exists_mem_splitOn {t ch : Char} {s : List Char} (h : ch ∈ s) (hne : ch ≠ t) :
    ∃ g ∈ s.splitOn t, ch ∈ g := by
  rw [← @List.intercalate_splitOn Char s _ _ t] at h
  obtain ⟨g, gs, hgs⟩ := List.exists_cons_of_ne_nil (List.splitOn_ne_nil t s)
  rw [hgs] at h ⊢
  rw [← Layout.joined_eq_intercalate] at h
  rcases List.mem_append.mp h with h | h
  · exact ⟨g, by simp, h⟩
  · rcases Layout.mem_joined h with ⟨rfl, -⟩ | ⟨g', hg', h⟩
    · exact absurd rfl hne
    · exact ⟨g', by simp [hg'], h⟩

theorem isDigits_of_areGroups {gs : List (List Char)} (h : areGroups gs) :
    ∀ g ∈ gs, isDigits g := by
  unfold areGroups at h
  split at h
  · simp only [Bool.and_eq_true, decide_eq_true_eq, List.all_eq_true, beq_iff_eq] at h
    intro g hg
    rcases List.mem_cons.mp hg with rfl | hg
    · exact h.1.2
    · exact (h.2 g hg).2
  · exact absurd h (by decide)

theorem wholeDigits?_eq_none {t : Option Char} {s : List Char} {ch : Char} (hch : ch ∈ s)
    (hd : ch.isDigit = false) (ht : t ≠ some ch) : wholeDigits? t s = none := by
  unfold wholeDigits?
  rw [if_neg (by simp [isDigits_eq_false hch hd])]
  cases t with
  | none => rfl
  | some t =>
    obtain ⟨g, hg, hchg⟩ := exists_mem_splitOn hch fun h => ht (by rw [h])
    have hgroups : ¬ areGroups (s.splitOn t) := fun h => by
      have hdigits := isDigits_of_areGroups h g hg
      rw [isDigits_eq_false hchg hd] at hdigits
      exact absurd hdigits (by decide)
    simp only [if_neg hgroups]

section Evident

variable (h : l.Evident mark point)
include h

theorem mark_mem_front : mark ∈ l.front mark := by
  obtain ⟨g, gs, hgs⟩ := List.exists_cons_of_ne_nil h.groups_ne_nil
  rw [Layout.front, hgs, Layout.joined_cons]
  simp

theorem wholeDigits?_body_eq_none (t : Option Char) :
    wholeDigits? t (l.body mark point) = none := by
  have hmark : mark ∈ l.body mark point := by
    rw [h.body_eq]
    exact List.mem_append_left _ (mark_mem_front h)
  have hpoint : point ∈ l.body mark point := by
    rw [h.body_eq]
    simp
  by_cases ht : t = some mark
  · refine wholeDigits?_eq_none hpoint (not_isDigit_of_isPointOrComma h.marks.isPointOrComma_point)
      ?_
    rw [ht, ne_eq, Option.some.injEq]
    exact h.marks.ne
  · exact wholeDigits?_eq_none hmark (not_isDigit_of_isPointOrComma h.marks.isPointOrComma_mark) ht

theorem splitFraction?_mark_eq_none : splitFraction? (some mark) (l.body mark point) = none := by
  obtain ⟨g, gs, hgs⟩ := List.exists_cons_of_ne_nil h.groups_ne_nil
  have hfirst : mark ∉ l.first := by
    intro hmem
    have hd := isDigits_iff.mp l.first_digits mark hmem
    rw [not_isDigit_of_isPointOrComma h.marks.isPointOrComma_mark] at hd
    exact absurd hd (by decide)
  have hbody : l.body mark point =
      l.first ++ mark :: (g ++ Layout.joined mark gs ++ point :: l.fraction) := by
    rw [h.body_eq, Layout.front, hgs, Layout.joined_cons]
    simp
  have hdigits : isDigits (g ++ Layout.joined mark gs ++ point :: l.fraction) = false :=
    isDigits_eq_false (by simp) (not_isDigit_of_isPointOrComma h.marks.isPointOrComma_point)
  rw [hbody, Layout.splitFraction?_append_cons hfirst, hdigits]
  simp

theorem splitFraction?_point :
    splitFraction? (some point) (l.body mark point) = some (l.front mark, l.fraction) := by
  have hfront : point ∉ l.front mark := by
    intro hmem
    rcases Layout.mem_front hmem with hd | ⟨heq, -⟩
    · rw [not_isDigit_of_isPointOrComma h.marks.isPointOrComma_point] at hd
      exact absurd hd (by decide)
    · exact h.marks.ne heq.symm
  rw [h.body_eq, Layout.splitFraction?_append_cons hfront]
  simp [h.fraction_ne_nil, l.fraction_digits]

end Evident

/-- **A convention with other marks refuses an evident number.** -/
theorem ofConvention?_text_eq_none (h : l.Evident mark point)
    (hmarks : c.thousand.mark? ≠ some mark ∨ c.decimal.mark? ≠ some point) :
    ofConvention? c (l.text mark point) = none := by
  have hsplit : (splitFraction? c.decimal.mark? (l.body mark point)).bind
      (fun p => (wholeDigits? c.thousand.mark? p.1).bind (make? l.negative · p.2)) = none := by
    by_cases hpoint : c.decimal.mark? = some point
    · have hthousand := hmarks.resolve_right (not_not.mpr hpoint)
      rw [hpoint, splitFraction?_point h, Option.bind_some,
        wholeDigits?_eq_none (mark_mem_front h)
          (not_isDigit_of_isPointOrComma h.marks.isPointOrComma_mark) hthousand, Option.bind_none]
    · cases hd : c.decimal.mark? with
      | none =>
        rw [splitFraction?, Option.bind_some, wholeDigits?_body_eq_none h, Option.bind_none]
      | some d =>
        by_cases hmark : d = mark
        · rw [hmark, splitFraction?_mark_eq_none h, Option.bind_none]
        · have hnot : d ∉ l.body mark point := by
            intro hmem
            rcases Layout.mem_body hmem with hdig | ⟨rfl, -⟩ | ⟨rfl, -⟩
            · rw [Separator.isDigit_of_mark? hd] at hdig
              exact absurd hdig (by decide)
            · exact hmark rfl
            · exact hpoint hd
          rw [Layout.splitFraction?_of_not_mem hnot, Option.bind_some, wholeDigits?_body_eq_none h,
            Option.bind_none]
  rw [ofConvention?]
  split
  · rfl
  · rw [Layout.takeSign_text]
    exact hsplit

/-- **A convention reads an evident number as it is meant**, if it does not refuse it. -/
theorem ofConvention?_text_of_evident (h : l.Evident mark point) {n : Numeral}
    (hn : ofConvention? c (l.text mark point) = some n) : n = l.numeral := by
  by_cases hmarks : c.thousand.mark? = some mark ∧ c.decimal.mark? = some point
  · have hc : c.ambiguous = false := by
      by_contra ha
      rw [ofConvention?, if_pos (by simpa using ha)] at hn
      simp at hn
    rw [Layout.ofConvention?_text hc ⟨fun _ => hmarks.1, fun _ => hmarks.2⟩] at hn
    exact (Option.some.inj hn).symm
  · rw [ofConvention?_text_eq_none h (not_and_or.mp hmarks)] at hn
    simp at hn

/-! ### By its marks -/

/-- **The marks of an evident number tell what is meant.** One group leaves the marks even, and then
there are few digits behind the point; more groups make the point the rarer one of the two. -/
theorem ofMarks?_text_of_evident (h : l.Evident mark point) :
    ofMarks? c (l.text mark point) = some l.numeral := by
  have hopens : opensFraction c (l.marks mark point) l.fraction.length := by
    rw [opensFraction_marks_iff h.marks h.fraction_ne_nil]
    exact h.length.imp_right .inl
  rw [ofMarks?_text h.marks.plain h.fraction_ne_nil, if_pos hopens]

/-- **An evident number stands for what is meant by it**, whatever the convention, if that has a
decimal mark. -/
theorem resolve_text_of_evident (hc : c.decimal ≠ .disabled) (h : l.Evident mark point) :
    resolve c (l.text mark point) = some l.numeral := by
  rw [resolve, Layout.trim_text]
  split
  · rename_i n hn
    rw [ofConvention?_text_of_evident h hn]
  · rw [if_neg hc, ofMarks?_text_of_evident h]

end Numeral

namespace Token

variable {c : Separators} {mark point : Char} {l : Layout}

/-! ### As a token -/

/-- **No period of an evident number is taken for a comma**: there are several, or what follows the
only one is no pair of groups. -/
theorem mendGroup_text_of_evident (h : l.Evident mark point) :
    mendGroup c (l.text mark point) = l.text mark point := by
  have hsign : '.' ∉ sign l.negative := by cases l.negative <;> decide
  have hdigits : ∀ s, isDigits s → '.' ∉ s := fun s hs hmem =>
    absurd (isDigits_iff.mp hs '.' hmem) (by decide)
  rcases h.marks with ⟨rfl, rfl⟩ | ⟨rfl, rfl⟩
  · -- the only period stands in front of the fraction
    have hfront : '.' ∉ sign l.negative ++ l.front ',' := by
      rw [List.mem_append, not_or]
      refine ⟨hsign, fun hmem => ?_⟩
      rcases Layout.mem_front hmem with hd | ⟨hd, -⟩ <;> exact absurd hd (by decide)
    rw [Layout.text, h.body_eq, ← List.append_assoc]
    exact mendGroup_append_cons hfront (.inr (startsGroups_eq_false l.fraction_digits))
  · obtain ⟨g, gs, hgs⟩ := List.exists_cons_of_ne_nil h.groups_ne_nil
    have hfirst : '.' ∉ sign l.negative ++ l.first := by
      rw [List.mem_append, not_or]
      exact ⟨hsign, hdigits _ l.first_digits⟩
    have htext : l.text '.' ',' = sign l.negative ++ l.first ++
        '.' :: (g ++ (Layout.joined '.' gs ++ ',' :: l.fraction)) := by
      rw [Layout.text, h.body_eq, Layout.front, hgs, Layout.joined_cons]
      simp
    rw [htext]
    refine mendGroup_append_cons hfirst ?_
    rcases gs with - | ⟨g', gs⟩
    · -- with one group there are two digits at most behind the comma
      right
      have hfew : l.fraction.length ≤ 2 := by
        have := h.length
        rw [hgs] at this
        simpa using this
      obtain ⟨d₁, d₂, d₃, rfl⟩ := List.length_eq_three.mp (l.length_group g (by simp [hgs]))
      rcases hfraction : l.fraction with - | ⟨e₁, - | ⟨e₂, - | ⟨e₃, s⟩⟩⟩
      · rfl
      · rfl
      · rfl
      · simp [hfraction] at hfew
    · left
      simp [Layout.joined_cons]

theorem clean_text_of_evident (h : l.Evident mark point) :
    clean c (l.text mark point) = l.text mark point := by
  have hunspaced : l.unspaced mark = l := if_neg fun hs => by
    rcases h.marks with ⟨rfl, -⟩ | ⟨rfl, -⟩ <;> exact absurd hs (by decide)
  rw [clean, compact_text (fun _ => .inl h.marks.isPointOrComma_mark)
      (fun _ => h.marks.isPointOrComma_point),
    hunspaced, collapse_text, trimMarks_text, mendGroup_text_of_evident h]

theorem ofText_of_evident (rowMode : Bool) (h : l.Evident mark point) :
    ofText c rowMode (l.text mark point) = [l.text mark point] := by
  have hline : ∀ ch ∈ l.text mark point, Text.isLineEnd ch = false := fun ch hch =>
    not_isLineEnd_of_isNumeric
      (mem_text (fun _ => .inl h.marks.isPointOrComma_mark)
        (fun _ => h.marks.isPointOrComma_point) hch)
  rw [ofText_line hline, ofLine_text_of_isJoint rowMode
    (fun _ => isJoint_of_isPointOrComma h.marks.isPointOrComma_mark)
    fun _ => h.marks.isPointOrComma_point,
    clean_text_of_evident h]

end Token

/-- **A number whose notation is evident is read the same under every convention** that has a
decimal mark, an ambiguous one too, and in either mode: it is the one token of its text, stands for
its digits with a period in front of the fraction, and is left out only if that is out of range. -/
theorem readings_of_evident {mark point : Char} {l : Layout} (h : l.Evident mark point)
    {c : Separators} (hc : c.decimal ≠ .disabled) (rowMode : Bool) :
    Token.ofText c rowMode (l.text mark point) = [l.text mark point] ∧
    resolve c (l.text mark point) = some l.numeral ∧
    l.numeral.text = sign l.negative ++ (l.first ++ l.groups.flatten) ++ '.' :: l.fraction ∧
    Reading.ofText c rowMode (l.text mark point) =
      (l.numeral.value?.map fun x => (⟨x, l.text mark point⟩ : Reading)).toList ∧
    (l.numeral.value? = none ↔
      (2 ^ 1024 - 2 ^ 970) * l.numeral.denominator ≤ l.numeral.numerator) := by
  have htokens := ofText_of_evident (c := c) rowMode h
  have hresolve := resolve_text_of_evident hc h
  refine ⟨htokens, hresolve, ?_, ?_, value?_eq_none_iff _⟩
  · rw [Numeral.text, pointed, if_neg (show l.numeral.fraction ≠ [] from h.fraction_ne_nil)]
    rfl
  · rw [Reading.ofText, htokens, List.filterMap_cons, Reading.ofToken?, hresolve, Option.bind_some]
    cases l.numeral.value? <;> rfl

/-- Millions in the continental notation, with three digits behind the comma. -/
def millions : Layout where
  negative := true
  first := ['1', '2']
  groups := [['3', '4', '5'], ['6', '7', '8']]
  fraction := ['9', '0', '1']
  first_ne_nil := by decide
  first_digits := by decide
  length_first := by decide
  groups_digits := by decide
  length_group := by decide
  fraction_digits := by decide

/-- They are read the same under the convention that swaps the two marks. -/
theorem readings_of_millions :
    (millions.Evident '.' ',' ∧ ({} : Separators).decimal ≠ .disabled) ∧
    Token.ofText {} false (millions.text '.' ',') = [millions.text '.' ','] ∧
    resolve {} (millions.text '.' ',') = some millions.numeral ∧
    millions.numeral.text =
      sign millions.negative ++ (millions.first ++ millions.groups.flatten) ++
        '.' :: millions.fraction ∧
    Reading.ofText {} false (millions.text '.' ',') =
      (millions.numeral.value?.map fun x => (⟨x, millions.text '.' ','⟩ : Reading)).toList ∧
    (millions.numeral.value? = none ↔
      (2 ^ 1024 - 2 ^ 970) * millions.numeral.denominator ≤ millions.numeral.numerator) := by
  have hevident : millions.Evident '.' ',' := ⟨.inr ⟨rfl, rfl⟩, by decide, by decide, by decide⟩
  exact ⟨⟨hevident, by decide⟩, readings_of_evident hevident (by decide) false⟩

end Reckoner
