import Reckoner.Proofs.Numeral.Digits

/-! # Where the convention decides

A number that is written in a convention is read in it before its marks are looked at. Mostly that
is a short cut: the marks tell the same. It decides only for a fraction of more than three digits
behind one group or none, whose point the marks would tell to group.

* `groupMarks_text`, `decimalPlaces_text`: groups and places of a number in writing, counted in the
  text.
* `marks_agree_iff`: when the marks tell what the convention says. -/

namespace Reckoner.Numeral

/-- How many thousand marks a text carries. -/
def groupMarks (c : Separators) (s : List Char) : Nat := s.countP c.thousand.isMark

/-- How many characters stand behind the first decimal mark of a text. -/
def decimalPlaces (c : Separators) (s : List Char) : Nat :=
  (s.dropWhile (!c.decimal.isMark ·)).tail.length

theorem text_inj {n m : Numeral} : n.text = m.text ↔ n = m := by
  refine ⟨fun h => ?_, fun h => by rw [h]⟩
  have hself : ∀ k : Numeral, resolve plainConvention k.text = some k := by
    intro k
    obtain ⟨l, htext, hnumeral, hfits⟩ := exists_layout k
    rw [← htext, Layout.resolve_text (by decide) (hfits plainConvention rfl), hnumeral]
  exact Option.some.inj ((hself n).symm.trans (h ▸ hself m))

/-! ### Groups and places of a number in writing -/

theorem isMark_eq_false_of_mem_sign (s : Separator) {negative : Bool} {ch : Char}
    (h : ch ∈ sign negative) : s.isMark ch = false := by
  rw [eq_minus_of_mem_sign h, s.isMark_minus]

theorem countP_isMark_joined {c : Separators} {mark : Char} {gs : List (List Char)}
    (hm : gs ≠ [] → c.thousand.mark? = some mark) (hd : ∀ g ∈ gs, isDigits g) :
    (Layout.joined mark gs).countP c.thousand.isMark = gs.length := by
  induction gs with
  | nil => rfl
  | cons g gs ih =>
    obtain ⟨hg, hgs⟩ := List.forall_mem_cons.mp hd
    have hone : c.thousand.isMark mark := by simp [Separator.isMark, hm (by simp)]
    have hnone : g.countP c.thousand.isMark = 0 := List.countP_eq_zero.mpr fun ch hch => by
      simp [c.thousand.isMark_eq_false_of_isDigit (isDigits_iff.mp hg ch hch)]
    rw [Layout.joined_cons, List.cons_append, List.countP_cons_of_pos hone, List.countP_append,
      hnone, ih (fun _ => hm (by simp)) hgs, List.length_cons, Nat.zero_add]

section Fits

variable {c : Separators} {mark point : Char} {l : Layout} (hc : c.ambiguous = false)
  (h : l.Fits c mark point)
include hc h

theorem groupMarks_text : groupMarks c (l.text mark point) = l.groups.length := by
  have hzero : ∀ s : List Char, (∀ ch ∈ s, c.thousand.isMark ch = false) →
      s.countP c.thousand.isMark = 0 := fun s hs =>
    List.countP_eq_zero.mpr fun ch hch => by simp [hs ch hch]
  have hdigits : ∀ s, isDigits s → ∀ ch ∈ s, c.thousand.isMark ch = false := fun s hs ch hch =>
    c.thousand.isMark_eq_false_of_isDigit (isDigits_iff.mp hs ch hch)
  have hpointed : ∀ ch ∈ pointed point l.fraction, c.thousand.isMark ch = false := by
    intro ch hch
    rcases Layout.mem_pointed hch with ⟨rfl, hf⟩ | hch
    · rw [Separator.isMark, beq_eq_false_iff_ne]
      exact fun hm => Separators.mark?_ne_of_not_ambiguous hc hm (h.decimal hf) rfl
    · exact hdigits _ l.fraction_digits ch hch
  rw [groupMarks, Layout.text, Layout.body, Layout.front, List.countP_append, List.countP_append,
    List.countP_append, hzero _ fun ch => isMark_eq_false_of_mem_sign c.thousand,
    hzero _ (hdigits _ l.first_digits), countP_isMark_joined h.thousand l.groups_digits,
    hzero _ hpointed]
  omega

theorem decimalPlaces_text : decimalPlaces c (l.text mark point) = l.fraction.length := by
  have hfront : ∀ ch ∈ sign l.negative ++ l.front mark, (!c.decimal.isMark ch) = true := by
    intro ch hch
    rw [Bool.not_eq_true']
    rcases List.mem_append.mp hch with hch | hch
    · exact isMark_eq_false_of_mem_sign c.decimal hch
    · rcases Layout.mem_front hch with hd | ⟨rfl, hg⟩
      · exact c.decimal.isMark_eq_false_of_isDigit hd
      · rw [Separator.isMark, beq_eq_false_iff_ne]
        exact fun hm => Separators.mark?_ne_of_not_ambiguous hc (h.thousand hg) hm rfl
  rw [decimalPlaces, Layout.text, Layout.body, ← List.append_assoc,
    List.dropWhile_append_of_pos hfront, pointed]
  split_ifs with hf
  · rw [hf]
    rfl
  · have hpoint : c.decimal.isMark point := by simp [Separator.isMark, h.decimal hf]
    rw [List.dropWhile_cons_of_neg (by simp [hpoint]), List.tail_cons]

end Fits

/-! ### When the marks tell the same -/

theorem exists_opposite {c : Separators} (hthousand : c.thousand ≠ .space)
    (hdecimal : c.decimal = .comma ∨ c.decimal = .period) (hne : c.thousand ≠ c.decimal) :
    ∃ mark point, AreOpposite mark point ∧ c.decimal.mark? = some point ∧
      ∀ m, c.thousand.mark? = some m → m = mark := by
  obtain ⟨thousand, decimal⟩ := c
  rcases hdecimal with hd | hd <;> dsimp only at hd <;> subst hd
  · refine ⟨'.', ',', .inr ⟨rfl, rfl⟩, rfl, ?_⟩
    cases thousand <;> simp_all [Separator.mark?, eq_comm]
  · refine ⟨',', '.', .inl ⟨rfl, rfl⟩, rfl, ?_⟩
    cases thousand <;> simp_all [Separator.mark?, eq_comm]

theorem Layout.Fits.text_eq {c : Separators} {mark point m d : Char} {l : Layout}
    (h : l.Fits c m d) (hmark : ∀ m, c.thousand.mark? = some m → m = mark)
    (hpoint : c.decimal.mark? = some point) : l.text m d = l.text mark point := by
  have hfront : l.front m = l.front mark := by
    by_cases hg : l.groups = []
    · rw [front, front, hg]
      rfl
    · rw [hmark m (h.thousand hg)]
  have hpointed : pointed d l.fraction = pointed point l.fraction := by
    by_cases hf : l.fraction = []
    · rw [pointed, pointed, if_pos hf, if_pos hf]
    · rw [Option.some.inj ((h.decimal hf).symm.trans hpoint)]
  rw [text, text, body, body, hfront, hpointed]

theorem ofMarks?_layout {c : Separators} {mark point : Char} {l : Layout}
    (h : AreOpposite mark point) (hpoint : c.decimal.mark? = some point) :
    ofMarks? c (l.text mark point) =
      some (if l.fraction.length ≤ 3 ∨ 2 ≤ l.groups.length then l.numeral else l.undivided) := by
  have hdecimal : c.decimal.isMark point := by simp [Separator.isMark, hpoint]
  by_cases hf : l.fraction = []
  · have hmark : c.decimal.isMark mark = false := by
      rw [Separator.isMark, hpoint, beq_eq_false_iff_ne, ne_eq, Option.some.injEq]
      exact h.ne.symm
    rw [ofMarks?_text_of_not_opens h.plain (opensFraction_marks_of_fraction_eq_nil h hf hmark),
      if_pos (by simp [hf]), Layout.undivided_eq_numeral hf]
  · have hopens : opensFraction c (l.marks mark point) l.fraction.length ↔
        l.fraction.length ≤ 3 ∨ 2 ≤ l.groups.length := by
      rw [opensFraction_marks_iff h hf]
      simp only [hdecimal, or_true, and_true]
      omega
    simp only [ofMarks?_text h.plain hf, hopens]

/-- **When the marks tell what the convention says.** Let the decimal mark be one of the two
symbols, and let the other one group or none. Of a number that is written in this convention the
marks tell the same numeral if and only if it has three digits behind the point at most or two
thousand marks at least. -/
theorem marks_agree_iff {c : Separators}
    (hthousand : c.thousand = .comma ∨ c.thousand = .period ∨ c.thousand = .disabled)
    (hdecimal : c.decimal = .comma ∨ c.decimal = .period) (hne : c.thousand ≠ c.decimal)
    {p : RegularExpression Char} (hp : c.pattern? = some p) {t : List Char} (ht : t ∈ p.matches') :
    ∃ n m, ofMarks? c t = some n ∧ ofConvention? c t = some m ∧
      (n.text = m.text ↔ decimalPlaces c t ≤ 3 ∨ 2 ≤ groupMarks c t) := by
  have hc : c.ambiguous = false := by simp [Separators.ambiguous, hne]
  have hspace : c.thousand ≠ .space := by rcases hthousand with h | h | h <;> simp [h]
  obtain ⟨l, m, d, hfits, rfl⟩ := (mem_pattern_iff hp t).mp ht
  obtain ⟨mark, point, hopposite, hpoint, hmark⟩ := exists_opposite hspace hdecimal hne
  have hmarks := ofMarks?_layout (l := l) hopposite hpoint
  rw [← hfits.text_eq hmark hpoint] at hmarks
  refine ⟨_, _, hmarks, Layout.ofConvention?_text hc hfits, ?_⟩
  rw [decimalPlaces_text hc hfits, groupMarks_text hc hfits, text_inj]
  split_ifs with hagree
  · exact iff_of_true rfl hagree
  · refine iff_of_false (fun heq => hagree (.inl ?_)) hagree
    -- a whole number has no fraction
    have hnil : l.fraction = [] := (congrArg Numeral.fraction heq).symm
    simp [hnil]

/-- Behind one group the marks do not tell a fraction of four digits. -/
theorem marks_agree_iff_thousand :
    ((Separators.continental.thousand = .comma ∨ Separators.continental.thousand = .period ∨
        Separators.continental.thousand = .disabled) ∧
      (Separators.continental.decimal = .comma ∨ Separators.continental.decimal = .period) ∧
      Separators.continental.thousand ≠ Separators.continental.decimal) ∧
    (∃ p, Separators.continental.pattern? = some p ∧ "-1.234,5678".toList ∈ p.matches') ∧
    (decimalPlaces .continental "-1.234,5678".toList = 4 ∧
      groupMarks .continental "-1.234,5678".toList = 1) ∧
    ∃ n m, ofMarks? .continental "-1.234,5678".toList = some n ∧
      ofConvention? .continental "-1.234,5678".toList = some m ∧
      (n.text = m.text ↔ decimalPlaces .continental "-1.234,5678".toList ≤ 3 ∨
        2 ≤ groupMarks .continental "-1.234,5678".toList) := by
  have hread : (ofConvention? .continental "-1.234,5678".toList).isSome := by decide +kernel
  obtain ⟨n, hn⟩ := Option.isSome_iff_exists.mp hread
  obtain ⟨-, l, mark, point, hfits, htext, -⟩ := exists_layout_of_ofConvention? hn
  have hmem := (mem_pattern_iff (c := .continental) rfl _).mpr ⟨l, mark, point, hfits, htext⟩
  exact ⟨⟨by decide, by decide, by decide⟩, ⟨_, rfl, hmem⟩, ⟨by decide +kernel, by decide +kernel⟩,
    marks_agree_iff (by decide) (by decide) (by decide) rfl hmem⟩

end Reckoner.Numeral
