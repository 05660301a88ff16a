import Mathlib.Data.List.TakeWhile
import Reckoner.Numeral.Resolve

/-! # Numbers laid out on the page

A *layout* is a number in writing with its marks left out: the sign, the digits in front of the
first mark, the groups of three digits behind it, and the digits of the fraction. `text mark point`
puts the marks in. A layout `Fits` a convention with these marks if its groups are joined by the
thousand mark and its fraction follows the decimal mark.

* `mem_front`, `mem_body`: the characters of a number in writing.
* `ofConvention?_text`: what is laid out in a convention that is not ambiguous is read back.
* `resolve_text`: so it is as a token, as there are no blanks at its ends. -/

namespace Reckoner.Numeral

/-- A number in writing, its marks left out. -/
structure Layout where
  negative : Bool
  /-- The digits in front of the first group. -/
  first : List Char
  /-- The groups of three digits. -/
  groups : List (List Char)
  fraction : List Char
  first_ne_nil : first ≠ []
  first_digits : isDigits first
  /-- Groups follow three digits at most. -/
  length_first : groups ≠ [] → first.length ≤ 3
  groups_digits : ∀ g ∈ groups, isDigits g
  length_group : ∀ g ∈ groups, g.length = 3
  fraction_digits : isDigits fraction

namespace Layout

/-- The groups, each behind a mark. -/
def joined (mark : Char) (groups : List (List Char)) : List Char := groups.flatMap (mark :: ·)

/-- The digits in front of the fraction, with the marks between them. -/
def front (mark : Char) (l : Layout) : List Char := l.first ++ joined mark l.groups

/-- The number without its sign. -/
def body (mark point : Char) (l : Layout) : List Char := l.front mark ++ pointed point l.fraction

/-- The number in writing. -/
def text (mark point : Char) (l : Layout) : List Char := sign l.negative ++ l.body mark point

/-- All digits in front of the fraction. -/
def whole (l : Layout) : List Char := l.first ++ l.groups.flatten

theorem whole_digits (l : Layout) : isDigits l.whole :=
  isDigits_append.mpr ⟨l.first_digits, isDigits_flatten l.groups_digits⟩

/-- The number that is laid out. -/
def numeral (l : Layout) : Numeral where
  negative := l.negative
  whole := l.whole
  fraction := l.fraction
  whole_ne_nil := by simp [whole, l.first_ne_nil]
  whole_digits := l.whole_digits
  fraction_digits := l.fraction_digits

/-- The layout of the same number without groups. -/
def closed (l : Layout) : Layout where
  negative := l.negative
  first := l.whole
  groups := []
  fraction := l.fraction
  first_ne_nil := l.numeral.whole_ne_nil
  first_digits := l.whole_digits
  length_first h := absurd rfl h
  groups_digits := by simp
  length_group := by simp
  fraction_digits := l.fraction_digits

/-- The layout of the same number without spaces: groups that a space joins are no groups then. -/
def unspaced (mark : Char) (l : Layout) : Layout := if mark = ' ' then l.closed else l

theorem numeral_closed (l : Layout) : l.closed.numeral = l.numeral := by
  simp [numeral, closed, whole]

theorem numeral_unspaced (mark : Char) (l : Layout) : (l.unspaced mark).numeral = l.numeral := by
  unfold unspaced
  split_ifs
  · exact numeral_closed l
  · rfl

/-- The marks are those of a convention, as far as the layout needs them. -/
structure Fits (c : Separators) (mark point : Char) (l : Layout) : Prop where
  thousand : l.groups ≠ [] → c.thousand.mark? = some mark
  decimal : l.fraction ≠ [] → c.decimal.mark? = some point

variable {c : Separators} {mark point : Char} {l : Layout}

theorem Fits.unspaced (h : l.Fits c mark point) : (l.unspaced mark).Fits c mark point := by
  unfold Layout.unspaced
  split_ifs
  · exact ⟨fun hg => absurd rfl hg, h.decimal⟩
  · exact h

/-! ### The characters of a layout -/

theorem joined_cons (mark : Char) (g : List Char) (gs : List (List Char)) :
    joined mark (g :: gs) = mark :: g ++ joined mark gs := by
  simp [joined]

theorem mem_joined {mark ch : Char} {gs : List (List Char)} (h : ch ∈ joined mark gs) :
    (ch = mark ∧ gs ≠ []) ∨ ∃ g ∈ gs, ch ∈ g := by
  obtain ⟨g, hg, hch⟩ := List.mem_flatMap.mp h
  rcases List.mem_cons.mp hch with rfl | hch
  · exact .inl ⟨rfl, List.ne_nil_of_mem hg⟩
  · exact .inr ⟨g, hg, hch⟩

theorem mem_front {ch : Char} (h : ch ∈ l.front mark) :
    ch.isDigit ∨ (ch = mark ∧ l.groups ≠ []) := by
  rcases List.mem_append.mp h with h | h
  · exact .inl (isDigits_iff.mp l.first_digits ch h)
  · rcases mem_joined h with h | ⟨g, hg, hch⟩
    · exact .inr h
    · exact .inl (isDigits_iff.mp (l.groups_digits g hg) ch hch)

theorem mem_pointed {point ch : Char} {s : List Char} (h : ch ∈ pointed point s) :
    (ch = point ∧ s ≠ []) ∨ ch ∈ s := by
  unfold pointed at h
  split_ifs at h with hs
  · simp at h
  · rcases List.mem_cons.mp h with rfl | h
    · exact .inl ⟨rfl, hs⟩
    · exact .inr h

theorem mem_body {ch : Char} (h : ch ∈ l.body mark point) :
    ch.isDigit ∨ (ch = mark ∧ l.groups ≠ []) ∨ (ch = point ∧ l.fraction ≠ []) := by
  rcases List.mem_append.mp h with h | h
  · exact (mem_front h).imp_right .inl
  · rcases mem_pointed h with h | h
    · exact .inr (.inr h)
    · exact .inl (isDigits_iff.mp l.fraction_digits ch h)

theorem body_eq_cons (mark point : Char) (l : Layout) :
    ∃ d s, l.body mark point = d :: s ∧ d.isDigit := by
  obtain ⟨d, s, hs⟩ := List.exists_cons_of_ne_nil l.first_ne_nil
  refine ⟨d, _, by rw [body, front, hs]; rfl, isDigits_iff.mp l.first_digits d (by simp [hs])⟩

theorem body_eq_concat (mark point : Char) (l : Layout) :
    ∃ s d, l.body mark point = s ++ [d] ∧ d.isDigit := by
  -- the last run of digits is the fraction, the last group or, without groups, the first digits
  have run : ∀ s t, isDigits t → t ≠ [] → ∃ s' d, s ++ t = s' ++ [d] ∧ d.isDigit := by
    intro s t ht hne
    refine ⟨s ++ t.dropLast, t.getLast hne, ?_, isDigits_iff.mp ht _ (List.getLast_mem hne)⟩
    rw [List.append_assoc, List.dropLast_concat_getLast]
  by_cases hf : l.fraction = []
  · rw [body, pointed, if_pos hf, List.append_nil, front]
    rcases List.eq_nil_or_concat l.groups with hg | ⟨gs, g, hg⟩
    · simpa [hg, joined] using run [] l.first l.first_digits l.first_ne_nil
    · have hmem : g ∈ l.groups := by simp [hg]
      have hne : g ≠ [] := by
        rintro rfl
        simpa using l.length_group [] hmem
      obtain ⟨s, d, hs, hd⟩ := run (l.first ++ joined mark gs ++ [mark]) g
        (l.groups_digits g hmem) hne
      exact ⟨s, d, by rw [← hs, hg]; simp [joined], hd⟩
  · obtain ⟨s, d, hs, hd⟩ := run (l.front mark ++ [point]) l.fraction l.fraction_digits hf
    exact ⟨s, d, by rw [← hs, body, pointed, if_neg hf]; simp, hd⟩

/-! ### Reading a layout in its convention -/

theorem takeSign_text (mark point : Char) (l : Layout) :
    takeSign (l.text mark point) = (l.negative, l.body mark point) := by
  obtain ⟨d, s, hs, hd⟩ := body_eq_cons mark point l
  refine takeSign_sign_append _ ?_
  simp only [hs, List.head?_cons, ne_eq, Option.some.injEq]
  rintro rfl
  exact absurd hd (by decide)

section FirstMark

variable {d : Char} {s : List Char} (h : d ∉ s)
include h

theorem bne_of_not_mem : ∀ ch ∈ s, (ch != d) = true := by
  intro ch hch
  rw [bne_iff_ne]
  rintro rfl
  exact h hch

theorem dropWhile_bne_eq_nil : s.dropWhile (· != d) = [] :=
  List.dropWhile_eq_nil_iff.mpr (bne_of_not_mem h)

theorem dropWhile_bne_append_cons (t : List Char) : (s ++ d :: t).dropWhile (· != d) = d :: t := by
  rw [List.dropWhile_append_of_pos (bne_of_not_mem h)]
  simp

theorem takeWhile_bne_append_cons (t : List Char) : (s ++ d :: t).takeWhile (· != d) = s := by
  rw [List.takeWhile_append_of_pos (bne_of_not_mem h)]
  simp

theorem splitFraction?_of_not_mem : splitFraction? (some d) s = some (s, []) := by
  rw [splitFraction?, dropWhile_bne_eq_nil h]

theorem splitFraction?_append_cons (t : List Char) :
    splitFraction? (some d) (s ++ d :: t) = if t ≠ [] && isDigits t then some (s, t) else none := by
  rw [splitFraction?, dropWhile_bne_append_cons h]
  dsimp only
  rw [takeWhile_bne_append_cons h]

end FirstMark

theorem splitFraction?_body (hc : c.ambiguous = false) (h : l.Fits c mark point) :
    splitFraction? c.decimal.mark? (l.body mark point) = some (l.front mark, l.fraction) := by
  cases hd : c.decimal.mark? with
  | none =>
    have hf : l.fraction = [] := by
      by_contra hf
      simpa [hd] using h.decimal hf
    simp [splitFraction?, body, pointed, hf]
  | some d =>
    have hfront : d ∉ l.front mark := by
      intro hmem
      rcases mem_front hmem with hdig | ⟨rfl, hg⟩
      · simp [Separator.isDigit_of_mark? hd] at hdig
      · exact Separators.mark?_ne_of_not_ambiguous hc (h.thousand hg) hd rfl
    by_cases hf : l.fraction = []
    · rw [body, pointed, if_pos hf, List.append_nil, splitFraction?_of_not_mem hfront, hf]
    · have hp : point = d := Option.some.inj ((h.decimal hf).symm.trans hd)
      rw [body, pointed, if_neg hf, hp, splitFraction?_append_cons hfront]
      simp [hf, l.fraction_digits]

theorem joined_eq_intercalate (mark : Char) (s : List Char) (gs : List (List Char)) :
    s ++ joined mark gs = [mark].intercalate (s :: gs) := by
  induction gs generalizing s with
  | nil => simp [joined]
  | cons g gs ih =>
    rw [List.intercalate_cons_cons, ← ih g, joined_cons]
    simp

theorem wholeDigits?_front (h : l.groups ≠ [] → c.thousand.mark? = some mark) :
    wholeDigits? c.thousand.mark? (l.front mark) = some l.whole := by
  by_cases hg : l.groups = []
  · simp [wholeDigits?, front, joined, whole, hg, l.first_ne_nil, l.first_digits]
  · have hm := h hg
    have hmark := Separator.isDigit_of_mark? hm
    have hnot : ∀ g, isDigits g → mark ∉ g := by
      intro g hdig hmem
      simp [isDigits_iff.mp hdig mark hmem] at hmark
    have hdig : isDigits (l.front mark) = false := by
      rw [Bool.eq_false_iff]
      intro hd
      obtain ⟨g, gs, hgs⟩ := List.exists_cons_of_ne_nil hg
      exact hnot _ hd (by simp [front, hgs, joined_cons])
    have hsplit : (l.front mark).splitOn mark = l.first :: l.groups := by
      rw [front, joined_eq_intercalate]
      refine List.splitOn_intercalate mark ?_ (by simp)
      intro g hmem
      rcases List.mem_cons.mp hmem with rfl | hmem
      · exact hnot _ l.first_digits
      · exact hnot _ (l.groups_digits g hmem)
    have hgroups : areGroups (l.first :: l.groups) := by
      obtain ⟨g, gs, hgs⟩ := List.exists_cons_of_ne_nil hg
      have hpos := List.length_pos_iff.mpr l.first_ne_nil
      simp only [hgs, areGroups, Bool.and_eq_true, decide_eq_true_eq, List.all_eq_true, beq_iff_eq]
      refine ⟨⟨⟨hpos, l.length_first hg⟩, l.first_digits⟩, fun g' hg' => ?_⟩
      rw [← hgs] at hg'
      exact ⟨l.length_group g' hg', l.groups_digits g' hg'⟩
    simp [wholeDigits?, hdig, hm, hsplit, hgroups, whole]

/-- **A number that is laid out in a convention is read in it.** -/
theorem ofConvention?_text (hc : c.ambiguous = false) (h : l.Fits c mark point) :
    ofConvention? c (l.text mark point) = some l.numeral := by
  have hmake : make? l.negative l.whole l.fraction = some l.numeral :=
    make?_eq_some_iff.mpr ⟨rfl, rfl, rfl⟩
  simp [ofConvention?, hc, takeSign_text, splitFraction?_body hc h, wholeDigits?_front h.thousand,
    hmake]

/-! ### Reading a layout as a token -/

theorem trim_text (mark point : Char) (l : Layout) :
    Text.trim (l.text mark point) = l.text mark point := by
  obtain ⟨d, s, hs, hd⟩ := body_eq_cons mark point l
  obtain ⟨t, e, ht, he⟩ := body_eq_concat mark point l
  have hstart : Text.trimStart (l.text mark point) = l.text mark point := by
    rw [Text.trimStart, text, hs]
    cases l.negative
    · simp [sign, Text.not_isBlank_of_isDigit hd]
    · simp [sign, show Text.isBlank '-' = false from rfl]
  rw [Text.trim, hstart, Text.trimEnd, text, ht]
  simp [Text.not_isBlank_of_isDigit he]

/-- **A number that is laid out in a convention stands for itself as a token.** -/
theorem resolve_text (hc : c.ambiguous = false) (h : l.Fits c mark point) :
    resolve c (l.text mark point) = some l.numeral := by
  simp [resolve, trim_text, ofConvention?_text hc h]

end Layout

end Reckoner.Numeral
