import Mathlib.Data.List.TakeWhile
import Reckoner.Proofs.Numeral.Convention

/-! # What the marks of a layout tell

Of a number in writing whose marks are a comma and a period, the marks tell how many groups it has
and how many digits follow the last of them, and `opensFraction` decides by these alone. So it can
be said exactly where a number in its convention is read as it is meant without looking at the
convention: up to three digits behind the point the last mark is taken for the point, and with two
groups or more it is as well, being the rarer of the two symbols. A longer fraction behind one group
or none is read as digits of the whole number.

* `filter_isPointOrComma_body`, `filter_isDigit_body`: the marks and the digits of a number in
  writing.
* `ofMarks?_text`, `ofMarks?_text_of_not_opens`: how it is read by its marks.
* `opensFraction_marks_iff`: when the mark in front of the fraction is taken for the point. -/

namespace Reckoner.Numeral

/-! ### Marks and digits of a number in writing -/

theorem filter_isPointOrComma_of_isDigits {s : List Char} (hs : isDigits s) :
    s.filter isPointOrComma = [] := by
  rw [List.filter_eq_nil_iff]
  intro ch hch
  simp [not_isPointOrComma_of_isDigit (isDigits_iff.mp hs ch hch)]

theorem filter_isPointOrComma_joined {mark : Char} {gs : List (List Char)}
    (hm : gs ≠ [] → isPointOrComma mark) (hd : ∀ g ∈ gs, isDigits g) :
    (Layout.joined mark gs).filter isPointOrComma = List.replicate gs.length mark := by
  induction gs with
  | nil => rfl
  | cons g gs ih =>
    have htail := ih (fun _ => hm (by simp)) fun g' hg' => hd g' (by simp [hg'])
    rw [Layout.joined_cons, List.cons_append, List.filter_cons_of_pos (hm (by simp)),
      List.filter_append, filter_isPointOrComma_of_isDigits (hd g (by simp)), List.nil_append,
      htail, List.length_cons, List.replicate_succ]

theorem filter_isDigit_joined {mark : Char} {gs : List (List Char)}
    (hm : gs ≠ [] → mark.isDigit = false) (hd : ∀ g ∈ gs, isDigits g) :
    (Layout.joined mark gs).filter Char.isDigit = gs.flatten := by
  induction gs with
  | nil => rfl
  | cons g gs ih =>
    have htail := ih (fun _ => hm (by simp)) fun g' hg' => hd g' (by simp [hg'])
    have hg := List.filter_eq_self.mpr (isDigits_iff.mp (hd g (by simp)))
    rw [Layout.joined_cons, List.cons_append, List.filter_cons_of_neg (by simp [hm]),
      List.filter_append, hg, htail, List.flatten_cons]

theorem trailingDigits_append_cons {s t : List Char} {m : Char} (hm : m.isDigit = false)
    (ht : isDigits t) :
    trailingDigits (s ++ m :: t) = t ∧ beforeTrailing (s ++ m :: t) = s ++ [m] := by
  have hrev : (s ++ m :: t).reverse = t.reverse ++ m :: s.reverse := by simp
  have hdigits : ∀ ch ∈ t.reverse, ch.isDigit = true := fun ch hch =>
    isDigits_iff.mp ht ch (List.mem_reverse.mp hch)
  constructor
  · rw [trailingDigits, hrev, List.takeWhile_append_of_pos hdigits]
    simp [hm]
  · rw [beforeTrailing, hrev, List.dropWhile_append_of_pos hdigits]
    simp [hm]

namespace Layout

/-- The marks of a number in writing, in order. -/
def marks (mark point : Char) (l : Layout) : List Char :=
  List.replicate l.groups.length mark ++ if l.fraction = [] then [] else [point]

/-- All digits of a number in writing, as a whole number. -/
def undivided (l : Layout) : Numeral where
  negative := l.negative
  whole := l.whole ++ l.fraction
  fraction := []
  whole_ne_nil := by simp [whole, l.first_ne_nil]
  whole_digits := isDigits_append.mpr ⟨l.whole_digits, l.fraction_digits⟩
  fraction_digits := rfl

theorem undivided_eq_numeral {l : Layout} (h : l.fraction = []) : l.undivided = l.numeral := by
  simp [undivided, numeral, h]

/-- The marks are commas and periods, as far as there are any. -/
structure Plain (mark point : Char) (l : Layout) : Prop where
  mark : l.groups ≠ [] → isPointOrComma mark
  point : l.fraction ≠ [] → isPointOrComma point

end Layout

section Plain

variable {c : Separators} {mark point : Char} {l : Layout} (h : l.Plain mark point)
include h

theorem filter_isPointOrComma_body :
    (l.body mark point).filter isPointOrComma = l.marks mark point := by
  have hpointed : (pointed point l.fraction).filter isPointOrComma =
      if l.fraction = [] then [] else [point] := by
    unfold pointed
    split_ifs with hf
    · rfl
    · rw [List.filter_cons_of_pos (h.point hf), filter_isPointOrComma_of_isDigits l.fraction_digits]
  rw [Layout.body, Layout.front, List.filter_append, List.filter_append,
    filter_isPointOrComma_of_isDigits l.first_digits, List.nil_append,
    filter_isPointOrComma_joined h.mark l.groups_digits, hpointed, Layout.marks]

theorem filter_isDigit_front : (l.front mark).filter Char.isDigit = l.whole := by
  rw [Layout.front, List.filter_append, List.filter_eq_self.mpr (isDigits_iff.mp l.first_digits),
    filter_isDigit_joined (fun hg => not_isDigit_of_isPointOrComma (h.mark hg)) l.groups_digits,
    Layout.whole]

theorem filter_isDigit_body : (l.body mark point).filter Char.isDigit = l.whole ++ l.fraction := by
  have hpointed : (pointed point l.fraction).filter Char.isDigit = l.fraction := by
    unfold pointed
    split_ifs with hf
    · exact hf.symm
    · rw [List.filter_cons_of_neg (by simp [not_isDigit_of_isPointOrComma (h.point hf)]),
        List.filter_eq_self.mpr (isDigits_iff.mp l.fraction_digits)]
  rw [Layout.body, List.filter_append, filter_isDigit_front h, hpointed]

theorem all_body :
    (l.body mark point).all (fun ch => ch.isDigit || isPointOrComma ch) = true := by
  rw [List.all_eq_true]
  intro ch hch
  rcases Layout.mem_body hch with hd | ⟨rfl, hg⟩ | ⟨rfl, hf⟩
  · simp [hd]
  · simp [h.mark hg]
  · simp [h.point hf]

/-! ### By the marks -/

theorem ofMarks?_text_of_not_opens
    (hopens :
      opensFraction c (l.marks mark point) (trailingDigits (l.body mark point)).length = false) :
    ofMarks? c (l.text mark point) = some l.undivided := by
  rw [ofMarks?, Layout.takeSign_text]
  dsimp only
  rw [if_pos (all_body h), filter_isPointOrComma_body h, if_neg (by simp [hopens]),
    filter_isDigit_body h]
  exact make?_eq_some_iff.mpr ⟨rfl, rfl, rfl⟩

/-- **How a number with a fraction is read by its marks**: as it is meant, if the mark in front of
the fraction is taken for the point, and as a whole number otherwise. -/
theorem ofMarks?_text (hf : l.fraction ≠ []) :
    ofMarks? c (l.text mark point) =
      some (if opensFraction c (l.marks mark point) l.fraction.length then l.numeral
        else l.undivided) := by
  have hpoint := not_isDigit_of_isPointOrComma (h.point hf)
  have hbody : l.body mark point = l.front mark ++ point :: l.fraction := by
    rw [Layout.body, pointed, if_neg hf]
  obtain ⟨htrailing, hbefore⟩ :=
    trailingDigits_append_cons (s := l.front mark) hpoint l.fraction_digits
  rw [← hbody] at htrailing hbefore
  split_ifs with hopens
  · have hwhole : (l.front mark ++ [point]).filter Char.isDigit = l.whole := by
      rw [List.filter_append, filter_isDigit_front h, List.filter_cons_of_neg (by simp [hpoint]),
        List.filter_nil, List.append_nil]
    have hzero : orZero l.whole = l.whole := if_neg l.numeral.whole_ne_nil
    rw [ofMarks?, Layout.takeSign_text]
    dsimp only
    rw [if_pos (all_body h), filter_isPointOrComma_body h, htrailing, if_pos hopens, hbefore,
      hwhole, hzero]
    exact make?_eq_some_iff.mpr ⟨rfl, rfl, rfl⟩
  · exact ofMarks?_text_of_not_opens h (by simpa [htrailing] using hopens)

end Plain

/-! ### Two symbols -/

/-- A comma and a period, the one between groups and the other in front of a fraction. -/
def AreOpposite (mark point : Char) : Prop :=
  (mark = ',' ∧ point = '.') ∨ (mark = '.' ∧ point = ',')

section Opposite

variable {c : Separators} {mark point : Char} {l : Layout} (h : AreOpposite mark point)
include h

theorem AreOpposite.isPointOrComma_mark : isPointOrComma mark := by
  rcases h with ⟨rfl, -⟩ | ⟨rfl, -⟩ <;> rfl

theorem AreOpposite.isPointOrComma_point : isPointOrComma point := by
  rcases h with ⟨-, rfl⟩ | ⟨-, rfl⟩ <;> rfl

theorem AreOpposite.ne : mark ≠ point := by
  rcases h with ⟨rfl, rfl⟩ | ⟨rfl, rfl⟩ <;> decide

theorem AreOpposite.plain : l.Plain mark point :=
  ⟨fun _ => h.isPointOrComma_mark, fun _ => h.isPointOrComma_point⟩

theorem AreOpposite.count_eq_iff (s : List Char) :
    s.count ',' = s.count '.' ↔ s.count mark = s.count point := by
  rcases h with ⟨rfl, rfl⟩ | ⟨rfl, rfl⟩
  · exact Iff.rfl
  · exact eq_comm

/-- **When the mark in front of a fraction is taken for the point**: in front of one or two digits,
behind two groups or more, where it is the rarer symbol, and in front of three digits if there is
one group, which leaves the symbols even, or if it is the decimal mark. -/
theorem opensFraction_marks_iff (hf : l.fraction ≠ []) :
    opensFraction c (l.marks mark point) l.fraction.length ↔
      l.fraction.length ≤ 2 ∨ 2 ≤ l.groups.length ∨
        l.fraction.length = 3 ∧ (l.groups.length = 1 ∨ c.decimal.isMark point) := by
  have hmarks : l.marks mark point = List.replicate l.groups.length mark ++ [point] := by
    rw [Layout.marks, if_neg hf]
  have hpos := List.length_pos_iff.mpr hf
  have hne := h.ne
  have hmark : (l.marks mark point).count mark = l.groups.length := by
    simp [hmarks, hne.symm]
  have hpoint : (l.marks mark point).count point = 1 := by
    simp [hmarks, List.count_replicate, hne]
  have hlength : (l.marks mark point).length = l.groups.length + 1 := by simp [hmarks]
  have hlast : (l.marks mark point).getLast? = some point := by simp [hmarks]
  rw [opensFraction, hlast]
  dsimp only
  simp only [h.count_eq_iff, hmark, hpoint, hlength]
  generalize c.decimal.isMark point = isDecimal
  split_ifs with hnone hone
  · -- no group
    cases isDecimal <;> simp only [Bool.and_eq_true, Bool.or_eq_true, decide_eq_true_eq, and_true,
      and_false, Bool.false_eq_true, or_true, or_false] <;> omega
  · simp only [Bool.and_eq_true, decide_eq_true_eq]
    omega
  · simp only [Bool.and_eq_true, decide_eq_true_eq, and_true]
    omega

theorem opensFraction_marks_of_fraction_eq_nil (hf : l.fraction = [])
    (hmark : c.decimal.isMark mark = false) :
    opensFraction c (l.marks mark point) (trailingDigits (l.body mark point)).length = false := by
  have hmarks : l.marks mark point = List.replicate l.groups.length mark := by
    rw [Layout.marks, if_pos hf, List.append_nil]
  have hcount : (l.marks mark point).count mark = l.groups.length := by simp [hmarks]
  have hnone : (l.marks mark point).count point = 0 := by simp [hmarks, List.count_replicate, h.ne]
  have hlength : (l.marks mark point).length = l.groups.length := by simp [hmarks]
  rcases hgroups : l.groups with - | ⟨g, gs⟩
  · rw [hmarks, hgroups]
    rfl
  · have hlast : (l.marks mark point).getLast? = some mark := by
      rw [hmarks, List.getLast?_replicate, if_neg (by simp [hgroups])]
    rw [opensFraction, hlast]
    dsimp only
    simp only [h.count_eq_iff, hcount, hnone, hlength, hmark]
    split_ifs with hone heven
    · -- three digits follow the only mark
      obtain rfl : gs = [] := by simpa [hgroups] using hone
      have hbody : l.body mark point = l.first ++ mark :: g := by
        simp [Layout.body, Layout.front, Layout.joined, hgroups, pointed, hf]
      have hthree := l.length_group g (by simp [hgroups])
      rw [hbody, (trailingDigits_append_cons (not_isDigit_of_isPointOrComma h.isPointOrComma_mark)
        (l.groups_digits g (by simp [hgroups]))).1, hthree]
      rfl
    · simp [hgroups] at heven
    · simp [hone]

end Opposite

end Reckoner.Numeral
