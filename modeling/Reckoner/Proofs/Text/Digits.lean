import Mathlib.Data.List.TakeWhile
import Reckoner.Numeral.Basic
import Reckoner.Text.Blank

/-! # The digits of a text

What a number is made of are its digits, in order (`digits`). Taking blanks off the ends of a text
takes none of them.

* `exists_trim`: a text is what is left when it is trimmed, with blanks around it.
* `exists_of_sublist`: a run of digits stays together in a text that has lost no digit. -/

namespace Reckoner.Text

/-- The digits of a text, in order. -/
def digits (s : List Char) : List Char := s.filter Char.isDigit

theorem digits_append (s t : List Char) : digits (s ++ t) = digits s ++ digits t :=
  List.filter_append ..

theorem digits_cons_of_not_isDigit {ch : Char} (h : ch.isDigit = false) (s : List Char) :
    digits (ch :: s) = digits s :=
  List.filter_cons_of_neg (by simp [h])

theorem digits_of_isDigits {s : List Char} (h : isDigits s) : digits s = s :=
  List.filter_eq_self.mpr (isDigits_iff.mp h)

theorem digits_eq_nil_iff {s : List Char} : digits s = [] ↔ ∀ ch ∈ s, ch.isDigit = false := by
  simp [digits, List.filter_eq_nil_iff]

theorem digits_sign (negative : Bool) : digits (Numeral.sign negative) = [] := by
  cases negative <;> rfl

/-- **A text is what is left when it is trimmed, with blanks around it.** -/
theorem exists_trim (s : List Char) :
    ∃ a b, s = a ++ trim s ++ b ∧ (∀ ch ∈ a, isBlank ch) ∧ ∀ ch ∈ b, isBlank ch := by
  refine ⟨s.takeWhile isBlank, ((trimStart s).reverse.takeWhile isBlank).reverse, ?_,
    fun ch hch => List.mem_takeWhile_imp hch,
    fun ch hch => List.mem_takeWhile_imp (List.mem_reverse.mp hch)⟩
  have hend : trim s ++ ((trimStart s).reverse.takeWhile isBlank).reverse = trimStart s := by
    rw [trim, trimEnd, ← List.reverse_append, List.takeWhile_append_dropWhile, List.reverse_reverse]
  rw [List.append_assoc, hend, trimStart, List.takeWhile_append_dropWhile]

theorem digits_of_isBlank {s : List Char} (h : ∀ ch ∈ s, isBlank ch) : digits s = [] := by
  rw [digits_eq_nil_iff]
  intro ch hch
  by_contra hd
  have hblank := not_isBlank_of_isDigit (by simpa using hd)
  simp [h ch hch] at hblank

theorem digits_trim (s : List Char) : digits (trim s) = digits s := by
  obtain ⟨a, b, hs, ha, hb⟩ := exists_trim s
  have hdigits := congrArg digits hs
  rw [digits_append, digits_append, digits_of_isBlank ha, digits_of_isBlank hb, List.nil_append,
    List.append_nil] at hdigits
  exact hdigits.symm

theorem mem_trim_iff {s : List Char} {ch : Char} (h : isBlank ch = false) :
    ch ∈ trim s ↔ ch ∈ s := by
  obtain ⟨a, b, hs, ha, hb⟩ := exists_trim s
  constructor
  · intro hmem
    rw [hs]
    exact List.mem_append_left _ (List.mem_append_right _ hmem)
  · intro hmem
    rw [hs] at hmem
    rcases List.mem_append.mp hmem with hmem | hmem
    · rcases List.mem_append.mp hmem with hmem | hmem
      · simp [ha ch hmem] at h
      · exact hmem
    · simp [hb ch hmem] at h

/-- **A run of digits stays together in a text that has lost no digit**, and so do the digits in
front of it. -/
theorem exists_of_sublist {x run y t : List Char} (hrun : isDigits run)
    (h : t.Sublist (x ++ run ++ y)) (hdigits : digits t = digits (x ++ run ++ y)) :
    ∃ x' y', t = x' ++ run ++ y' ∧ digits x' = digits x := by
  obtain ⟨front, y', rfl, hfront, hy⟩ := List.sublist_append_iff.mp h
  obtain ⟨x', run', rfl, hx, hrun'⟩ := List.sublist_append_iff.mp hfront
  have hx' : (digits x').Sublist (digits x) := hx.filter _
  have hy' : (digits y').Sublist (digits y) := hy.filter _
  have hself : digits run' = run' :=
    digits_of_isDigits (isDigits_iff.mpr fun ch hch => isDigits_iff.mp hrun ch (hrun'.subset hch))
  have hlength := congrArg List.length hdigits
  simp only [digits_append, List.length_append, hself, digits_of_isDigits hrun] at hlength
  have hlx := hx'.length_le
  have hly := hy'.length_le
  have hlr := hrun'.length_le
  refine ⟨x', y', ?_, hx'.eq_of_length (by omega)⟩
  rw [hrun'.eq_of_length (by omega)]

end Reckoner.Text
