import Reckoner.Proofs.Text.Digits
import Reckoner.Proofs.Token.Candidate

/-! # What cleaning keeps

Cleaning takes out blanks and marks and puts a comma for a period, so everything else is still
there, in order, and digits that stand next to each other still do.

* `filter_clean`: what is neither a blank nor a mark is kept in order.
* `keepsRuns_clean`: a run of digits stays together, behind the same digits. -/

namespace Reckoner.Token

open Reckoner.Text (digits digits_append digits_cons_of_not_isDigit)

/-! ### What is neither a blank nor a mark -/

section Filter

variable {p : Char → Bool}

theorem filter_compact (hblank : ∀ ch, p ch → Text.isBlank ch = false) (s : List Char) :
    (Text.compact s).filter p = s.filter p := by
  rw [Text.compact, List.filter_filter]
  refine List.filter_congr fun ch _ => ?_
  cases hp : p ch with
  | false => rfl
  | true => simp [hblank ch hp]

variable (hmark : ∀ ch, p ch → isPointOrComma ch = false)
include hmark

theorem filter_collapseFrom (held : Bool) (s : List Char) :
    (collapseFrom held s).filter p = s.filter p := by
  fun_induction collapseFrom held s with
  | case1 => rfl
  | case2 ch s hch ih =>
    have hp : ¬ p ch := fun hp => by simp [hmark ch hp] at hch
    rw [ih, List.filter_cons_of_neg hp]
  | case3 held ch s hch hheld ih => rw [List.filter_cons, List.filter_cons, ih]
  | case4 held ch s hch ih => rw [List.filter_cons, List.filter_cons, ih]

theorem filter_trimMarks (s : List Char) : (trimMarks s).filter p = s.filter p := by
  have hs := List.takeWhile_append_dropWhile (p := isPointOrComma) (l := s.reverse)
  have hmarks : (s.reverse.takeWhile isPointOrComma).filter p = [] := by
    rw [List.filter_eq_nil_iff]
    intro ch hch hp
    have hm := List.mem_takeWhile_imp hch
    rw [hmark ch hp] at hm
    exact absurd hm (by decide)
  have hfilter := congrArg (fun l => (l.filter p).reverse) hs
  simp only [List.filter_append, hmarks, List.nil_append, List.filter_reverse,
    List.reverse_reverse] at hfilter
  rw [trimMarks, List.filter_reverse, hfilter]

omit hmark in
theorem mendGroup_eq (c : Separators) (s : List Char) :
    mendGroup c s = s ∨ ∃ u v, s = u ++ '.' :: v ∧ mendGroup c s = u ++ ',' :: v := by
  have hs := List.takeWhile_append_dropWhile (p := (· != '.')) (l := s)
  unfold mendGroup
  split
  · rename_i m after hdrop
    split
    · have hm : m = '.' := by
        have hhead := List.head?_dropWhile_not (· != '.') s
        simpa [hdrop] using hhead
      rw [hdrop, hm] at hs
      exact .inr ⟨_, after, hs.symm, rfl⟩
    · exact .inl rfl
  · exact .inl rfl

theorem filter_mendGroup (c : Separators) (s : List Char) :
    (mendGroup c s).filter p = s.filter p := by
  have hpoint : ∀ m, isPointOrComma m → ¬ p m := fun m hm hp => by simp [hmark m hp] at hm
  rcases mendGroup_eq c s with h | ⟨u, v, rfl, h⟩
  · rw [h]
  · rw [h, List.filter_append, List.filter_append, List.filter_cons_of_neg (hpoint ',' rfl),
      List.filter_cons_of_neg (hpoint '.' rfl)]

/-- **Cleaning keeps, in order, what is neither a blank nor a mark.** -/
theorem filter_clean (hblank : ∀ ch, p ch → Text.isBlank ch = false) (c : Separators)
    (s : List Char) : (clean c s).filter p = s.filter p := by
  rw [clean, filter_mendGroup hmark, filter_trimMarks hmark, collapse, filter_collapseFrom hmark,
    filter_compact hblank]

end Filter

theorem digits_clean (c : Separators) (s : List Char) : digits (clean c s) = digits s :=
  filter_clean (fun _ h => not_isPointOrComma_of_isDigit h)
    (fun _ h => Text.not_isBlank_of_isDigit h) c s

theorem clean_eq_nil_iff {c : Separators} {s : List Char} :
    clean c s = [] ↔ ∀ ch ∈ s, Text.isBlank ch ∨ isPointOrComma ch := by
  constructor
  · intro h ch hch
    by_contra hnot
    simp only [not_or, Bool.not_eq_true] at hnot
    have hfilter := filter_clean (p := fun ch => !Text.isBlank ch && !isPointOrComma ch)
      (fun ch hp => by simpa using (Bool.and_eq_true_iff.mp hp).2)
      (fun ch hp => by simpa using (Bool.and_eq_true_iff.mp hp).1) c s
    rw [h, List.filter_nil] at hfilter
    have hmem := List.filter_eq_nil_iff.mp hfilter.symm ch hch
    simp [hnot] at hmem
  · intro h
    have hmarks : ∀ ch ∈ collapse (Text.compact s), isPointOrComma ch := by
      intro ch hch
      have hcompact := (collapseFrom_sublist false _).subset hch
      refine (h ch (List.mem_filter.mp hcompact).1).resolve_left fun hblank => ?_
      simp [Text.not_isBlank_of_mem_compact hcompact] at hblank
    have htrim : trimMarks (collapse (Text.compact s)) = [] := by
      rw [trimMarks, List.reverse_eq_nil_iff, List.dropWhile_eq_nil_iff]
      exact fun ch hch => hmarks ch (List.mem_reverse.mp hch)
    rw [clean, htrim]
    rfl

/-! ### Runs of digits -/

/-- The runs of digits of `s` are still together in `t`, behind the same digits. -/
def KeepsRuns (s t : List Char) : Prop :=
  ∀ x run y, isDigits run → s = x ++ run ++ y → ∃ x' y', t = x' ++ run ++ y' ∧ digits x' = digits x

theorem KeepsRuns.trans {s t u : List Char} (hst : KeepsRuns s t) (htu : KeepsRuns t u) :
    KeepsRuns s u := by
  intro x run y hrun hs
  obtain ⟨x', y', ht, hx'⟩ := hst x run y hrun hs
  obtain ⟨x'', y'', hu, hx''⟩ := htu x' run y' hrun ht
  exact ⟨x'', y'', hu, hx''.trans hx'⟩

theorem keepsRuns_of_sublist {s t : List Char} (h : t.Sublist s) (hdigits : digits t = digits s) :
    KeepsRuns s t := by
  rintro x run y hrun rfl
  exact Text.exists_of_sublist hrun h hdigits

theorem keepsRuns_replace {m m' : Char} (hm : m.isDigit = false) (hm' : m'.isDigit = false)
    (u v : List Char) : KeepsRuns (u ++ m :: v) (u ++ m' :: v) := by
  intro x run y hrun hs
  have hrun' : m ∉ run := by
    intro hmem
    have hd := isDigits_iff.mp hrun m hmem
    rw [hm] at hd
    exact absurd hd (by decide)
  rcases List.append_eq_append_iff.mp hs with ⟨z, hz, hy⟩ | ⟨z, rfl, hz⟩
  · rcases List.cons_eq_append_iff.mp hy with ⟨rfl, rfl⟩ | ⟨z, rfl, rfl⟩
    · exact ⟨x, m' :: v, by rw [hz, List.append_nil], rfl⟩
    · -- the character stands in front of the end of the run, so in front of the run
      rcases List.append_eq_append_iff.mp hz with ⟨w, rfl, rfl⟩ | ⟨w, rfl, hw⟩
      · exact absurd (by simp) hrun'
      · rcases List.cons_eq_append_iff.mp hw with ⟨rfl, rfl⟩ | ⟨w, rfl, rfl⟩
        · exact absurd (by simp) hrun'
        · refine ⟨u ++ m' :: w, y, by simp, ?_⟩
          rw [digits_append, digits_append, digits_cons_of_not_isDigit hm,
            digits_cons_of_not_isDigit hm']
  · exact ⟨x, z ++ m' :: v, by simp, rfl⟩

theorem keepsRuns_mendGroup (c : Separators) (s : List Char) : KeepsRuns s (mendGroup c s) := by
  rcases mendGroup_eq c s with h | ⟨u, v, hs, h⟩
  · rw [h]
    exact fun x run y _ hs => ⟨x, y, hs, rfl⟩
  · rw [h, hs]
    exact keepsRuns_replace rfl rfl u v

/-- **Cleaning parts no digit from the digits next to it.** -/
theorem keepsRuns_clean (c : Separators) (s : List Char) : KeepsRuns s (clean c s) := by
  have hsub : (trimMarks (collapse (Text.compact s))).Sublist s :=
    (trimMarks_sublist _).trans ((collapseFrom_sublist false _).trans List.filter_sublist)
  have hmark : ∀ ch : Char, ch.isDigit → isPointOrComma ch = false :=
    fun _ h => not_isPointOrComma_of_isDigit h
  have hdigits : digits (trimMarks (collapse (Text.compact s))) = digits s := by
    rw [digits, filter_trimMarks hmark, collapse, filter_collapseFrom hmark,
      filter_compact fun _ h => Text.not_isBlank_of_isDigit h]
    rfl
  exact (keepsRuns_of_sublist hsub hdigits).trans (keepsRuns_mendGroup c _)

end Reckoner.Token
