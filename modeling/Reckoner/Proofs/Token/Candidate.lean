import Mathlib.Data.List.TakeWhile
import Reckoner.Numeral.Basic
import Reckoner.Token.Scan

/-! # What a scan finds

A scan finds candidates: a sign, a digit, and behind it digits and joints in any order
(`IsCandidate`). Cleaning keeps the sign and the first digit and brings nothing new but a comma, so
the tokens of a scanned text are candidates whose joints are periods and commas.

* `isCandidate_of_mem_scan`: every number that a scan finds is a candidate.
* `clean_sign_append_cons`: cleaning goes past the sign and the first digit.
* `ofLine_false`: so it leaves something of every number, and a line has as many tokens as numbers.
* `isCandidate_of_mem_ofText`: the tokens of a text that is scanned. -/

namespace Reckoner.Token

open Reckoner.Numeral

/-- A sign, a digit, and digits and joints behind it. -/
def IsCandidate (joint : Char → Bool) (t : List Char) : Prop :=
  ∃ negative d s, t = sign negative ++ d :: s ∧ d.isDigit ∧ ∀ ch ∈ s, ch.isDigit ∨ joint ch

/-! ### The scan -/

section Scan

variable {spaced : Bool} {ch : Char}

theorem mem_takeGroups {s : List Char} (h : ch ∈ (takeGroups spaced s).1) :
    ch.isDigit ∨ isJoint spaced ch := by
  fun_induction takeGroups spaced s with
  | case1 j d₁ d₂ d₃ rest hnext groups after htake ih =>
    simp only [Bool.and_eq_true, List.all_cons, List.all_nil, and_true] at hnext
    obtain ⟨⟨hj, h₁, h₂, h₃⟩, -⟩ := hnext
    simp only [List.mem_cons] at h
    rcases h with rfl | rfl | rfl | rfl | h
    · exact .inr hj
    · exact .inl h₁
    · exact .inl h₂
    · exact .inl h₃
    · exact ih (by rwa [htake])
  | case2 => simp at h
  | case3 => simp at h

theorem mem_takeFraction {s : List Char} (h : ch ∈ (takeFraction s).1) :
    ch.isDigit ∨ isPointOrComma ch := by
  fun_cases takeFraction s with
  | case1 m d rest hnext =>
    rw [takeFraction, if_pos hnext] at h
    simp only [Bool.and_eq_true] at hnext
    rcases List.mem_cons.mp h with rfl | h
    · exact .inr hnext.1
    · rcases List.mem_cons.mp h with rfl | h
      · exact .inl hnext.2
      · exact .inl (List.mem_takeWhile_imp h)
  | case2 m d rest hnext => simp [takeFraction, hnext] at h
  | case3 s hs => simp [takeFraction] at h

theorem exists_takeUnsigned {d : Char} (hd : d.isDigit) (s : List Char) :
    ∃ s', (takeUnsigned spaced (d :: s)).1 = d :: s' ∧
      ∀ ch ∈ s', ch.isDigit ∨ isJoint spaced ch := by
  refine ⟨_, by simp only [takeUnsigned, List.takeWhile_cons, hd, if_true, List.cons_append]; rfl,
    fun ch hch => ?_⟩
  rw [List.append_assoc] at hch
  rcases List.mem_append.mp hch with hch | hch
  · exact .inl (List.mem_takeWhile_imp hch)
  · rcases List.mem_append.mp hch with hch | hch
    · exact mem_takeGroups hch
    · exact (mem_takeFraction hch).imp_right fun hm => by simp [isJoint, hm]

/-- **Every number that a scan finds is a candidate.** -/
theorem isCandidate_of_mem_scan {s t : List Char} (h : t ∈ scan spaced s) :
    IsCandidate (isJoint spaced) t := by
  fun_induction scan spaced s with
  | case1 => simp at h
  | case2 d s hd ih =>
    rcases List.mem_cons.mp h with rfl | h
    · obtain ⟨s', hs, hmem⟩ := @exists_takeUnsigned spaced d hd s
      exact ⟨false, d, s', hs, hd, hmem⟩
    · exact ih h
  | case3 c s hc hminus ih =>
    rcases List.mem_cons.mp h with rfl | h
    · obtain ⟨rfl, hdigit⟩ := (by simpa using hminus : c = '-' ∧ s.head?.any Char.isDigit = true)
      obtain - | ⟨d, s⟩ := s
      · simp at hdigit
      · have hd : d.isDigit := by simpa using hdigit
        obtain ⟨s', hs, hmem⟩ := @exists_takeUnsigned spaced d hd s
        exact ⟨true, d, s', by rw [hs]; rfl, hd, hmem⟩
    · exact ih h
  | case4 c s hc hminus ih => exact ih h

end Scan

/-! ### Cleaning -/

theorem compact_cons {d : Char} (hd : Text.isBlank d = false) (s : List Char) :
    Text.compact (d :: s) = d :: Text.compact s := by
  rw [Text.compact, List.filter_cons_of_pos (by simp [hd]), ← Text.compact]

theorem collapse_cons {d : Char} (hd : isPointOrComma d = false) (s : List Char) :
    collapse (d :: s) = d :: collapse s := by
  simp [collapse, collapseFrom, hd]

theorem trimMarks_cons {d : Char} (hd : isPointOrComma d = false) (s : List Char) :
    trimMarks (d :: s) = d :: trimMarks s := by
  rw [trimMarks, List.reverse_cons, List.dropWhile_append, trimMarks]
  split
  · rename_i hempty
    rw [List.isEmpty_iff] at hempty
    simp [hempty, hd]
  · simp

theorem mendGroup_cons {c : Separators} {d : Char} (hd : isPointOrComma d = false) (s : List Char) :
    mendGroup c (d :: s) = d :: mendGroup c s := by
  have hne : (d != '.') = true := by
    rw [bne_iff_ne]
    rintro rfl
    exact absurd hd (by decide)
  have hdrop := List.dropWhile_cons_of_pos (p := (· != '.')) (l := s) hne
  have htake := List.takeWhile_cons_of_pos (p := (· != '.')) (l := s) hne
  rw [mendGroup, hdrop, htake, mendGroup]
  split
  · split_ifs <;> rfl
  · rfl

theorem clean_cons {c : Separators} {d : Char} (hb : Text.isBlank d = false)
    (hm : isPointOrComma d = false) (s : List Char) : clean c (d :: s) = d :: clean c s := by
  rw [clean, compact_cons hb, collapse_cons hm, trimMarks_cons hm, mendGroup_cons hm, clean]

theorem clean_sign_append_cons (c : Separators) (negative : Bool) {d : Char} (hd : d.isDigit)
    (s : List Char) : clean c (sign negative ++ d :: s) = sign negative ++ d :: clean c s := by
  have hdigit := @clean_cons c d (Text.not_isBlank_of_isDigit hd)
    (not_isPointOrComma_of_isDigit hd) s
  cases negative with
  | false => exact hdigit
  | true =>
    have hminus := @clean_cons c '-' (by decide) (by decide) (d :: s)
    rw [hdigit] at hminus
    exact hminus

theorem collapseFrom_sublist (held : Bool) (s : List Char) :
    (collapseFrom held s).Sublist s := by
  fun_induction collapseFrom held s with
  | case1 => exact List.Sublist.refl _
  | case2 c s _ ih => exact ih.cons c
  | case3 _ c s _ _ ih => exact ih.cons_cons c
  | case4 _ c s _ ih => exact ih.cons_cons c

theorem trimMarks_sublist (s : List Char) : (trimMarks s).Sublist s := by
  have h := (List.dropWhile_sublist isPointOrComma (l := s.reverse)).reverse
  rwa [List.reverse_reverse] at h

theorem mem_mendGroup {c : Separators} {ch : Char} {s : List Char} (h : ch ∈ mendGroup c s) :
    ch = ',' ∨ ch ∈ s := by
  unfold mendGroup at h
  split at h
  · rename_i m after hdrop
    split at h
    · have hs := List.takeWhile_append_dropWhile (p := (· != '.')) (l := s)
      rw [hdrop] at hs
      rw [← hs]
      rcases List.mem_append.mp h with h | h
      · exact .inr (List.mem_append_left _ h)
      · exact (List.mem_cons.mp h).imp_right fun h => List.mem_append_right _ (.tail _ h)
    · exact .inr h
  · exact .inr h

theorem mem_clean {c : Separators} {ch : Char} {s : List Char} (h : ch ∈ clean c s) :
    ch = ',' ∨ (ch ∈ s ∧ Text.isBlank ch = false) := by
  refine (mem_mendGroup h).imp_right fun h => ?_
  have hcompact := (collapseFrom_sublist false _).subset ((trimMarks_sublist _).subset h)
  exact ⟨(List.mem_filter.mp hcompact).1, Text.not_isBlank_of_mem_compact hcompact⟩

/-- **A candidate that is cleaned has no joints but periods and commas.** -/
theorem IsCandidate.clean (c : Separators) {spaced : Bool} {t : List Char}
    (h : IsCandidate (isJoint spaced) t) : IsCandidate isPointOrComma (clean c t) := by
  obtain ⟨negative, d, s, rfl, hd, hs⟩ := h
  refine ⟨negative, d, Token.clean c s, clean_sign_append_cons c negative hd s, hd,
    fun ch hch => ?_⟩
  rcases mem_clean hch with rfl | ⟨hmem, hblank⟩
  · exact .inr rfl
  · refine (hs ch hmem).imp_right fun hj => ?_
    simp only [isJoint, Bool.or_eq_true, Bool.and_eq_true, beq_iff_eq] at hj
    rcases hj with hm | ⟨-, rfl⟩
    · exact hm
    · exact absurd hblank (by decide)

theorem ofLine_false (c : Separators) (line : List Char) :
    ofLine c false line =
      (scan (c.thousand = .space) (line.filter (!isNoise ·))).map (clean c) := by
  rw [ofLine, if_neg (by decide)]
  refine List.filter_eq_self.mpr fun t ht => ?_
  obtain ⟨raw, hraw, rfl⟩ := List.mem_map.mp ht
  obtain ⟨negative, d, s, hs, -, -⟩ := (isCandidate_of_mem_scan hraw).clean c
  simp [hs]

theorem ofLine_of_not_isNoise {c : Separators} {line : List Char}
    (h : ∀ ch ∈ line, isNoise ch = false) :
    ofLine c false line = (scan (c.thousand = .space) line).map (clean c) := by
  have hfilter : line.filter (!isNoise ·) = line :=
    List.filter_eq_self.mpr fun ch hch => by simp [h ch hch]
  rw [ofLine_false, hfilter]

/-- **The tokens of a text that is scanned are candidates** with periods and commas as joints. -/
theorem isCandidate_of_mem_ofText {c : Separators} {text t : List Char}
    (h : t ∈ ofText c false text) : IsCandidate isPointOrComma t := by
  obtain ⟨line, -, ht⟩ := List.mem_flatMap.mp h
  obtain ⟨raw, hraw, rfl⟩ := List.mem_map.mp (List.mem_filter.mp ht).1
  exact (isCandidate_of_mem_scan hraw).clean c

end Reckoner.Token
