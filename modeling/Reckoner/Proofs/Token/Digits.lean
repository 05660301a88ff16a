import Mathlib.Data.List.Forall2
import Reckoner.Proofs.Token.Clean
import Reckoner.Proofs.Token.Gap

/-! # The digits of tokens

A scan cuts a line into numbers and what stands between them, and between them there is no digit
(`Cut`): a number begins at the first digit that is left and goes on as long as digits follow.
Cleaning takes out blanks and marks and puts a comma for a period. So no digit is lost on the way,
and none is parted from the digits next to it.

* `cut_scan`: how a scan cuts a line.
* `digits_ofText`: the digits of a text are those of its tokens.
* `digits_of_tokens`: the same of each line, with its runs of digits and its signs. -/

namespace Reckoner.Token

open Reckoner.Numeral
open Reckoner.Text (digits digits_append digits_cons_of_not_isDigit digits_of_isDigits
  digits_eq_nil_iff digits_sign)

/-! ### Lines and their numbers -/

/-- A line that is scanned, without its letters and currency signs. -/
def bare (line : List Char) : List Char := line.filter (!isNoise ·)

/-- The numbers that are cut from a line: between them there is no digit, none of them goes on
behind its end, and a minus right before the first digit is part of the number. -/
inductive Cut : List Char → List (List Char) → Prop
  | rest {gap : List Char} (hgap : digits gap = []) : Cut gap []
  | number {s rest : List Char} {d : Char} {found : List (List Char)} (gap : List Char)
      (negative : Bool) (hgap : digits gap = [])
      (hsign : negative = false → gap.getLast? ≠ some '-')
      (hd : d.isDigit) (hs : '-' ∉ s) (hstop : rest.head?.any Char.isDigit = false)
      (hrest : Cut rest found) :
      Cut (gap ++ (sign negative ++ d :: s) ++ rest) ((sign negative ++ d :: s) :: found)

/-- Every run of digits of the line lies inside one of the pieces, behind the digits that stand in
front of it in the line. -/
def RunsWhole (line : List Char) (pieces : List (List Char)) : Prop :=
  ∀ a run b, isDigits run → run ≠ [] → line = a ++ run ++ b →
    ∃ before t after x y, pieces = before ++ t :: after ∧ t = x ++ run ++ y ∧
      digits (before.flatten ++ x) = digits a

/-- Every piece is a sign and a digit of the line, the first one that is in none of the pieces
before; the sign is a minus if that is what stands before this digit in the line, and there is no
other. -/
def SignsKept (line : List Char) (pieces : List (List Char)) : Prop :=
  ∀ before t after, pieces = before ++ t :: after →
    ∃ a negative d s b, line = a ++ d :: b ∧ d.isDigit ∧ digits before.flatten = digits a ∧
      t = sign negative ++ d :: s ∧ (negative = true ↔ a.getLast? = some '-') ∧ '-' ∉ s

/-! ### How a scan cuts a line -/

section Scan

variable {spaced : Bool}

theorem head?_dropWhile_isDigit (s : List Char) :
    (s.dropWhile Char.isDigit).head?.any Char.isDigit = false := by
  have h := List.head?_dropWhile_not Char.isDigit s
  cases hs : (s.dropWhile Char.isDigit).head? with
  | none => rfl
  | some ch => simpa [hs] using h

theorem head?_of_not_startsWord {s : List Char} (h : Text.startsWord s = false) :
    s.head?.any Char.isDigit = false := by
  cases s with
  | nil => rfl
  | cons ch s =>
    by_contra hd
    have hword := Text.isWord_of_isDigit (by simpa using hd)
    rw [Text.startsWord, hword] at h
    exact absurd h (by decide)

theorem head?_takeGroups {s : List Char} (h : s.head?.any Char.isDigit = false) :
    (takeGroups spaced s).2.head?.any Char.isDigit = false := by
  fun_induction takeGroups spaced s with
  | case1 j d₁ d₂ d₃ rest hnext groups after htake ih =>
    simp only [Bool.and_eq_true, Bool.not_eq_true'] at hnext
    have hafter := ih (head?_of_not_startsWord hnext.2)
    rwa [htake] at hafter
  | case2 => exact h
  | case3 => exact h

theorem head?_takeFraction {s : List Char} (h : s.head?.any Char.isDigit = false) :
    (takeFraction s).2.head?.any Char.isDigit = false := by
  unfold takeFraction
  split
  · split
    · exact head?_dropWhile_isDigit _
    · exact h
  · exact h

theorem head?_takeUnsigned (s : List Char) :
    (takeUnsigned spaced s).2.head?.any Char.isDigit = false :=
  head?_takeFraction (head?_takeGroups (head?_dropWhile_isDigit s))

theorem not_minus_of_forall_joint {s : List Char} (h : ∀ ch ∈ s, ch.isDigit ∨ isJoint spaced ch) :
    '-' ∉ s := by
  intro hmem
  rcases h '-' hmem with hd | hj
  · exact absurd hd (by decide)
  · simp [isJoint, isPointOrComma] at hj

theorem Cut.cons {ch : Char} {s : List Char} {found : List (List Char)} (hch : ch.isDigit = false)
    (hminus : ch = '-' → s.head?.any Char.isDigit = false) (h : Cut s found) :
    Cut (ch :: s) found := by
  cases h with
  | rest hgap => exact .rest (by rw [digits_cons_of_not_isDigit hch, hgap])
  | @number s rest d found gap negative hgap hsign hd hs hstop hrest =>
    have hgap' : digits (ch :: gap) = [] := by rw [digits_cons_of_not_isDigit hch, hgap]
    refine .number (ch :: gap) negative hgap' ?_ hd hs hstop hrest
    rintro rfl
    cases gap with
    | nil =>
      intro hlast
      have hhead := hminus (by simpa using hlast)
      simp [sign, hd] at hhead
    | cons x gap => simpa using hsign rfl

theorem Cut.takeUnsigned (negative : Bool) {d : Char} (hd : d.isDigit) {s : List Char}
    {found : List (List Char)} (h : Cut (takeUnsigned spaced (d :: s)).2 found) :
    Cut (sign negative ++ d :: s)
      ((sign negative ++ (takeUnsigned spaced (d :: s)).1) :: found) := by
  obtain ⟨s', hs', hmem⟩ := @exists_takeUnsigned spaced d hd s
  have happend := takeUnsigned_append spaced (d :: s)
  have hstop : (Token.takeUnsigned spaced (d :: s)).2.head?.any Char.isDigit = false :=
    head?_takeUnsigned (d :: s)
  have hcut := Cut.number [] negative rfl (by simp) hd (not_minus_of_forall_joint hmem)
    hstop h
  rw [← hs', List.nil_append, List.append_assoc, happend] at hcut
  exact hcut

/-- **How a scan cuts a line.** -/
theorem cut_scan (spaced : Bool) (s : List Char) : Cut s (scan spaced s) := by
  fun_induction scan spaced s with
  | case1 => exact .rest rfl
  | case2 d s hd ih => exact ih.takeUnsigned false hd
  | case3 ch s hch hminus ih =>
    obtain ⟨rfl, hdigit⟩ := (by simpa using hminus : ch = '-' ∧ s.head?.any Char.isDigit = true)
    obtain - | ⟨d, s⟩ := s
    · simp at hdigit
    · exact ih.takeUnsigned true (by simpa using hdigit)
  | case4 ch s hch hminus ih =>
    refine ih.cons (by simpa using hch) fun hm => ?_
    simpa [hm] using hminus

end Scan

/-! ### What is in the numbers of a line -/

section Cut

variable {line : List Char} {found : List (List Char)}

theorem Cut.digits_flatten (h : Cut line found) : digits found.flatten = digits line := by
  induction h with
  | rest hgap => exact hgap.symm
  | number gap negative hgap hsign hd hs hstop hrest ih =>
    simp only [List.flatten_cons, digits_append, ih, hgap, List.nil_append]

theorem run_of_append {a run b u v : List Char} (hrun : isDigits run) (hne : run ≠ [])
    (hv : v.head?.any Char.isDigit = false) (h : u ++ v = a ++ run ++ b) :
    (∃ y, u = a ++ run ++ y) ∨ ∃ x, a = u ++ x ∧ v = x ++ run ++ b := by
  rw [List.append_assoc] at h
  rcases List.append_eq_append_iff.mp h with ⟨x, rfl, hx⟩ | ⟨y, rfl, hy⟩
  · exact .inr ⟨x, rfl, by rw [hx, List.append_assoc]⟩
  · rcases List.append_eq_append_iff.mp hy with ⟨z, rfl, -⟩ | ⟨z, rfl, rfl⟩
    · exact .inl ⟨z, (List.append_assoc ..).symm⟩
    · cases z with
      | nil => exact .inl ⟨[], by simp⟩
      | cons ch z =>
        have hch := isDigits_iff.mp hrun ch (by simp)
        simp [hch] at hv

theorem Cut.runsWhole (h : Cut line found) : RunsWhole line found := by
  intro a run b hrun hne hline
  induction h generalizing a with
  | rest hgap =>
    obtain ⟨d, run, rfl⟩ := List.exists_cons_of_ne_nil hne
    have hd := digits_eq_nil_iff.mp hgap d (by simp [hline])
    rw [(isDigits_cons.mp hrun).1] at hd
    exact absurd hd (by decide)
  | @number s rest d found gap negative hgap hsign hd hs hstop hrest ih =>
    rcases run_of_append hrun hne hstop hline with ⟨y, hy⟩ | ⟨a', rfl, hrest'⟩
    · -- the run ends in front of the rest, and in the gap it cannot begin
      rw [List.append_assoc] at hy
      rcases List.append_eq_append_iff.mp hy with ⟨x, rfl, hx⟩ | ⟨z, rfl, hz⟩
      · refine ⟨[], _, found, x, y, rfl, by rw [hx, List.append_assoc], ?_⟩
        rw [List.flatten_nil, List.nil_append, digits_append, hgap, List.nil_append]
      · cases z with
        | nil => exact ⟨[], _, found, [], y, rfl, by simpa using hz.symm,
            by simpa [digits] using hgap⟩
        | cons ch z =>
          obtain ⟨e, run, rfl⟩ := List.exists_cons_of_ne_nil hne
          obtain ⟨rfl, -⟩ : e = ch ∧ _ := by simpa using hz
          have he := digits_eq_nil_iff.mp hgap e (by simp)
          rw [(isDigits_cons.mp hrun).1] at he
          exact absurd he (by decide)
    · obtain ⟨before, t, after, x, y, rfl, ht, hdigits⟩ := ih a' hrest'
      refine ⟨_ :: before, t, after, x, y, rfl, ht, ?_⟩
      rw [List.flatten_cons, List.append_assoc]
      simp only [digits_append _ a', digits_append gap, digits_append _ (_ ++ x), hdigits, hgap,
        List.nil_append]

theorem Cut.signsKept (h : Cut line found) : SignsKept line found := by
  intro before t after hfound
  induction h generalizing before with
  | rest hgap => simp at hfound
  | @number s rest d found gap negative hgap hsign hd hs hstop hrest ih =>
    rcases List.cons_eq_append_iff.mp hfound with ⟨rfl, hcons⟩ | ⟨before', rfl, hbefore⟩
    · obtain ⟨rfl, -⟩ := List.cons.inj hcons
      refine ⟨gap ++ sign negative, negative, d, s, s ++ rest, by simp, hd, ?_, rfl, ?_, hs⟩
      · rw [digits_append, hgap, digits_sign, List.flatten_nil]
        rfl
      · cases negative with
        | false => simpa [sign] using hsign rfl
        | true => simp [sign]
    · obtain ⟨a, neg, e, s', b, rfl, he, hdigits, ht, hminus, hs'⟩ := ih before' hbefore
      have ha : a ≠ [] := by
        rintro rfl
        simp [he] at hstop
      refine ⟨gap ++ (sign negative ++ d :: s) ++ a, neg, e, s', b, by simp, he, ?_, ht, ?_, hs'⟩
      · rw [List.flatten_cons, digits_append, hdigits, digits_append (_ ++ _), digits_append gap,
          hgap, List.nil_append]
      · rw [List.getLast?_append_of_ne_nil _ ha]
        exact hminus

end Cut

/-! ### What is in the tokens of a line -/

section Clean

variable {c : Separators} {line : List Char} {found : List (List Char)}

theorem digits_flatten_map_clean (c : Separators) (found : List (List Char)) :
    digits (found.map (clean c)).flatten = digits found.flatten := by
  induction found with
  | nil => rfl
  | cons t found ih =>
    rw [List.map_cons, List.flatten_cons, List.flatten_cons, digits_append, digits_append,
      digits_clean, ih]

theorem RunsWhole.clean (c : Separators) (h : RunsWhole line found) :
    RunsWhole line (found.map (Token.clean c)) := by
  intro a run b hrun hne hline
  obtain ⟨before, t, after, x, y, rfl, ht, hdigits⟩ := h a run b hrun hne hline
  obtain ⟨x', y', ht', hx'⟩ := keepsRuns_clean c t x run y hrun ht
  refine ⟨before.map (Token.clean c), _, after.map (Token.clean c), x', y', by simp, ht', ?_⟩
  rw [digits_append, digits_flatten_map_clean, hx', ← digits_append, hdigits]

theorem SignsKept.clean (c : Separators) (h : SignsKept line found) :
    SignsKept line (found.map (Token.clean c)) := by
  intro before t after hfound
  obtain ⟨before, rest, rfl, rfl, hrest⟩ := List.map_eq_append_iff.mp hfound
  obtain ⟨t, after, rfl, rfl, rfl⟩ := List.map_eq_cons_iff.mp hrest
  obtain ⟨a, negative, d, s, b, hline, hd, hdigits, rfl, hminus, hs⟩ := h before t after rfl
  refine ⟨a, negative, d, Token.clean c s, b, hline, hd, ?_, clean_sign_append_cons c negative hd s,
    hminus, ?_⟩
  · rw [digits_flatten_map_clean, hdigits]
  · intro hmem
    rcases mem_clean hmem with hcomma | ⟨hmem, -⟩
    · exact absurd hcomma (by decide)
    · exact hs hmem

end Clean

theorem isDigit_of_isNoise {ch : Char} (h : isNoise ch) : ch.isDigit = false := by
  rcases Bool.or_eq_true_iff.mp h with h | h
  · by_contra hd
    have hdigit := Text.toNat_of_isDigit (by simpa using hd)
    have hletter : 65 ≤ ch.toNat := by
      rcases Bool.or_eq_true_iff.mp h with h | h
      · exact UInt32.le_iff_toNat_le.mp (of_decide_eq_true h).1
      · have hlow := UInt32.le_iff_toNat_le.mp (of_decide_eq_true (Bool.and_eq_true_iff.mp h).1)
        exact le_trans (by decide) hlow
    omega
  · have hmem : ch ∈ ['$', '€', '£', '¥', '₹'] := List.contains_iff_mem.mp h
    simp only [List.mem_cons, List.not_mem_nil, or_false] at hmem
    rcases hmem with rfl | rfl | rfl | rfl | rfl <;> rfl

theorem digits_bare (line : List Char) : digits (bare line) = digits line := by
  rw [digits, bare, List.filter_filter]
  refine List.filter_congr fun ch _ => ?_
  cases hn : isNoise ch with
  | false => simp
  | true => simp [isDigit_of_isNoise hn]

/-- Whether something of a line is left as the token of its row: a digit or a minus. -/
def isRow (line : List Char) : Bool := line.any fun ch => ch.isDigit || ch == '-'

theorem mark_iff_of_isNumeric {ch : Char} (h : isNumeric ch) :
    Text.isBlank ch ∨ isPointOrComma ch ↔ (ch.isDigit || ch == '-') = false := by
  have hblank := not_isBlank_of_isNumeric h
  rcases hm : isPointOrComma ch with - | -
  · simp only [isNumeric, hm, Bool.or_false] at h
    simp [hblank, h]
  · rcases isPointOrComma_iff.mp hm with rfl | rfl <;> simp

theorem ofLine_true (c : Separators) (line : List Char) :
    ofLine c true line = if isRow line then [clean c (line.filter isNumeric)] else [] := by
  have hempty : (clean c (line.filter isNumeric)).isEmpty = !isRow line := by
    rw [Bool.eq_iff_iff, List.isEmpty_iff, clean_eq_nil_iff]
    simp only [isRow, Bool.not_eq_true', List.any_eq_false, List.mem_filter, Bool.not_eq_true]
    constructor
    · intro h ch hch
      by_contra hrow
      have hn : isNumeric ch := by
        simp only [Bool.not_eq_false, Bool.or_eq_true] at hrow
        rcases hrow with hd | hm
        · simp [isNumeric, hd]
        · simp [isNumeric, hm]
      exact hrow ((mark_iff_of_isNumeric hn).mp (h ch ⟨hch, hn⟩))
    · intro h ch hch
      exact (mark_iff_of_isNumeric hch.2).mpr (h ch hch.1)
  rw [ofLine, if_pos rfl, List.map_singleton, List.filter_singleton, hempty, Bool.not_not]
  cases isRow line <;> rfl

theorem digits_filter_isNumeric (line : List Char) :
    digits (line.filter isNumeric) = digits line := by
  rw [digits, List.filter_filter]
  refine List.filter_congr fun ch _ => ?_
  cases hd : ch.isDigit with
  | false => rfl
  | true => simp [isNumeric, hd]

/-! ### Texts -/

theorem digits_ofLine (c : Separators) (rowMode : Bool) (line : List Char) :
    digits (ofLine c rowMode line).flatten = digits line := by
  cases rowMode with
  | false =>
    rw [ofLine_false, ← bare, digits_flatten_map_clean, (cut_scan _ _).digits_flatten, digits_bare]
  | true =>
    rw [ofLine_true]
    split
    · rw [List.flatten_singleton, digits_clean, digits_filter_isNumeric]
    · rename_i hrow
      refine (digits_eq_nil_iff.mpr fun ch hch => ?_).symm
      simp only [isRow, List.any_eq_true, not_exists, not_and, Bool.or_eq_true, not_or] at hrow
      simpa using (hrow ch hch).1

/-- **The lines of a text have its digits.** -/
theorem digits_flatten_lines (text : List Char) :
    digits (Text.lines text).flatten = digits text := by
  induction text with
  | nil => rfl
  | cons ch s ih =>
    rw [Text.lines, List.splitOnP_cons_eq_if_modifyHead, ← Text.lines]
    split
    · rename_i hend
      have hd : ch.isDigit = false := by
        simp only [Text.isLineEnd, Bool.or_eq_true, beq_iff_eq] at hend
        rcases hend with rfl | rfl <;> rfl
      rw [List.flatten_cons, List.nil_append, ih, digits_cons_of_not_isDigit hd]
    · obtain ⟨first, others, hlines⟩ :=
        List.exists_cons_of_ne_nil (List.splitOnP_ne_nil Text.isLineEnd s)
      rw [Text.lines, hlines] at ih ⊢
      rw [List.modifyHead_cons, List.flatten_cons, List.cons_append, ← List.flatten_cons, digits,
        List.filter_cons, ← digits, ih, digits, digits, List.filter_cons]

theorem digits_ofText (c : Separators) (rowMode : Bool) (text : List Char) :
    digits (ofText c rowMode text).flatten = digits text := by
  rw [← digits_flatten_lines text, ofText]
  induction Text.lines text with
  | nil => rfl
  | cons line lines ih =>
    rw [List.flatMap_cons, List.flatten_append, digits_append, digits_ofLine, ih, List.flatten_cons,
      digits_append]

theorem forall₂_rows (c : Separators) (lines : List (List Char)) :
    List.Forall₂ (fun token line => digits token = digits line) (lines.flatMap (ofLine c true))
      (lines.filter isRow) := by
  induction lines with
  | nil => exact .nil
  | cons line lines ih =>
    rw [List.flatMap_cons, ofLine_true, List.filter_cons]
    split
    · exact .cons (by rw [digits_clean, digits_filter_isNumeric]) ih
    · exact ih

/-- **No digit is lost, and no run of digits is cut.** The tokens of a text have its digits in
order. In a text that is scanned each line has its own tokens, every run of digits of a line lies
inside one of them, and each of them has the sign that stands before its first digit in the line.
The tokens of rows are the rows that hold a digit or a minus, each with the digits of its row. -/
theorem digits_of_tokens (c : Separators) (text : List Char) :
    (∀ rowMode, digits (ofText c rowMode text).flatten = digits text) ∧
    (∃ found, ofText c false text = found.flatten ∧
      List.Forall₂ (fun line tokens => RunsWhole (bare line) tokens ∧ SignsKept (bare line) tokens)
        (Text.lines text) found) ∧
    List.Forall₂ (fun token line => digits token = digits line) (ofText c true text)
      ((Text.lines text).filter isRow) := by
  refine ⟨fun rowMode => digits_ofText c rowMode text,
    ⟨(Text.lines text).map (ofLine c false), rfl, ?_⟩, forall₂_rows c _⟩
  rw [List.forall₂_map_right_iff, List.forall₂_same]
  intro line _
  have hcut := cut_scan (c.thousand = .space) (bare line)
  rw [ofLine_false, ← bare]
  exact ⟨hcut.runsWhole.clean c, hcut.signsKept.clean c⟩

end Reckoner.Token
