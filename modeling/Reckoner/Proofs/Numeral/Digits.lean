import Reckoner.Proofs.Numeral.Convention
import Reckoner.Proofs.Numeral.Evident
import Reckoner.Proofs.Text.Digits

/-! # What is kept of a token

However a token is read, its digits are all there and in order: a misreading puts the point in a
wrong place and does nothing else. At most a zero comes in front, where the token has no digit in
front of its fraction, and the fraction is what the token ends with.

* `Keeps`: what a numeral keeps of a text.
* `keeps_of_ofConvention?`, `keeps_of_ofDigits?`, `keeps_of_ofMarks?`: the three ways to read a
  text.
* `digits_of_resolved`: what is kept of a token, and that the numeral stands for itself. -/

namespace Reckoner.Numeral

open Text

/-- A numeral has the sign of a text and its digits, those of the fraction where the text ends. If
there are no others, a zero may stand in front of them. -/
structure Keeps (s : List Char) (n : Numeral) : Prop where
  sign : '-' ∈ n.text ↔ '-' ∈ s
  digits : digits n.text = digits s ∨
    digits n.text = '0' :: digits s ∧ n.fraction ≠ [] ∧ ∀ ch ∈ beforeTrailing s, ch.isDigit = false
  fraction : n.fraction ≠ [] → n.fraction = trailingDigits s

/-! ### The characters of a numeral -/

theorem digits_pointed {point : Char} {s : List Char} (hp : s ≠ [] → point.isDigit = false)
    (hs : isDigits s) : Text.digits (pointed point s) = s := by
  rw [pointed]
  split_ifs with hnil
  · rw [hnil]
    rfl
  · rw [digits_cons_of_not_isDigit (hp hnil), digits_of_isDigits hs]

theorem digits_text (n : Numeral) : Text.digits n.text = n.whole ++ n.fraction := by
  rw [text, digits_append, digits_append, digits_sign, List.nil_append,
    digits_of_isDigits n.whole_digits, digits_pointed (fun _ => rfl) n.fraction_digits]

theorem minus_not_mem_of_isDigits {s : List Char} (hs : isDigits s) : '-' ∉ s := fun hmem =>
  absurd (isDigits_iff.mp hs '-' hmem) (by decide)

theorem minus_mem_sign_append {negative : Bool} {s : List Char} (hs : '-' ∉ s) :
    '-' ∈ sign negative ++ s ↔ negative = true := by
  cases negative <;> simp [sign, hs]

theorem minus_mem_text (n : Numeral) : '-' ∈ n.text ↔ n.negative = true := by
  rw [text, List.append_assoc, minus_mem_sign_append]
  intro hmem
  rcases List.mem_append.mp hmem with hmem | hmem
  · exact minus_not_mem_of_isDigits n.whole_digits hmem
  · rcases Layout.mem_pointed hmem with ⟨h, -⟩ | hmem
    · exact absurd h (by decide)
    · exact minus_not_mem_of_isDigits n.fraction_digits hmem

/-! ### In a convention -/

section Layout

variable {c : Separators} {mark point : Char} {l : Layout} (h : l.Fits c mark point)
include h

theorem minus_mem_layout : '-' ∈ l.text mark point ↔ l.negative = true := by
  refine minus_mem_sign_append fun hmem => ?_
  rcases Layout.mem_body hmem with hd | ⟨rfl, hgroups⟩ | ⟨rfl, hfraction⟩
  · exact absurd hd (by decide)
  · exact Separator.ne_minus_of_mark? (h.thousand hgroups) rfl
  · exact Separator.ne_minus_of_mark? (h.decimal hfraction) rfl

theorem digits_layout : Text.digits (l.text mark point) = l.whole ++ l.fraction := by
  have hjoined : Text.digits (Layout.joined mark l.groups) = l.groups.flatten :=
    filter_isDigit_joined (fun hg => Separator.isDigit_of_mark? (h.thousand hg)) l.groups_digits
  rw [Layout.text, Layout.body, Layout.front, digits_append, digits_append, digits_append,
    digits_sign, List.nil_append, digits_of_isDigits l.first_digits, hjoined,
    digits_pointed (fun hf => Separator.isDigit_of_mark? (h.decimal hf)) l.fraction_digits,
    Layout.whole]

theorem trailingDigits_layout (hf : l.fraction ≠ []) :
    trailingDigits (l.text mark point) = l.fraction := by
  rw [Layout.text, Layout.body, pointed, if_neg hf, ← List.append_assoc]
  exact (trailingDigits_append_cons (Separator.isDigit_of_mark? (h.decimal hf)) l.fraction_digits).1

end Layout

/-- **A number that is read in a convention is kept.** -/
theorem keeps_of_ofConvention? {c : Separators} {s : List Char} {n : Numeral}
    (h : ofConvention? c s = some n) : Keeps s n := by
  obtain ⟨-, l, mark, point, hfits, rfl, rfl⟩ := exists_layout_of_ofConvention? h
  refine ⟨?_, .inl ?_, fun hf => (trailingDigits_layout hfits hf).symm⟩
  · rw [minus_mem_text, minus_mem_layout hfits]
    rfl
  · rw [digits_text, digits_layout hfits]
    rfl

/-! ### With the marks taken out -/

/-- **A number that is read without its marks is kept.** -/
theorem keeps_of_ofDigits? {c : Separators} {s : List Char} {n : Numeral}
    (h : ofDigits? c s = some n) : Keeps s n := by
  obtain ⟨hnegative, hwhole, hfraction⟩ := make?_eq_some_iff.mp h
  have hs : s.filter (!isGrouping c ·) = sign n.negative ++ n.whole := by
    rw [hnegative, hwhole]
    exact (sign_takeSign _).symm
  have hdigits : Text.digits (s.filter (!isGrouping c ·)) = Text.digits s := by
    rw [Text.digits, List.filter_filter, Text.digits]
    refine List.filter_congr fun ch _ => ?_
    by_cases hd : ch.isDigit
    · simp [hd, not_isGrouping_of_isDigit c hd]
    · simp [hd]
  refine ⟨?_, .inl ?_, fun hf => absurd hfraction hf⟩
  · have hminus : '-' ∈ s.filter (!isGrouping c ·) ↔ '-' ∈ s := by
      simp [List.mem_filter, not_isGrouping_minus]
    rw [minus_mem_text, ← hminus, hs,
      minus_mem_sign_append (minus_not_mem_of_isDigits n.whole_digits)]
  · rw [digits_text, hfraction, List.append_nil, ← hdigits, hs, digits_append, digits_sign,
      List.nil_append, digits_of_isDigits n.whole_digits]

/-! ### By the marks -/

theorem trailingDigits_cons {ch : Char} (h : ch.isDigit = false) (s : List Char) :
    trailingDigits (ch :: s) = trailingDigits s ∧
      beforeTrailing (ch :: s) = ch :: beforeTrailing s := by
  constructor
  · rw [trailingDigits, List.reverse_cons, List.takeWhile_append, trailingDigits]
    split_ifs with hall
    · rw [(List.takeWhile_prefix Char.isDigit).eq_of_length hall]
      simp [h]
    · rfl
  · rw [beforeTrailing, List.reverse_cons, List.dropWhile_append, beforeTrailing]
    split_ifs with hempty
    · rw [List.isEmpty_iff.mp hempty]
      simp [h]
    · simp

theorem trailingDigits_sign_append (negative : Bool) (s : List Char) :
    trailingDigits (sign negative ++ s) = trailingDigits s ∧
      beforeTrailing (sign negative ++ s) = sign negative ++ beforeTrailing s := by
  cases negative with
  | false => exact ⟨rfl, rfl⟩
  | true => exact trailingDigits_cons rfl s

theorem digits_eq_append (s : List Char) :
    Text.digits s = Text.digits (beforeTrailing s) ++ trailingDigits s := by
  have h := congrArg Text.digits (beforeTrailing_append_trailingDigits s)
  rw [digits_append, digits_of_isDigits (isDigits_trailingDigits s)] at h
  exact h.symm

theorem trailingDigits_ne_nil_of_opensFraction {c : Separators} {marks s : List Char}
    (h : opensFraction c marks (trailingDigits s).length) : trailingDigits s ≠ [] := by
  intro hnil
  rw [hnil, opensFraction] at h
  split at h
  · exact absurd h (by decide)
  · simp at h

/-- **A number that is read by its marks is kept**, but for a zero in front of a fraction that
stands alone. -/
theorem keeps_of_ofMarks? {c : Separators} {s : List Char} {n : Numeral}
    (h : ofMarks? c s = some n) : Keeps s n := by
  have hs := sign_takeSign s
  rw [ofMarks?] at h
  generalize takeSign s = signed at h hs
  obtain ⟨negative, body⟩ := signed
  dsimp only at h hs
  split_ifs at h with hall hopens
  all_goals
    have hbody : '-' ∉ body := fun hmem => by
      have hminus := List.all_eq_true.mp hall '-' hmem
      exact absurd hminus (by decide)
    have hsign : n.negative = negative → ('-' ∈ n.text ↔ '-' ∈ s) := fun hn => by
      rw [minus_mem_text, ← hs, minus_mem_sign_append hbody, hn]
    have hdigits : Text.digits s = Text.digits body := by
      rw [← hs, digits_append, digits_sign, List.nil_append]
    obtain ⟨hnegative, hwhole, hfraction⟩ := make?_eq_some_iff.mp h
  · obtain ⟨htrailing, hbefore⟩ := trailingDigits_sign_append negative body
    rw [hs] at htrailing hbefore
    refine ⟨hsign hnegative, ?_, fun _ => by rw [hfraction, htrailing]⟩
    rw [digits_text, hwhole, hfraction, hdigits, digits_eq_append body, orZero]
    split_ifs with hnil
    · -- the digits of the fraction are the only ones
      have hnone : Text.digits (beforeTrailing body) = [] := hnil
      refine .inr ⟨by rw [hnone]; rfl, trailingDigits_ne_nil_of_opensFraction hopens, ?_⟩
      rw [← digits_eq_nil_iff, hbefore, digits_append, digits_sign, hnone]
      rfl
    · exact .inl rfl
  · refine ⟨hsign hnegative, .inl ?_, fun hf => absurd hfraction hf⟩
    rw [digits_text, hwhole, hfraction, hdigits, List.append_nil]
    rfl

theorem keeps_of_resolve {c : Separators} {t : List Char} {n : Numeral} (h : resolve c t = some n) :
    Keeps (trim t) n := by
  rw [resolve] at h
  cases hconvention : ofConvention? c (trim t) with
  | some n' =>
    rw [hconvention] at h
    obtain rfl := Option.some.inj h
    exact keeps_of_ofConvention? hconvention
  | none =>
    rw [hconvention] at h
    dsimp only at h
    split_ifs at h
    · exact keeps_of_ofDigits? h
    · exact keeps_of_ofMarks? h

/-! ### Numerals as texts -/

theorem exists_layout (n : Numeral) : ∃ l : Layout, l.text ',' '.' = n.text ∧ l.numeral = n ∧
    ∀ c : Separators, c.decimal = .period → l.Fits c ',' '.' := by
  obtain ⟨negative, whole, fraction, hne, hwhole, hfraction⟩ := n
  let l : Layout := ⟨negative, whole, [], fraction, hne, hwhole, fun h => absurd rfl h, by simp,
    by simp, hfraction⟩
  refine ⟨l, ?_, ?_, fun c hc => ⟨fun h => absurd rfl h, fun _ => by rw [hc]; rfl⟩⟩
  · have hfront : l.front ',' = whole := List.append_nil _
    rw [Layout.text, Layout.body, hfront, text, List.append_assoc]
  · simp [l, Layout.numeral, Layout.whole]

/-- The convention of numerals: digits, and a period in front of those of a fraction. -/
def plainConvention : Separators := ⟨.disabled, .period⟩

/-- **Whatever is read of a token are its digits**, in order. The numeral is plain; it has a minus
if the token has one; a zero comes in front of its digits at most where they are all in the
fraction; the fraction is the digits that the token ends with; and where a period is the decimal
mark and no other, the numeral is read as itself. -/
theorem digits_of_resolved {c : Separators} {t : List Char} {n : Numeral}
    (h : resolve c t = some n) :
    (∃ p, plainConvention.pattern? = some p ∧ n.text ∈ p.matches') ∧
    ('-' ∈ n.text ↔ '-' ∈ t) ∧
    (Text.digits n.text = Text.digits t ∨
      Text.digits n.text = '0' :: Text.digits t ∧ n.fraction ≠ [] ∧
        ∀ ch ∈ beforeTrailing (trim t), ch.isDigit = false) ∧
    (n.fraction ≠ [] → n.fraction = trailingDigits (trim t)) ∧
    ∀ c' : Separators, c'.decimal = .period → c'.thousand ≠ .period →
      resolve c' n.text = some n := by
  obtain ⟨hsign, hdigits, hfraction⟩ := keeps_of_resolve h
  refine ⟨⟨_, rfl, ?_⟩, hsign.trans (mem_trim_iff rfl), ?_, hfraction,
    fun c' hdecimal hthousand => ?_⟩
  · obtain ⟨l, htext, -, hfits⟩ := exists_layout n
    exact (mem_pattern_iff rfl _).mpr ⟨l, ',', '.', hfits plainConvention rfl, htext.symm⟩
  · rwa [digits_trim] at hdigits
  · obtain ⟨l, htext, hnumeral, hfits⟩ := exists_layout n
    have hambiguous : c'.ambiguous = false := by
      by_contra hc
      have hsame := Separators.ambiguous_iff.mp (by simpa using hc)
      exact hthousand (hsame.1.trans hdecimal)
    rw [← htext, Layout.resolve_text hambiguous (hfits c' hdecimal), hnumeral]

/-- Three quarters below zero. -/
def minusThreeQuarters : Numeral where
  negative := true
  whole := ['0']
  fraction := ['7', '5']
  whole_ne_nil := by decide
  whole_digits := by decide
  fraction_digits := by decide

/-- A comma in front of the only digits is read as the point that it stands for, and a zero comes
in. -/
theorem digits_of_leadingComma :
    resolve {} " -,75 ".toList = some minusThreeQuarters ∧
    (∃ p, plainConvention.pattern? = some p ∧ minusThreeQuarters.text ∈ p.matches') ∧
    ('-' ∈ minusThreeQuarters.text ↔ '-' ∈ " -,75 ".toList) ∧
    (Text.digits minusThreeQuarters.text = Text.digits " -,75 ".toList ∨
      Text.digits minusThreeQuarters.text = '0' :: Text.digits " -,75 ".toList ∧
        minusThreeQuarters.fraction ≠ [] ∧
        ∀ ch ∈ beforeTrailing (trim " -,75 ".toList), ch.isDigit = false) ∧
    (minusThreeQuarters.fraction ≠ [] →
      minusThreeQuarters.fraction = trailingDigits (trim " -,75 ".toList)) ∧
    (⟨.space, .period⟩ : Separators).decimal = .period ∧
    (⟨.space, .period⟩ : Separators).thousand ≠ .period ∧
    resolve ⟨.space, .period⟩ minusThreeQuarters.text = some minusThreeQuarters := by
  have hresolve : resolve {} " -,75 ".toList = some minusThreeQuarters := by decide +kernel
  obtain ⟨hplain, hminus, hdigits, hfraction, hself⟩ := digits_of_resolved hresolve
  exact ⟨hresolve, hplain, hminus, hdigits, hfraction, rfl, by decide, hself _ rfl (by decide)⟩

end Reckoner.Numeral
