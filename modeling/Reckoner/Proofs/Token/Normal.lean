import Mathlib.Data.List.Destutter
import Mathlib.Data.List.DropRight
import Reckoner.Proofs.Numeral.Convention
import Reckoner.Proofs.Token.Clean
import Reckoner.Proofs.Token.Neighbours

/-! # The normal form of a token

A text is clean (`IsClean`) if there is no blank in it, no two marks stand side by side, none is
left hanging at its end, and no period of it was a comma (`Misread`). Cleaning gives such a text and
leaves such a text alone, so cleaning once is enough. A number that is laid out in a convention is
clean without its blanks: there is a digit next to each of its marks, and no comma behind its
decimal point.

* `isClean_clean`, `clean_eq_self_iff`: the texts that cleaning gives are those that it leaves
  alone.
* `isClean_compact_text`: a number that is laid out in a convention, without its blanks.
* `normalForm_of_clean`: all of it together. -/

namespace Reckoner.Token

open Reckoner.Numeral

/-- Not both are marks. -/
def Apart (a b : Char) : Prop := ¬ (isPointOrComma a ∧ isPointOrComma b)

instance : DecidableRel Apart := fun _ _ => inferInstanceAs (Decidable (¬ (_ ∧ _)))

/-- The only period stands in front of groups that a comma joins, and periods do not group. -/
def Misread (c : Separators) (s : List Char) : Prop :=
  c.thousand ≠ .period ∧
    ∃ front after, s = front ++ '.' :: after ∧ '.' ∉ front ∧ '.' ∉ after ∧ startsGroups after

/-- A text that nothing is left to clean in. -/
structure IsClean (c : Separators) (s : List Char) : Prop where
  blanks : ∀ ch ∈ s, Text.isBlank ch = false
  /-- No two marks stand side by side. -/
  apart : s.IsChain Apart
  /-- No mark is left hanging at the end. -/
  ending : ∀ ch ∈ s.getLast?, isPointOrComma ch = false
  /-- No period was a comma. -/
  mended : ¬ Misread c s

/-! ### Runs of marks -/

theorem cons_collapseFrom (a : Char) (s : List Char) :
    a :: collapseFrom (isPointOrComma a) s = s.destutter' Apart a := by
  induction s generalizing a with
  | nil => rfl
  | cons b s ih =>
    by_cases hb : isPointOrComma b
    · by_cases ha : isPointOrComma a
      · rw [List.destutter'_cons_neg s fun h => h ⟨ha, hb⟩, ← ih a]
        simp [collapseFrom, ha, hb]
      · rw [List.destutter'_cons_pos s fun h => ha h.1, ← ih b]
        simp [collapseFrom, ha, hb]
    · rw [List.destutter'_cons_pos s fun h => hb h.2, ← ih b]
      simp [collapseFrom, hb]

/-- **Of a run of marks the first is kept**, as a mark goes if it stands behind one that is kept. -/
theorem collapse_eq_destutter (s : List Char) : collapse s = s.destutter Apart := by
  cases s with
  | nil => rfl
  | cons a s =>
    rw [List.destutter_cons', ← cons_collapseFrom, collapse, collapseFrom]
    cases isPointOrComma a <;> rfl

/-! ### Marks at the end -/

theorem trimMarks_eq_rdropWhile (s : List Char) : trimMarks s = s.rdropWhile isPointOrComma := rfl

theorem isChain_trimMarks {s : List Char} (h : s.IsChain Apart) : (trimMarks s).IsChain Apart := by
  have hs : s.rdropWhile isPointOrComma ++ s.rtakeWhile isPointOrComma = s :=
    List.rdropWhile_append_rtakeWhile
  rw [← hs] at h
  exact h.left_of_append

theorem ending_trimMarks (s : List Char) :
    ∀ ch ∈ (trimMarks s).getLast?, isPointOrComma ch = false := by
  intro ch hch
  obtain ⟨hne, rfl⟩ := List.mem_getLast?_eq_getLast hch
  have hlast := List.rdropWhile_last_not isPointOrComma s hne
  exact Bool.eq_false_iff.mpr hlast

theorem trimMarks_eq_self {s : List Char} (h : ∀ ch ∈ s.getLast?, isPointOrComma ch = false) :
    trimMarks s = s := by
  rw [trimMarks_eq_rdropWhile, List.rdropWhile_eq_self_iff]
  intro hne
  simp [h _ (List.getLast_mem_getLast? hne)]

/-! ### A period that was a comma -/

theorem mendGroup_of_misread {c : Separators} {front after : List Char} (hc : c.thousand ≠ .period)
    (hfront : '.' ∉ front) (hafter : '.' ∉ after) (hgroups : startsGroups after) :
    mendGroup c (front ++ '.' :: after) = front ++ ',' :: after := by
  rw [mendGroup_append_cons_eq c hfront, if_pos]
  simp [hc, hafter, hgroups]

theorem mendGroup_of_not_misread {c : Separators} {s : List Char} (h : ¬ Misread c s) :
    mendGroup c s = s := by
  by_cases hperiod : '.' ∈ s
  · obtain ⟨front, after, rfl, hfront⟩ := List.eq_append_cons_of_mem hperiod
    rw [mendGroup_append_cons_eq c hfront, if_neg]
    intro hmends
    obtain ⟨⟨hc, hafter⟩, hgroups⟩ := by simpa using hmends
    exact h ⟨hc, front, after, rfl, hfront, hafter, hgroups⟩
  · exact mendGroup_of_not_mem hperiod

/-- **No period is left that was a comma**: the one that was mended was the only one. -/
theorem not_misread_mendGroup (c : Separators) (s : List Char) : ¬ Misread c (mendGroup c s) := by
  by_cases h : Misread c s
  · obtain ⟨hc, front, after, rfl, hfront, hafter, hgroups⟩ := h
    rw [mendGroup_of_misread hc hfront hafter hgroups]
    rintro ⟨-, u, v, hs, -⟩
    have hmem : '.' ∈ front ++ ',' :: after := by simp [hs]
    simp [hfront, hafter] at hmem
  · rwa [mendGroup_of_not_misread h]

theorem map_isPointOrComma_mendGroup (c : Separators) (s : List Char) :
    (mendGroup c s).map isPointOrComma = s.map isPointOrComma := by
  rcases mendGroup_eq c s with h | ⟨u, v, rfl, h⟩
  · rw [h]
  · rw [h, List.map_append, List.map_append]
    rfl

theorem isChain_mendGroup {c : Separators} {s : List Char} (h : s.IsChain Apart) :
    (mendGroup c s).IsChain Apart := by
  have hmap : ∀ t : List Char,
      (t.map isPointOrComma).IsChain (fun a b => ¬ (a = true ∧ b = true)) ↔ t.IsChain Apart :=
    fun t => List.isChain_map isPointOrComma
  rwa [← hmap, map_isPointOrComma_mendGroup, hmap]

theorem ending_mendGroup {c : Separators} {s : List Char}
    (h : ∀ ch ∈ s.getLast?, isPointOrComma ch = false) :
    ∀ ch ∈ (mendGroup c s).getLast?, isPointOrComma ch = false := by
  intro ch hch
  have hlast := congrArg List.getLast? (map_isPointOrComma_mendGroup c s)
  rw [List.getLast?_map, List.getLast?_map, Option.mem_def.mp hch] at hlast
  obtain ⟨ch', hch', heq⟩ := Option.map_eq_some_iff.mp hlast.symm
  rw [← heq]
  exact h ch' hch'

/-! ### Clean texts -/

/-- **What is cleaned is clean**: no pass brings back what the passes in front of it have taken
out. -/
theorem isClean_clean (c : Separators) (s : List Char) : IsClean c (clean c s) where
  blanks ch hch := by
    rcases mem_clean hch with rfl | ⟨-, hblank⟩
    · rfl
    · exact hblank
  apart := by
    have hcollapse : (collapse (Text.compact s)).IsChain Apart := by
      rw [collapse_eq_destutter]
      exact List.isChain_destutter Apart _
    exact isChain_mendGroup (isChain_trimMarks hcollapse)
  ending := ending_mendGroup (ending_trimMarks _)
  mended := not_misread_mendGroup c _

/-- **What is clean is left alone**: no pass finds anything in it. -/
theorem IsClean.clean_eq_self {c : Separators} {s : List Char} (h : IsClean c s) :
    clean c s = s := by
  have hcollapse : collapse s = s := by
    rw [collapse_eq_destutter]
    exact List.destutter_of_isChain Apart s h.apart
  rw [clean, compact_eq_self h.blanks, hcollapse, trimMarks_eq_self h.ending,
    mendGroup_of_not_misread h.mended]

theorem clean_eq_self_iff {c : Separators} {s : List Char} : clean c s = s ↔ IsClean c s := by
  constructor
  · intro h
    rw [← h]
    exact isClean_clean c s
  · exact IsClean.clean_eq_self

example : clean {} " 1.,234,567 .,".toList = "1,234,567".toList := by decide +kernel

/-! ### Numbers that are laid out -/

/-- One of them is a digit. -/
def BesideDigit (a b : Char) : Prop := a.isDigit ∨ b.isDigit

theorem isChain_digits_append {s t : List Char} (hs : isDigits s) (ht : t.IsChain BesideDigit) :
    (s ++ t).IsChain BesideDigit := by
  induction s with
  | nil => exact ht
  | cons d s ih =>
    obtain ⟨hd, hs⟩ := isDigits_cons.mp hs
    exact (ih hs).cons fun _ _ => .inl hd

theorem isChain_cons_digits_append (m : Char) {s t : List Char} (hs : isDigits s) (hne : s ≠ [])
    (ht : t.IsChain BesideDigit) : (m :: (s ++ t)).IsChain BesideDigit := by
  refine (isChain_digits_append hs ht).cons fun d hd => ?_
  obtain ⟨e, s, rfl⟩ := List.exists_cons_of_ne_nil hne
  obtain rfl : e = d := by simpa using hd
  exact .inr (isDigits_cons.mp hs).1

theorem isChain_joined_append (mark : Char) {gs : List (List Char)} {t : List Char}
    (hgs : ∀ g ∈ gs, isDigits g) (hne : ∀ g ∈ gs, g ≠ []) (ht : t.IsChain BesideDigit) :
    (Layout.joined mark gs ++ t).IsChain BesideDigit := by
  induction gs with
  | nil => exact ht
  | cons g gs ih =>
    have htail := ih (fun g' hg' => hgs g' (by simp [hg'])) fun g' hg' => hne g' (by simp [hg'])
    rw [Layout.joined_cons, List.append_assoc]
    exact isChain_cons_digits_append mark (hgs g (by simp)) (hne g (by simp)) htail

theorem isChain_pointed (point : Char) {s : List Char} (hs : isDigits s) :
    (pointed point s).IsChain BesideDigit := by
  unfold pointed
  split_ifs with hne
  · exact List.isChain_nil
  · simpa using isChain_cons_digits_append point hs hne List.isChain_nil

/-- **There is a digit next to each mark of a number in writing**, and to its sign. -/
theorem isChain_text (mark point : Char) (l : Layout) :
    (l.text mark point).IsChain BesideDigit := by
  have hgroups : ∀ g ∈ l.groups, g ≠ [] := fun g hg =>
    List.ne_nil_of_length_eq_add_one (l.length_group g hg)
  have hrest := isChain_joined_append mark l.groups_digits hgroups
    (isChain_pointed point l.fraction_digits)
  rw [Layout.text, Layout.body, Layout.front, List.append_assoc]
  cases l.negative with
  | false => simpa [sign] using isChain_digits_append l.first_digits hrest
  | true => simpa [sign] using isChain_cons_digits_append '-' l.first_digits l.first_ne_nil hrest

theorem isChain_filter {p : Char → Bool} (hp : ∀ ch, ch.isDigit → p ch) {s : List Char}
    (h : s.IsChain BesideDigit) : (s.filter p).IsChain BesideDigit := by
  induction s with
  | nil => exact h
  | cons a s ih =>
    obtain ⟨hnext, hs⟩ := List.isChain_cons.mp h
    by_cases ha : p a
    · rw [List.filter_cons_of_pos ha]
      refine (ih hs).cons fun b hb => ?_
      by_cases hd : a.isDigit
      · exact .inl hd
      · -- a digit follows, and it is kept
        cases s with
        | nil => simp at hb
        | cons e s =>
          have he : e.isDigit := (hnext e rfl).resolve_left hd
          rw [List.filter_cons_of_pos (hp e he)] at hb
          obtain rfl : e = b := by simpa using hb
          exact .inr he
    · rw [List.filter_cons_of_neg ha]
      exact ih hs

section Convention

variable {c : Separators} {mark point : Char} {l : Layout} (h : l.Fits c mark point)
include h

theorem mendGroup_compact_text :
    mendGroup c (Text.compact (l.text mark point)) = Text.compact (l.text mark point) := by
  by_cases hp : l.fraction ≠ [] → isPointOrComma point
  · rw [compact_text (fun hg => isPointOrComma_or_space (h.thousand hg)) hp]
    exact mendGroup_text h.unspaced
  · -- the decimal point is a space, so that the thousand mark is the only one
    obtain ⟨hf, hpoint⟩ := Classical.not_imp.mp hp
    have hmark : ∀ ch ∈ Text.compact (l.text mark point), isPointOrComma ch → ch = mark := by
      intro ch hch hm
      have hnot : ch.isDigit = false := not_isDigit_of_isPointOrComma hm
      rcases List.mem_append.mp (List.mem_filter.mp hch).1 with hsign | hbody
      · rw [eq_minus_of_mem_sign hsign] at hm
        exact absurd hm (by decide)
      · rcases Layout.mem_body hbody with hd | ⟨rfl, -⟩ | ⟨rfl, -⟩
        · simp [hnot] at hd
        · rfl
        · exact absurd hm hpoint
    exact mendGroup_of_point hmark

/-- **A number that is laid out in a convention is clean without its blanks.** -/
theorem isClean_compact_text : IsClean c (Text.compact (l.text mark point)) where
  blanks _ hch := Text.not_isBlank_of_mem_compact hch
  apart := by
    have hkept : ∀ ch : Char, ch.isDigit → !Text.isBlank ch := fun ch hd => by
      simp [Text.not_isBlank_of_isDigit hd]
    refine (isChain_filter hkept (isChain_text mark point l)).imp ?_
    rintro a b (hd | hd) ⟨ha, hb⟩
    · simp [not_isDigit_of_isPointOrComma ha] at hd
    · simp [not_isDigit_of_isPointOrComma hb] at hd
  ending := by
    obtain ⟨s, d, hs, hd⟩ := Layout.body_eq_concat mark point l
    have hlast : Text.compact [d] = [d] :=
      compact_of_isDigits (isDigits_cons.mpr ⟨hd, isDigits_nil⟩)
    rw [Layout.text, hs, ← List.append_assoc, Text.compact_append, hlast]
    simp [not_isPointOrComma_of_isDigit hd]
  mended := by
    rw [← mendGroup_compact_text h]
    exact not_misread_mendGroup c _

theorem clean_text_eq_compact : clean c (l.text mark point) = Text.compact (l.text mark point) := by
  have hclean := (isClean_compact_text h).clean_eq_self
  rwa [clean, Text.compact_compact, ← clean] at hclean

end Convention

/-! ### Cleaning -/

theorem filter_signed_clean (c : Separators) (s : List Char) :
    (clean c s).filter (fun ch => ch.isDigit || ch == '-') =
      s.filter (fun ch => ch.isDigit || ch == '-') := by
  have hkept : ∀ ch : Char, (ch.isDigit || ch == '-') →
      isPointOrComma ch = false ∧ Text.isBlank ch = false := by
    intro ch hch
    rcases (by simpa using hch : ch.isDigit ∨ ch = '-') with hd | rfl
    · exact ⟨not_isPointOrComma_of_isDigit hd, Text.not_isBlank_of_isDigit hd⟩
    · exact ⟨rfl, rfl⟩
  exact filter_clean (fun ch hch => (hkept ch hch).1) (fun ch hch => (hkept ch hch).2) c s

theorem exists_layout_of_written {c : Separators} {s : List Char}
    (h : (ofConvention? c s).isSome ∨ ∃ p, c.pattern? = some p ∧ s ∈ p.matches') :
    ∃ (l : Layout) (mark point : Char), l.Fits c mark point ∧ s = l.text mark point := by
  rcases h with hread | ⟨p, hp, hmem⟩
  · obtain ⟨n, hn⟩ := Option.isSome_iff_exists.mp hread
    obtain ⟨-, l, mark, point, hfits, htext, -⟩ := exists_layout_of_ofConvention? hn
    exact ⟨l, mark, point, hfits, htext⟩
  · exact (mem_pattern_iff hp s).mp hmem

/-- **Cleaning brings a text into its normal form.** What it gives is clean, and holds the digits
and the minus signs of the text in order. Cleaning again changes nothing, as the texts that are left
alone are those that are clean. Of a text that is written in the convention the blanks are taken out
and nothing else, and no period in it is mended, with its blanks or without them. -/
theorem normalForm_of_clean (c : Separators) (raw : List Char) :
    IsClean c (clean c raw) ∧
    (clean c raw).filter (fun ch => ch.isDigit || ch == '-') =
      raw.filter (fun ch => ch.isDigit || ch == '-') ∧
    clean c (clean c raw) = clean c raw ∧
    (clean c raw = raw ↔ IsClean c raw) ∧
    ((ofConvention? c raw).isSome ∨ (∃ p, c.pattern? = some p ∧ raw ∈ p.matches') →
      clean c raw = Text.compact raw ∧ mendGroup c raw = raw ∧
      mendGroup c (Text.compact raw) = Text.compact raw) := by
  refine ⟨isClean_clean c raw, filter_signed_clean c raw, (isClean_clean c raw).clean_eq_self,
    clean_eq_self_iff, fun hwritten => ?_⟩
  obtain ⟨l, mark, point, hfits, rfl⟩ := exists_layout_of_written hwritten
  exact ⟨clean_text_eq_compact hfits, mendGroup_text hfits, mendGroup_compact_text hfits⟩

/-- A space is taken out where it stands for the decimal point, and nothing else. -/
theorem normalForm_of_spacedFraction :
    (ofConvention? ⟨.comma, .space⟩ "-1,234 567".toList).isSome ∧
      clean ⟨.comma, .space⟩ "-1,234 567".toList = "-1,234567".toList ∧
      mendGroup ⟨.comma, .space⟩ "-1,234 567".toList = "-1,234 567".toList := by
  have hread : (ofConvention? ⟨.comma, .space⟩ "-1,234 567".toList).isSome := by decide +kernel
  have hcompact : Text.compact "-1,234 567".toList = "-1,234567".toList := by decide +kernel
  obtain ⟨hclean, hmend, -⟩ :=
    (normalForm_of_clean ⟨.comma, .space⟩ "-1,234 567".toList).2.2.2.2 (.inl hread)
  exact ⟨hread, hclean.trans hcompact, hmend⟩

end Reckoner.Token
