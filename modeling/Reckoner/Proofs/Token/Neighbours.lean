import Reckoner.Proofs.Token.Layout

/-! # Two numbers with a space between them

Where spaces join groups, a space between two numbers separates them only if the scan stops in front
of it. The scan does not look for a decimal mark: a period or a comma with three digits behind it is
a group like any other, so a group behind a fraction of three digits goes on with the number.

* `takeUnsigned_pair`: what a scan takes of two numbers with a space between them.
* `clean_joined`: cleaning leaves alone runs of digits with one mark between them.
* `tokens_of_pair`: two tokens, or one if there are three digits on either side of the space. -/

namespace Reckoner.Token

open Reckoner.Numeral

/-! ### The scan -/

section Scan

variable {point : Char} (hp : isPointOrComma point)
include hp

theorem takeTail_body (l : Layout) :
    takeTail true (Layout.joined ' ' l.groups ++ pointed point l.fraction) =
      (Layout.joined ' ' l.groups ++ pointed point l.fraction, []) := by
  have hpointed := takeTail_pointed (fun _ => hp) l.fraction_digits (stops_nil true)
  have hword := startsWord_pointed (s := l.fraction) (fun _ => hp) (stops_nil true).word
  rw [List.append_nil] at hpointed hword
  rw [takeTail_joined (fun _ => rfl) l.groups_digits l.length_group hword, hpointed]

/-- **A space goes on with the number if three digits are next**, and stops it otherwise. -/
theorem takeTail_space (l : Layout) :
    takeTail true (' ' :: l.body ' ' point) =
      if l.first.length = 3 then (' ' :: l.body ' ' point, [])
      else ([], ' ' :: l.body ' ' point) := by
  have hspace : isJoint true ' ' := rfl
  have hword : Text.startsWord (Layout.joined ' ' l.groups ++ pointed point l.fraction) =
      false := by
    have hpointed := @startsWord_pointed point l.fraction [] (fun _ => hp) rfl
    rw [List.append_nil] at hpointed
    exact startsWord_joined (fun _ => hspace) hpointed
  have htail := takeTail_body hp l
  have hgroups := takeGroups_cons_append hspace l.first_digits l.first_ne_nil hword
  have hbody : ' ' :: l.body ' ' point =
      ' ' :: l.first ++ (Layout.joined ' ' l.groups ++ pointed point l.fraction) := by
    simp [Layout.body, Layout.front]
  rw [hbody]
  unfold takeTail at htail ⊢
  rw [hgroups]
  obtain ⟨htaken, hrest⟩ := Prod.mk.inj htail
  split_ifs with h3
  · rw [List.append_assoc, htaken, hrest]
  · obtain ⟨d, s, hs⟩ := List.exists_cons_of_ne_nil l.first_ne_nil
    simp [hs, takeFraction, isPointOrComma]

/-- **What a scan takes of two numbers with a space between them**, the first of which has a
fraction. -/
theorem takeUnsigned_pair {x : Layout} (y : Layout) (hx : x.fraction ≠ []) :
    takeUnsigned true (x.body ' ' point ++ ' ' :: y.body ' ' point) =
      if x.fraction.length = 3 ∧ y.first.length = 3 then
        (x.body ' ' point ++ ' ' :: y.body ' ' point, [])
      else (x.body ' ' point, ' ' :: y.body ' ' point) := by
  have hspace : Text.startsWord (' ' :: y.body ' ' point) = false := rfl
  have hword : Text.startsWord (point :: x.fraction ++ ' ' :: y.body ' ' point) = false :=
    not_isWord_of_isJoint (@isJoint_of_isPointOrComma false point hp)
  have hbody : x.body ' ' point = x.front ' ' ++ point :: x.fraction := by
    rw [Layout.body, pointed, if_neg hx]
  rw [hbody, List.append_assoc, takeUnsigned_front (fun _ => rfl) hword,
    takeTail_cons_append hp x.fraction_digits hx hspace, takeTail_space hp]
  -- three digits behind the point are a group, and only then the scan looks at the space
  by_cases h3 : x.fraction.length = 3
  · by_cases h3' : y.first.length = 3 <;> simp [h3, h3']
  · simp [h3]

/-- **The numbers that a scan finds**: both or, three digits on either side of the space, one. -/
theorem scan_pair {x : Layout} (y : Layout) (hx : x.fraction ≠ []) :
    scan true (x.body ' ' point ++ ' ' :: y.body ' ' point) =
      if x.fraction.length = 3 ∧ y.first.length = 3 then
        [x.body ' ' point ++ ' ' :: y.body ' ' point]
      else [x.body ' ' point, y.body ' ' point] := by
  have hnil : scan true [] = [] := by rw [scan]
  have halone : takeUnsigned true (y.body ' ' point ++ []) = (y.body ' ' point, []) :=
    takeUnsigned_body (fun _ => rfl) (fun _ => hp) (stops_nil true)
  have hsecond : scan true (' ' :: y.body ' ' point) = [y.body ' ' point] := by
    have h := scan_of_takeUnsigned halone
    rw [List.append_nil, hnil] at h
    rw [scan, dif_neg (by decide), if_neg (by simp), h]
  have htake := takeUnsigned_pair hp y hx
  split_ifs at htake ⊢
  · rw [scan_of_takeUnsigned htake, hnil]
  · rw [scan_of_takeUnsigned htake, hsecond]

end Scan

/-! ### Cleaning -/

theorem mendGroup_of_point {c : Separators} {point : Char} {s : List Char}
    (h : ∀ ch ∈ s, isPointOrComma ch → ch = point) : mendGroup c s = s := by
  by_cases hperiod : '.' ∈ s
  · obtain ⟨front, after, rfl, hfront⟩ := List.eq_append_cons_of_mem hperiod
    have hpoint : '.' = point := h '.' hperiod rfl
    have hcomma : ',' ∉ after := fun hmem => by
      have hcomma := h ',' (List.mem_append_right _ (.tail _ hmem)) rfl
      exact absurd (hcomma.trans hpoint.symm) (by decide)
    exact mendGroup_append_cons hfront (.inr (startsGroups_of_not_mem hcomma))
  · exact mendGroup_of_not_mem hperiod

/-- **Cleaning leaves alone runs of digits with one mark between them.** -/
theorem clean_joined (c : Separators) {point : Char} {first : List Char} {runs : List (List Char)}
    (hp : isPointOrComma point) (hfirst : isDigits first) (hne : first ≠ [])
    (hruns : ∀ r ∈ runs, isDigits r) (hrunsne : ∀ r ∈ runs, r ≠ []) :
    clean c (first ++ Layout.joined point runs) = first ++ Layout.joined point runs := by
  have hmem : ∀ ch ∈ first ++ Layout.joined point runs, ch.isDigit ∨ ch = point := by
    intro ch hch
    rcases List.mem_append.mp hch with hch | hch
    · exact .inl (isDigits_iff.mp hfirst ch hch)
    · rcases Layout.mem_joined hch with ⟨rfl, -⟩ | ⟨r, hr, hch⟩
      · exact .inr rfl
      · exact .inl (isDigits_iff.mp (hruns r hr) ch hch)
  have hcompact : Text.compact (first ++ Layout.joined point runs) =
      first ++ Layout.joined point runs := by
    refine compact_eq_self fun ch hch => ?_
    rcases hmem ch hch with hd | rfl
    · exact Text.not_isBlank_of_isDigit hd
    · exact not_isBlank_of_isPointOrComma hp
  have hcollapse : collapse (first ++ Layout.joined point runs) =
      first ++ Layout.joined point runs := by
    have hjoined := @collapseFrom_joined point runs [] hruns hrunsne
    rw [List.append_nil, collapseFrom, List.append_nil] at hjoined
    rw [collapse, collapseFrom_append false hfirst hne, hjoined]
  -- the last run ends the text
  have htrim : trimMarks (first ++ Layout.joined point runs) =
      first ++ Layout.joined point runs := by
    rcases List.eq_nil_or_concat runs with rfl | ⟨rs, r, rfl⟩
    · simpa [Layout.joined] using trimMarks_append (s := []) hfirst hne
    · have hlast := trimMarks_append (s := first ++ Layout.joined point rs ++ [point])
        (hruns r (by simp)) (hrunsne r (by simp))
      simpa [Layout.joined] using hlast
  have hmend : mendGroup c (first ++ Layout.joined point runs) =
      first ++ Layout.joined point runs := by
    have hpoint : ∀ ch ∈ first ++ Layout.joined point runs, isPointOrComma ch → ch = point := by
      intro ch hch hmark
      refine (hmem ch hch).resolve_left fun hd => ?_
      rw [not_isPointOrComma_of_isDigit hd] at hmark
      exact absurd hmark (by decide)
    exact mendGroup_of_point hpoint
  rw [clean, hcompact, hcollapse, htrim, hmend]

theorem clean_eq_compact {c : Separators} {point : Char} {s first : List Char}
    {runs : List (List Char)} (hp : isPointOrComma point) (hfirst : isDigits first)
    (hne : first ≠ []) (hruns : ∀ r ∈ runs, isDigits r) (hrunsne : ∀ r ∈ runs, r ≠ [])
    (hs : Text.compact s = first ++ Layout.joined point runs) : clean c s = Text.compact s := by
  have hclean := clean_joined c hp hfirst hne hruns hrunsne
  rw [← hs, clean, Text.compact_compact, ← clean] at hclean
  exact hclean

section Blanks

variable {point : Char} (hp : isPointOrComma point)
include hp

theorem compact_body_space (l : Layout) :
    Text.compact (l.body ' ' point) = l.whole ++ pointed point l.fraction := by
  rw [Layout.body, Text.compact_append, compact_front_space,
    compact_pointed (fun _ => hp) l.fraction_digits]

omit hp in
theorem exists_joined_fraction (point : Char) (l : Layout) :
    ∃ runs, pointed point l.fraction = Layout.joined point runs ∧ (∀ r ∈ runs, isDigits r) ∧
      ∀ r ∈ runs, r ≠ [] := by
  by_cases hf : l.fraction = []
  · exact ⟨[], by simp [pointed, hf, Layout.joined], by simp, by simp⟩
  · exact ⟨[l.fraction], by simp [pointed, hf, Layout.joined], by simp [l.fraction_digits],
      by simp [hf]⟩

theorem clean_body_space (c : Separators) (l : Layout) :
    clean c (l.body ' ' point) = Text.compact (l.body ' ' point) := by
  obtain ⟨runs, hjoined, hruns, hrunsne⟩ := exists_joined_fraction point l
  have hs := compact_body_space hp l
  rw [hjoined] at hs
  exact clean_eq_compact hp l.whole_digits l.numeral.whole_ne_nil hruns hrunsne hs

theorem clean_pair (c : Separators) {x : Layout} (y : Layout) (hx : x.fraction ≠ []) :
    clean c (x.body ' ' point ++ ' ' :: y.body ' ' point) =
      Text.compact (x.body ' ' point ++ ' ' :: y.body ' ' point) := by
  obtain ⟨runs, hjoined, hruns, hrunsne⟩ := exists_joined_fraction point y
  have hspace : Text.compact (' ' :: y.body ' ' point) = Text.compact (y.body ' ' point) := by
    rw [Text.compact, List.filter_cons_of_neg (by decide), ← Text.compact]
  have hs : Text.compact (x.body ' ' point ++ ' ' :: y.body ' ' point) =
      x.whole ++ Layout.joined point ((x.fraction ++ y.whole) :: runs) := by
    rw [Text.compact_append, hspace, compact_body_space hp, compact_body_space hp, hjoined,
      Layout.joined_cons, pointed, if_neg hx]
    simp
  refine clean_eq_compact hp x.whole_digits x.numeral.whole_ne_nil ?_ ?_ hs
  · rintro r (_ | ⟨_, hr⟩)
    · exact isDigits_append.mpr ⟨x.fraction_digits, y.whole_digits⟩
    · exact hruns r hr
  · rintro r (_ | ⟨_, hr⟩)
    · simp [hx]
    · exact hrunsne r hr

end Blanks

/-! ### The tokens -/

section Tokens

variable {c : Separators} {point : Char} (hc : c.thousand = .space) (hp : isPointOrComma point)
include hc hp

/-- **Two numbers with a space between them are two tokens**, without their spaces, if the first has
a fraction; but with three digits on either side of that space the line is one token. -/
theorem tokens_of_pair {x : Layout} (y : Layout) (hx : x.fraction ≠ []) :
    ofText c false (x.body ' ' point ++ ' ' :: y.body ' ' point) =
      if x.fraction.length = 3 ∧ y.first.length = 3 then
        [Text.compact (x.body ' ' point ++ ' ' :: y.body ' ' point)]
      else [Text.compact (x.body ' ' point), Text.compact (y.body ' ' point)] := by
  have hbody : ∀ l : Layout, ∀ ch ∈ l.body ' ' point, isNumeric ch ∨ ch = ' ' := fun l ch hch =>
    mem_text (fun _ => .inr rfl) (fun _ => hp) (List.mem_append_right (sign l.negative) hch)
  have hchars : ∀ ch ∈ x.body ' ' point ++ ' ' :: y.body ' ' point, isNumeric ch ∨ ch = ' ' := by
    intro ch hch
    rcases List.mem_append.mp hch with hch | hch
    · exact hbody x ch hch
    · rcases List.mem_cons.mp hch with rfl | hch
      · exact .inr rfl
      · exact hbody y ch hch
  rw [ofText_line fun ch hch => not_isLineEnd_of_isNumeric (hchars ch hch),
    ofLine_of_not_isNoise fun ch hch => not_isNoise_of_isNumeric (hchars ch hch), decide_eq_true hc,
    scan_pair hp y hx]
  split_ifs
  · rw [List.map_singleton, clean_pair hp c y hx]
  · rw [List.map_cons, List.map_singleton, clean_body_space hp, clean_body_space hp]

end Tokens

/-- A number with one group and three places. -/
def threePlaces : Layout where
  negative := false
  first := ['7']
  groups := [['6', '5', '4']]
  fraction := ['3', '2', '1']
  first_ne_nil := by decide
  first_digits := by decide
  length_first := by decide
  groups_digits := by decide
  length_group := by decide
  fraction_digits := by decide

/-- A number that starts with three digits. -/
def threeDigits : Layout where
  negative := false
  first := ['5', '4', '3']
  groups := [['2', '1', '0']]
  fraction := ['9', '8']
  first_ne_nil := by decide
  first_digits := by decide
  length_first := by decide
  groups_digits := by decide
  length_group := by decide
  fraction_digits := by decide

/-- The same number twice, which does not start with three digits. -/
theorem tokens_of_pair_twice :
    (⟨.space, .comma⟩ : Separators).thousand = .space ∧ isPointOrComma ',' ∧
      threePlaces.fraction ≠ [] ∧
      ofText ⟨.space, .comma⟩ false "7 654,321 7 654,321".toList =
        ["7654,321".toList, "7654,321".toList] := by
  have hc : (⟨.space, .comma⟩ : Separators).thousand = .space := rfl
  have hp : isPointOrComma ',' := rfl
  have hx : threePlaces.fraction ≠ [] := by decide
  have htokens := tokens_of_pair hc hp threePlaces hx
  exact ⟨hc, hp, hx, htokens⟩

/-- **Three digits behind three places are taken for one more group**: the space grouping goes on
behind the decimal comma, and the two numbers are one token. -/
theorem threePlaces_joined :
    (threePlaces.body ' ' ',' = "7 654,321".toList ∧ threePlaces.fraction ≠ [] ∧
      threeDigits.body ' ' ',' = "543 210,98".toList) ∧
    ofText ⟨.space, .comma⟩ false "7 654,321 543 210,98".toList = ["7654,321543210,98".toList] ∧
    ofText ⟨.space, .comma⟩ false "7 654,321 543 210,98".toList ≠
      [Text.compact "7 654,321".toList, Text.compact "543 210,98".toList] := by
  have htokens : ofText ⟨.space, .comma⟩ false "7 654,321 543 210,98".toList =
      ["7654,321543210,98".toList] := by decide +kernel
  refine ⟨by decide, htokens, ?_⟩
  rw [htokens]
  decide

end Reckoner.Token
