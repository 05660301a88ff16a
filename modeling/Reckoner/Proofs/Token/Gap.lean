import Reckoner.Proofs.Token.Layout
import Reckoner.Reading

/-! # Texts in parts

No number goes across a line end, and none goes across a blank in a line that is scanned, unless
spaces join groups: the scan stops there as it stops at the end of a text. So the numbers of a text
in two parts are those of the first part and then those of the second.

* `takeUnsigned_append_cons`, `scan_append_cons`: the scan does not see across a gap.
* `ofText_append_gap`: the tokens of a text that is cut at a gap.
* `readings_append`: the readings of a text in two parts.
* `readings_lines`, `readings_of_isBlank`: the readings of a text line by line, and those of
  blanks. -/

namespace Reckoner.Text

/-! ### Lines -/

/-- Lines with a line feed behind each of them. -/
def terminated (lines : List (List Char)) : List Char := lines.flatMap (· ++ ['\n'])

theorem terminated_splitOn (text : List Char) :
    terminated (text.splitOn '\n') = text ++ ['\n'] := by
  induction text with
  | nil => rfl
  | cons ch s ih =>
    rw [List.splitOn_cons_eq_if_modifyHead]
    by_cases hch : ch = '\n'
    · rw [if_pos (by simp [hch]), hch, List.cons_append, ← ih]
      rfl
    · obtain ⟨line, lines, hsplit⟩ := List.exists_cons_of_ne_nil (List.splitOn_ne_nil '\n' s)
      rw [hsplit] at ih
      rw [if_neg (by simpa using hch), hsplit, List.cons_append, ← ih]
      rfl

theorem splitOn_terminated {lines : List (List Char)} (h : ∀ line ∈ lines, '\n' ∉ line) :
    (terminated lines).splitOn '\n' = lines ++ [[]] := by
  induction lines with
  | nil => rfl
  | cons line lines ih =>
    have hline : ∀ ch ∈ line, (ch == '\n') = false := by
      intro ch hch
      rw [beq_eq_false_iff_ne]
      rintro rfl
      exact h line (List.mem_cons_self ..) hch
    have htail := ih fun l hl => h l (List.mem_cons_of_mem line hl)
    rw [List.splitOn_eq_splitOnP] at htail ⊢
    rw [terminated, List.flatMap_cons, List.append_assoc, List.singleton_append,
      List.splitOnP_append_cons_of_forall_mem hline '\n' rfl, ← terminated, htail,
      List.cons_append]

theorem isBlank_of_trim_eq_nil {s : List Char} (h : trim s = []) : ∀ ch ∈ s, isBlank ch := by
  have hend : (trimStart s).reverse.dropWhile isBlank = [] := by simpa [trim, trimEnd] using h
  have hstart : ∀ ch ∈ s.dropWhile isBlank, isBlank ch := by
    simpa [trimStart, List.dropWhile_eq_nil_iff] using hend
  rw [← List.dropWhile_eq_nil_iff]
  cases hs : s.dropWhile isBlank with
  | nil => rfl
  | cons ch t =>
    -- what is in front of the rest would have been dropped
    have hhead := List.head?_dropWhile_not isBlank s
    rw [hs] at hhead hstart
    simp [hstart ch] at hhead

theorem mem_of_mem_lines {s line : List Char} {ch : Char} (h : line ∈ lines s)
    (hch : ch ∈ line) : ch ∈ s := by
  induction s generalizing line with
  | nil =>
    obtain rfl : line = [] := by simpa [lines] using h
    exact hch
  | cons x s ih =>
    rw [lines, List.splitOnP_cons_eq_if_modifyHead, ← lines] at h
    split at h
    · rcases List.mem_cons.mp h with rfl | h
      · exact absurd hch (by simp)
      · exact .tail _ (ih h hch)
    · obtain ⟨first, others, hlines⟩ :=
        List.exists_cons_of_ne_nil (List.splitOnP_ne_nil isLineEnd s)
      rw [lines, hlines, List.modifyHead_cons] at h
      have hmem : ∀ l ∈ first :: others, ch ∈ l → ch ∈ s := fun l hl => ih (by rwa [lines, hlines])
      rcases List.mem_cons.mp h with rfl | h
      · exact (List.mem_cons.mp hch).elim (fun hx => hx ▸ List.mem_cons_self ..)
          fun hch => .tail _ (hmem first (by simp) hch)
      · exact .tail _ (hmem line (by simp [h]) hch)

end Reckoner.Text

namespace Reckoner.Token

/-- A character that belongs to no number and to no word. -/
structure IsGap (spaced : Bool) (e : Char) : Prop where
  joint : isJoint spaced e = false
  word : Text.isWord e = false
  minus : e ≠ '-'

/-! ### The scan at a gap -/

section Scan

variable {spaced : Bool} {e : Char} (he : IsGap spaced e)
include he

theorem IsGap.isDigit : e.isDigit = false := by
  by_contra hd
  have hw := Text.isWord_of_isDigit (by simpa using hd)
  rw [he.word] at hw
  exact absurd hw (by decide)

theorem IsGap.isPointOrComma : isPointOrComma e = false := by
  have hj := he.joint
  rw [isJoint, Bool.or_eq_false_iff] at hj
  exact hj.1

theorem startsWord_append_cons (s t : List Char) :
    Text.startsWord (s ++ e :: t) = Text.startsWord s := by
  cases s with
  | nil => exact he.word
  | cons c s => rfl

theorem takeWhile_append_cons (s t : List Char) :
    (s ++ e :: t).takeWhile Char.isDigit = s.takeWhile Char.isDigit := by
  induction s with
  | nil => simp [he.isDigit]
  | cons c s ih => rw [List.cons_append, List.takeWhile_cons, List.takeWhile_cons, ih]

theorem dropWhile_append_cons (s t : List Char) :
    (s ++ e :: t).dropWhile Char.isDigit = s.dropWhile Char.isDigit ++ e :: t := by
  induction s with
  | nil => simp [he.isDigit]
  | cons c s ih =>
    rw [List.cons_append, List.dropWhile_cons, List.dropWhile_cons, ih]
    split <;> rfl

theorem takeGroups_append_cons (s t : List Char) :
    takeGroups spaced (s ++ e :: t) =
      ((takeGroups spaced s).1, (takeGroups spaced s).2 ++ e :: t) := by
  have hword := startsWord_append_cons he
  fun_induction takeGroups spaced s with
  | case1 j d₁ d₂ d₃ rest hnext groups after htake ih =>
    have hnext' : (isJoint spaced j && [d₁, d₂, d₃].all Char.isDigit &&
        !Text.startsWord (rest ++ e :: t)) = true := by rwa [hword]
    simp only [List.cons_append, takeGroups, if_pos hnext', ih, htake]
  | case2 j d₁ d₂ d₃ rest hnext =>
    have hnext' : ¬ (isJoint spaced j && [d₁, d₂, d₃].all Char.isDigit &&
        !Text.startsWord (rest ++ e :: t)) = true := by rwa [hword]
    simp only [List.cons_append, takeGroups, if_neg hnext']
  | case3 s hshort =>
    -- the gap stands where the joint or a digit of the group would have to be
    have hd := he.isDigit
    have hj := he.joint
    rcases s with - | ⟨a, - | ⟨b, - | ⟨c, - | ⟨d, s⟩⟩⟩⟩
    · rcases t with - | ⟨t₁, - | ⟨t₂, - | ⟨t₃, t⟩⟩⟩ <;> simp [takeGroups, hj]
    · rcases t with - | ⟨t₁, - | ⟨t₂, t⟩⟩ <;> simp [takeGroups, hd]
    · rcases t with - | ⟨t₁, t⟩ <;> simp [takeGroups, hd]
    · simp [takeGroups, hd]
    · exact absurd rfl (hshort a b c d s)

theorem takeFraction_append_cons (s t : List Char) :
    takeFraction (s ++ e :: t) = ((takeFraction s).1, (takeFraction s).2 ++ e :: t) := by
  rcases s with - | ⟨m, - | ⟨d, s⟩⟩
  · cases t <;> simp [takeFraction, he.isPointOrComma]
  · simp [takeFraction, he.isDigit]
  · simp only [List.cons_append, takeFraction, takeWhile_append_cons he, dropWhile_append_cons he]
    split <;> rfl

theorem takeUnsigned_append_cons (s t : List Char) :
    takeUnsigned spaced (s ++ e :: t) =
      ((takeUnsigned spaced s).1, (takeUnsigned spaced s).2 ++ e :: t) := by
  simp only [takeUnsigned, takeWhile_append_cons he, dropWhile_append_cons he,
    takeGroups_append_cons he, takeFraction_append_cons he]

theorem head?_append_cons (s t : List Char) :
    (s ++ e :: t).head?.any Char.isDigit = s.head?.any Char.isDigit := by
  cases s with
  | nil => exact he.isDigit
  | cons c s => rfl

/-- **The scan does not see across a gap.** -/
theorem scan_append_cons (s t : List Char) :
    scan spaced (s ++ e :: t) = scan spaced s ++ scan spaced t := by
  have hhead := head?_append_cons he
  have htake := takeUnsigned_append_cons he
  fun_induction scan spaced s with
  | case1 => rw [List.nil_append, List.nil_append, scan, dif_neg (by simp [he.isDigit]),
      if_neg (by simp [he.minus])]
  | case2 c s hc ih =>
    have hcons := htake (c :: s) t
    rw [List.cons_append] at hcons
    rw [List.cons_append, scan, dif_pos hc, hcons, ih, List.cons_append]
  | case3 c s hc hminus ih =>
    rw [List.cons_append, scan, dif_neg hc, hhead, if_pos hminus, htake, ih, List.cons_append]
  | case4 c s hc hminus ih =>
    rw [List.cons_append, scan, dif_neg hc, hhead, if_neg hminus, ih]

end Scan

/-! ### Texts -/

section Text

variable {c : Separators} {e : Char} (he : IsGap (c.thousand = .space) e) (hn : isNoise e = false)
include he hn

theorem ofLine_append_gap (s t : List Char) :
    ofLine c false (s ++ e :: t) = ofLine c false s ++ ofLine c false t := by
  have hfilter : (s ++ e :: t).filter (!isNoise ·) =
      s.filter (!isNoise ·) ++ e :: t.filter (!isNoise ·) := by
    rw [List.filter_append, List.filter_cons_of_pos (by simp [hn])]
  simp only [ofLine, Bool.false_eq_true, if_false, hfilter, scan_append_cons he, List.map_append,
    List.filter_append]

/-- **The tokens of a text that is cut at a gap**, in the lines that the gap is part of and in the
others. -/
theorem ofText_append_gap (hend : Text.isLineEnd e = false) (a b : List Char) :
    ofText c false (a ++ e :: b) = ofText c false a ++ ofText c false b := by
  by_cases ha : ∃ l ∈ a, Text.isLineEnd l
  · obtain ⟨l, hl, hend'⟩ := ha
    obtain ⟨x, a', hx⟩ := List.append_of_mem hl
    rw [hx, List.append_assoc, List.cons_append, ofText_append_cons c false _ _ hend',
      ofText_append_gap hend a' b, ofText_append_cons c false _ _ hend', List.append_assoc]
  · by_cases hb : ∃ l ∈ b, Text.isLineEnd l
    · obtain ⟨l, hl, hend'⟩ := hb
      obtain ⟨y, b', hy⟩ := List.append_of_mem hl
      rw [hy, ← List.cons_append, ← List.append_assoc, ofText_append_cons c false _ _ hend',
        ofText_append_gap hend a y, ofText_append_cons c false _ _ hend', List.append_assoc]
    · simp only [not_exists, not_and, Bool.not_eq_true] at ha hb
      have hab : ∀ ch ∈ a ++ e :: b, Text.isLineEnd ch = false := by
        intro ch hch
        rcases List.mem_append.mp hch with hch | hch
        · exact ha ch hch
        · rcases List.mem_cons.mp hch with rfl | hch
          · exact hend
          · exact hb ch hch
      rw [ofText_line hab, ofText_line ha, ofText_line hb, ofLine_append_gap he hn]
  termination_by a.length + b.length
  decreasing_by
    · simp only [hx, List.length_append, List.length_cons]
      omega
    · simp only [hy, List.length_append, List.length_cons]
      omega

end Text

/-! ### Blanks -/

theorem scan_eq_nil {spaced : Bool} {s : List Char} (h : ∀ ch ∈ s, ch.isDigit = false) :
    scan spaced s = [] := by
  induction s with
  | nil => rw [scan]
  | cons ch s ih =>
    have hs : ∀ ch ∈ s, ch.isDigit = false := fun ch' hch' => h ch' (by simp [hch'])
    have hhead : s.head?.any Char.isDigit = false := by
      cases s with
      | nil => rfl
      | cons d s => exact hs d (by simp)
    rw [scan, dif_neg (by simp [h ch]), if_neg (by simp [hhead]), ih hs]

theorem ofLine_of_isBlank (c : Separators) (rowMode : Bool) {line : List Char}
    (h : ∀ ch ∈ line, Text.isBlank ch) : ofLine c rowMode line = [] := by
  have hdigit : ∀ ch ∈ line, ch.isDigit = false := by
    intro ch hch
    by_contra hd
    have hblank := Text.not_isBlank_of_isDigit (Bool.of_not_eq_false hd)
    simp [h ch hch] at hblank
  have hnumeric : line.filter isNumeric = [] := by
    rw [List.filter_eq_nil_iff]
    intro ch hch hn
    have hblank := not_isBlank_of_isNumeric hn
    simp [h ch hch] at hblank
  have hscan : scan (c.thousand = .space) (line.filter (!isNoise ·)) = [] :=
    scan_eq_nil fun ch hch => hdigit ch (List.mem_filter.mp hch).1
  rw [← ofLine_nil c rowMode]
  cases rowMode <;> simp [ofLine, hnumeric, hscan, scan]

theorem ofText_of_isBlank (c : Separators) (rowMode : Bool) {s : List Char}
    (h : ∀ ch ∈ s, Text.isBlank ch) : ofText c rowMode s = [] := by
  rw [ofText, List.flatMap_eq_nil_iff]
  exact fun line hline =>
    ofLine_of_isBlank c rowMode fun ch hch => h ch (Text.mem_of_mem_lines hline hch)

end Reckoner.Token

namespace Reckoner

open Reckoner.Token

/-! ### Readings -/

theorem readings_of_isBlank (c : Separators) (rowMode : Bool) {s : List Char}
    (h : ∀ ch ∈ s, Text.isBlank ch) : Reading.ofText c rowMode s = [] := by
  rw [Reading.ofText, ofText_of_isBlank c rowMode h, List.filterMap_nil]

theorem readings_nil (c : Separators) (rowMode : Bool) : Reading.ofText c rowMode [] = [] :=
  readings_of_isBlank c rowMode (by simp)

theorem readings_append_cons (c : Separators) (rowMode : Bool) (a b : List Char) {e : Char}
    (he : Text.isLineEnd e) :
    Reading.ofText c rowMode (a ++ e :: b) =
      Reading.ofText c rowMode a ++ Reading.ofText c rowMode b := by
  rw [Reading.ofText, ofText_append_cons c rowMode a b he, List.filterMap_append, Reading.ofText,
    Reading.ofText]

theorem readings_append_gap {c : Separators} {e : Char} (he : IsGap (c.thousand = .space) e)
    (hn : isNoise e = false) (hend : Text.isLineEnd e = false) (a b : List Char) :
    Reading.ofText c false (a ++ e :: b) =
      Reading.ofText c false a ++ Reading.ofText c false b := by
  rw [Reading.ofText, ofText_append_gap he hn hend a b, List.filterMap_append, Reading.ofText,
    Reading.ofText]

/-! ### Lines of readings -/

theorem readings_terminated (c : Separators) (rowMode : Bool) (lines : List (List Char)) :
    Reading.ofText c rowMode (Text.terminated lines) =
      lines.flatMap (Reading.ofText c rowMode) := by
  induction lines with
  | nil => exact readings_nil c rowMode
  | cons line lines ih =>
    have happend := readings_append_cons c rowMode line (Text.terminated lines) (e := '\n') rfl
    rw [ih] at happend
    rw [List.flatMap_cons, ← happend]
    simp [Text.terminated]

/-- **The readings of a text are those of the pieces between its line feeds**, whatever other line
ends the pieces hold. -/
theorem readings_lines (c : Separators) (rowMode : Bool) (text : List Char) :
    Reading.ofText c rowMode text = (text.splitOn '\n').flatMap (Reading.ofText c rowMode) := by
  -- one more line feed at the end adds an empty line, in which there is no number
  have hend := readings_append_cons c rowMode text [] (e := '\n') rfl
  rw [readings_nil, List.append_nil] at hend
  rw [← hend, ← Text.terminated_splitOn, readings_terminated]

/-! ### Two parts -/

theorem isGap_space {c : Separators} (hc : c.thousand ≠ .space) :
    IsGap (c.thousand = .space) ' ' := by
  constructor
  · simp [isJoint, hc, isPointOrComma]
  · decide
  · decide

theorem isGap_tab (spaced : Bool) : IsGap spaced '\t' := by
  constructor
  · simp [isJoint, isPointOrComma]
  · decide
  · decide

/-- **The readings of a text in two parts** are those of the first part and then those of the second
one, if a line end stands between them or, in a text that is scanned, a blank that joins no
groups. -/
theorem readings_append (c : Separators) (a b : List Char) :
    (∀ rowMode, ∀ s ∈ [['\n'], ['\r'], ['\r', '\n']],
      Reading.ofText c rowMode (a ++ s ++ b) =
        Reading.ofText c rowMode a ++ Reading.ofText c rowMode b) ∧
    (c.thousand ≠ .space → ∀ s ∈ [[' '], ['\t']],
      Reading.ofText c false (a ++ s ++ b) =
        Reading.ofText c false a ++ Reading.ofText c false b) := by
  constructor
  · intro rowMode s hs
    simp only [List.mem_cons, List.not_mem_nil, or_false] at hs
    rcases hs with rfl | rfl | rfl
    · rw [List.append_assoc, List.singleton_append, readings_append_cons c rowMode a b rfl]
    · rw [List.append_assoc, List.singleton_append, readings_append_cons c rowMode a b rfl]
    · -- between the two characters of the line end there is an empty line
      have hline := readings_append_cons c rowMode [] b (e := '\n') rfl
      rw [readings_nil, List.nil_append, List.nil_append] at hline
      rw [List.append_assoc, List.cons_append, List.singleton_append,
        readings_append_cons c rowMode a _ rfl, hline]
  · intro hc s hs
    simp only [List.mem_cons, List.not_mem_nil, or_false] at hs
    rcases hs with rfl | rfl
    · rw [List.append_assoc, List.singleton_append,
        readings_append_gap (isGap_space hc) (by decide) (by decide) a b]
    · rw [List.append_assoc, List.singleton_append,
        readings_append_gap (isGap_tab _) (by decide) (by decide) a b]

/-- A point at the end of a line, and a lone minus in front of a tab. -/
theorem readings_append_point_minus :
    (['\r', '\n'] ∈ [['\n'], ['\r'], ['\r', '\n']] ∧
      Reading.ofText {} true ("1.".toList ++ ['\r', '\n'] ++ "234,5".toList) =
        Reading.ofText {} true "1.".toList ++ Reading.ofText {} true "234,5".toList) ∧
    (({} : Separators).thousand ≠ .space ∧ ['\t'] ∈ [[' '], ['\t']] ∧
      Reading.ofText {} false ("7 é-".toList ++ ['\t'] ++ "8,000".toList) =
        Reading.ofText {} false "7 é-".toList ++ Reading.ofText {} false "8,000".toList) :=
  ⟨⟨by decide, (readings_append {} _ _).1 true _ (by decide)⟩,
    ⟨by decide, by decide, (readings_append {} _ _).2 (by decide) _ (by decide)⟩⟩

end Reckoner
