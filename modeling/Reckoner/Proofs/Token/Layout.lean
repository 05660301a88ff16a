import Mathlib.Data.List.Basic
import Mathlib.Tactic.IntervalCases
import Reckoner.Proofs.Numeral.Layout
import Reckoner.Proofs.Token.Candidate

/-! # Scanning and cleaning numbers that are laid out

A number that is laid out with marks that a scan knows is found whole, unless the text behind it
goes on as a number (`Stops`), and cleaning takes out of it no more than the spaces between its
groups.

* `takeTail_cons_append`: what a scan takes behind a point.
* `takeUnsigned_body`, `scan_text`: the scan takes the number whole.
* `clean_text`, `resolve_clean_text`: cleaning takes no more than spaces out of it, so it stands for
  the same number.
* `ofLine_text`, `ofText_intercalate`: it is the one token of its line, and lines keep their
  tokens. -/

namespace Reckoner.Token

open Reckoner.Numeral

/-! ### Where a number stops -/

/-- No number goes on into the text. -/
structure Stops (spaced : Bool) (rest : List Char) : Prop where
  word : Text.startsWord rest = false
  groups : takeGroups spaced rest = ([], rest)
  fraction : takeFraction rest = ([], rest)

theorem stops_nil (spaced : Bool) : Stops spaced [] := by
  constructor <;> simp [Text.startsWord, takeGroups, takeFraction]

theorem takeWhile_isDigit_of_not_startsWord {s : List Char} (h : Text.startsWord s = false) :
    s.takeWhile Char.isDigit = [] := by
  cases s with
  | nil => rfl
  | cons c s =>
    have hc : c.isDigit = false := by
      by_contra hd
      simp [Text.startsWord, Text.isWord_of_isDigit (by simpa using hd)] at h
    simp [hc]

theorem takeWhile_isDigit_append {s t : List Char} (hs : isDigits s)
    (ht : Text.startsWord t = false) : (s ++ t).takeWhile Char.isDigit = s := by
  rw [List.takeWhile_append_of_pos (isDigits_iff.mp hs), takeWhile_isDigit_of_not_startsWord ht,
    List.append_nil]

theorem dropWhile_isDigit_append {s t : List Char} (hs : isDigits s)
    (ht : Text.startsWord t = false) : (s ++ t).dropWhile Char.isDigit = t := by
  have h := List.takeWhile_append_dropWhile (p := Char.isDigit) (l := s ++ t)
  rw [takeWhile_isDigit_append hs ht] at h
  exact List.append_cancel_left h

/-! ### The parts of a number -/

theorem isJoint_iff {spaced : Bool} {c : Char} :
    isJoint spaced c ↔ c = '.' ∨ c = ',' ∨ (spaced ∧ c = ' ') := by
  simp [isJoint, isPointOrComma, or_assoc]

theorem not_isWord_of_isJoint {spaced : Bool} {c : Char} (h : isJoint spaced c) :
    Text.isWord c = false := by
  rcases isJoint_iff.mp h with rfl | rfl | ⟨-, rfl⟩ <;> rfl

theorem isJoint_of_isPointOrComma {spaced : Bool} {c : Char} (h : isPointOrComma c) :
    isJoint spaced c := by
  simp [isJoint, h]

theorem startsWord_joined {spaced : Bool} {mark : Char} {gs : List (List Char)} {rest : List Char}
    (hm : gs ≠ [] → isJoint spaced mark) (hr : Text.startsWord rest = false) :
    Text.startsWord (Layout.joined mark gs ++ rest) = false := by
  cases gs with
  | nil => simpa [Layout.joined] using hr
  | cons g gs => exact not_isWord_of_isJoint (hm (by simp))

theorem startsWord_pointed {point : Char} {s rest : List Char}
    (hp : s ≠ [] → isPointOrComma point) (hr : Text.startsWord rest = false) :
    Text.startsWord (pointed point s ++ rest) = false := by
  unfold pointed
  split_ifs with hs
  · exact hr
  · have hj : isJoint false point := isJoint_of_isPointOrComma (hp hs)
    exact not_isWord_of_isJoint hj

theorem takeGroups_cons_append {spaced : Bool} {m : Char} {s rest : List Char}
    (hm : isJoint spaced m) (hs : isDigits s) (hne : s ≠ []) (hr : Text.startsWord rest = false) :
    takeGroups spaced (m :: s ++ rest) =
      if s.length = 3 then (m :: s ++ (takeGroups spaced rest).1, (takeGroups spaced rest).2)
      else ([], m :: s ++ rest) := by
  have hrest : ∀ c r, rest = c :: r → c.isDigit = false := by
    rintro c r rfl
    by_contra hc
    simp [Text.startsWord, Text.isWord_of_isDigit (by simpa using hc)] at hr
  have hdig := isDigits_iff.mp hs
  rcases s with - | ⟨d, - | ⟨e, - | ⟨f, - | ⟨g, s⟩⟩⟩⟩
  · exact absurd rfl hne
  · rcases rest with - | ⟨c, - | ⟨c', r⟩⟩ <;> simp [takeGroups]
    simp [hrest c (c' :: r) rfl]
  · rcases rest with - | ⟨c, r⟩ <;> simp [takeGroups]
    simp [hrest c r rfl]
  · simp [takeGroups, hm, hr, hdig]
  · have hg : Text.startsWord (g :: s ++ rest) = true :=
      Text.isWord_of_isDigit (hdig g (by simp))
    simp only [List.cons_append] at hg
    simp [takeGroups, hg]

theorem takeGroups_joined {spaced : Bool} {mark : Char} {gs : List (List Char)} {rest : List Char}
    (hm : gs ≠ [] → isJoint spaced mark) (hd : ∀ g ∈ gs, isDigits g) (hl : ∀ g ∈ gs, g.length = 3)
    (hr : Text.startsWord rest = false) :
    takeGroups spaced (Layout.joined mark gs ++ rest) =
      (Layout.joined mark gs ++ (takeGroups spaced rest).1, (takeGroups spaced rest).2) := by
  induction gs with
  | nil => rfl
  | cons g gs ih =>
    have hg : g.length = 3 := hl g (by simp)
    have hne : g ≠ [] := List.ne_nil_of_length_eq_add_one hg
    have hnext : Text.startsWord (Layout.joined mark gs ++ rest) = false :=
      startsWord_joined (fun _ => hm (by simp)) hr
    have htail := ih (fun _ => hm (by simp)) (fun g' h => hd g' (by simp [h]))
      fun g' h => hl g' (by simp [h])
    rw [Layout.joined_cons, List.append_assoc,
      takeGroups_cons_append (hm (by simp)) (hd g (by simp)) hne hnext, if_pos hg, htail,
      List.append_assoc]

theorem takeFraction_pointed {point : Char} {s rest : List Char} (hp : isPointOrComma point)
    (hs : isDigits s) (hne : s ≠ []) (hr : Text.startsWord rest = false) :
    takeFraction (point :: s ++ rest) = (point :: s, rest) := by
  obtain ⟨d, s, rfl⟩ := List.exists_cons_of_ne_nil hne
  obtain ⟨hd, hs'⟩ := isDigits_cons.mp hs
  simp only [List.cons_append, takeFraction, hp, hd, Bool.and_self, if_true,
    takeWhile_isDigit_append hs' hr, dropWhile_isDigit_append hs' hr]

/-! ### What is behind the first digits -/

/-- What a number takes behind its first digits, and what follows it. -/
def takeTail (spaced : Bool) (s : List Char) : List Char × List Char :=
  ((takeGroups spaced s).1 ++ (takeFraction (takeGroups spaced s).2).1,
    (takeFraction (takeGroups spaced s).2).2)

theorem takeUnsigned_append_of_isDigits {spaced : Bool} {s rest : List Char} (hs : isDigits s)
    (hr : Text.startsWord rest = false) :
    takeUnsigned spaced (s ++ rest) =
      (s ++ (takeTail spaced rest).1, (takeTail spaced rest).2) := by
  simp only [takeUnsigned, takeWhile_isDigit_append hs hr, dropWhile_isDigit_append hs hr, takeTail,
    List.append_assoc]

theorem takeTail_of_stops {spaced : Bool} {rest : List Char} (hr : Stops spaced rest) :
    takeTail spaced rest = ([], rest) := by
  simp [takeTail, hr.groups, hr.fraction]

theorem takeTail_joined {spaced : Bool} {mark : Char} {gs : List (List Char)} {rest : List Char}
    (hm : gs ≠ [] → isJoint spaced mark) (hd : ∀ g ∈ gs, isDigits g) (hl : ∀ g ∈ gs, g.length = 3)
    (hr : Text.startsWord rest = false) :
    takeTail spaced (Layout.joined mark gs ++ rest) =
      (Layout.joined mark gs ++ (takeTail spaced rest).1, (takeTail spaced rest).2) := by
  simp only [takeTail, takeGroups_joined hm hd hl hr, List.append_assoc]

/-- **A fraction ends the number**, but a scan takes three digits behind a point for a group and
goes on behind them. -/
theorem takeTail_cons_append {spaced : Bool} {point : Char} {s rest : List Char}
    (hp : isPointOrComma point) (hs : isDigits s) (hne : s ≠ [])
    (hr : Text.startsWord rest = false) :
    takeTail spaced (point :: s ++ rest) =
      if s.length = 3 then (point :: s ++ (takeTail spaced rest).1, (takeTail spaced rest).2)
      else (point :: s, rest) := by
  have hjoint : isJoint spaced point := isJoint_of_isPointOrComma hp
  have hgroups := takeGroups_cons_append hjoint hs hne hr
  unfold takeTail
  rw [hgroups]
  split_ifs with h3
  · simp only [List.append_assoc]
  · simp only [takeFraction_pointed hp hs hne hr, List.nil_append]

theorem takeTail_pointed {spaced : Bool} {point : Char} {s rest : List Char}
    (hp : s ≠ [] → isPointOrComma point) (hs : isDigits s) (hr : Stops spaced rest) :
    takeTail spaced (pointed point s ++ rest) = (pointed point s, rest) := by
  have hrest := takeTail_of_stops hr
  unfold pointed
  split_ifs with hne
  · exact hrest
  · rw [takeTail_cons_append (hp hne) hs hne hr.word, hrest]
    split_ifs <;> simp

/-! ### The number as a whole -/

theorem scan_of_takeUnsigned {spaced : Bool} {mark point : Char} {l : Layout}
    {s t rest : List Char} (h : takeUnsigned spaced (l.body mark point ++ s) = (t, rest)) :
    scan spaced (l.body mark point ++ s) = t :: scan spaced rest := by
  obtain ⟨d, s', hs, hd⟩ := Layout.body_eq_cons mark point l
  rw [hs, List.cons_append] at h ⊢
  rw [scan, dif_pos hd, h]

section Layout

variable {spaced : Bool} {mark point : Char} {l : Layout}
  (hm : l.groups ≠ [] → isJoint spaced mark) (hp : l.fraction ≠ [] → isPointOrComma point)
include hm

theorem takeUnsigned_front {rest : List Char} (hr : Text.startsWord rest = false) :
    takeUnsigned spaced (l.front mark ++ rest) =
      (l.front mark ++ (takeTail spaced rest).1, (takeTail spaced rest).2) := by
  have hjoined : Text.startsWord (Layout.joined mark l.groups ++ rest) = false :=
    startsWord_joined hm hr
  rw [Layout.front, List.append_assoc, takeUnsigned_append_of_isDigits l.first_digits hjoined,
    takeTail_joined hm l.groups_digits l.length_group hr, List.append_assoc]

include hp

/-- **The scan takes the number up to where it stops.** -/
theorem takeUnsigned_body {rest : List Char} (hr : Stops spaced rest) :
    takeUnsigned spaced (l.body mark point ++ rest) = (l.body mark point, rest) := by
  have hpointed : Text.startsWord (pointed point l.fraction ++ rest) = false :=
    startsWord_pointed hp hr.word
  rw [Layout.body, List.append_assoc, takeUnsigned_front hm hpointed,
    takeTail_pointed hp l.fraction_digits hr]

/-- **The scan finds the number with its sign.** -/
theorem scan_text {rest : List Char} (hr : Stops spaced rest) :
    scan spaced (l.text mark point ++ rest) = l.text mark point :: scan spaced rest := by
  obtain ⟨d, s, hs, hd⟩ := Layout.body_eq_cons mark point l
  have htake := takeUnsigned_body hm hp hr
  cases hneg : l.negative with
  | false =>
    have htext : l.text mark point = l.body mark point := by simp [Layout.text, hneg, sign]
    rw [htext, scan_of_takeUnsigned htake]
  | true =>
    have htext : l.text mark point = '-' :: l.body mark point := by simp [Layout.text, hneg, sign]
    have hhead : (l.body mark point ++ rest).head?.any Char.isDigit = true := by simp [hs, hd]
    rw [htext, List.cons_append, scan, dif_neg (by decide), if_pos (by rw [hhead]; rfl), htake]

end Layout

/-! ### Cleaning -/

theorem compact_eq_self {s : List Char} (h : ∀ c ∈ s, Text.isBlank c = false) :
    Text.compact s = s :=
  List.filter_eq_self.mpr fun c hc => by simp [h c hc]

theorem compact_of_isDigits {s : List Char} (h : isDigits s) : Text.compact s = s :=
  compact_eq_self fun c hc => Text.not_isBlank_of_isDigit (isDigits_iff.mp h c hc)

theorem compact_pointed {point : Char} {s : List Char} (hp : s ≠ [] → isPointOrComma point)
    (hs : isDigits s) : Text.compact (pointed point s) = pointed point s := by
  refine compact_eq_self fun c hc => ?_
  rcases Layout.mem_pointed hc with ⟨rfl, hne⟩ | hc
  · exact not_isBlank_of_isPointOrComma (hp hne)
  · exact Text.not_isBlank_of_isDigit (isDigits_iff.mp hs c hc)

theorem compact_joined_space {gs : List (List Char)} (h : ∀ g ∈ gs, isDigits g) :
    Text.compact (Layout.joined ' ' gs) = gs.flatten := by
  induction gs with
  | nil => rfl
  | cons g gs ih =>
    have ht := ih fun g' hg' => h g' (by simp [hg'])
    rw [Layout.joined_cons, List.cons_append, Text.compact, List.filter_cons_of_neg (by decide),
      ← Text.compact, Text.compact_append, compact_of_isDigits (h g (by simp)), ht,
      List.flatten_cons]

theorem compact_joined {mark : Char} {gs : List (List Char)} (hm : gs ≠ [] → isPointOrComma mark)
    (h : ∀ g ∈ gs, isDigits g) : Text.compact (Layout.joined mark gs) = Layout.joined mark gs := by
  refine compact_eq_self fun c hc => ?_
  rcases Layout.mem_joined hc with ⟨rfl, hne⟩ | ⟨g, hg, hc⟩
  · exact not_isBlank_of_isPointOrComma (hm hne)
  · exact Text.not_isBlank_of_isDigit (isDigits_iff.mp (h g hg) c hc)

theorem collapseFrom_append (held : Bool) {s t : List Char} (hs : isDigits s) (hne : s ≠ []) :
    collapseFrom held (s ++ t) = s ++ collapseFrom false t := by
  induction s generalizing held with
  | nil => exact absurd rfl hne
  | cons d s ih =>
    rw [isDigits_cons] at hs
    have hd := not_isPointOrComma_of_isDigit hs.1
    rcases eq_or_ne s [] with rfl | hne'
    · simp [collapseFrom, hd]
    · simp [collapseFrom, hd, ih false hs.2 hne']

theorem collapseFrom_cons_append (m : Char) {s t : List Char} (hs : isDigits s) (hne : s ≠ []) :
    collapseFrom false (m :: s ++ t) = m :: s ++ collapseFrom false t := by
  by_cases hm : isPointOrComma m
  · simp [collapseFrom, hm, collapseFrom_append true hs hne]
  · simp [collapseFrom, hm, collapseFrom_append false hs hne]

theorem collapseFrom_joined {mark : Char} {gs : List (List Char)} {t : List Char}
    (hd : ∀ g ∈ gs, isDigits g) (hne : ∀ g ∈ gs, g ≠ []) :
    collapseFrom false (Layout.joined mark gs ++ t) =
      Layout.joined mark gs ++ collapseFrom false t := by
  induction gs with
  | nil => rfl
  | cons g gs ih =>
    have ht := ih (fun g' hg' => hd g' (by simp [hg'])) fun g' hg' => hne g' (by simp [hg'])
    rw [Layout.joined_cons, List.append_assoc,
      collapseFrom_cons_append mark (hd g (by simp)) (hne g (by simp)), ht, List.append_assoc]

theorem collapse_text (mark point : Char) (l : Layout) :
    collapse (l.text mark point) = l.text mark point := by
  have hpointed : collapseFrom false (pointed point l.fraction) = pointed point l.fraction := by
    unfold pointed
    split_ifs with hf
    · rfl
    · simpa [collapseFrom] using collapseFrom_cons_append (t := []) point l.fraction_digits hf
  have hgroups : ∀ g ∈ l.groups, g ≠ [] := fun g hg =>
    List.ne_nil_of_length_eq_add_one (l.length_group g hg)
  have hbody : collapseFrom false (l.body mark point) = l.body mark point := by
    rw [Layout.body, Layout.front, List.append_assoc,
      collapseFrom_append false l.first_digits l.first_ne_nil,
      collapseFrom_joined l.groups_digits hgroups, hpointed]
  rw [collapse, Layout.text]
  cases l.negative with
  | false => simpa [sign] using hbody
  | true => simpa [sign, collapseFrom, isPointOrComma] using hbody

theorem trimMarks_append {s t : List Char} (ht : isDigits t) (hne : t ≠ []) :
    trimMarks (s ++ t) = s ++ t := by
  have hlast := not_isPointOrComma_of_isDigit (isDigits_iff.mp ht _ (List.getLast_mem hne))
  rw [← List.dropLast_concat_getLast hne, trimMarks]
  simp [hlast]

theorem trimMarks_text (mark point : Char) (l : Layout) :
    trimMarks (l.text mark point) = l.text mark point := by
  obtain ⟨s, d, hs, hd⟩ := Layout.body_eq_concat mark point l
  have hdigits : isDigits [d] := isDigits_cons.mpr ⟨hd, isDigits_nil⟩
  rw [Layout.text, hs, ← List.append_assoc, trimMarks_append hdigits (List.cons_ne_nil d [])]

theorem startsGroups_of_not_mem {s : List Char} (h : ',' ∉ s) : startsGroups s = false := by
  unfold startsGroups
  split
  · exact absurd (by simp) h
  · rfl

theorem startsGroups_eq_false {s : List Char} (hs : isDigits s) : startsGroups s = false :=
  startsGroups_of_not_mem fun hmem => absurd (isDigits_iff.mp hs ',' hmem) (by decide)

theorem mendGroup_of_not_mem {c : Separators} {s : List Char} (h : '.' ∉ s) :
    mendGroup c s = s := by
  rw [mendGroup, Layout.dropWhile_bne_eq_nil h]

theorem mendGroup_append_cons_eq (c : Separators) {s : List Char} (hs : '.' ∉ s)
    (after : List Char) :
    mendGroup c (s ++ '.' :: after) =
      if c.thousand ≠ .period && !after.contains '.' && startsGroups after then s ++ ',' :: after
      else s ++ '.' :: after := by
  rw [mendGroup, Layout.dropWhile_bne_append_cons hs, Layout.takeWhile_bne_append_cons hs]

theorem mendGroup_append_cons {c : Separators} {s after : List Char} (hs : '.' ∉ s)
    (h : '.' ∈ after ∨ startsGroups after = false) :
    mendGroup c (s ++ '.' :: after) = s ++ '.' :: after := by
  rw [mendGroup_append_cons_eq c hs, if_neg]
  rcases h with h | h <;> simp [h]

/-- **No period of a number that is laid out in a convention is taken for a comma.** -/
theorem mendGroup_text {c : Separators} {mark point : Char} {l : Layout}
    (h : l.Fits c mark point) : mendGroup c (l.text mark point) = l.text mark point := by
  by_cases ht : c.thousand = .period
  · unfold mendGroup
    split <;> simp [ht]
  have hfront : '.' ∉ sign l.negative ++ l.front mark := by
    intro hch
    rcases List.mem_append.mp hch with hch | hch
    · exact absurd (eq_minus_of_mem_sign hch) (by decide)
    · rcases Layout.mem_front hch with hd | ⟨hm, hg⟩
      · exact absurd hd (by decide)
      · have := Separator.mark?_eq_some_iff.mp (h.thousand hg)
        simp [← hm, ht] at this
  rw [Layout.text, Layout.body, ← List.append_assoc]
  by_cases hperiod : '.' ∈ pointed point l.fraction
  · -- the only period there can be is the one in front of the fraction
    rcases Layout.mem_pointed hperiod with ⟨rfl, hf⟩ | hd
    · rw [pointed, if_neg hf]
      exact mendGroup_append_cons hfront (.inr (startsGroups_eq_false l.fraction_digits))
    · exact absurd (isDigits_iff.mp l.fraction_digits '.' hd) (by decide)
  · refine mendGroup_of_not_mem fun hmem => ?_
    exact (List.mem_append.mp hmem).elim hfront hperiod

theorem compact_sign (negative : Bool) : Text.compact (sign negative) = sign negative := by
  cases negative <;> rfl

theorem compact_front {mark : Char} {l : Layout} (hm : l.groups ≠ [] → isPointOrComma mark) :
    Text.compact (l.front mark) = l.front mark := by
  rw [Layout.front, Text.compact_append, compact_of_isDigits l.first_digits,
    compact_joined hm l.groups_digits]

theorem compact_front_space (l : Layout) : Text.compact (l.front ' ') = l.whole := by
  rw [Layout.front, Text.compact_append, compact_of_isDigits l.first_digits,
    compact_joined_space l.groups_digits, Layout.whole]

theorem compact_text {mark point : Char} {l : Layout}
    (hm : l.groups ≠ [] → isPointOrComma mark ∨ mark = ' ')
    (hp : l.fraction ≠ [] → isPointOrComma point) :
    Text.compact (l.text mark point) = (l.unspaced mark).text mark point := by
  rw [Layout.text, Layout.body, Text.compact_append, Text.compact_append, compact_sign,
    compact_pointed hp l.fraction_digits, Layout.unspaced]
  split_ifs with hs
  · rw [hs, compact_front_space]
    simp [Layout.text, Layout.body, Layout.front, Layout.closed, Layout.joined]
  · rw [compact_front fun hg => (hm hg).resolve_right hs, Layout.text, Layout.body]

theorem isPointOrComma_or_space {s : Separator} {m : Char} (h : s.mark? = some m) :
    isPointOrComma m ∨ m = ' ' := by
  rcases Separator.mark?_eq_some_iff.mp h with ⟨-, rfl⟩ | ⟨-, rfl⟩ | ⟨-, rfl⟩ <;> decide

theorem isJoint_of_mark? {s : Separator} {m : Char} (h : s.mark? = some m) :
    isJoint (s = .space) m := by
  rcases Separator.mark?_eq_some_iff.mp h with ⟨-, rfl⟩ | ⟨-, rfl⟩ | ⟨rfl, rfl⟩ <;> rfl

section Convention

variable {c : Separators} {mark point : Char} {l : Layout} (h : l.Fits c mark point)
  (hp : l.fraction ≠ [] → isPointOrComma point)
include h hp

/-- **Cleaning takes no more than spaces out of a number that is laid out in a convention.** -/
theorem clean_text : clean c (l.text mark point) = (l.unspaced mark).text mark point := by
  rw [clean, compact_text (fun hg => isPointOrComma_or_space (h.thousand hg)) hp, collapse_text,
    trimMarks_text, mendGroup_text h.unspaced]

theorem resolve_clean_text (hc : c.ambiguous = false) :
    resolve c (clean c (l.text mark point)) = some l.numeral := by
  rw [clean_text h hp, Layout.resolve_text hc h.unspaced, Layout.numeral_unspaced]

theorem scan_text_of_fits {rest : List Char} (hr : Stops (c.thousand = .space) rest) :
    scan (c.thousand = .space) (l.text mark point ++ rest) =
      l.text mark point :: scan (c.thousand = .space) rest :=
  scan_text (fun hg => isJoint_of_mark? (h.thousand hg)) hp hr

end Convention

/-! ### The tokens of a line -/

theorem mem_text {mark point : Char} {l : Layout} {ch : Char}
    (hm : l.groups ≠ [] → isPointOrComma mark ∨ mark = ' ')
    (hp : l.fraction ≠ [] → isPointOrComma point) (hch : ch ∈ l.text mark point) :
    isNumeric ch ∨ ch = ' ' := by
  rcases List.mem_append.mp hch with hch | hch
  · left
    rw [eq_minus_of_mem_sign hch]
    rfl
  · rcases Layout.mem_body hch with hd | ⟨rfl, hg⟩ | ⟨rfl, hf⟩
    · simp [isNumeric, hd]
    · exact (hm hg).imp_left fun hm => by simp [isNumeric, hm]
    · simp [isNumeric, hp hf]

theorem mem_text_of_fits {c : Separators} {mark point : Char} {l : Layout} {ch : Char}
    (h : l.Fits c mark point) (hp : l.fraction ≠ [] → isPointOrComma point)
    (hch : ch ∈ l.text mark point) : isNumeric ch ∨ ch = ' ' :=
  mem_text (fun hg => isPointOrComma_or_space (h.thousand hg)) hp hch

theorem not_isBlank_of_isNumeric {ch : Char} (h : isNumeric ch) : Text.isBlank ch = false := by
  simp only [isNumeric, Bool.or_eq_true, beq_iff_eq] at h
  rcases h with (hd | hm) | rfl
  · exact Text.not_isBlank_of_isDigit hd
  · exact not_isBlank_of_isPointOrComma hm
  · rfl

theorem clean_filter_isNumeric {s : List Char} (c : Separators)
    (h : ∀ ch ∈ s, isNumeric ch ∨ ch = ' ') : clean c (s.filter isNumeric) = clean c s := by
  have hs : s.filter isNumeric = Text.compact s := by
    refine List.filter_congr fun ch hch => ?_
    rcases h ch hch with hn | rfl
    · rw [hn, not_isBlank_of_isNumeric hn]
      rfl
    · rfl
  rw [hs, clean, Text.compact_compact, clean]

theorem not_isNoise_of_isDigit {ch : Char} (h : ch.isDigit) : isNoise ch = false := by
  obtain ⟨h1, h2⟩ := Text.toNat_of_isDigit h
  rw [← Char.ofNat_toNat ch]
  interval_cases ch.toNat <;> decide

theorem not_isNoise_of_isNumeric {ch : Char} (h : isNumeric ch ∨ ch = ' ') :
    isNoise ch = false := by
  simp only [isNumeric, Bool.or_eq_true, beq_iff_eq, isPointOrComma_iff] at h
  rcases h with ((hd | rfl | rfl) | rfl) | rfl
  · exact not_isNoise_of_isDigit hd
  all_goals decide

theorem not_isLineEnd_of_isNumeric {ch : Char} (h : isNumeric ch ∨ ch = ' ') :
    Text.isLineEnd ch = false := by
  rw [Text.isLineEnd, Bool.or_eq_false_iff, beq_eq_false_iff_ne, beq_eq_false_iff_ne]
  constructor <;> rintro rfl <;> revert h <;> decide

theorem clean_text_ne_nil (c : Separators) (mark point : Char) (l : Layout) :
    clean c (l.text mark point) ≠ [] := by
  obtain ⟨d, s, hs, hd⟩ := Layout.body_eq_cons mark point l
  rw [Layout.text, hs, clean_sign_append_cons c l.negative hd]
  simp

/-- **A line that holds a number has that one token, in either mode**, if its groups are joined by
what a scan takes for a joint. -/
theorem ofLine_text_of_isJoint {c : Separators} {mark point : Char} {l : Layout} (rowMode : Bool)
    (hm : l.groups ≠ [] → isJoint (c.thousand = .space) mark)
    (hp : l.fraction ≠ [] → isPointOrComma point) :
    ofLine c rowMode (l.text mark point) = [clean c (l.text mark point)] := by
  have hchar : ∀ ch ∈ l.text mark point, isNumeric ch ∨ ch = ' ' := fun ch hch => by
    refine mem_text (fun hg => ?_) hp hch
    rcases isJoint_iff.mp (hm hg) with rfl | rfl | ⟨-, rfl⟩ <;> decide
  cases rowMode with
  | true =>
    have hne : (clean c (l.text mark point)).isEmpty = false :=
      List.isEmpty_eq_false_iff.mpr (clean_text_ne_nil c mark point l)
    simp [ofLine, clean_filter_isNumeric c hchar, hne]
  | false =>
    have hscan := scan_text hm hp (stops_nil (c.thousand = .space))
    rw [List.append_nil, scan] at hscan
    rw [ofLine_of_not_isNoise fun ch hch => not_isNoise_of_isNumeric (hchar ch hch), hscan,
      List.map_singleton]

/-- **A line that holds a number in the convention has that one token, in either mode.** -/
theorem ofLine_text {c : Separators} {mark point : Char} {l : Layout} (rowMode : Bool)
    (h : l.Fits c mark point) (hp : l.fraction ≠ [] → isPointOrComma point) :
    ofLine c rowMode (l.text mark point) = [clean c (l.text mark point)] :=
  ofLine_text_of_isJoint rowMode (fun hg => isJoint_of_mark? (h.thousand hg)) hp

/-! ### The tokens of a text line by line -/

theorem ofLine_nil (c : Separators) (rowMode : Bool) : ofLine c rowMode [] = [] := by
  have hclean : clean c [] = [] := by
    simp [clean, Text.compact, collapse, collapseFrom, trimMarks, mendGroup]
  cases rowMode <;> simp [ofLine, scan, hclean]

theorem ofText_line {c : Separators} {rowMode : Bool} {line : List Char}
    (h : ∀ ch ∈ line, Text.isLineEnd ch = false) :
    ofText c rowMode line = ofLine c rowMode line := by
  rw [ofText, Text.lines, List.splitOnP_eq_singleton h]
  simp

/-- **Lines that are joined by line feeds keep their tokens.** -/
theorem ofText_intercalate {c : Separators} {rowMode : Bool} {lines : List (List Char)}
    (h : ∀ line ∈ lines, ∀ ch ∈ line, Text.isLineEnd ch = false) :
    ofText c rowMode (['\n'].intercalate lines) = lines.flatMap (ofLine c rowMode) := by
  induction lines with
  | nil => rw [List.intercalate_nil, ofText_line (by simp), ofLine_nil, List.flatMap_nil]
  | cons line lines ih =>
    have hline := h line (by simp)
    have hlines := ih fun line' hl => h line' (by simp [hl])
    rcases lines with - | ⟨next, lines⟩
    · simp [ofText_line hline]
    · rw [List.intercalate_cons_cons, List.append_assoc, List.singleton_append,
        ofText_append_cons c rowMode _ _ (by decide), hlines, ofText_line hline]
      rfl

end Reckoner.Token
