import Mathlib.Computability.RegularExpressions
import Mathlib.Tactic.IntervalCases
import Reckoner.Proofs.Numeral.Layout

/-! # What a convention takes

A convention takes the texts of one regular expression: an optional minus, digits or groups of three
digits behind one to three digits, and optionally the decimal mark with digits behind it
(`Separators.pattern?`). These are the numbers that are laid out in it, and each of them stands for
its digits without the thousand marks. A convention that holds one mark twice has no such
expression.

* `exists_layout_of_ofConvention?`: what is read in a convention is laid out in it.
* `mem_pattern_iff`: the texts of the expression.
* `pattern_of_convention`: the expression, the reader and the numbers together. -/

namespace Reckoner.Numeral

/-! ### What is read in a convention -/

theorem splitFraction?_eq_some {decimal : Option Char} {s front fraction : List Char}
    (h : splitFraction? decimal s = some (front, fraction)) :
    ∃ point, s = front ++ pointed point fraction ∧ isDigits fraction ∧
      (fraction ≠ [] → decimal = some point) := by
  cases decimal with
  | none =>
    obtain ⟨rfl, rfl⟩ := Prod.mk.inj (Option.some.inj h)
    exact ⟨'.', by simp [pointed], rfl, fun hne => absurd rfl hne⟩
  | some d =>
    have hsplit := List.takeWhile_append_dropWhile (p := (· != d)) (l := s)
    rw [splitFraction?] at h
    cases hdrop : s.dropWhile (· != d) with
    | nil =>
      rw [hdrop] at h
      obtain ⟨rfl, rfl⟩ := Prod.mk.inj (Option.some.inj h)
      exact ⟨d, by simp [pointed], rfl, fun hne => absurd rfl hne⟩
    | cons m rest =>
      have hm : m = d := by
        have hhead := List.head?_dropWhile_not (· != d) s
        rw [hdrop] at hhead
        simpa using hhead
      rw [hdrop] at h
      dsimp only at h
      split_ifs at h with hrest
      obtain ⟨rfl, rfl⟩ := Prod.mk.inj (Option.some.inj h)
      obtain ⟨hne, hdigits⟩ := by simpa using hrest
      refine ⟨d, ?_, hdigits, fun _ => rfl⟩
      rw [pointed, if_neg hne, ← hm, ← hdrop, hm, hsplit]

theorem areGroups_cons {first : List Char} {groups : List (List Char)}
    (h : areGroups (first :: groups)) :
    first ≠ [] ∧ first.length ≤ 3 ∧ isDigits first ∧ ∀ g ∈ groups, isDigits g ∧ g.length = 3 := by
  cases groups with
  | nil => exact absurd h (by simp [areGroups])
  | cons second others =>
    simp only [areGroups, Bool.and_eq_true, decide_eq_true_eq, List.all_eq_true, beq_iff_eq] at h
    obtain ⟨⟨⟨hpos, hlen⟩, hfirst⟩, hgroups⟩ := h
    exact ⟨List.length_pos_iff.mp hpos, hlen, hfirst, fun g hg => (hgroups g hg).symm⟩

theorem wholeDigits?_eq_some {thousand : Option Char} {s whole : List Char}
    (h : wholeDigits? thousand s = some whole) :
    ∃ first groups mark, s = first ++ Layout.joined mark groups ∧
      whole = first ++ groups.flatten ∧ first ≠ [] ∧ isDigits first ∧
      (groups ≠ [] → first.length ≤ 3) ∧ (∀ g ∈ groups, isDigits g ∧ g.length = 3) ∧
      (groups ≠ [] → thousand = some mark) := by
  unfold wholeDigits? at h
  split_ifs at h with hplain
  · obtain rfl := Option.some.inj h
    obtain ⟨hne, hdigits⟩ := by simpa using hplain
    exact ⟨s, [], '.', by simp [Layout.joined], by simp, hne, hdigits, by simp⟩
  · cases thousand with
    | none => exact absurd h (by simp)
    | some t =>
      dsimp only at h
      split_ifs at h with hgroups
      obtain rfl := Option.some.inj h
      obtain ⟨first, groups, hsplit⟩ := List.exists_cons_of_ne_nil (List.splitOn_ne_nil t s)
      rw [hsplit] at hgroups
      obtain ⟨hne, hlen, hdigits, hall⟩ := areGroups_cons hgroups
      refine ⟨first, groups, t, ?_, by rw [hsplit, List.flatten_cons], hne, hdigits, fun _ => hlen,
        hall, fun _ => rfl⟩
      rw [Layout.joined_eq_intercalate, ← hsplit, List.intercalate_splitOn]

/-- **What is read in a convention is laid out in it**, and the convention tells its marks apart. -/
theorem exists_layout_of_ofConvention? {c : Separators} {s : List Char} {n : Numeral}
    (h : ofConvention? c s = some n) :
    c.ambiguous = false ∧ ∃ (l : Layout) (mark point : Char),
      l.Fits c mark point ∧ s = l.text mark point ∧ n = l.numeral := by
  rw [ofConvention?] at h
  split_ifs at h with hambiguous
  simp only [Option.bind_eq_bind, Option.bind_eq_some_iff, Prod.exists] at h
  obtain ⟨front, fraction, hfraction, whole, hwhole, hmake⟩ := h
  obtain ⟨point, hbody, hdigits, hpoint⟩ := splitFraction?_eq_some hfraction
  obtain ⟨first, groups, mark, hfront, hflat, hne, hfirst, hlen, hgroups, hmark⟩ :=
    wholeDigits?_eq_some hwhole
  obtain ⟨hnegative, hn, hf⟩ := make?_eq_some_iff.mp hmake
  let l : Layout := ⟨(takeSign s).1, first, groups, fraction, hne, hfirst, hlen,
    fun g hg => (hgroups g hg).1, fun g hg => (hgroups g hg).2, hdigits⟩
  have htext : s = l.text mark point := by
    rw [← sign_takeSign s, hbody, hfront]
    rfl
  have hnumeral : n = l.numeral := by
    obtain ⟨negative, w, f, h₁, h₂, h₃⟩ := n
    subst hnegative hn hf hflat
    rfl
  exact ⟨by simpa using hambiguous, l, mark, point, ⟨hmark, hpoint⟩, htext, hnumeral⟩

end Reckoner.Numeral

namespace Reckoner

open Reckoner.Numeral

/-! ### The expression of a convention -/

namespace Pattern

/-- One of the characters. -/
def oneOf (cs : List Char) : RegularExpression Char := cs.foldr (fun ch p => .char ch + p) 0

/-- A digit. -/
def digit : RegularExpression Char := oneOf "0123456789".toList

/-- One or more in a row. -/
def many (p : RegularExpression Char) : RegularExpression Char := p * p.star

/-- One or none. -/
def optional (p : RegularExpression Char) : RegularExpression Char := p + 1

/-- Digits in front of the fraction: one to three of them with groups behind the thousand mark, or
any number of them. -/
def whole : Option Char → RegularExpression Char
  | some t => (digit ^ 1 + digit ^ 2 + digit ^ 3) * many (.char t * digit ^ 3) + many digit
  | none => many digit

/-- The decimal mark and digits behind it. -/
def fraction : Option Char → RegularExpression Char
  | some d => optional (.char d * many digit)
  | none => 1

end Pattern

/-- The regular expression of the numbers in a convention, if its marks can be told apart. -/
def Separators.pattern? (c : Separators) : Option (RegularExpression Char) :=
  if c.ambiguous then none
  else some (Pattern.optional (.char '-') * Pattern.whole c.thousand.mark? *
    Pattern.fraction c.decimal.mark?)

namespace Pattern

open RegularExpression Computability

theorem mem_oneOf {cs s : List Char} : s ∈ (oneOf cs).matches' ↔ ∃ ch ∈ cs, s = [ch] := by
  induction cs with
  | nil =>
    exact ⟨fun h => absurd h (Language.notMem_zero s), fun ⟨_, h, _⟩ => absurd h List.not_mem_nil⟩
  | cons ch cs ih =>
    rw [oneOf, List.foldr_cons, ← oneOf, matches'_add, Language.mem_add, ih, matches'_char]
    simp only [List.mem_cons, exists_eq_or_imp]
    rfl

theorem mem_digit {s : List Char} : s ∈ digit.matches' ↔ ∃ d, d.isDigit ∧ s = [d] := by
  have hdigit : ∀ d : Char, d ∈ "0123456789".toList ↔ d.isDigit := by
    intro d
    constructor
    · intro h
      have hmem : d ∈ ['0', '1', '2', '3', '4', '5', '6', '7', '8', '9'] := h
      simp only [List.mem_cons, List.not_mem_nil, or_false] at hmem
      rcases hmem with rfl | rfl | rfl | rfl | rfl | rfl | rfl | rfl | rfl | rfl <;> rfl
    · intro h
      obtain ⟨h₁, h₂⟩ := Text.toNat_of_isDigit h
      rw [← Char.ofNat_toNat d]
      interval_cases d.toNat <;> decide
  rw [digit, mem_oneOf]
  exact exists_congr fun d => and_congr_left fun _ => hdigit d

theorem mem_optional {p : RegularExpression Char} {s : List Char} :
    s ∈ (optional p).matches' ↔ s ∈ p.matches' ∨ s = [] := Iff.rfl

theorem mem_many {p : RegularExpression Char} {s : List Char} :
    s ∈ (many p).matches' ↔
      ∃ pieces, pieces ≠ [] ∧ s = pieces.flatten ∧ ∀ x ∈ pieces, x ∈ p.matches' := by
  rw [many, matches'_mul, matches'_star, Language.mem_mul]
  constructor
  · rintro ⟨x, hx, _, ⟨pieces, rfl, hpieces⟩, rfl⟩
    exact ⟨x :: pieces, by simp, rfl, List.forall_mem_cons.mpr ⟨hx, hpieces⟩⟩
  · rintro ⟨pieces, hne, rfl, hpieces⟩
    obtain ⟨x, pieces, rfl⟩ := List.exists_cons_of_ne_nil hne
    obtain ⟨hx, hpieces⟩ := List.forall_mem_cons.mp hpieces
    exact ⟨x, hx, _, Language.join_mem_kstar hpieces, rfl⟩

theorem exists_map_iff {α β : Type} {f : α → β} {P : α → Prop} {ys : List β} :
    (∀ y ∈ ys, ∃ x, P x ∧ y = f x) ↔ ∃ xs : List α, (∀ x ∈ xs, P x) ∧ ys = xs.map f := by
  constructor
  · intro h
    induction ys with
    | nil => exact ⟨[], by simp, rfl⟩
    | cons y ys ih =>
      obtain ⟨⟨x, hx, rfl⟩, hys⟩ := List.forall_mem_cons.mp h
      obtain ⟨xs, hxs, rfl⟩ := ih hys
      exact ⟨x :: xs, List.forall_mem_cons.mpr ⟨hx, hxs⟩, rfl⟩
  · rintro ⟨xs, hxs, rfl⟩ y hy
    obtain ⟨x, hx, rfl⟩ := List.mem_map.mp hy
    exact ⟨x, hxs x hx, rfl⟩

theorem forall_mem_digit {pieces : List (List Char)} :
    (∀ x ∈ pieces, x ∈ digit.matches') ↔ ∃ s, isDigits s ∧ pieces = s.map ([·]) := by
  simp only [mem_digit, isDigits_iff]
  exact exists_map_iff

theorem flatten_map_singleton (s : List Char) : (s.map ([·])).flatten = s := by
  rw [← List.flatMap_def, List.flatMap_singleton']

theorem mem_digit_pow {n : Nat} {s : List Char} :
    s ∈ (digit ^ n).matches' ↔ isDigits s ∧ s.length = n := by
  rw [matches'_pow, Language.mem_pow]
  constructor
  · rintro ⟨pieces, rfl, hlength, hpieces⟩
    obtain ⟨s, hs, rfl⟩ := forall_mem_digit.mp hpieces
    rw [flatten_map_singleton]
    exact ⟨hs, by rw [← hlength, List.length_map]⟩
  · rintro ⟨hs, hlength⟩
    exact ⟨s.map ([·]), (flatten_map_singleton s).symm, by rw [List.length_map, hlength],
      forall_mem_digit.mpr ⟨s, hs, rfl⟩⟩

theorem mem_many_digit {s : List Char} : s ∈ (many digit).matches' ↔ s ≠ [] ∧ isDigits s := by
  rw [mem_many]
  constructor
  · rintro ⟨pieces, hne, rfl, hpieces⟩
    obtain ⟨s, hs, rfl⟩ := forall_mem_digit.mp hpieces
    rw [flatten_map_singleton]
    exact ⟨fun h => hne (by rw [h, List.map_nil]), hs⟩
  · rintro ⟨hne, hs⟩
    exact ⟨s.map ([·]), by simpa using hne, (flatten_map_singleton s).symm,
      forall_mem_digit.mpr ⟨s, hs, rfl⟩⟩

theorem mem_char_mul {m : Char} {p : RegularExpression Char} {s : List Char} :
    s ∈ (char m * p).matches' ↔ ∃ t, t ∈ p.matches' ∧ s = m :: t := by
  rw [matches'_mul, matches'_char, Language.mem_mul]
  constructor
  · rintro ⟨_, rfl, t, ht, rfl⟩
    exact ⟨t, ht, rfl⟩
  · rintro ⟨t, ht, rfl⟩
    exact ⟨[m], rfl, t, ht, rfl⟩

theorem mem_groups {t : Char} {s : List Char} :
    s ∈ (many (.char t * digit ^ 3)).matches' ↔
      ∃ gs, gs ≠ [] ∧ s = Layout.joined t gs ∧ ∀ g ∈ gs, isDigits g ∧ g.length = 3 := by
  simp only [mem_many, mem_char_mul, mem_digit_pow, exists_map_iff]
  constructor
  · rintro ⟨_, hne, rfl, gs, hgs, rfl⟩
    exact ⟨gs, by simpa using hne, by rw [Layout.joined, List.flatMap_def], hgs⟩
  · rintro ⟨gs, hne, rfl, hgs⟩
    exact ⟨gs.map (t :: ·), by simpa using hne, by rw [Layout.joined, List.flatMap_def], gs, hgs,
      rfl⟩

/-! ### The numbers in a convention -/

theorem mem_sign {s : List Char} :
    s ∈ (optional (.char '-')).matches' ↔ ∃ negative, s = sign negative := by
  rw [mem_optional, matches'_char]
  constructor
  · rintro (rfl | rfl)
    · exact ⟨true, rfl⟩
    · exact ⟨false, rfl⟩
  · rintro ⟨negative, rfl⟩
    cases negative
    · exact .inr rfl
    · exact .inl rfl

theorem mem_whole {thousand : Option Char} {s : List Char} :
    s ∈ (whole thousand).matches' ↔
      ∃ first groups mark, s = first ++ Layout.joined mark groups ∧ first ≠ [] ∧ isDigits first ∧
        (groups ≠ [] → first.length ≤ 3) ∧ (∀ g ∈ groups, isDigits g ∧ g.length = 3) ∧
        (groups ≠ [] → thousand = some mark) := by
  have hplain : ∀ {first : List Char}, first ≠ [] ∧ isDigits first →
      ∃ f gs mark, first = f ++ Layout.joined mark gs ∧ f ≠ [] ∧ isDigits f ∧
        (gs ≠ [] → f.length ≤ 3) ∧ (∀ g ∈ gs, isDigits g ∧ g.length = 3) ∧
        (gs ≠ [] → thousand = some mark) :=
    fun {first} h => ⟨first, [], '.', by simp [Layout.joined], h.1, h.2, by simp, by simp, by simp⟩
  cases thousand with
  | none =>
    rw [whole, mem_many_digit]
    refine ⟨hplain, ?_⟩
    rintro ⟨first, groups, mark, rfl, hne, hfirst, -, -, hmark⟩
    obtain rfl : groups = [] := by
      by_contra hgroups
      exact absurd (hmark hgroups) (by simp)
    simpa [Layout.joined] using ⟨hne, hfirst⟩
  | some t =>
    have hfirst : ∀ {first : List Char}, first ∈ (digit ^ 1 + digit ^ 2 + digit ^ 3).matches' ↔
        first ≠ [] ∧ isDigits first ∧ first.length ≤ 3 := by
      intro first
      rw [matches'_add, matches'_add, Language.mem_add, Language.mem_add, mem_digit_pow,
        mem_digit_pow, mem_digit_pow, ← List.length_pos_iff]
      constructor
      · rintro ((⟨hd, hl⟩ | ⟨hd, hl⟩) | ⟨hd, hl⟩) <;> exact ⟨by omega, hd, by omega⟩
      · rintro ⟨hpos, hd, hl⟩
        obtain hl | hl | hl : first.length = 1 ∨ first.length = 2 ∨ first.length = 3 := by omega
        · exact .inl (.inl ⟨hd, hl⟩)
        · exact .inl (.inr ⟨hd, hl⟩)
        · exact .inr ⟨hd, hl⟩
    rw [whole, matches'_add, Language.mem_add, mem_many_digit, matches'_mul, Language.mem_mul]
    constructor
    · rintro (⟨first, hmem, _, hgroups, rfl⟩ | h)
      · obtain ⟨hne, hd, hl⟩ := hfirst.mp hmem
        obtain ⟨gs, -, rfl, hgs⟩ := mem_groups.mp hgroups
        exact ⟨first, gs, t, rfl, hne, hd, fun _ => hl, hgs, fun _ => rfl⟩
      · exact hplain h
    · rintro ⟨first, groups, mark, rfl, hne, hd, hl, hgroups, hmark⟩
      by_cases hnil : groups = []
      · exact .inr (by simpa [hnil, Layout.joined] using ⟨hne, hd⟩)
      · obtain rfl := Option.some.inj (hmark hnil)
        exact .inl ⟨first, hfirst.mpr ⟨hne, hd, hl hnil⟩, _,
          mem_groups.mpr ⟨groups, hnil, rfl, hgroups⟩, rfl⟩

theorem mem_fraction {decimal : Option Char} {s : List Char} :
    s ∈ (fraction decimal).matches' ↔
      ∃ digits point, s = pointed point digits ∧ isDigits digits ∧
        (digits ≠ [] → decimal = some point) := by
  cases decimal with
  | none =>
    rw [fraction, matches'_epsilon, Language.mem_one]
    constructor
    · rintro rfl
      exact ⟨[], '.', rfl, rfl, fun h => absurd rfl h⟩
    · rintro ⟨digits, point, rfl, -, hpoint⟩
      by_contra h
      exact nomatch hpoint fun hnil => h (by rw [hnil]; rfl)
  | some d =>
    rw [fraction, mem_optional, mem_char_mul]
    constructor
    · rintro (⟨digits, hmem, rfl⟩ | rfl)
      · obtain ⟨hne, hd⟩ := mem_many_digit.mp hmem
        exact ⟨digits, d, by rw [pointed, if_neg hne], hd, fun _ => rfl⟩
      · exact ⟨[], d, rfl, rfl, fun _ => rfl⟩
    · rintro ⟨digits, point, rfl, hd, hpoint⟩
      by_cases hnil : digits = []
      · exact .inr (by rw [pointed, if_pos hnil])
      · obtain rfl := Option.some.inj (hpoint hnil)
        exact .inl ⟨digits, mem_many_digit.mpr ⟨hnil, hd⟩, by rw [pointed, if_neg hnil]⟩

end Pattern

theorem pattern?_eq_none_iff {c : Separators} : c.pattern? = none ↔ c.ambiguous := by
  rw [Separators.pattern?]
  split_ifs with hambiguous <;> simp [hambiguous]

/-- **The texts of the expression of a convention are the numbers that are laid out in it.** -/
theorem mem_pattern_iff {c : Separators} {p : RegularExpression Char} (hp : c.pattern? = some p)
    (s : List Char) :
    s ∈ p.matches' ↔
      ∃ (l : Layout) (mark point : Char), l.Fits c mark point ∧ s = l.text mark point := by
  rw [Separators.pattern?] at hp
  split_ifs at hp
  obtain rfl := Option.some.inj hp
  rw [RegularExpression.matches'_mul, RegularExpression.matches'_mul, Language.mem_mul]
  constructor
  · rintro ⟨_, ⟨_, hsign, _, hwhole, rfl⟩, _, hfraction, rfl⟩
    obtain ⟨negative, rfl⟩ := Pattern.mem_sign.mp hsign
    obtain ⟨first, groups, mark, rfl, hne, hfirst, hlen, hgroups, hmark⟩ :=
      Pattern.mem_whole.mp hwhole
    obtain ⟨digits, point, rfl, hdigits, hpoint⟩ := Pattern.mem_fraction.mp hfraction
    exact ⟨⟨negative, first, groups, digits, hne, hfirst, hlen, fun g hg => (hgroups g hg).1,
      fun g hg => (hgroups g hg).2, hdigits⟩, mark, point, ⟨hmark, hpoint⟩, List.append_assoc ..⟩
  · rintro ⟨l, mark, point, hfits, rfl⟩
    refine ⟨_, ⟨_, Pattern.mem_sign.mpr ⟨l.negative, rfl⟩, _,
      Pattern.mem_whole.mpr ⟨l.first, l.groups,
      mark, rfl, l.first_ne_nil, l.first_digits, l.length_first,
      fun g hg => ⟨l.groups_digits g hg, l.length_group g hg⟩, hfits.thousand⟩, rfl⟩, _,
      Pattern.mem_fraction.mpr ⟨l.fraction, point, rfl, l.fraction_digits, hfits.decimal⟩,
      List.append_assoc ..⟩

/-- **What a convention takes.** It has an expression unless one mark stands in both of its slots. A
text is read in it if and only if it is one of the expression, which is one with an optional minus,
digits that are grouped in threes or not, and optionally a fraction; and then it stands for its
digits, with a period in front of those of the fraction. -/
theorem pattern_of_convention (c : Separators) :
    (c.pattern? = none ↔ c.thousand = c.decimal ∧ c.decimal ≠ .disabled) ∧
    (∀ s, (ofConvention? c s).isSome ↔ ∃ p, c.pattern? = some p ∧ s ∈ p.matches') ∧
    ∀ p, c.pattern? = some p → ∀ s,
      (s ∈ p.matches' ↔
        ∃ (l : Layout) (mark point : Char), l.Fits c mark point ∧ s = l.text mark point) ∧
      ∀ (l : Layout) (mark point : Char), l.Fits c mark point → s = l.text mark point →
        ∃ n, resolve c s = some n ∧
          n.text = sign l.negative ++ (l.first ++ l.groups.flatten) ++ pointed '.' l.fraction := by
  have happart : ∀ {p}, c.pattern? = some p → c.ambiguous = false := by
    intro p hp
    by_contra h
    rw [pattern?_eq_none_iff.mpr (by simpa using h)] at hp
    exact nomatch hp
  refine ⟨?_, fun s => ⟨fun h => ?_, ?_⟩, fun p hp s => ⟨mem_pattern_iff hp s, ?_⟩⟩
  · rw [pattern?_eq_none_iff, Separators.ambiguous_iff, Option.isSome_iff_ne_none, ne_eq, ne_eq,
      Separator.mark?_eq_none_iff]
  · obtain ⟨n, hn⟩ := Option.isSome_iff_exists.mp h
    obtain ⟨hambiguous, hlayout⟩ := exists_layout_of_ofConvention? hn
    obtain ⟨l, mark, point, hfits, htext, -⟩ := hlayout
    cases hp : c.pattern? with
    | none => simp [pattern?_eq_none_iff.mp hp] at hambiguous
    | some p => exact ⟨p, rfl, (mem_pattern_iff hp s).mpr ⟨l, mark, point, hfits, htext⟩⟩
  · rintro ⟨p, hp, hmem⟩
    obtain ⟨l, mark, point, hfits, rfl⟩ := (mem_pattern_iff hp s).mp hmem
    rw [Layout.ofConvention?_text (happart hp) hfits]
    rfl
  · rintro l mark point hfits rfl
    exact ⟨l.numeral, Layout.resolve_text (happart hp) hfits, rfl⟩

/-- A number with a space in front of its group, and a comma. -/
def spacedThousand : Layout where
  negative := true
  first := ['1']
  groups := [['2', '3', '4']]
  fraction := ['5']
  first_ne_nil := by decide
  first_digits := by decide
  length_first := by decide
  groups_digits := by decide
  length_group := by decide
  fraction_digits := by decide

/-- It is in the expression of its convention, and stands for its digits. -/
theorem pattern_of_spacedThousand :
    ∃ p, (⟨.space, .comma⟩ : Separators).pattern? = some p ∧
      spacedThousand.Fits ⟨.space, .comma⟩ ' ' ',' ∧
      "-1 234,5".toList = spacedThousand.text ' ' ',' ∧
      "-1 234,5".toList ∈ p.matches' ∧
      ∃ n, resolve ⟨.space, .comma⟩ "-1 234,5".toList = some n ∧ n.text = "-1234.5".toList := by
  have hfits : spacedThousand.Fits ⟨.space, .comma⟩ ' ' ',' := ⟨fun _ => rfl, fun _ => rfl⟩
  have htext : "-1 234,5".toList = spacedThousand.text ' ' ',' := by decide
  obtain ⟨hmem, hresolve⟩ := (pattern_of_convention ⟨.space, .comma⟩).2.2 _ rfl "-1 234,5".toList
  exact ⟨_, rfl, hfits, htext, hmem.mpr ⟨_, _, _, hfits, htext⟩, hresolve _ _ _ hfits htext⟩

end Reckoner
