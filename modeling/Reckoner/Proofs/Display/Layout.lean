import Mathlib.Data.List.Basic
import Reckoner.Display
import Reckoner.Proofs.Decimal.Digits
import Reckoner.Proofs.Numeral.Layout

/-! # What is shown of a value, as a layout

The digits of a finite value are digits, some of them in front of the point, and a convention groups
them in threes. So what is shown of the value is a number that is laid out in the convention.

* `digits_ofFloat`: the digits shown of a finite value.
* `grouped_append_flatten`, `exists_groups`: how digits fall into groups of three.
* `mem_display_of_isFinite`: the characters that are shown.
* `exists_display_eq_text`: what is shown as a layout, and the numeral that it stands for. -/

namespace Reckoner

open Reckoner.Numeral

/-! ### The digits of a value -/

theorem isNaN_of_isFinite {x : Float} (h : x.isFinite) : x.isNaN = false := by
  unfold Float.isFinite Float.Model.isFinite at h
  unfold Float.isNaN Float.Model.isNaN
  generalize x.toModel.unpack = u at *
  cases u with
  | notANumber => exact absurd h (by decide)
  | infinity sign => rfl
  | zero sign => rfl
  | finite sign mantissa exponent => rfl

theorem Digits.ofFloat_of_isFinite {x : Float} (h : x.isFinite) :
    Digits.ofFloat x = Digits.ofFinite x := by
  rw [Digits.ofFloat, if_neg (by rw [isNaN_of_isFinite h]; decide), if_pos h]

/-- **The digits shown of a finite value are digits**, at least one of them in front of the
point. -/
theorem digits_ofFloat {x : Float} (h : x.isFinite) :
    (Digits.ofFloat x).whole ≠ [] ∧ isDigits (Digits.ofFloat x).whole ∧
      isDigits (Digits.ofFloat x).fraction := by
  rw [Digits.ofFloat_of_isFinite h]
  exact ⟨Nat.toDigits_ne_nil, Decimal.isDigits_digits _,
    Decimal.isDigits_trimZeros (Decimal.isDigits_padded _ _)⟩

/-! ### Grouping -/

theorem length_flatten_of_length_eq {gs : List (List Char)} {n : Nat}
    (h : ∀ g ∈ gs, g.length = n) : gs.flatten.length = n * gs.length := by
  induction gs with
  | nil => rfl
  | cons g gs ih =>
    rw [List.flatten_cons, List.length_append, h g (by simp),
      ih fun g' hg' => h g' (by simp [hg']), List.length_cons, Nat.mul_succ, Nat.add_comm]

theorem grouped_append (mark : Char) {s t : List Char} (hne : s ≠ []) (hlen : s.length ≤ 3)
    (ht : t.length % 3 = 0) :
    grouped mark (s ++ t) = s ++ if t = [] then [] else mark :: grouped mark t := by
  rcases s with - | ⟨a, - | ⟨b, - | ⟨d, - | ⟨e, s⟩⟩⟩⟩
  · exact absurd rfl hne
  · by_cases h : t = [] <;> simp [grouped, h, ht]
  · have hlast : (t.length + 1) % 3 ≠ 0 := by omega
    by_cases h : t = [] <;> simp [grouped, h, ht, hlast]
  · have hlast : (t.length + 1) % 3 ≠ 0 ∧ (t.length + 1 + 1) % 3 ≠ 0 := by omega
    by_cases h : t = [] <;> simp [grouped, h, ht, hlast]
  · simp only [List.length_cons] at hlen
    omega

theorem grouped_append_flatten (mark : Char) {s : List Char} {gs : List (List Char)} (hne : s ≠ [])
    (hlen : s.length ≤ 3) (hgs : ∀ g ∈ gs, g.length = 3) :
    grouped mark (s ++ gs.flatten) = s ++ Layout.joined mark gs := by
  induction gs generalizing s with
  | nil => exact grouped_append mark hne hlen rfl
  | cons g gs ih =>
    have hg := hgs g (by simp)
    have hg0 : g ≠ [] := by
      rintro rfl
      simp at hg
    have hmod : (g :: gs).flatten.length % 3 = 0 := by
      rw [length_flatten_of_length_eq hgs]
      omega
    have htail := ih hg0 hg.le fun g' hg' => hgs g' (by simp [hg'])
    rw [grouped_append mark hne hlen hmod, if_neg (by simp [hg0]), List.flatten_cons, htail,
      Layout.joined_cons, List.cons_append]

/-- **Digits fall into groups of three**, counted from the right, with at most three digits in front
of them. -/
theorem exists_groups {s : List Char} (hne : s ≠ []) :
    ∃ (first : List Char) (groups : List (List Char)),
      s = first ++ groups.flatten ∧ first ≠ [] ∧ first.length ≤ 3 ∧
      ∀ g ∈ groups, g.length = 3 := by
  induction s with
  | nil => exact absurd rfl hne
  | cons d s ih =>
    rcases eq_or_ne s [] with rfl | hs
    · exact ⟨[d], [], by simp⟩
    obtain ⟨first, groups, hflat, hfirst, hlen, hgroups⟩ := ih hs
    by_cases h3 : first.length = 3
    · -- the digits in front are a full group now, and the new digit stands alone
      refine ⟨[d], first :: groups, by simp [hflat], by simp, by simp, ?_⟩
      intro g hg
      rcases List.mem_cons.mp hg with rfl | hg
      · exact h3
      · exact hgroups g hg
    · refine ⟨d :: first, groups, by simp [hflat], by simp, ?_, hgroups⟩
      rw [List.length_cons]
      omega

theorem exists_group_eq_front (c : Separators) (negative : Bool) (whole fraction : List Char)
    (hne : whole ≠ []) (hw : isDigits whole) (hf : isDigits fraction) :
    ∃ (l : Layout) (mark : Char), l.numeral = ⟨negative, whole, fraction, hne, hw, hf⟩ ∧
      (l.groups ≠ [] → c.thousand.mark? = some mark) ∧ c.group whole = l.front mark := by
  cases hm : c.thousand.mark? with
  | none =>
    refine ⟨⟨negative, whole, [], fraction, hne, hw, by simp, by simp, by simp, hf⟩, ',', ?_,
      by simp, ?_⟩
    · simp [Layout.numeral, Layout.whole]
    · simp [Separators.group, hm, Layout.front, Layout.joined]
  | some mark =>
    obtain ⟨first, groups, hflat, hfirst, hlen, hgroups⟩ := exists_groups hne
    have hw' : isDigits first ∧ isDigits groups.flatten := isDigits_append.mp (hflat ▸ hw)
    have hg : ∀ g ∈ groups, isDigits g := fun g hg => isDigits_iff.mpr fun ch hch =>
      isDigits_iff.mp hw'.2 ch (List.mem_flatten.mpr ⟨g, hg, hch⟩)
    refine ⟨⟨negative, first, groups, fraction, hfirst, hw'.1, fun _ => hlen, hg, hgroups, hf⟩,
      mark, ?_, fun _ => rfl, ?_⟩
    · simp [Layout.numeral, Layout.whole, hflat]
    · simp [Separators.group, hm, hflat, grouped_append_flatten mark hfirst hlen hgroups,
        Layout.front]

/-! ### What is shown -/

theorem mem_display_of_isFinite {c : Separators} {x : Float} (hx : x.isFinite) {ch : Char}
    (hch : ch ∈ display c x) :
    ch = '-' ∨ ch.isDigit ∨ c.thousand.mark? = some ch ∨ c.decimal.mark? = some ch := by
  obtain ⟨hne, hw, hf⟩ := digits_ofFloat hx
  have hsign : ∀ d : Digits, ch ∈ d.sign x → ch = '-' := by
    intro d hmem
    unfold Digits.sign sign at hmem
    split at hmem
    · exact List.mem_singleton.mp hmem
    · exact absurd hmem List.not_mem_nil
  have hgroup : ch ∈ c.group (Digits.ofFloat x).whole →
      ch.isDigit ∨ c.thousand.mark? = some ch := by
    intro hmem
    obtain ⟨l, mark, -, hmark, hfront⟩ := exists_group_eq_front c false _ [] hne hw rfl
    rw [hfront] at hmem
    rcases Layout.mem_front hmem with hdigit | ⟨rfl, hgroups⟩
    · exact .inl hdigit
    · exact .inr (hmark hgroups)
  unfold display at hch
  cases hpoint : c.decimal.mark? with
  | none =>
    rw [hpoint] at hch
    rcases List.mem_append.mp hch with hch | hch
    · exact .inl (hsign _ hch)
    · exact .inr ((hgroup hch).imp_right .inl)
  | some point =>
    rw [hpoint] at hch
    rcases List.mem_append.mp hch with hch | hch
    · rcases List.mem_append.mp hch with hch | hch
      · exact .inl (hsign _ hch)
      · exact .inr ((hgroup hch).imp_right .inl)
    · rcases Layout.mem_pointed hch with ⟨rfl, -⟩ | hch
      · exact .inr (.inr (.inr rfl))
      · exact .inr (.inl (isDigits_iff.mp hf ch hch))

section Filter

variable {c : Separators}

theorem filter_isMark_eq_self {s : List Char} (h : ∀ ch ∈ s, c.thousand.mark? ≠ some ch) :
    s.filter (!c.thousand.isMark ·) = s :=
  List.filter_eq_self.mpr fun ch hch => by simpa [Separator.isMark] using h ch hch

theorem mark?_ne_of_isDigits {s : List Char} (hs : isDigits s) :
    ∀ ch ∈ s, c.thousand.mark? ≠ some ch := by
  intro ch hch hm
  have hd := isDigits_iff.mp hs ch hch
  simp [Separator.isDigit_of_mark? hm] at hd

theorem filter_isMark_joined {mark : Char} {gs : List (List Char)}
    (hm : gs ≠ [] → c.thousand.mark? = some mark) (hd : ∀ g ∈ gs, isDigits g) :
    (Layout.joined mark gs).filter (!c.thousand.isMark ·) = gs.flatten := by
  induction gs with
  | nil => rfl
  | cons g gs ih =>
    have hmark : c.thousand.isMark mark := by simp [Separator.isMark, hm (by simp)]
    have ht := ih (fun _ => hm (by simp)) fun g' hg' => hd g' (by simp [hg'])
    rw [Layout.joined_cons, List.cons_append, List.filter_cons_of_neg (by simp [hmark]),
      List.filter_append, filter_isMark_eq_self (mark?_ne_of_isDigits (hd g (by simp))), ht,
      List.flatten_cons]

theorem filter_isMark_text {mark point : Char} {l : Layout} (hc : c.ambiguous = false)
    (h : l.Fits c mark point) :
    (l.text mark point).filter (!c.thousand.isMark ·) =
      sign l.negative ++ l.whole ++ pointed point l.fraction := by
  have hsign : ∀ ch ∈ sign l.negative, c.thousand.mark? ≠ some ch := fun ch hch hm =>
    Separator.ne_minus_of_mark? hm (eq_minus_of_mem_sign hch)
  have hpointed : ∀ ch ∈ pointed point l.fraction, c.thousand.mark? ≠ some ch := by
    intro ch hch
    rcases Layout.mem_pointed hch with ⟨rfl, hf⟩ | hch
    · exact fun hm => Separators.mark?_ne_of_not_ambiguous hc hm (h.decimal hf) rfl
    · exact mark?_ne_of_isDigits l.fraction_digits ch hch
  rw [Layout.text, Layout.body, Layout.front, List.filter_append, List.filter_append,
    List.filter_append, filter_isMark_eq_self hsign,
    filter_isMark_eq_self (mark?_ne_of_isDigits l.first_digits),
    filter_isMark_joined h.thousand l.groups_digits, filter_isMark_eq_self hpointed, Layout.whole]
  simp

end Filter

/-- The numeral that is shown of a value: its plain form or, where no decimal mark is in use, what
is shown without its thousand marks. -/
def shownNumeral (c : Separators) (x : Float) : List Char :=
  if c.decimal = .disabled then (display c x).filter (!c.thousand.isMark ·) else plain x

/-- **What is shown of a finite value is laid out in the convention**, and stands for the numeral
that is shown. -/
theorem exists_display_eq_text {c : Separators} (hc : c.ambiguous = false) {x : Float}
    (hx : x.isFinite) :
    ∃ (l : Layout) (mark point : Char), l.Fits c mark point ∧ display c x = l.text mark point ∧
      l.numeral.text = shownNumeral c x := by
  obtain ⟨hne, hw, hf⟩ := digits_ofFloat hx
  cases hd : c.decimal.mark? with
  | none =>
    have hdis : c.decimal = .disabled := Separator.mark?_eq_none_iff.mp hd
    obtain ⟨l, mark, hl, hm, hgroup⟩ := exists_group_eq_front c
      (Binary64.isNegative x && !(⟨(Digits.ofFloat x).whole, []⟩ : Digits).isZero)
      _ [] hne hw rfl
    have hneg := congrArg Numeral.negative hl
    have hwhole := congrArg Numeral.whole hl
    have hfrac := congrArg Numeral.fraction hl
    simp only [Layout.numeral] at hneg hwhole hfrac
    have hfits : l.Fits c mark '.' := ⟨hm, fun h => absurd hfrac h⟩
    have htext : display c x = l.text mark '.' := by
      simp [display, hd, hgroup, Layout.text, Layout.body, hneg, hfrac, pointed, Digits.sign]
    refine ⟨l, mark, '.', hfits, htext, ?_⟩
    rw [shownNumeral, if_pos hdis, htext, filter_isMark_text hc hfits]
    rfl
  | some point =>
    have hdis : c.decimal ≠ .disabled := fun h => by simp [h, Separator.mark?] at hd
    obtain ⟨l, mark, hl, hm, hgroup⟩ := exists_group_eq_front c
      (Binary64.isNegative x && !(Digits.ofFloat x).isZero) _ _ hne hw hf
    have hneg := congrArg Numeral.negative hl
    have hwhole := congrArg Numeral.whole hl
    have hfrac := congrArg Numeral.fraction hl
    simp only [Layout.numeral] at hneg hwhole hfrac
    have htext : display c x = l.text mark point := by
      simp [display, hd, hgroup, Layout.text, Layout.body, hneg, hfrac, Digits.sign]
    refine ⟨l, mark, point, ⟨hm, fun _ => hd⟩, htext, ?_⟩
    rw [shownNumeral, if_neg hdis, hl]
    simp [Numeral.text, plain, Digits.sign]

end Reckoner
