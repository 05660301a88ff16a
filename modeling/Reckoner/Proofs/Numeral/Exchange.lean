import Mathlib.Logic.Equiv.Basic
import Reckoner.Proofs.Numeral.Convention

/-! # Comma and period exchanged

Nothing tells a comma from a period but the slots of the convention. If the two symbols are
exchanged in a text and in both slots, every way of reading gives what it gave before: in the
convention, because a layout with exchanged marks fits the exchanged convention; with the marks
taken out, because both are; and by the marks, because they are only counted against each other and
compared with the decimal mark.

* `ofConvention?_exchanged`, `ofDigits?_exchanged`, `ofMarks?_exchanged`: the three ways to read a
  text.
* `resolve_exchanged`: the reading of a token. -/

namespace Reckoner

/-- The period for the comma and the comma for the period. -/
def exchange : Equiv.Perm Char := Equiv.swap ',' '.'

/-- The slot with the other one of the two symbols in it. -/
def Separator.exchanged : Separator → Separator
  | comma => period
  | period => comma
  | space => space
  | disabled => disabled

/-- The convention with the two symbols exchanged in both slots. -/
def Separators.exchanged (c : Separators) : Separators :=
  ⟨c.thousand.exchanged, c.decimal.exchanged⟩

/-! ### Characters and slots -/

theorem exchange_exchange (ch : Char) : exchange (exchange ch) = ch :=
  Equiv.congr_fun (Equiv.swap_swap ',' '.') ch

theorem apply_exchange {α : Type} (f : Char → α) (h : f ',' = f '.') (ch : Char) :
    f (exchange ch) = f ch := by
  unfold exchange
  rw [Equiv.swap_apply_def]
  split_ifs with hcomma hperiod
  · rw [hcomma, h]
  · rw [hperiod, h]
  · rfl

theorem exchange_eq_self {ch : Char} (h : isPointOrComma ch = false) : exchange ch = ch := by
  refine Equiv.swap_apply_of_ne_of_ne ?_ ?_ <;> rintro rfl <;> exact absurd h (by decide)

theorem map_exchange_eq_self {s : List Char} (h : ∀ ch ∈ s, isPointOrComma ch = false) :
    s.map exchange = s := by
  refine (List.map_congr_left fun ch hch => ?_).trans (List.map_id s)
  exact exchange_eq_self (h ch hch)

theorem map_exchange_of_isDigits {s : List Char} (h : isDigits s) : s.map exchange = s :=
  map_exchange_eq_self fun ch hch => not_isPointOrComma_of_isDigit (isDigits_iff.mp h ch hch)

namespace Separator

theorem exchanged_exchanged (s : Separator) : s.exchanged.exchanged = s := by
  cases s <;> rfl

theorem mark?_exchanged (s : Separator) : s.exchanged.mark? = s.mark?.map exchange := by
  cases s <;> decide

theorem isMark_exchanged (s : Separator) (ch : Char) :
    s.exchanged.isMark (exchange ch) = s.isMark ch := by
  rw [Bool.eq_iff_iff, isMark, isMark, beq_iff_eq, beq_iff_eq, mark?_exchanged]
  exact (Option.map_injective exchange.injective).eq_iff (b := some ch)

theorem exchanged_eq_disabled_iff {s : Separator} : s.exchanged = disabled ↔ s = disabled := by
  cases s <;> decide

end Separator

namespace Separators

theorem exchanged_exchanged (c : Separators) : c.exchanged.exchanged = c := by
  rw [exchanged, exchanged, Separator.exchanged_exchanged, Separator.exchanged_exchanged]

theorem ambiguous_exchanged (c : Separators) : c.exchanged.ambiguous = c.ambiguous := by
  obtain ⟨t, d⟩ := c
  cases t <;> cases d <;> rfl

end Separators

theorem trim_map_exchange (s : List Char) :
    Text.trim (s.map exchange) = (Text.trim s).map exchange := by
  have hblank : Text.isBlank ∘ exchange = Text.isBlank := funext (apply_exchange Text.isBlank rfl)
  rw [Text.trim, Text.trimStart, List.dropWhile_map, hblank, Text.trimEnd, ← List.map_reverse,
    List.dropWhile_map, hblank, ← List.map_reverse, Text.trim, Text.trimEnd, Text.trimStart]

namespace Numeral

/-! ### In the convention -/

namespace Layout

variable {c : Separators} {mark point : Char} {l : Layout}

theorem map_exchange_text (mark point : Char) (l : Layout) :
    (l.text mark point).map exchange = l.text (exchange mark) (exchange point) := by
  have hjoined : ∀ gs : List (List Char), (∀ g ∈ gs, isDigits g) →
      (joined mark gs).map exchange = joined (exchange mark) gs := by
    intro gs hgs
    induction gs with
    | nil => rfl
    | cons g gs ih =>
      obtain ⟨hg, hgs⟩ := List.forall_mem_cons.mp hgs
      rw [joined_cons, joined_cons, List.map_append, List.map_cons, map_exchange_of_isDigits hg,
        ih hgs]
  have hpointed : (pointed point l.fraction).map exchange =
      pointed (exchange point) l.fraction := by
    unfold pointed
    split_ifs with hnil
    · rfl
    · rw [List.map_cons, map_exchange_of_isDigits l.fraction_digits]
  have hsign : (sign l.negative).map exchange = sign l.negative := by
    refine map_exchange_eq_self fun ch hch => ?_
    rw [eq_minus_of_mem_sign hch]
    rfl
  rw [text, body, front, List.map_append, List.map_append, List.map_append, hsign,
    map_exchange_of_isDigits l.first_digits, hjoined l.groups l.groups_digits, hpointed]
  rfl

theorem Fits.exchanged (h : l.Fits c mark point) :
    l.Fits c.exchanged (exchange mark) (exchange point) where
  thousand hg := by rw [Separators.exchanged, Separator.mark?_exchanged, h.thousand hg]; rfl
  decimal hf := by rw [Separators.exchanged, Separator.mark?_exchanged, h.decimal hf]; rfl

end Layout

theorem ofConvention?_exchanged_of_eq_some {c : Separators} {s : List Char} {n : Numeral}
    (h : ofConvention? c s = some n) : ofConvention? c.exchanged (s.map exchange) = some n := by
  obtain ⟨hc, l, mark, point, hfits, rfl, rfl⟩ := exists_layout_of_ofConvention? h
  rw [Layout.map_exchange_text]
  exact Layout.ofConvention?_text ((Separators.ambiguous_exchanged c).trans hc) hfits.exchanged

/-- **A text is read in a convention as the exchanged text is in the exchanged one.** -/
theorem ofConvention?_exchanged (c : Separators) (s : List Char) :
    ofConvention? c.exchanged (s.map exchange) = ofConvention? c s := by
  refine Option.ext fun n => ⟨fun h => ?_, ofConvention?_exchanged_of_eq_some⟩
  have hback := ofConvention?_exchanged_of_eq_some h
  rwa [Separators.exchanged_exchanged, List.map_map, show exchange ∘ exchange = id from
    funext exchange_exchange, List.map_id] at hback

/-! ### With the marks taken out -/

theorem isGrouping_exchanged (c : Separators) (ch : Char) :
    isGrouping c.exchanged (exchange ch) = isGrouping c ch := by
  rw [isGrouping, isGrouping, apply_exchange isPointOrComma rfl]
  exact congrArg _ (Separator.isMark_exchanged c.thousand ch)

theorem ofDigits?_exchanged (c : Separators) (s : List Char) :
    ofDigits? c.exchanged (s.map exchange) = ofDigits? c s := by
  have hfilter : (s.map exchange).filter (!isGrouping c.exchanged ·) =
      s.filter (!isGrouping c ·) := by
    have hgrouping : (!isGrouping c.exchanged ·) ∘ exchange = (!isGrouping c ·) :=
      funext fun ch => congrArg _ (isGrouping_exchanged c ch)
    rw [List.filter_map, hgrouping]
    refine map_exchange_eq_self fun ch hch => ?_
    -- what is left has none of the two symbols
    have hkept := (List.mem_filter.mp hch).2
    rw [isGrouping, Bool.not_or, Bool.and_eq_true, Bool.not_eq_true'] at hkept
    exact hkept.1
  rw [ofDigits?, hfilter, ofDigits?]

/-! ### By the marks -/

theorem opensFraction_exchanged (c : Separators) (marks : List Char) (trailing : Nat) :
    opensFraction c.exchanged (marks.map exchange) trailing = opensFraction c marks trailing := by
  have hcount : ∀ ch, (marks.map exchange).count (exchange ch) = marks.count ch :=
    List.count_map_of_injective marks exchange exchange.injective
  have hcomma : (marks.map exchange).count ',' = marks.count '.' := hcount '.'
  have hperiod : (marks.map exchange).count '.' = marks.count ',' := hcount ','
  rw [opensFraction, opensFraction, List.getLast?_map]
  cases marks.getLast? with
  | none => rfl
  | some last =>
    dsimp only [Option.map_some]
    have hmark : c.exchanged.decimal.isMark (exchange last) = c.decimal.isMark last :=
      Separator.isMark_exchanged c.decimal last
    simp only [List.length_map, hcount, hcomma, hperiod, hmark, eq_comm (a := marks.count '.')]

theorem takeSign_map_exchange (s : List Char) :
    takeSign (s.map exchange) = ((takeSign s).1, (takeSign s).2.map exchange) := by
  cases s with
  | nil => rfl
  | cons ch s =>
    by_cases hminus : ch = '-'
    · rw [hminus]
      rfl
    · have hunsigned : ∀ {ch' : Char} (s' : List Char), ch' ≠ '-' →
          takeSign (ch' :: s') = (false, ch' :: s') :=
        fun s' hne => takeSign_sign_append false (by simpa using hne)
      have hexchanged : exchange ch ≠ '-' := fun h => hminus (exchange.injective (h.trans rfl))
      rw [List.map_cons, hunsigned _ hexchanged, hunsigned _ hminus]
      rfl

theorem isDigit_comp_exchange : Char.isDigit ∘ exchange = Char.isDigit :=
  funext (apply_exchange Char.isDigit rfl)

theorem filter_isDigit_map_exchange (s : List Char) :
    (s.map exchange).filter Char.isDigit = s.filter Char.isDigit := by
  rw [List.filter_map, isDigit_comp_exchange]
  exact map_exchange_of_isDigits (isDigits_filter s)

theorem trailingDigits_map_exchange (s : List Char) :
    trailingDigits (s.map exchange) = trailingDigits s := by
  rw [trailingDigits, ← List.map_reverse, List.takeWhile_map, isDigit_comp_exchange,
    ← List.map_reverse]
  exact map_exchange_of_isDigits (isDigits_trailingDigits s)

theorem beforeTrailing_map_exchange (s : List Char) :
    beforeTrailing (s.map exchange) = (beforeTrailing s).map exchange := by
  rw [beforeTrailing, ← List.map_reverse, List.dropWhile_map, isDigit_comp_exchange,
    ← List.map_reverse, beforeTrailing]

/-- **The marks of the exchanged text tell what those of the text tell.** -/
theorem ofMarks?_exchanged (c : Separators) (s : List Char) :
    ofMarks? c.exchanged (s.map exchange) = ofMarks? c s := by
  have hall : ∀ body : List Char,
      (body.map exchange).all (fun ch => ch.isDigit || isPointOrComma ch) =
      body.all fun ch => ch.isDigit || isPointOrComma ch := by
    intro body
    have hknown := apply_exchange (fun ch => ch.isDigit || isPointOrComma ch) rfl
    rw [List.all_map]
    exact congrArg body.all (funext hknown)
  have hmarks : ∀ body : List Char, (body.map exchange).filter isPointOrComma =
      (body.filter isPointOrComma).map exchange := by
    intro body
    rw [List.filter_map, show isPointOrComma ∘ exchange = isPointOrComma from
      funext (apply_exchange isPointOrComma rfl)]
  rw [ofMarks?, takeSign_map_exchange, ofMarks?]
  dsimp only
  rw [hall, hmarks, trailingDigits_map_exchange, opensFraction_exchanged,
    beforeTrailing_map_exchange, filter_isDigit_map_exchange, filter_isDigit_map_exchange]

/-- **Comma and period play the same part.** -/
theorem resolve_exchanged (c : Separators) (t : List Char) :
    resolve c.exchanged (t.map exchange) = resolve c t := by
  have hdisabled : c.exchanged.decimal = .disabled ↔ c.decimal = .disabled :=
    Separator.exchanged_eq_disabled_iff
  rw [resolve, resolve, trim_map_exchange, ofConvention?_exchanged, ofDigits?_exchanged,
    ofMarks?_exchanged]
  simp only [hdisabled]

end Numeral

end Reckoner
