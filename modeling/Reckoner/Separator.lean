/-! # Separators

The two slots of a number convention: the mark between groups of three digits and the decimal point.
Each holds a comma, a period, a space or nothing. The slots are independent; a convention whose
slots hold the same mark is `ambiguous` and cannot tell the two roles apart. -/

namespace Reckoner

/-- What a slot of a number convention holds. -/
inductive Separator where
  | comma
  | period
  | space
  | disabled
  deriving DecidableEq, Repr

namespace Separator

/-- The mark in the slot, if there is one. -/
def mark? : Separator → Option Char
  | comma => some ','
  | period => some '.'
  | space => some ' '
  | disabled => none

/-- Whether `c` is the mark in the slot. -/
def isMark (s : Separator) (c : Char) : Bool := s.mark? == some c

/-- The slot as it is written in settings: its mark, or nothing. -/
def symbol (s : Separator) : String := String.ofList s.mark?.toList

/-- The slot that a symbol stands for. -/
def ofSymbol? : String → Option Separator
  | "," => some comma
  | "." => some period
  | " " => some space
  | "" => some disabled
  | _ => none

/-- The slot's title in replies. -/
def title : Separator → String
  | comma => "Comma"
  | period => "Period"
  | space => "Space"
  | disabled => "Disabled"

/-- The slot that a typed name stands for. -/
def ofName? : String → Option Separator
  | "comma" => some comma
  | "period" => some period
  | "space" => some space
  | "none" => some disabled
  | _ => none

theorem ofSymbol?_symbol (s : Separator) : ofSymbol? s.symbol = some s := by
  cases s <;> decide

theorem mark?_eq_none_iff {s : Separator} : s.mark? = none ↔ s = disabled := by
  cases s <;> simp [mark?]

theorem mark?_eq_some_iff {s : Separator} {m : Char} :
    s.mark? = some m ↔ (s = comma ∧ m = ',') ∨ (s = period ∧ m = '.') ∨ (s = space ∧ m = ' ') := by
  cases s <;> simp [mark?, eq_comm]

theorem mark?_inj {s t : Separator} {m : Char} (hs : s.mark? = some m) (ht : t.mark? = some m) :
    s = t := by
  have h : s.mark? = t.mark? := hs.trans ht.symm
  revert h
  cases s <;> cases t <;> decide

theorem isDigit_of_mark? {s : Separator} {m : Char} (h : s.mark? = some m) : m.isDigit = false := by
  rcases mark?_eq_some_iff.mp h with ⟨-, rfl⟩ | ⟨-, rfl⟩ | ⟨-, rfl⟩ <;> rfl

theorem ne_minus_of_mark? {s : Separator} {m : Char} (h : s.mark? = some m) : m ≠ '-' := by
  rcases mark?_eq_some_iff.mp h with ⟨-, rfl⟩ | ⟨-, rfl⟩ | ⟨-, rfl⟩ <;> decide

theorem isMark_eq_false_of_isDigit (s : Separator) {c : Char} (h : c.isDigit) :
    s.isMark c = false := by
  rw [isMark, beq_eq_false_iff_ne]
  intro hm
  rw [isDigit_of_mark? hm] at h
  exact absurd h (by decide)

theorem isMark_minus (s : Separator) : s.isMark '-' = false := by
  rw [isMark, beq_eq_false_iff_ne]
  exact fun hm => ne_minus_of_mark? hm rfl

end Separator

/-- A number convention: what groups digits in threes, and what opens the fraction. -/
structure Separators where
  thousand : Separator := .comma
  decimal : Separator := .period
  deriving DecidableEq, Repr

namespace Separators

/-- The continental convention, `1.234.567,89`. -/
def continental : Separators := ⟨.period, .comma⟩

/-- Whether both slots hold the same mark. -/
def ambiguous (c : Separators) : Bool := c.decimal ≠ .disabled && c.thousand = c.decimal

theorem ambiguous_iff {c : Separators} :
    c.ambiguous = true ↔ c.thousand = c.decimal ∧ c.decimal.mark?.isSome := by
  obtain ⟨t, d⟩ := c
  cases t <;> cases d <;> decide

theorem mark?_ne_of_not_ambiguous {c : Separators} (hc : c.ambiguous = false) {m m' : Char}
    (h : c.thousand.mark? = some m) (h' : c.decimal.mark? = some m') : m ≠ m' := by
  rintro rfl
  have := ambiguous_iff.mpr ⟨Separator.mark?_inj h h', by simp [h']⟩
  simp [hc] at this

end Separators

/-- The two marks that a number may carry on the page, whatever their role. -/
def isPointOrComma (c : Char) : Bool := c == '.' || c == ','

theorem isPointOrComma_iff {c : Char} : isPointOrComma c ↔ c = '.' ∨ c = ',' := by
  simp [isPointOrComma]

theorem not_isPointOrComma_of_isDigit {c : Char} (h : c.isDigit) : isPointOrComma c = false := by
  simp only [isPointOrComma, Bool.or_eq_false_iff, beq_eq_false_iff_ne]
  constructor <;> rintro rfl <;> exact absurd h (by decide)

/-- Every mark but the space is one of the two. -/
theorem Separator.isPointOrComma_of_mark? {s : Separator} {m : Char} (h : s.mark? = some m)
    (hs : s ≠ .space) : isPointOrComma m := by
  rcases mark?_eq_some_iff.mp h with ⟨-, rfl⟩ | ⟨-, rfl⟩ | ⟨hspace, -⟩
  · rfl
  · rfl
  · exact absurd hspace hs

theorem not_isDigit_of_isPointOrComma {c : Char} (h : isPointOrComma c) : c.isDigit = false := by
  rcases isPointOrComma_iff.mp h with rfl | rfl <;> rfl

end Reckoner
