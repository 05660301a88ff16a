/-! # Numerals

A numeral is a decimal number in plain notation: a sign, at least one digit, and the digits of a
fraction, if any. `text` writes it with a period in front of the fraction; `make?` builds one from
pieces of text and refuses what is no digit. -/

namespace Reckoner

/-- Whether the text holds digits only. -/
def isDigits (s : List Char) : Bool := s.all Char.isDigit

theorem isDigits_iff {s : List Char} : isDigits s ↔ ∀ c ∈ s, c.isDigit := by simp [isDigits]

theorem isDigits_nil : isDigits [] := rfl

theorem isDigits_eq_false {s : List Char} {c : Char} (hc : c ∈ s) (h : c.isDigit = false) :
    isDigits s = false := by
  rw [Bool.eq_false_iff]
  intro hs
  rw [isDigits_iff.mp hs c hc] at h
  exact absurd h (by decide)

theorem isDigits_cons {c : Char} {s : List Char} : isDigits (c :: s) ↔ c.isDigit ∧ isDigits s := by
  simp [isDigits]

theorem isDigits_replicate_zero (n : Nat) : isDigits (List.replicate n '0') := by
  simp [isDigits]

theorem isDigits_append {s t : List Char} : isDigits (s ++ t) ↔ isDigits s ∧ isDigits t := by
  simp [isDigits]

theorem isDigits_filter (s : List Char) : isDigits (s.filter Char.isDigit) := by
  simp [isDigits]

theorem isDigits_flatten {gs : List (List Char)} (h : ∀ g ∈ gs, isDigits g) :
    isDigits gs.flatten := by
  rw [isDigits_iff]
  intro c hc
  obtain ⟨g, hg, hcg⟩ := List.mem_flatten.mp hc
  exact isDigits_iff.mp (h g hg) c hcg

/-- A decimal number in plain notation, leading zeros included. -/
structure Numeral where
  negative : Bool
  /-- The digits in front of the point. -/
  whole : List Char
  /-- The digits after the point; no point is written where there are none. -/
  fraction : List Char
  whole_ne_nil : whole ≠ []
  whole_digits : isDigits whole
  fraction_digits : isDigits fraction
  deriving DecidableEq

namespace Numeral

/-- The numeral of these digits, unless there is none in front of the point or one is no digit. -/
def make? (negative : Bool) (whole fraction : List Char) : Option Numeral :=
  if h : whole ≠ [] ∧ isDigits whole ∧ isDigits fraction then
    some ⟨negative, whole, fraction, h.1, h.2.1, h.2.2⟩
  else none

/-- The minus of a negative numeral. -/
def sign (negative : Bool) : List Char := if negative then ['-'] else []

/-- The digits of a fraction behind their point, if there are any. -/
def pointed (point : Char) (fraction : List Char) : List Char :=
  if fraction = [] then [] else point :: fraction

/-- The numeral in writing: sign, digits and, where there is a fraction, a period and its digits. -/
def text (n : Numeral) : List Char := sign n.negative ++ n.whole ++ pointed '.' n.fraction

/-- Whether a minus is at the front, and what is left without it. -/
def takeSign : List Char → Bool × List Char
  | '-' :: s => (true, s)
  | s => (false, s)

theorem make?_eq_some_iff {negative : Bool} {whole fraction : List Char} {n : Numeral} :
    make? negative whole fraction = some n ↔
      n.negative = negative ∧ n.whole = whole ∧ n.fraction = fraction := by
  obtain ⟨ng, w, f, hw, hd, hf⟩ := n
  unfold make?
  split
  · simp only [Option.some.injEq, mk.injEq]
    constructor <;> rintro ⟨rfl, rfl, rfl⟩ <;> exact ⟨rfl, rfl, rfl⟩
  · rename_i h
    simp only [reduceCtorEq, false_iff]
    rintro ⟨rfl, rfl, rfl⟩
    exact h ⟨hw, hd, hf⟩

theorem make?_isSome {negative : Bool} {whole fraction : List Char} :
    (make? negative whole fraction).isSome ↔
      whole ≠ [] ∧ isDigits whole ∧ isDigits fraction := by
  unfold make?; split <;> simp_all

theorem takeSign_sign_append (negative : Bool) {s : List Char} (h : s.head? ≠ some '-') :
    takeSign (sign negative ++ s) = (negative, s) := by
  cases negative
  · cases s with
    | nil => rfl
    | cons c s =>
      have hc : c ≠ '-' := by simpa using h
      simp only [sign, Bool.false_eq_true, if_false, List.nil_append]
      unfold takeSign
      split
      · rename_i heq; exact absurd (List.cons.inj heq).1 hc
      · rfl
  · rfl

theorem eq_minus_of_mem_sign {negative : Bool} {c : Char} (h : c ∈ sign negative) : c = '-' := by
  cases negative with
  | false => exact absurd h List.not_mem_nil
  | true => exact List.mem_singleton.mp h

theorem sign_takeSign (s : List Char) : sign (takeSign s).1 ++ (takeSign s).2 = s := by
  unfold takeSign; split <;> simp [sign]

end Numeral

end Reckoner
