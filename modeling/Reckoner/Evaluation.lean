import Reckoner.Expression

/-! # Evaluation

An expression is worked out from left to right, without precedence: `100 + 50 × 2` is `300`. A step
fails on a zero divisor, and otherwise if it leaves the finite values; the first step that fails
decides. A single number is its own result. -/

namespace Reckoner

/-- A completed evaluation: the numbers and operators used, and what came out. -/
structure Evaluation where
  numbers : List Float
  operators : List Operator
  result : Float

namespace Expression

/-- Works in one more operand, which stands at `position`. -/
def stepValue (position : Nat) (acc : Float) (op : Operator) (x : Float) : Except Fault Float :=
  if op = .divide && x == 0 then .error (.divisionByZero position)
  else if (op.apply acc x).isFinite then .ok (op.apply acc x)
  else .error .notFinite

/-- Works in the operands of links, the first of which stands at `position`. -/
def foldLinks (position : Nat) (acc : Float) : List Link → Except Fault Float
  | [] => .ok acc
  | l :: links =>
    match stepValue position acc l.operator l.operand.value with
    | .error fault => .error fault
    | .ok acc => foldLinks (position + 1) acc links

/-- Works out an expression; an empty one has no evaluation. -/
def evaluate (e : Expression) : Except Fault (Option Evaluation) :=
  match e with
  | empty => .ok none
  | chain first links =>
    match foldLinks 1 first.value links with
    | .error fault => .error fault
    | .ok result => .ok (some ⟨e.values, e.operators, result⟩)

theorem evaluate_eq_ok_none_iff {e : Expression} : e.evaluate = .ok none ↔ e = empty := by
  cases e with
  | empty => simp [evaluate]
  | chain first links =>
    simp only [evaluate, reduceCtorEq, iff_false]
    split <;> simp

/-- The operands are worked in one after another, those of a second part from where the first has
led. -/
theorem foldLinks_append (position : Nat) (acc : Float) (ls ms : List Link) :
    foldLinks position acc (ls ++ ms) =
      match foldLinks position acc ls with
      | .error fault => .error fault
      | .ok r => foldLinks (position + ls.length) r ms := by
  induction ls generalizing position acc with
  | nil => rfl
  | cons l ls ih =>
    simp only [List.cons_append, foldLinks]
    cases stepValue position acc l.operator l.operand.value with
    | error fault => rfl
    | ok r => simp [ih, Nat.add_comm, Nat.add_left_comm]

end Expression

end Reckoner
