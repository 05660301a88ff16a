import Reckoner.Text.Blank

/-! # Operators

The four operators that join two neighbouring numbers, the symbols they are shown with and the
symbols they may be typed with. -/

namespace Reckoner

/-- An operator between two numbers. -/
inductive Operator where
  | add
  | subtract
  | multiply
  | divide
  deriving DecidableEq, Repr

namespace Operator

/-- The symbol an operator is shown with. -/
def symbol : Operator → Char
  | add => '+'
  | subtract => '-'
  | multiply => '×'
  | divide => '÷'

/-- The operator's name in structured output. -/
def title : Operator → String
  | add => "Add"
  | subtract => "Subtract"
  | multiply => "Multiply"
  | divide => "Divide"

/-- The operator a single character stands for. -/
def ofChar? : Char → Option Operator
  | '+' => some add
  | '-' | '−' => some subtract
  | '*' | 'x' | '×' => some multiply
  | '/' | '÷' => some divide
  | _ => none

/-- The operator typed text stands for, blanks around it aside. -/
def ofText? (s : List Char) : Option Operator :=
  match Text.trim s with
  | [c] => ofChar? c
  | _ => none

/-- Reads a row of operators, blanks between them aside; fails with the first character that is no
operator. -/
def listOfText (s : List Char) : Except Char (List Operator) :=
  (Text.compact s).mapM fun c =>
    match ofChar? c with
    | some op => .ok op
    | none => .error c

/-- Combines two values. -/
def apply : Operator → Float → Float → Float
  | add, x, y => x + y
  | subtract, x, y => x - y
  | multiply, x, y => x * y
  | divide, x, y => x / y

theorem ofChar?_symbol (op : Operator) : ofChar? op.symbol = some op := by cases op <;> rfl

end Operator

end Reckoner
