import Reckoner.Operator
import Reckoner.Reading

/-! # Expressions

An expression is a chain of operands with an operator between every two neighbours, so it holds one
operator fewer than operands by construction. It is empty, or a first operand and links, each an
operator with the operand behind it. `operands` and `operators` are its two lists, `items` the
operands with the operator behind each. -/

namespace Reckoner

/-- A number of an expression, with the token it was read from, if any. -/
structure Operand where
  value : Float
  source : Option (List Char) := none

/-- The operand that a reading gives. -/
def Reading.operand (r : Reading) : Operand := ⟨r.value, some r.source⟩

/-- An operator and the operand behind it. -/
structure Link where
  operator : Operator
  operand : Operand

/-- An operand and the operator behind it; the last operand of an expression has none. -/
structure Item where
  operand : Operand
  next : Option Operator

/-- Operands joined by operators, to be worked out from left to right. -/
inductive Expression where
  | empty
  | chain (first : Operand) (links : List Link)

namespace Expression

/-! ### Views -/

/-- The operands in order. -/
def operands : Expression → List Operand
  | empty => []
  | chain first links => first :: links.map Link.operand

/-- The operators in order. -/
def operators : Expression → List Operator
  | empty => []
  | chain _ links => links.map Link.operator

/-- The values in order. -/
def values (e : Expression) : List Float := e.operands.map Operand.value

/-- The operands of a chain, each with the operator behind it. -/
def itemsFrom (first : Operand) : List Link → List Item
  | [] => [⟨first, none⟩]
  | l :: links => ⟨first, some l.operator⟩ :: itemsFrom l.operand links

/-- The operands in order, each with the operator behind it. -/
def items : Expression → List Item
  | empty => []
  | chain first links => itemsFrom first links

/-- The number of operands. -/
def length (e : Expression) : Nat := e.operands.length

/-- Whether there is no operand. -/
def isEmpty : Expression → Bool
  | empty => true
  | chain .. => false

/-! ### Operations -/

/-- Joins operands by additions. -/
def sum : List Operand → Expression
  | [] => empty
  | x :: xs => chain x (xs.map (Link.mk .add))

/-- Adds operands at the end, each by an addition. -/
def append : Expression → List Operand → Expression
  | empty, xs => sum xs
  | chain first links, xs => chain first (links ++ xs.map (Link.mk .add))

/-- Changes the operator behind the operand at `index`. -/
def setOperator (index : Nat) (op : Operator) (e : Expression) : Except Fault Expression :=
  let slots := e.operators.length
  match e with
  | empty => .error (.outOfRange index slots)
  | chain first links =>
    if index < slots then
      .ok (chain first (links.modify index fun l => { l with operator := op }))
    else .error (.outOfRange index slots)

/-- Sets all operators, taking them from `op :: ops` over and over. -/
def cycleOperators (op : Operator) (ops : List Operator) : Expression → Expression
  | empty => empty
  | chain first links =>
    chain first (links.mapIdx fun i l =>
      { l with operator := (op :: ops).getD (i % (ops.length + 1)) op })

/-- Changes the value of the operand at `index`; its source and its operators stay. -/
def setValue (index : Nat) (value : Float) (e : Expression) : Except Fault Expression :=
  match e, index with
  | chain first links, 0 => .ok (chain { first with value } links)
  | chain first links, i + 1 =>
    if i < links.length then
      .ok (chain first (links.modify i fun l => { l with operand := { l.operand with value } }))
    else .error (.outOfRange index e.length)
  | empty, _ => .error (.outOfRange index e.length)

/-- Removes the operand at `index` and the operator in front of it, of the first operand the one
behind it. Gives the item as it was and the expression without it. -/
def deleteAt (index : Nat) (e : Expression) : Except Fault (Item × Expression) :=
  match e, index with
  | chain first [], 0 => .ok (⟨first, none⟩, empty)
  | chain first (l :: links), 0 => .ok (⟨first, some l.operator⟩, chain l.operand links)
  | chain first links, i + 1 =>
    match links[i]? with
    | some l => .ok (⟨l.operand, links[i + 1]?.map Link.operator⟩, chain first (links.eraseIdx i))
    | none => .error (.outOfRange index e.length)
  | empty, _ => .error (.outOfRange index e.length)

/-! ### Laws of the views -/

theorem length_operators (e : Expression) : e.operators.length = e.length - 1 := by
  cases e <;> simp [operators, length, operands]

theorem operands_append (e : Expression) (xs : List Operand) :
    (e.append xs).operands = e.operands ++ xs := by
  cases e with
  | empty => cases xs <;> simp [append, sum, operands, Function.comp_def]
  | chain => simp [append, operands, Function.comp_def]

theorem map_operand_itemsFrom (first : Operand) (links : List Link) :
    (itemsFrom first links).map Item.operand = first :: links.map Link.operand := by
  induction links generalizing first with
  | nil => rfl
  | cons l links ih => simp [itemsFrom, ih]

theorem map_operand_items (e : Expression) : e.items.map Item.operand = e.operands := by
  cases e with
  | empty => rfl
  | chain first links => exact map_operand_itemsFrom first links

theorem filterMap_next_itemsFrom (first : Operand) (links : List Link) :
    (itemsFrom first links).filterMap Item.next = links.map Link.operator := by
  induction links generalizing first with
  | nil => rfl
  | cons l links ih => simp [itemsFrom, ih]

theorem filterMap_next_items (e : Expression) : e.items.filterMap Item.next = e.operators := by
  cases e with
  | empty => rfl
  | chain first links => exact filterMap_next_itemsFrom first links

theorem append_nil (e : Expression) : e.append [] = e := by
  cases e <;> simp [append, sum]

theorem append_append (e : Expression) (xs ys : List Operand) :
    (e.append xs).append ys = e.append (xs ++ ys) := by
  cases e with
  | empty => cases xs <;> simp [append, sum]
  | chain => simp [append]

end Expression

/-- Values with the operators between them in writing, blanks around every operator. -/
def chainText (write : Float → List Char) : List Float → List Operator → List Char
  | [], _ => []
  | [x], _ => write x
  | x :: _, [] => write x
  | x :: y :: xs, op :: ops => write x ++ [' ', op.symbol, ' '] ++ chainText write (y :: xs) ops

end Reckoner
