import Reckoner.History
import Reckoner.Json

/-! # Structured output

The JSON forms of a convention, of readings, of an expression and of a history, and the text of an
expression with all digits of its values. -/

namespace Reckoner

/-- The JSON form of a convention: the symbols of its two slots. -/
def Separators.json (c : Separators) : Json :=
  .object [("thousand_separator", .string c.thousand.symbol.toList),
    ("decimal_point", .string c.decimal.symbol.toList)]

/-- The JSON form of a reading. -/
def Reading.json (r : Reading) : Json :=
  .object [("value", .number r.value), ("source", .string r.source)]

/-- The JSON form of an operator. -/
def Operator.json (op : Operator) : Json := .string op.title.toList

/-- The JSON form of an item. -/
def Item.json (i : Item) : Json :=
  .object [("value", .number i.operand.value),
    ("source", (i.operand.source.map Json.string).getD .null),
    ("modifier", (i.next.map Operator.json).getD .null)]

/-- The JSON form of an expression. -/
def Expression.json (e : Expression) : Json := .object [("items", .array (e.items.map Item.json))]

/-- The JSON form of an entry. -/
def Entry.json (entry : Entry) : Json :=
  .object [("numbers", .array (entry.numbers.map Json.number)),
    ("operators", .array (entry.operators.map Operator.json)),
    ("result", .number entry.result),
    ("timestamp", .string entry.time.text)]

/-- The JSON form of a history, the oldest entry first. -/
def History.json (h : History) : Json := .array (h.entries.map Entry.json)

/-- A value with the fewest digits that read back and never an exponent. -/
def exactText (x : Float) : List Char :=
  if x.isNaN then "NaN".toList
  else
    Numeral.sign (Binary64.isNegative x) ++
      if !x.isFinite then "inf".toList
      else if Binary64.units x = 0 then ['0']
      else (Decimal.shortest .up x).positional []

/-- An expression with all digits of its values. -/
def Expression.text (e : Expression) : List Char := chainText exactText e.values e.operators

end Reckoner
