import Reckoner.Toml.Scalar

/-! # Tables

A document is a table of values under keys. Tables come to be in four ways, and `Origin` keeps
which, for it decides how they may grow: a table in braces never does; the others do under headers
below them, but each has one header only. A dotted key adds a value only to a table that dotted keys
have made. On its way it may also pass tables that headers have implied, and the last of the tables
that share a header. -/

namespace Reckoner.Toml

/-- How a table came to be. -/
inductive Origin where
  /-- It has a header of its own, or is the document. -/
  | header
  /-- It was named on the way to a header below it. -/
  | implied
  /-- It was named in front of a dot of a key. -/
  | dotted
  /-- It was written in braces. -/
  | braces
  deriving DecidableEq

/-- A value of a document. -/
inductive Value where
  | scalar (v : Scalar)
  | array (items : List Value)
  | table (origin : Origin) (members : List (List Char × Value))
  /-- Tables that share a header in double brackets. -/
  | tables (items : List (List (List Char × Value)))

/-- The values of a table under their keys. -/
abbrev Members := List (List Char × Value)

namespace Members

/-- The value under a key. -/
def find? (key : List Char) (t : Members) : Option Value := t.lookup key

/-- The table with another value under a key. -/
def replace (key : List Char) (v : Value) (t : Members) : Members :=
  if (t.find? key).isSome then t.map fun (k, w) => if k = key then (k, v) else (k, w)
  else t ++ [(key, v)]

/-- Adds a value under a new key. -/
def insertNew? (key : List Char) (v : Value) (t : Members) : Option Members :=
  if (t.find? key).isSome then none else some (t.replace key v)

/-! ### Dotted keys -/

/-- Adds a value under a dotted key. Tables on the way are made where missing. -/
def insertDotted? (v : Value) : (path : List (List Char)) → Members → Option Members
  | [], _ => none
  | [key], t => t.insertNew? key v
  | key :: path, t =>
    match t.find? key with
    | none => (insertDotted? v path []).map fun inner => t.replace key (.table .dotted inner)
    | some (.table .dotted inner) =>
      (insertDotted? v path inner).map fun inner => t.replace key (.table .dotted inner)
    | some (.table .implied inner) =>
      if path.length = 1 then none
      else (insertDotted? v path inner).map fun inner => t.replace key (.table .implied inner)
    | some (.tables items) =>
      if path.length = 1 then none
      else
        match items.getLast? with
        | none => none
        | some last =>
          (insertDotted? v path last).map fun inner =>
            t.replace key (.tables (items.dropLast ++ [inner]))
    | some _ => none

/-! ### Headers -/

/-- Changes the table at the end of a header's path; `none` stands for a table that is not there.
Tables on the way are made where missing, and of tables that share a header the last is meant. -/
def atPath? (change : Option Value → Option Value) : (path : List (List Char)) → Members →
    Option Members
  | [], _ => none
  | [key], t => (change (t.find? key)).map fun v => t.replace key v
  | key :: path, t =>
    match t.find? key with
    | none => (atPath? change path []).map fun inner => t.replace key (.table .implied inner)
    | some (.table .braces _) => none
    | some (.table origin inner) =>
      (atPath? change path inner).map fun inner => t.replace key (.table origin inner)
    | some (.tables items) =>
      match items.getLast? with
      | none => none
      | some last =>
        (atPath? change path last).map fun inner =>
          t.replace key (.tables (items.dropLast ++ [inner]))
    | some _ => none

/-- Opens a table by its header. -/
def openTable : Option Value → Option Value
  | none => some (.table .header [])
  | some (.table .implied inner) => some (.table .header inner)
  | some _ => none

/-- Opens one more of the tables that share a header. -/
def openNext : Option Value → Option Value
  | none => some (.tables [[]])
  | some (.tables items) => some (.tables (items ++ [[]]))
  | some _ => none

/-- Changes the members of the table that a header has opened. -/
def inOpen (change : Members → Option Members) : Option Value → Option Value
  | some (.table origin inner) => (change inner).map (.table origin)
  | some (.tables items) =>
    items.getLast?.bind fun last =>
      (change last).map fun inner => .tables (items.dropLast ++ [inner])
  | _ => none

end Members

/-! ### Documents -/

/-- A line of a document that says something. -/
inductive Statement where
  | header (path : List (List Char))
  | sharedHeader (path : List (List Char))
  | assignment (path : List (List Char)) (v : Value)

/-- A document in the making: its table, and the path of the header in force. -/
structure Draft where
  members : Members := []
  path : List (List Char) := []

/-- Takes in a statement, or refuses one that defines a thing twice. -/
def Draft.add? (d : Draft) : Statement → Option Draft
  | .header path => (Members.atPath? Members.openTable path d.members).map (⟨·, path⟩)
  | .sharedHeader path => (Members.atPath? Members.openNext path d.members).map (⟨·, path⟩)
  | .assignment key v =>
    let change := Members.insertDotted? v key
    let members :=
      if d.path = [] then change d.members
      else Members.atPath? (Members.inOpen change) d.path d.members
    members.map (⟨·, d.path⟩)

/-- The table that statements define. -/
def Members.ofStatements? (statements : List Statement) : Option Members :=
  (statements.foldlM Draft.add? {}).map Draft.members

end Reckoner.Toml
