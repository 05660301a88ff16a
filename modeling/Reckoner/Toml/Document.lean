import Reckoner.Toml.Table

/-! # Reading a document

A document is a sequence of lines: headers in brackets, assignments of a value to a key, comments
and empty lines. Arrays and tables in braces may span lines, around an equals sign too, and hold
each other. They are at most `maxDepth` deep, and a key has at most that many parts. -/

namespace Reckoner.Toml

/-- How deep a key or a value may reach. -/
def maxDepth : Nat := 80

/-! ### Keys -/

/-- Whether a character may stand in a key without quotes. -/
def isKeyChar (c : Char) : Bool := c.isAlphanum || c == '-' || c == '_'

/-- A key between dots, with quotes or without. -/
def takeSimpleKey : Reader (List Char) := fun s =>
  if s.head? = some '"' ∨ s.head? = some '\x27' then takeLineString s
  else
    let key := s.takeWhile isKeyChar
    if key = [] then none else some (key, s.dropWhile isKeyChar)

/-- One further part of a dotted key. -/
def keyStep : Step (List Char) := fun s =>
  match skipSpaces s with
  | '.' :: rest => (takeSimpleKey (skipSpaces rest)).map fun (key, rest) => (some key, rest)
  | _ => some (none, s)

/-- A key of one part or several, but no more than `maxDepth`. -/
def takeKey : Reader (List (List Char)) := fun s => do
  let (first, rest) ← takeSimpleKey s
  let (others, rest) ← gather keyStep rest
  if others.length < maxDepth then some (first :: others, rest) else none

/-! ### Values -/

/-- A key, an equals sign and a value; `skip?` leaves out what may stand around the equals sign. -/
def takeAssignment (skip? : List Char → Option (List Char)) (value : Reader Value) :
    Reader (List (List Char) × Value) := fun s => do
  let (path, rest) ← takeKey s
  let rest ← expect '=' (← skip? rest)
  let (v, rest) ← value (← skip? rest)
  some ((path, v), rest)

/-- One item of a list that `close` ends, with the comma behind it; the last may go without. -/
def itemStep {α : Type} (close : Char) (item : Reader α) : Step α := fun s => do
  let s ← skipTrivia s
  match expect close s with
  | some rest => some (none, rest)
  | none =>
    let (v, rest) ← item s
    let rest ← skipTrivia rest
    match expect ',' rest with
    | some rest => some (some v, rest)
    | none => if rest.head? = some close then some (some v, rest) else none

/-- The values of an array, behind its bracket. -/
def takeArray (value : Reader Value) : Reader Value := fun s =>
  (gather (itemStep ']' value) s).map fun (items, rest) => (.array items, rest)

/-- The members of a table in braces, behind its brace. -/
def takeBraces (value : Reader Value) : Reader Value := fun s => do
  let (assignments, rest) ← gather (itemStep '\x7d' (takeAssignment skipTrivia value)) s
  let members ← assignments.foldlM (fun t (path, v) => Members.insertDotted? v path t) []
  some (.table .braces members, rest)

/-- A value in which arrays and tables are at most so deep. -/
def takeValue : (depth : Nat) → Reader Value
  | 0 => fun s => (takeScalar s).map fun (v, rest) => (.scalar v, rest)
  | depth + 1 => fun s =>
    match s with
    | '[' :: rest => takeArray (takeValue depth) rest
    | '\x7b' :: rest => takeBraces (takeValue depth) rest
    | s => (takeScalar s).map fun (v, rest) => (.scalar v, rest)

/-! ### Lines -/

/-- A header of one table or of several that share it. -/
def takeHeader : Reader Statement
  | '[' :: '[' :: s => do
    let (path, rest) ← takeKey (skipSpaces s)
    let rest ← expect ']' (skipSpaces rest)
    let rest ← expect ']' rest
    some (.sharedHeader path, rest)
  | '[' :: s => do
    let (path, rest) ← takeKey (skipSpaces s)
    let rest ← expect ']' (skipSpaces rest)
    some (.header path, rest)
  | _ => none

/-- A statement. -/
def takeStatement : Reader Statement := fun s =>
  if s.head? = some '[' then takeHeader s
  else
    (takeAssignment (some ∘ skipSpaces) (takeValue maxDepth) s).map fun ((path, v), rest) =>
      (.assignment path v, rest)

/-- One line, which may say nothing. -/
def lineStep : Step (Option Statement) := fun s =>
  let s := skipSpaces s
  if s = [] then some (none, [])
  else
    match endOfLine? s with
    | some rest => some (some none, rest)
    | none => do
      let (statement, rest) ← takeStatement s
      let rest ← endOfLine? rest
      some (some (some statement), rest)

/-- The text without a byte order mark at its front. -/
def skipMark : List Char → List Char
  | '\ufeff' :: s => s
  | s => s

/-- Reads a document. -/
def document? (text : List Char) : Option Members := do
  let (lines, _) ← gather lineStep (skipMark text)
  Members.ofStatements? (lines.filterMap id)

end Reckoner.Toml
