import Reckoner.History
import Reckoner.Settings

/-! # Sessions

A session holds the settings, the expression, the result shown last and the history. Recognised
numbers are merged into the expression, which is then worked out at once; edits of a value make the
result void until the next evaluation. An operation that fails gives no session, so nothing has
changed. `Action` and `perform` are the operations as data. -/

namespace Reckoner

/-- A calculation in progress. -/
structure Session where
  settings : Settings := {}
  expression : Expression := .empty
  /-- The result shown last, until an edit makes it void. -/
  result : Option Float := none
  history : History := {}

/-- What became of the expression in a merge. -/
inductive MergeMode where
  | replaced
  | appended
  deriving DecidableEq, Repr

/-- A merge: what became of the expression, how many numbers came in, and the outcome of the
evaluation that follows every merge. -/
structure Merge where
  mode : MergeMode
  added : Nat
  evaluation : Except Fault (Option Float)

namespace Session

/-- Works out the expression and records it. An empty expression is left alone. -/
def evaluate (now : Timestamp) (s : Session) : Except Fault (Option Float × Session) :=
  match s.expression.evaluate with
  | .error fault => .error fault
  | .ok none => .ok (none, s)
  | .ok (some e) =>
    .ok (some e.result, { s with result := some e.result, history := s.history.record ⟨e, now⟩ })

/-- Whether a merge would add to the expression. -/
def appends (s : Session) : Bool := s.settings.combineMode && !s.expression.isEmpty

/-- The session with a batch merged into its expression and nothing else changed. -/
def merged (batch : List Reading) (s : Session) : Session :=
  let operands := batch.map Reading.operand
  { s with expression := if s.appends then s.expression.append operands else .sum operands }

/-- Merges a batch, then evaluates. A failing evaluation is part of the outcome; the batch stays
merged. -/
def merge (now : Timestamp) (batch : List Reading) (s : Session) : Except Fault (Merge × Session) :=
  if batch.isEmpty then .error .noNumbers
  else
    let mode := if s.appends then MergeMode.appended else .replaced
    match (s.merged batch).evaluate now with
    | .error fault => .ok (⟨mode, batch.length, .error fault⟩, s.merged batch)
    | .ok (value, s') => .ok (⟨mode, batch.length, .ok value⟩, s')

/-- The numbers of a text under the settings in force. -/
def readings (s : Session) (text : List Char) : List Reading :=
  Reading.ofText s.settings.separators s.settings.rowMode text

/-- Reads a text and merges its numbers. -/
def ingest (now : Timestamp) (text : List Char) (s : Session) : Except Fault (Merge × Session) :=
  s.merge now (s.readings text)

/-- Changes the operator behind the operand at `index`. The result stays. -/
def setOperator (index : Nat) (op : Operator) (s : Session) : Except Fault Session :=
  (s.expression.setOperator index op).map fun e => { s with expression := e }

/-- Changes a value. The result becomes void. -/
def setValue (index : Nat) (value : Float) (s : Session) : Except Fault Session :=
  (s.expression.setValue index value).map fun e => { s with expression := e, result := none }

/-- Changes a value to what typed text stands for. The index is looked at first. -/
def editValue (index : Nat) (input : List Char) (s : Session) : Except Fault (Float × Session) :=
  if s.expression.length ≤ index then .error (.outOfRange index s.expression.length)
  else
    match typedValue s.settings.separators input with
    | .error fault => .error fault
    | .ok value => (s.setValue index value).map fun s' => (value, s')

/-- Removes an operand. The result becomes void. -/
def deleteAt (index : Nat) (s : Session) : Except Fault Session :=
  (s.expression.deleteAt index).map fun (_, e) => { s with expression := e, result := none }

/-- Drops the expression and the result; the history stays. -/
def clear (s : Session) : Session := { s with expression := .empty, result := none }

/-- Changes the convention for what is read and shown from now on. -/
def setSeparators (c : Separators) (s : Session) : Session :=
  { s with settings := { s.settings with separators := c } }

/-- Changes whether every line is one number from now on. -/
def setRowMode (on : Bool) (s : Session) : Session :=
  { s with settings := { s.settings with rowMode := on } }

/-- Changes whether later batches are added or replace. -/
def setCombineMode (on : Bool) (s : Session) : Session :=
  { s with settings := { s.settings with combineMode := on } }

end Session

/-! ### Operations as data -/

/-- An operation on a session. -/
inductive Action where
  | ingest (text : List Char)
  | merge (batch : List Reading)
  | evaluate
  | setOperator (index : Nat) (op : Operator)
  | setValue (index : Nat) (value : Float)
  | editValue (index : Nat) (input : List Char)
  | deleteAt (index : Nat)
  | clear
  | setSeparators (c : Separators)
  | setRowMode (on : Bool)
  | setCombineMode (on : Bool)

/-- What an operation answers. -/
inductive Answer where
  | done
  | value (x : Option Float)
  | merged (m : Merge)

namespace Session

/-- Performs an operation. -/
def perform (now : Timestamp) (s : Session) : Action → Except Fault (Answer × Session)
  | .ingest text => (s.ingest now text).map fun (m, s') => (.merged m, s')
  | .merge batch => (s.merge now batch).map fun (m, s') => (.merged m, s')
  | .evaluate => (s.evaluate now).map fun (x, s') => (.value x, s')
  | .setOperator index op => (s.setOperator index op).map (.done, ·)
  | .setValue index value => (s.setValue index value).map (.done, ·)
  | .editValue index input => (s.editValue index input).map fun (x, s') => (.value (some x), s')
  | .deleteAt index => (s.deleteAt index).map (.done, ·)
  | .clear => .ok (.done, s.clear)
  | .setSeparators c => .ok (.done, s.setSeparators c)
  | .setRowMode on => .ok (.done, s.setRowMode on)
  | .setCombineMode on => .ok (.done, s.setCombineMode on)

/-- The session after an operation, which is the same one if the operation fails. -/
def step (now : Timestamp) (s : Session) (a : Action) : Session :=
  match s.perform now a with
  | .ok (_, s') => s'
  | .error _ => s

theorem step_of_ok {now : Timestamp} {s s' : Session} {a : Action} {r : Answer}
    (h : s.perform now a = .ok (r, s')) : s.step now a = s' := by
  simp [step, h]

/-- An operation that fails changes nothing. -/
theorem step_of_error {now : Timestamp} {s : Session} {a : Action} {f : Fault}
    (h : s.perform now a = .error f) : s.step now a = s := by
  simp [step, h]

/-! ### One calculation in one go -/

/-- Sets the operators over and over from a list; none are set from an empty list. -/
def cycleOperators (ops : List Operator) (s : Session) : Session :=
  match ops with
  | [] => s
  | op :: ops => { s with expression := s.expression.cycleOperators op ops }

/-- Reads a text and works it out with the given operators or, where none are given, as it was
merged. The answer is the newest entry of the history; the session is the one reached, whatever the
answer. -/
def calculate (now : Timestamp) (ops : List Operator) (text : List Char) (s : Session) :
    Except Fault (Option Entry) × Session :=
  match s.ingest now text with
  | .error fault => (.error fault, s)
  | .ok (m, s') =>
    if ops = [] then
      match m.evaluation with
      | .error fault => (.error fault, s')
      | .ok _ => (.ok (s'.history.recent? 0), s')
    else
      match (s'.cycleOperators ops).evaluate now with
      | .error fault => (.error fault, s'.cycleOperators ops)
      | .ok (_, s'') => (.ok (s''.history.recent? 0), s'')

end Session

end Reckoner
