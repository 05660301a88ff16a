import Reckoner.Proofs.Expression
import Reckoner.Proofs.Session.History

/-! # Operations in place

A session that is kept in one place is overwritten field by field, and what is written when a fault
comes stays written. `Procedure` has the operations in this form. None of them has written anything
when it fails, so they do the same as the operations that give a new session or none. A merge is no
failure if the evaluation behind it fails: the batch is in the expression, and nothing else has
changed.

* `inPlace_eq`: an operation in place is the operation.
* `mergedOnly_of_merge`: a merge whose evaluation fails.
* `effects_of_faults`: what is left of a session when something fails. -/

namespace Reckoner.Session

/-! ### Procedures -/

/-- A procedure on a session that is kept in one place. A fault leaves what has been written so
far. -/
abbrev Procedure (α : Type) := EStateM Fault Session α

namespace Procedure

def writeExpression (e : Expression) : Procedure Unit := modify fun s => { s with expression := e }

def writeResult (r : Option Float) : Procedure Unit := modify fun s => { s with result := r }

def writeEntry (entry : Entry) : Procedure Unit :=
  modify fun s => { s with history := s.history.record entry }

def writeSettings (f : Settings → Settings) : Procedure Unit :=
  modify fun s => { s with settings := f s.settings }

/-- Works out the expression, adds the entry and then shows its result. -/
def evaluate (now : Timestamp) : Procedure (Option Float) := do
  match ← MonadExcept.ofExcept (← get).expression.evaluate with
  | none => return none
  | some ev =>
    writeEntry ⟨ev, now⟩
    writeResult (some ev.result)
    return some ev.result

/-- Puts a batch behind the expression or in its place. -/
def mergeOperands (operands : List Operand) : Procedure MergeMode := do
  let s ← get
  if s.appends then
    writeExpression (s.expression.append operands)
    return .appended
  else
    writeExpression (.sum operands)
    return .replaced

/-- Merges a batch and works out the expression, from which a fault does not spread. -/
def merge (now : Timestamp) (batch : List Reading) : Procedure Merge := do
  if batch.isEmpty then throw .noNumbers
  let mode ← mergeOperands (batch.map Reading.operand)
  let evaluation ← observing (evaluate now)
  return ⟨mode, batch.length, evaluation⟩

def setOperator (index : Nat) (op : Operator) : Procedure Unit := do
  writeExpression (← MonadExcept.ofExcept ((← get).expression.setOperator index op))

/-- Changes a value and then makes the result void. -/
def setValue (index : Nat) (value : Float) : Procedure Unit := do
  writeExpression (← MonadExcept.ofExcept ((← get).expression.setValue index value))
  writeResult none

/-- Looks at the index, reads the text and changes the value. -/
def editValue (index : Nat) (input : List Char) : Procedure Float := do
  let s ← get
  if s.expression.length ≤ index then throw (.outOfRange index s.expression.length)
  let value ← MonadExcept.ofExcept (typedValue s.settings.separators input)
  setValue index value
  return value

/-- Removes an operand and then makes the result void. -/
def deleteAt (index : Nat) : Procedure Unit := do
  let (_, e) ← MonadExcept.ofExcept ((← get).expression.deleteAt index)
  writeExpression e
  writeResult none

end Procedure

/-- An operation on a session that is kept in one place. -/
def inPlace (now : Timestamp) : Action → Procedure Answer
  | .ingest text => do return .merged (← Procedure.merge now ((← get).readings text))
  | .merge batch => do return .merged (← Procedure.merge now batch)
  | .evaluate => do return .value (← Procedure.evaluate now)
  | .setOperator index op => do Procedure.setOperator index op; return .done
  | .setValue index value => do Procedure.setValue index value; return .done
  | .editValue index input => do return .value (some (← Procedure.editValue index input))
  | .deleteAt index => do Procedure.deleteAt index; return .done
  | .clear => do Procedure.writeExpression .empty; Procedure.writeResult none; return .done
  | .setSeparators c => do Procedure.writeSettings ({ · with separators := c }); return .done
  | .setRowMode on => do Procedure.writeSettings ({ · with rowMode := on }); return .done
  | .setCombineMode on => do Procedure.writeSettings ({ · with combineMode := on }); return .done

/-- What comes of an operation that changes a session either as a whole or not at all. -/
def settled {α : Type} (s : Session) : Except Fault (α × Session) → EStateM.Result Fault Session α
  | .ok (x, s') => .ok x s'
  | .error fault => .error fault s

/-! ### All or nothing -/

section Procedures

variable {α β : Type} (s : Session)

theorem get_bind (k : Session → Procedure α) : (get >>= k) s = k s s := rfl

theorem procedure_bind (x : Procedure β) (k : β → Procedure α) :
    (x >>= k) s =
      match x s with
      | .ok a s' => k a s'
      | .error fault s' => .error fault s' := by
  change EStateM.bind x k s = _
  rw [EStateM.bind]
  cases x s <;> rfl

theorem ofExcept_bind (x : Except Fault β) (k : β → Procedure α) :
    ((MonadExcept.ofExcept x : Procedure β) >>= k) s =
      match x with
      | .ok a => k a s
      | .error fault => .error fault s := by
  cases x <;> rfl

theorem observing_bind (x : Procedure β) (k : Except Fault β → Procedure α) :
    (observing x >>= k) s =
      match x s with
      | .ok a s' => k (.ok a) s'
      | .error fault s' => k (.error fault) s' := by
  unfold observing
  change EStateM.bind (EStateM.tryCatch (EStateM.bind x _) _) k s = _
  unfold EStateM.bind EStateM.tryCatch
  dsimp only
  cases x s <;> rfl

end Procedures

section InPlace

variable (now : Timestamp) (s : Session)

theorem procedure_evaluate : Procedure.evaluate now s = s.settled (s.evaluate now) := by
  rw [Procedure.evaluate, get_bind, ofExcept_bind, evaluate]
  cases s.expression.evaluate with
  | error fault => rfl
  | ok ev => cases ev <;> rfl

theorem procedure_mergeOperands (batch : List Reading) :
    Procedure.mergeOperands (batch.map Reading.operand) s =
      .ok (if s.appends then .appended else .replaced) (s.merged batch) := by
  rw [Procedure.mergeOperands, get_bind, merged]
  cases s.appends <;> rfl

theorem procedure_merge (batch : List Reading) :
    Procedure.merge now batch s = s.settled (s.merge now batch) := by
  unfold Procedure.merge merge
  cases batch.isEmpty with
  | true => rfl
  | false =>
    -- the expression is written whatever becomes of the evaluation, which sees it merged
    simp only [Bool.false_eq_true, if_false]
    change EStateM.bind (Procedure.mergeOperands _) _ s = _
    rw [EStateM.bind, procedure_mergeOperands]
    dsimp only
    rw [observing_bind, procedure_evaluate]
    cases (s.merged batch).evaluate now <;> rfl

theorem procedure_setOperator (index : Nat) (op : Operator) :
    Procedure.setOperator index op s = s.settled ((s.setOperator index op).map ((), ·)) := by
  rw [Procedure.setOperator, get_bind, ofExcept_bind, setOperator]
  cases s.expression.setOperator index op <;> rfl

theorem procedure_setValue (index : Nat) (value : Float) :
    Procedure.setValue index value s = s.settled ((s.setValue index value).map ((), ·)) := by
  rw [Procedure.setValue, get_bind, ofExcept_bind, setValue]
  cases s.expression.setValue index value <;> rfl

theorem procedure_editValue (index : Nat) (input : List Char) :
    Procedure.editValue index input s = s.settled (s.editValue index input) := by
  rw [Procedure.editValue, get_bind, editValue]
  by_cases hindex : s.expression.length ≤ index
  · rw [if_pos hindex, if_pos hindex]
    rfl
  · rw [if_neg hindex, if_neg hindex]
    change ((MonadExcept.ofExcept
      (typedValue s.settings.separators input) : Procedure Float) >>= _) s = _
    rw [ofExcept_bind]
    cases typedValue s.settings.separators input with
    | error fault => rfl
    | ok value =>
      dsimp only
      change EStateM.bind (Procedure.setValue index value) _ s = _
      rw [EStateM.bind, procedure_setValue]
      cases s.setValue index value <;> rfl

theorem procedure_deleteAt (index : Nat) :
    Procedure.deleteAt index s = s.settled ((s.deleteAt index).map ((), ·)) := by
  rw [Procedure.deleteAt, get_bind, ofExcept_bind, deleteAt]
  cases s.expression.deleteAt index <;> rfl

theorem answer_eq {α : Type} {x : Procedure α} {o : Except Fault (α × Session)}
    (h : x s = s.settled o) (k : α → Answer) :
    (x >>= fun a => (pure (k a) : Procedure Answer)) s =
      s.settled (o.map fun (a, s') => (k a, s')) := by
  change EStateM.bind x _ s = _
  rw [EStateM.bind, h]
  cases o <;> rfl

theorem answer_done_eq {x : Procedure Unit} {o : Except Fault Session}
    (h : x s = s.settled (o.map ((), ·))) :
    (x >>= fun _ => (pure .done : Procedure Answer)) s = s.settled (o.map (.done, ·)) := by
  rw [answer_eq s h fun _ => .done]
  cases o <;> rfl

/-- **An operation in place is the operation**: it gives the same answer and leaves the session that
the operation gives, or it fails with the same fault and leaves the session as it was. -/
theorem inPlace_eq (a : Action) : inPlace now a s = s.settled (s.perform now a) := by
  cases a with
  | ingest text => exact answer_eq s (procedure_merge now s (s.readings text)) .merged
  | merge batch => exact answer_eq s (procedure_merge now s batch) .merged
  | evaluate => exact answer_eq s (procedure_evaluate now s) .value
  | setOperator index op => exact answer_done_eq s (procedure_setOperator s index op)
  | setValue index value => exact answer_done_eq s (procedure_setValue s index value)
  | editValue index input =>
    exact answer_eq s (procedure_editValue s index input) fun x => .value (some x)
  | deleteAt index => exact answer_done_eq s (procedure_deleteAt s index)
  | _ => rfl

theorem eq_of_settled_eq_error {α : Type} {o : Except Fault (α × Session)} {fault : Fault}
    {s' : Session} (h : s.settled o = .error fault s') : o = .error fault ∧ s' = s := by
  cases o with
  | ok answer => exact nomatch h
  | error fault' =>
    obtain ⟨rfl, rfl⟩ := EStateM.Result.error.inj h
    exact ⟨rfl, rfl⟩

end InPlace

/-! ### Merges whose evaluation fails -/

/-- A batch has come into the expression, and nothing else has changed. Where batches are added to
an expression, it is joined to the old items by an addition; otherwise it has taken their place. -/
structure MergedOnly (batch : List Reading) (s s' : Session) : Prop where
  settings : s'.settings = s.settings
  result : s'.result = s.result
  history : s'.history = s.history
  expression : s'.expression.lists =
    if s.settings.combineMode && !s.expression.isEmpty then
      ⟨s.expression.lists.operands ++ batch.map Reading.operand,
        s.expression.lists.operators ++ .replicate batch.length .add⟩
    else ⟨batch.map Reading.operand, .replicate (batch.length - 1) .add⟩

theorem lists_merged (s : Session) (batch : List Reading) :
    (s.merged batch).expression.lists =
      if s.settings.combineMode && !s.expression.isEmpty then
        ⟨s.expression.lists.operands ++ batch.map Reading.operand,
          s.expression.lists.operators ++ .replicate batch.length .add⟩
      else ⟨batch.map Reading.operand, .replicate (batch.length - 1) .add⟩ := by
  rw [merged, appends]
  split
  · rename_i happends
    have hne : s.expression ≠ .empty := by
      intro hempty
      rw [hempty] at happends
      simp [Expression.isEmpty] at happends
    simpa using Expression.lists_append_of_ne_empty hne (batch.map Reading.operand)
  · simpa using Expression.lists_sum (batch.map Reading.operand)

/-- **A merge whose evaluation fails** changes the expression and nothing else. -/
theorem mergedOnly_of_merge {now : Timestamp} {s s' : Session} {batch : List Reading} {m : Merge}
    {fault : Fault} (h : s.merge now batch = .ok (m, s')) (hfault : m.evaluation = .error fault) :
    s.MergedOnly batch s' := by
  cases hb : batch.isEmpty with
  | true => simp [merge, hb] at h
  | false =>
    rw [merge_eq now s hb, Except.ok.injEq, Prod.mk.injEq] at h
    obtain ⟨rfl, rfl⟩ := h
    have hevaluate : (s.merged batch).expression.evaluation? = none := by
      rw [Expression.evaluation?]
      cases he : (s.merged batch).expression.evaluate with
      | error fault' => rfl
      | ok ev => simp [he, Except.map] at hfault
    rw [hevaluate]
    exact ⟨rfl, rfl, rfl, lists_merged s batch⟩

/-- **What is left of a session when something fails.** An operation that fails leaves it as it was,
also where the fields are overwritten one after another. A merge whose evaluation fails leaves the
batch in the expression. The settings change one by one, and dropping the expression keeps them and
the history. -/
theorem effects_of_faults (now : Timestamp) (s : Session) :
    (∀ a, inPlace now a s = s.settled (s.perform now a)) ∧
    (∀ a fault s', inPlace now a s = .error fault s' →
      s' = s ∧ s.perform now a = .error fault ∧ s.step now a = s) ∧
    (∀ batch m s' fault, s.merge now batch = .ok (m, s') → m.evaluation = .error fault →
      s.MergedOnly batch s') ∧
    (∀ text m s' fault, s.ingest now text = .ok (m, s') → m.evaluation = .error fault →
      s.MergedOnly (s.readings text) s') ∧
    (∀ c, s.step now (.setSeparators c) =
      { s with settings := { s.settings with separators := c } }) ∧
    (∀ on, s.step now (.setRowMode on) = { s with settings := { s.settings with rowMode := on } }) ∧
    (∀ on, s.step now (.setCombineMode on) =
      { s with settings := { s.settings with combineMode := on } }) ∧
    (s.step now .clear).settings = s.settings ∧ (s.step now .clear).history = s.history := by
  refine ⟨inPlace_eq now s, ?_, fun _ _ _ _ => mergedOnly_of_merge,
    fun _ _ _ _ => mergedOnly_of_merge, fun _ => rfl, fun _ => rfl, fun _ => rfl, rfl, rfl⟩
  intro a fault s' h
  rw [inPlace_eq] at h
  obtain ⟨hperform, rfl⟩ := eq_of_settled_eq_error s h
  exact ⟨rfl, hperform, step_of_error hperform⟩

/-- One divided by zero, where batches are added. -/
def oneByZero : Session where
  settings := { combineMode := true }
  expression := .chain ⟨1.0, some ['1']⟩ [⟨.divide, ⟨0.0, some ['0']⟩⟩]
  result := some 1.0

/-- An evaluation that fails, and two merges whose evaluation does. -/
theorem effects_on_oneByZero :
    (inPlace ⟨0, 0⟩ .evaluate oneByZero = .error (.divisionByZero 1) oneByZero ∧
      oneByZero.step ⟨0, 0⟩ .evaluate = oneByZero) ∧
    (∃ m s', oneByZero.merge ⟨0, 0⟩ [⟨2.0, ['2']⟩] = .ok (m, s') ∧
      m.evaluation = .error (.divisionByZero 1) ∧ oneByZero.MergedOnly [⟨2.0, ['2']⟩] s') ∧
    ∃ m s', oneByZero.ingest ⟨0, 0⟩ ['2'] = .ok (m, s') ∧
      m.evaluation = .error (.divisionByZero 1) ∧
      oneByZero.MergedOnly (oneByZero.readings ['2']) s' := by
  obtain ⟨-, hfault, hmerge, hingest, -⟩ := effects_of_faults ⟨0, 0⟩ oneByZero
  have hevaluate : inPlace ⟨0, 0⟩ .evaluate oneByZero = .error (.divisionByZero 1) oneByZero := rfl
  have hread : (oneByZero.readings ['2']).isEmpty = false := by decide +kernel
  have hmerged := @merge_eq ⟨0, 0⟩ oneByZero [⟨2.0, ['2']⟩] rfl
  have hingested := merge_eq ⟨0, 0⟩ oneByZero hread
  exact ⟨⟨hevaluate, (hfault _ _ _ hevaluate).2.2⟩,
    ⟨_, _, hmerged, rfl, hmerge _ _ _ _ hmerged rfl⟩,
    ⟨_, _, hingested, rfl, hingest _ _ _ _ hingested rfl⟩⟩

end Reckoner.Session
