import Reckoner.Session

/-! # Sessions without the times of their entries

The time of an operation ends up in the history and nowhere else. `untimed` takes it out of there
again, and every operation does the same to a session without times, at any fixed moment, as it does
to the session itself.

* `evaluate_untimed`, `merge_untimed`, `ingest_untimed`: the operations that look at the time.
* `setOperator_untimed`, `editValue_untimed`, `deleteAt_untimed`: the edits. -/

namespace Reckoner

/-- The moment that stands for all others. -/
def Timestamp.epoch : Timestamp := ⟨0, 0⟩

/-- The evaluation without the moment it was made. -/
def Entry.untimed (entry : Entry) : Entry := { entry with time := .epoch }

/-- The evaluations without the moments they were made. -/
def History.untimed (h : History) : History := ⟨h.newestFirst.map Entry.untimed⟩

theorem History.recent?_untimed (h : History) (n : Nat) :
    h.untimed.recent? n = (h.recent? n).map Entry.untimed := by
  simp [recent?, untimed]

namespace Session

/-- The session with no times in its history. -/
def untimed (s : Session) : Session := { s with history := s.history.untimed }

variable (now : Timestamp) (s : Session)

theorem evaluate_untimed :
    s.untimed.evaluate .epoch = (s.evaluate now).map (Prod.map id untimed) := by
  unfold evaluate
  rw [show s.untimed.expression = s.expression from rfl]
  cases s.expression.evaluate with
  | error fault => rfl
  | ok ev => cases ev <;> rfl

theorem merge_untimed (batch : List Reading) :
    s.untimed.merge .epoch batch = (s.merge now batch).map (Prod.map id untimed) := by
  unfold merge
  rw [show s.untimed.merged batch = (s.merged batch).untimed from rfl,
    evaluate_untimed now (s.merged batch)]
  split
  · rfl
  · cases (s.merged batch).evaluate now <;> rfl

theorem ingest_untimed (text : List Char) :
    s.untimed.ingest .epoch text = (s.ingest now text).map (Prod.map id untimed) :=
  merge_untimed now s (s.readings text)

theorem setOperator_untimed (index : Nat) (op : Operator) :
    s.untimed.setOperator index op = (s.setOperator index op).map untimed := by
  unfold setOperator
  rw [show s.untimed.expression = s.expression from rfl]
  cases s.expression.setOperator index op <;> rfl

theorem setValue_untimed (index : Nat) (value : Float) :
    s.untimed.setValue index value = (s.setValue index value).map untimed := by
  unfold setValue
  rw [show s.untimed.expression = s.expression from rfl]
  cases s.expression.setValue index value <;> rfl

theorem editValue_untimed (index : Nat) (input : List Char) :
    s.untimed.editValue index input =
      (s.editValue index input).map (Prod.map id untimed) := by
  unfold editValue
  rw [show s.untimed.expression = s.expression from rfl,
    show s.untimed.settings = s.settings from rfl]
  split
  · rfl
  · split
    · rfl
    · rename_i value _
      rw [setValue_untimed]
      cases s.setValue index value <;> rfl

theorem deleteAt_untimed (index : Nat) :
    s.untimed.deleteAt index = (s.deleteAt index).map untimed := by
  unfold deleteAt
  rw [show s.untimed.expression = s.expression from rfl]
  cases s.expression.deleteAt index <;> rfl

end Session

end Reckoner
