import Reckoner.Proofs.Console.Operations
import Reckoner.Proofs.Session.InPlace

/-! # Commands in place

A console works on a session that is kept in one place, and what it has written cannot be taken
back. In this form (`Procedure`) a command is an operation on the session and lines that are written
one after another, and whatever has been changed or written when something fails stays. No command
has changed or written anything by then, so the console replies as it does with commands that give a
reply and a session or none.

* `inPlace_eq`: a command in place changes and writes all or nothing.
* `answer_eq`: with its failure reported it is the reply to the command. -/

namespace Reckoner

/-- The value that a `:copy` is about: the result, or that of the entry with so many newer ones. -/
def Session.copied? (s : Session) : Option Nat → Option Float
  | none => s.result
  | some n => (s.history.recent? n).map fun e => e.result

namespace Console

theorem execute_copy (w : Surroundings) (s : Session) (index : Option Nat) :
    execute w s (.copy index) = .ok (copyValue w s (s.copied? index)) := by
  cases index <;> rfl

/-! ### Procedures -/

/-- A session in its place, and the lines that have been written. -/
structure Terminal where
  session : Session
  written : List String

/-- A procedure at a terminal. Why it fails is said in words, and what has been done by then
stays. -/
abbrev Procedure (α : Type) := EStateM String Terminal α

namespace Procedure

/-- An operation on the session. -/
def act (w : Surroundings) (a : Action) : Procedure Unit := fun t =>
  match Session.inPlace w.now a t.session with
  | .ok _ s => .ok () { t with session := s }
  | .error fault s => .error fault.message { t with session := s }

def write (line : String) : Procedure Unit :=
  modify fun t => { t with written := t.written ++ [line] }

def writeAll (lines : List String) : Procedure Unit := lines.forM write

def writeResult : Procedure Unit := do
  write (resultLine (← get).session)

/-- Writes the expression and then the result. -/
def writeExpression : Procedure Unit := do
  let s := (← get).session
  write (String.ofList (chainText (shown s) s.expression.values s.expression.operators))
  writeResult

/-- Puts a value on the clipboard. -/
def copy (w : Surroundings) : Option Float → Procedure Unit
  | none => write "nothing to copy"
  | some x =>
    match w.copy (plain x) with
    | .ok () => write (String.ofList ("copied ".toList ++ plain x))
    | .error message => throw ("Clipboard error: " ++ message)

end Procedure

open Procedure in
/-- A command in place. -/
def inPlace (w : Surroundings) : Command → Procedure Unit
  | .setOperator index op => do act w (.setOperator index op); writeExpression
  | .setValue index input => do act w (.editValue index input); writeExpression
  | .delete index => do act w (.deleteAt index); writeExpression
  | .evaluate => do act w .evaluate; writeExpression
  | .clear => do act w .clear; write "cleared"
  | .showNumbers => do
    let s := (← get).session
    writeAll (numbered (s.expression.items.map (itemText s)))
    writeResult
  | .showHistory => do
    let s := (← get).session
    if s.history.newestFirst.isEmpty then write "no history"
    writeAll (numbered (s.history.newestFirst.map (Entry.text s.settings.separators)))
  | .combine on => do act w (.setCombineMode on); write ("combine " ++ onOff on)
  | .row on => do act w (.setRowMode on); write ("row mode " ++ onOff on)
  | .thousands t => do
    let c := (← get).session.settings.separators
    act w (.setSeparators { c with thousand := t })
    write ("thousand separator: " ++ t.title)
  | .decimal d => do
    let c := (← get).session.settings.separators
    act w (.setSeparators { c with decimal := d })
    write ("decimal point: " ++ d.title)
  | .copy index => do copy w ((← get).session.copied? index)
  | .help => writeAll helpText
  | .quit => pure ()

/-- A command in place whose failure is reported. -/
def answer (w : Surroundings) (command : Command) : Procedure Unit :=
  tryCatch (inPlace w command) fun message => Procedure.write (errorLine message)

/-! ### All or nothing -/

/-- What comes of a procedure that does either all that it does or nothing. -/
def Terminal.settled (t : Terminal) : Except String Reply → EStateM.Result String Terminal Unit
  | .ok (lines, s) => .ok () ⟨s, t.written ++ lines⟩
  | .error message => .error message t

/-- The reply to what has been done or has failed. -/
def reported (s : Session) : Except String Reply → Reply
  | .ok r => r
  | .error message => ([errorLine message], s)

section Procedures

variable {w : Surroundings} {t : Terminal}

theorem bind_of_ok {α β : Type} {x : Procedure α} {a : α} {t' : Terminal} (h : x t = .ok a t')
    (k : α → Procedure β) : (x >>= k) t = k a t' := by
  change EStateM.bind x k t = _
  rw [EStateM.bind, h]

theorem bind_of_error {α β : Type} {x : Procedure α} {message : String} {t' : Terminal}
    (h : x t = .error message t') (k : α → Procedure β) : (x >>= k) t = .error message t' := by
  change EStateM.bind x k t = _
  rw [EStateM.bind, h]

theorem writeAll_eq (lines : List String) :
    Procedure.writeAll lines t = t.settled (.ok (lines, t.session)) := by
  unfold Procedure.writeAll
  induction lines generalizing t with
  | nil =>
    rw [Terminal.settled, List.append_nil]
    rfl
  | cons line lines ih =>
    have hline : Procedure.write line t = .ok () { t with written := t.written ++ [line] } := rfl
    change (Procedure.write line >>= fun _ => lines.forM Procedure.write) t = _
    rw [bind_of_ok hline, ih]
    simp [Terminal.settled]

theorem writeExpression_eq :
    Procedure.writeExpression t = t.settled (.ok (expressionLines t.session, t.session)) := by
  have happend := List.append_assoc t.written
    [String.ofList (chainText (shown t.session) t.session.expression.values
      t.session.expression.operators)] [resultLine t.session]
  rw [Terminal.settled, expressionLines, ← List.singleton_append, ← happend]
  rfl

theorem act_eq (a : Action) :
    Procedure.act w a t =
      match t.session.perform w.now a with
      | .ok (_, s) => .ok () { t with session := s }
      | .error fault => .error fault.message t := by
  rw [Procedure.act, Session.inPlace_eq]
  cases t.session.perform w.now a <;> rfl

theorem act_bind_eq (a : Action) {k : Procedure Unit} {lines : Session → List String}
    (hk : ∀ t, k t = t.settled (.ok (lines t.session, t.session))) :
    (Procedure.act w a >>= fun _ => k) t =
      t.settled (match t.session.perform w.now a with
        | .ok (_, s) => .ok (lines s, s)
        | .error fault => .error fault.message) := by
  have hact := act_eq (w := w) (t := t) a
  cases hperform : t.session.perform w.now a with
  | ok r =>
    rw [hperform] at hact
    rw [bind_of_ok hact, hk]
    rfl
  | error fault =>
    rw [hperform] at hact
    rw [bind_of_error hact]
    rfl

theorem copy_eq (x : Option Float) :
    ∃ o, Procedure.copy w x t = t.settled o ∧ copyValue w t.session x = reported t.session o := by
  cases x with
  | none => exact ⟨.ok _, rfl, rfl⟩
  | some x =>
    unfold Procedure.copy copyValue
    dsimp only
    cases w.copy (plain x) with
    | ok _ => exact ⟨.ok _, rfl, rfl⟩
    | error message => exact ⟨.error _, rfl, rfl⟩

end Procedures

/-- **A command in place does all or nothing**, and it does what the reply to the command says. -/
theorem inPlace_eq (w : Surroundings) (t : Terminal) (command : Command) :
    ∃ o, inPlace w command t = t.settled o ∧ reply w t.session command = reported t.session o := by
  unfold reply
  cases command with
  | setOperator index op =>
    refine ⟨_, act_bind_eq _ fun t => writeExpression_eq, ?_⟩
    rw [execute, Session.perform]
    cases t.session.setOperator index op <;> rfl
  | setValue index input =>
    refine ⟨_, act_bind_eq _ fun t => writeExpression_eq, ?_⟩
    rw [execute, Session.perform]
    cases t.session.editValue index input <;> rfl
  | delete index =>
    refine ⟨_, act_bind_eq _ fun t => writeExpression_eq, ?_⟩
    rw [execute, Session.perform]
    cases t.session.deleteAt index <;> rfl
  | evaluate =>
    refine ⟨_, act_bind_eq _ fun t => writeExpression_eq, ?_⟩
    rw [execute, Session.perform]
    cases t.session.evaluate w.now <;> rfl
  | clear => exact ⟨.ok (["cleared"], t.session.clear), rfl, rfl⟩
  | showNumbers =>
    refine ⟨.ok _, ?_, rfl⟩
    change (Procedure.writeAll _ >>= fun _ => Procedure.writeResult) t = _
    rw [bind_of_ok (writeAll_eq _), Terminal.settled, ← List.append_assoc]
    rfl
  | showHistory =>
    obtain ⟨⟨settings, expression, result, ⟨entries⟩⟩, written⟩ := t
    cases entries with
    | nil => exact ⟨.ok (["no history"], _), writeAll_eq ["no history"], rfl⟩
    | cons entry entries => exact ⟨.ok _, writeAll_eq _, rfl⟩
  | combine on => exact ⟨.ok (_, t.session.setCombineMode on), rfl, rfl⟩
  | row on => exact ⟨.ok (_, t.session.setRowMode on), rfl, rfl⟩
  | thousands s => exact ⟨.ok (_, t.session.setSeparators _), rfl, rfl⟩
  | decimal s => exact ⟨.ok (_, t.session.setSeparators _), rfl, rfl⟩
  | copy index =>
    obtain ⟨o, hcopy, hreply⟩ := @copy_eq w t (t.session.copied? index)
    refine ⟨o, hcopy, ?_⟩
    rw [execute_copy, ← hreply]
  | help => exact ⟨.ok (helpText, t.session), writeAll_eq helpText, rfl⟩
  | quit =>
    refine ⟨.ok ([], t.session), ?_, rfl⟩
    rw [Terminal.settled, List.append_nil]
    rfl

theorem eq_of_inPlace_eq_error {w : Surroundings} {t t' : Terminal} {command : Command}
    {message : String} (h : inPlace w command t = .error message t') : t' = t := by
  obtain ⟨o, hplace, -⟩ := inPlace_eq w t command
  rw [hplace] at h
  cases o with
  | ok r => cases h
  | error message' => exact (EStateM.Result.error.inj h).2.symm

/-- **With its failure reported a command in place is the reply to it.** -/
theorem answer_eq (w : Surroundings) (t : Terminal) (command : Command) :
    answer w command t =
      .ok () ⟨(reply w t.session command).2, t.written ++ (reply w t.session command).1⟩ := by
  obtain ⟨o, hplace, hreply⟩ := inPlace_eq w t command
  change EStateM.tryCatch (inPlace w command) _ t = _
  rw [EStateM.tryCatch, hplace, hreply]
  cases o <;> rfl

end Console

end Reckoner
