import Reckoner.Console.Run
import Reckoner.Proofs.Session.Untimed

/-! # What a console does not tell of the time

No reply shows when an evaluation was made. A console whose clock is stopped gives the same replies,
to every command and every line, and reaches the same session but for the times in its history.

* `execute_untimed`, `mergeBlock_untimed`: commands and blocks.
* `step_untimed`, `steps_untimed`: lines.
* `run_untimed`: a script from its start to its end. -/

namespace Reckoner

open Reckoner.Session

/-- The same surroundings with a clock that stands still. -/
def Surroundings.stopped (w : Surroundings) : Surroundings := { w with now := .epoch }

namespace Console

/-- The console with no times in the history of its session. -/
def untimed (c : Console) : Console := { c with session := c.session.untimed }

variable (w : Surroundings)

/-! ### Commands and blocks -/

theorem copyValue_untimed (s : Session) (x : Option Float) :
    copyValue w.stopped s.untimed x = Prod.map id Session.untimed (copyValue w s x) := by
  cases x with
  | none => rfl
  | some x =>
    unfold copyValue
    rw [show w.stopped.copy = w.copy from rfl]
    dsimp only
    split <;> rfl

/-- **A command does the same without the times.** -/
theorem execute_untimed (s : Session) (c : Command) :
    execute w.stopped s.untimed c =
      (execute w s c).map (Prod.map id Session.untimed) := by
  cases c with
  | setOperator index op =>
    rw [execute, setOperator_untimed, execute]
    cases s.setOperator index op <;> rfl
  | setValue index input =>
    rw [execute, editValue_untimed, execute]
    cases s.editValue index input <;> rfl
  | delete index =>
    rw [execute, deleteAt_untimed, execute]
    cases s.deleteAt index <;> rfl
  | evaluate =>
    rw [execute, show w.stopped.now = .epoch from rfl, evaluate_untimed w.now, execute]
    cases s.evaluate w.now <;> rfl
  | showHistory =>
    have htexts : s.untimed.history.newestFirst.map (Entry.text s.settings.separators) =
        s.history.newestFirst.map (Entry.text s.settings.separators) := List.map_map ..
    rw [execute, execute, show s.untimed.settings = s.settings from rfl, htexts]
    rfl
  | copy index =>
    cases index with
    | none => exact congrArg Except.ok (copyValue_untimed w s s.result)
    | some n =>
      have hentry : (s.untimed.history.recent? n).map (fun e => e.result) =
          (s.history.recent? n).map fun e => e.result := by
        rw [show s.untimed.history = s.history.untimed from rfl, History.recent?_untimed,
          Option.map_map]
        rfl
      rw [execute, hentry, copyValue_untimed]
      rfl
  | _ => rfl

theorem reply_untimed (s : Session) (c : Command) :
    reply w.stopped s.untimed c = Prod.map id Session.untimed (reply w s c) := by
  unfold reply
  rw [execute_untimed]
  cases execute w s c <;> rfl

theorem mergeBlock_untimed (s : Session) (block : List Char) :
    mergeBlock w.stopped s.untimed block =
      Prod.map id Session.untimed (mergeBlock w s block) := by
  unfold mergeBlock
  rw [show w.stopped.now = .epoch from rfl, ingest_untimed w.now]
  cases s.ingest w.now block with
  | error fault => cases fault <;> rfl
  | ok merge => rfl

/-! ### Lines -/

theorem flush_untimed (c : Console) :
    c.untimed.flush w.stopped = Prod.map id untimed (c.flush w) := by
  unfold flush
  rw [show c.untimed.block = c.block from rfl, show c.untimed.session = c.session.untimed from rfl,
    mergeBlock_untimed]
  split <;> rfl

theorem takeCommand_untimed (c : Console) (line : List Char) :
    c.untimed.takeCommand w.stopped line = Prod.map id untimed (c.takeCommand w line) := by
  unfold takeCommand
  rw [show c.untimed.session = c.session.untimed from rfl]
  split
  · rfl
  · rfl
  · rw [reply_untimed]
    rfl

theorem takeLine_untimed (c : Console) (line : List Char) :
    c.untimed.takeLine w.stopped line = Prod.map id untimed (c.takeLine w line) := by
  unfold takeLine
  split
  · exact flush_untimed w c
  · rw [flush_untimed]
    dsimp only [Prod.map]
    rw [takeCommand_untimed]
    rfl
  · rfl

/-- **A line does the same without the times.** -/
theorem step_untimed (c : Console) (bytes : List UInt8) :
    c.untimed.step w.stopped bytes = Prod.map id untimed (c.step w bytes) := by
  unfold step
  rw [show c.untimed.ending = c.ending from rfl]
  split
  · rfl
  · split
    · rfl
    · exact takeLine_untimed w c _

theorem steps_untimed (c : Console) (lines : List (List UInt8)) :
    c.untimed.steps w.stopped lines = Prod.map id untimed (c.steps w lines) := by
  induction lines generalizing c with
  | nil => rfl
  | cons bytes more ih =>
    simp only [steps, step_untimed, Prod.map, ih, id]

theorem finish_untimed (c : Console) :
    c.untimed.finish w.stopped = Prod.map id untimed (c.finish w) := by
  unfold finish
  rw [show c.untimed.ending = c.ending from rfl, flush_untimed]
  split <;> rfl

/-- **A script does the same without the times.** -/
theorem run_untimed (s : Session) (script : List UInt8) :
    run w.stopped s.untimed script = Prod.map id untimed (run w s script) := by
  have hsteps := steps_untimed w { session := s } (Text.scriptLines script)
  rw [run, show ({ session := s.untimed } : Console) = untimed { session := s } from rfl, hsteps]
  dsimp only [Prod.map]
  rw [finish_untimed, run]
  rfl

end Console

end Reckoner
