import Reckoner.Proofs.Console.Pieces
import Reckoner.Proofs.Session.Finite

/-! # What a console does to its session

A console works on its session by the operations of a session and in no other way: a block that is
merged is a text taken in, and a command is one operation or none. So all that is kept by these
operations holds in every session that a script leads through. None of them brings in a value but by
a text, so no script leads to a value that is not finite.

* `session_step`, `session_readAll`: lines as operations.
* `bringsFinite_operations`: their values come from texts.
* `finite_of_script`: every session that a script leads through. -/

namespace Reckoner

/-- The operation on a session that a command carries out, if it carries one out. A separator is
changed in the convention in force. -/
def Command.action? (c : Separators) : Command → Option Action
  | setOperator index op => some (.setOperator index op)
  | setValue index input => some (.editValue index input)
  | delete index => some (.deleteAt index)
  | evaluate => some .evaluate
  | clear => some .clear
  | combine on => some (.setCombineMode on)
  | row on => some (.setRowMode on)
  | thousands t => some (.setSeparators { c with thousand := t })
  | decimal d => some (.setSeparators { c with decimal := d })
  | _ => none

namespace Console

/-- The session after operations at one moment. -/
def perform (w : Surroundings) (s : Session) (ops : List Action) : Session :=
  s.run (ops.map (w.now, ·))

theorem perform_append (w : Surroundings) (s : Session) (ops more : List Action) :
    perform w s (ops ++ more) = perform w (perform w s ops) more := by
  unfold perform Session.run
  rw [List.map_append, List.foldl_append]

/-- The operation that merges the block that is waiting, if there is one. -/
def flushOperations (c : Console) : List Action := if c.block = [] then [] else [.ingest c.block]

/-- The operation of a command line without its colon. A line that is no command has none. -/
def commandOperations (c : Console) (line : List Char) : List Action :=
  match Command.ofText line with
  | .error _ => []
  | .ok command => (command.action? c.session.settings.separators).toList

/-- The operations of a line, in order: a block that ends is merged first. -/
def lineOperations (c : Console) (bytes : List UInt8) : List Action :=
  if c.ending.isSome then []
  else
    match (Text.decode? bytes).map Text.trim with
    | some [] => c.flushOperations
    | some (':' :: command) => c.flushOperations ++ c.commandOperations command
    | _ => []

/-- The operations of lines and of the end of the input behind them. -/
def operations (w : Surroundings) (c : Console) : List (List UInt8) → List Action
  | [] => if c.ending.isSome then [] else c.flushOperations
  | bytes :: more => c.lineOperations bytes ++ (c.step w bytes).2.operations w more

/-! ### One line -/

section Line

variable (w : Surroundings)

/-- **A command is its operation**, as far as the session goes. -/
theorem session_reply (s : Session) (command : Command) :
    (reply w s command).2 = perform w s (command.action? s.settings.separators).toList := by
  unfold reply
  cases command with
  | setOperator index op =>
    change _ = s.step w.now (.setOperator index op)
    rw [execute, Session.step, Session.perform]
    cases s.setOperator index op <;> rfl
  | setValue index input =>
    change _ = s.step w.now (.editValue index input)
    rw [execute, Session.step, Session.perform]
    cases s.editValue index input <;> rfl
  | delete index =>
    change _ = s.step w.now (.deleteAt index)
    rw [execute, Session.step, Session.perform]
    cases s.deleteAt index <;> rfl
  | evaluate =>
    change _ = s.step w.now .evaluate
    rw [execute, Session.step, Session.perform]
    cases s.evaluate w.now <;> rfl
  | copy index =>
    have hcopy : ∀ x, (copyValue w s x).2 = s := by
      intro x
      unfold copyValue
      split
      · rfl
      · split <;> rfl
    cases index <;> exact hcopy _
  | _ => rfl

theorem session_flush (c : Console) :
    (c.flush w).2.session = perform w c.session c.flushOperations := by
  unfold flush flushOperations
  split
  · rfl
  · exact session_mergeBlock w c.session c.block

theorem settings_flush (c : Console) : (c.flush w).2.session.settings = c.session.settings := by
  rw [session_flush]
  unfold flushOperations
  split
  · rfl
  · exact Session.settings_step_ingest w.now c.block

theorem session_takeCommand (c : Console) (line : List Char) :
    (c.takeCommand w line).2.session = perform w c.session (c.commandOperations line) := by
  unfold takeCommand commandOperations
  cases Command.ofText line with
  | error fault => rfl
  | ok command =>
    have hreply := session_reply w c.session command
    cases command <;> first | rfl | exact hreply

/-- **A line is its operations**, as far as the session goes. -/
theorem session_step (c : Console) (bytes : List UInt8) :
    (c.step w bytes).2.session = perform w c.session (c.lineOperations bytes) := by
  unfold step lineOperations
  split
  · rfl
  · cases Text.decode? bytes with
    | none => rfl
    | some line =>
      rw [Option.map_some]
      dsimp only
      unfold takeLine
      split
      · rename_i htrim
        rw [htrim]
        exact session_flush w c
      · rename_i command htrim
        -- the command sees the convention that the block was merged in
        have hoperations : (c.flush w).2.commandOperations command =
            c.commandOperations command := by
          unfold commandOperations
          rw [settings_flush]
        rw [htrim]
        dsimp only
        rw [session_takeCommand, session_flush, hoperations]
        exact (perform_append w c.session c.flushOperations _).symm
      · rename_i hblank hcommand
        split
        · rename_i htrim
          exact absurd (Option.some.inj htrim) hblank
        · rename_i command htrim
          exact absurd (Option.some.inj htrim) (hcommand command)
        · rfl

end Line

/-! ### Scripts -/

section Script

variable (w : Surroundings)

theorem session_finish (c : Console) :
    (c.finish w).2.session = perform w c.session (c.operations w []) := by
  unfold finish operations
  split
  · rfl
  · exact session_flush w c

theorem operations_append (c : Console) (lines more : List (List UInt8)) :
    ∃ ops, c.operations w (lines ++ more) = ops ++ (c.steps w lines).2.operations w more ∧
      (c.steps w lines).2.session = perform w c.session ops := by
  induction lines generalizing c with
  | nil => exact ⟨[], rfl, rfl⟩
  | cons bytes lines ih =>
    obtain ⟨ops, hops, hsession⟩ := ih (c.step w bytes).2
    refine ⟨c.lineOperations bytes ++ ops, ?_, ?_⟩
    · rw [List.cons_append, operations, hops, List.append_assoc]
      rfl
    · rw [perform_append, ← session_step]
      exact hsession

/-- **Lines that are read to their end are their operations**, as far as the session goes. -/
theorem session_readAll (c : Console) (lines : List (List UInt8)) :
    (c.readAll w lines).2.session = perform w c.session (c.operations w lines) := by
  obtain ⟨ops, hops, hsession⟩ := operations_append w c lines []
  rw [List.append_nil] at hops
  rw [readAll, session_finish, hsession, hops, perform_append]

end Script

/-! ### Values -/

theorem bringsFinite_flushOperations (c : Console) :
    ∀ a ∈ c.flushOperations, Session.BringsFinite a := by
  unfold flushOperations
  split
  · exact List.forall_mem_nil _
  · exact List.forall_mem_singleton.mpr trivial

theorem bringsFinite_commandOperations (c : Console) (line : List Char) :
    ∀ a ∈ c.commandOperations line, Session.BringsFinite a := by
  intro a ha
  unfold commandOperations at ha
  split at ha
  · exact absurd ha List.not_mem_nil
  · rename_i command _
    rw [Option.mem_toList] at ha
    cases command with
    | showNumbers => exact nomatch ha
    | showHistory => exact nomatch ha
    | copy index => exact nomatch ha
    | help => exact nomatch ha
    | quit => exact nomatch ha
    | _ => obtain rfl := Option.some.inj ha; trivial

theorem bringsFinite_lineOperations (c : Console) (bytes : List UInt8) :
    ∀ a ∈ c.lineOperations bytes, Session.BringsFinite a := by
  unfold lineOperations
  split
  · exact List.forall_mem_nil _
  · split
    · exact bringsFinite_flushOperations c
    · exact List.forall_mem_append.mpr
        ⟨bringsFinite_flushOperations c, bringsFinite_commandOperations c _⟩
    · exact List.forall_mem_nil _

/-- **The operations of a console take their values from texts.** -/
theorem bringsFinite_operations (w : Surroundings) (c : Console) (lines : List (List UInt8)) :
    ∀ a ∈ c.operations w lines, Session.BringsFinite a := by
  induction lines generalizing c with
  | nil =>
    unfold operations
    split
    · exact List.forall_mem_nil _
    · exact bringsFinite_flushOperations c
  | cons bytes lines ih =>
    exact List.forall_mem_append.mpr ⟨bringsFinite_lineOperations c bytes, ih _⟩

/-- **Every session that a script leads through holds finite values.** A run is the operations of
its script, and after every line some of these have been carried out. However many of them have
been, and at whatever times, every item has a finite value and a source, and every number and every
result that is recorded or shown is finite. -/
theorem finite_of_script (w : Surroundings) (settings : Settings) (script : List UInt8) :
    (run w { settings } script).2.session =
      perform w { settings } (operations w { session := { settings } } (Text.scriptLines script)) ∧
    (∀ n, ∃ m, (steps w { session := { settings } } ((Text.scriptLines script).take n)).2.session =
      perform w { settings }
        ((operations w { session := { settings } } (Text.scriptLines script)).take m)) ∧
    ∀ (n : Nat) (time : Nat → Timestamp),
      (Session.run { settings }
        (((operations w { session := { settings } } (Text.scriptLines script)).take n).mapIdx
          fun i a => (time i, a))).Finite := by
  refine ⟨session_readAll w _ _, fun n => ?_, fun n time => ?_⟩
  · have hsplit :=
      operations_append w { session := { settings } } ((Text.scriptLines script).take n)
      ((Text.scriptLines script).drop n)
    rw [List.take_append_drop] at hsplit
    obtain ⟨ops, hops, hsession⟩ := hsplit
    refine ⟨ops.length, ?_⟩
    rw [hops, List.take_left, hsession]
  · refine Session.finite_run (Session.finite_start settings) ?_
    intro op hop
    obtain ⟨i, hi, rfl⟩ := List.mem_mapIdx.mp hop
    exact bringsFinite_operations w _ _ _ (List.mem_of_mem_take (List.getElem_mem hi))

end Console

end Reckoner
