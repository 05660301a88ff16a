import Reckoner.Proofs.Console.Clock
import Reckoner.Proofs.Text.Utf8

/-! # Scripts in parts

A console merges its block at a blank line, at a command and at the end of the input. All three come
to the same: a script that is cut at the end of a block may as well be read in two runs, the second
one from the session that the first one has reached.

* `step_of_isBlankLine`, `step_of_breaks`: a line that ends a block merges it first.
* `ending_steps`: lines that are no `:quit` do not end a console.
* `run_append`: a script in two parts, at one moment.
* `runs_compose`: a script in two parts, each with its own time. -/

namespace Reckoner.Console

/-! ### Kinds of lines -/

/-- A line of blanks. -/
def IsBlankLine (bytes : List UInt8) : Prop := (Text.decode? bytes).map Text.trim = some []

/-- A line that starts with a colon, blanks aside. -/
def IsCommandLine (bytes : List UInt8) : Prop :=
  ∃ command, (Text.decode? bytes).map Text.trim = some (':' :: command)

/-- A command line that ends the console. -/
def IsQuitLine (bytes : List UInt8) : Prop :=
  ∃ command, (Text.decode? bytes).map Text.trim = some (':' :: command) ∧
    Command.ofText command = .ok .quit

theorem isBlankLine_dropReturn (bytes : List UInt8) :
    IsBlankLine (Text.dropReturn bytes) ↔ IsBlankLine bytes := by
  rw [IsBlankLine, Text.map_trim_decode?_dropReturn, IsBlankLine]

theorem isCommandLine_dropReturn (bytes : List UInt8) :
    IsCommandLine (Text.dropReturn bytes) ↔ IsCommandLine bytes := by
  rw [IsCommandLine, Text.map_trim_decode?_dropReturn, IsCommandLine]

theorem isQuitLine_dropReturn (bytes : List UInt8) :
    IsQuitLine (Text.dropReturn bytes) ↔ IsQuitLine bytes := by
  rw [IsQuitLine, Text.map_trim_decode?_dropReturn, IsQuitLine]

theorem isSome_decode?_dropReturn (bytes : List UInt8) :
    (Text.decode? (Text.dropReturn bytes)).isSome = (Text.decode? bytes).isSome := by
  have hisSome := congrArg Option.isSome (Text.map_trim_decode?_dropReturn bytes)
  rwa [Option.isSome_map, Option.isSome_map] at hisSome

/-! ### The block that is waiting -/

section Flush

variable (w : Surroundings) (c : Console)

theorem ending_flush : (c.flush w).2.ending = c.ending := by
  unfold flush
  split <;> rfl

theorem block_flush : (c.flush w).2.block = [] := by
  unfold flush
  split
  · assumption
  · rfl

theorem flush_of_block_eq_nil {c : Console} (h : c.block = []) : c.flush w = ([], c) := if_pos h

theorem flush_eq_start (h : c.ending = none) :
    (c.flush w).2 = { session := (c.flush w).2.session } := by
  have hb := block_flush w c
  have he := (ending_flush w c).trans h
  generalize (c.flush w).2 = d at *
  obtain ⟨s, block, ending⟩ := d
  obtain rfl : block = [] := hb
  obtain rfl : ending = none := he
  rfl

end Flush

/-! ### One line -/

section Line

variable {w : Surroundings} {c : Console} {bytes : List UInt8}

theorem step_of_isBlankLine (hc : c.ending = none) (h : IsBlankLine bytes) :
    c.step w bytes = c.flush w := by
  obtain ⟨line, hline, htrim⟩ := Option.map_eq_some_iff.mp h
  simp [step, hc, hline, takeLine, htrim]

theorem step_of_isCommandLine (hc : c.ending = none) {command : List Char}
    (h : (Text.decode? bytes).map Text.trim = some (':' :: command)) :
    c.step w bytes =
      ((c.flush w).1 ++ ((c.flush w).2.takeCommand w command).1,
        ((c.flush w).2.takeCommand w command).2) := by
  obtain ⟨line, hline, htrim⟩ := Option.map_eq_some_iff.mp h
  simp [step, hc, hline, takeLine, htrim]

/-- **A line that ends a block may as well come after it has been merged.** -/
theorem step_of_breaks (hc : c.ending = none) (h : IsBlankLine bytes ∨ IsCommandLine bytes) :
    c.step w bytes =
      ((c.flush w).1 ++ ((c.flush w).2.step w bytes).1, ((c.flush w).2.step w bytes).2) := by
  have hend := (ending_flush w c).trans hc
  have hflush := flush_of_block_eq_nil w (block_flush w c)
  rcases h with h | ⟨command, h⟩
  · rw [step_of_isBlankLine hc h, step_of_isBlankLine hend h, hflush, List.append_nil]
  · rw [step_of_isCommandLine hc h, step_of_isCommandLine hend h, hflush, List.nil_append]

theorem ending_takeCommand {command : List Char} (h : Command.ofText command ≠ .ok .quit) :
    (c.takeCommand w command).2.ending = c.ending := by
  unfold takeCommand
  split
  · rfl
  · exact absurd ‹_› h
  · rfl

/-- Only `:quit` and bytes that are no text end a console. -/
theorem ending_step (hc : c.ending = none) (htext : (Text.decode? bytes).isSome)
    (hquit : ¬ IsQuitLine bytes) : (c.step w bytes).2.ending = none := by
  obtain ⟨line, hline⟩ := Option.isSome_iff_exists.mp htext
  have hstep : c.step w bytes = c.takeLine w line := by simp [step, hc, hline]
  have hend := (ending_flush w c).trans hc
  rw [hstep]
  unfold takeLine
  split
  · exact hend
  · rename_i command htrim
    have hcommand : Command.ofText command ≠ .ok .quit := fun h =>
      hquit ⟨command, by rw [hline, Option.map_some, htrim], h⟩
    exact (ending_takeCommand hcommand).trans hend
  · exact hc

theorem ending_steps {lines : List (List UInt8)} (hc : c.ending = none)
    (htext : ∀ line ∈ lines, (Text.decode? line).isSome)
    (hquit : ∀ line ∈ lines, ¬ IsQuitLine line) : (c.steps w lines).2.ending = none := by
  induction lines generalizing c with
  | nil => exact hc
  | cons line lines ih =>
    exact ih (ending_step hc (htext line (by simp)) (hquit line (by simp)))
      (fun l hl => htext l (by simp [hl])) fun l hl => hquit l (by simp [hl])

end Line

/-! ### Scripts -/

/-- A script whose first line ends the block in front of it. -/
def Breaks (script : List UInt8) : Prop :=
  ∃ bytes more, Text.byteLines script = bytes :: more ∧ (IsBlankLine bytes ∨ IsCommandLine bytes)

theorem exists_scriptLines_of_breaks {script : List UInt8} (h : Breaks script) :
    ∃ line more, Text.scriptLines script = line :: more ∧
      (IsBlankLine line ∨ IsCommandLine line) := by
  obtain ⟨bytes, more, hlines, hbreak⟩ := h
  obtain rfl | hmore := eq_or_ne more []
  · have hlast : Text.byteLines script = [] ++ [bytes] := hlines
    exact ⟨bytes, [], Text.scriptLines_of_byteLines_eq hlast, hbreak⟩
  · have hlast : Text.byteLines script = (bytes :: more.dropLast) ++ [more.getLast hmore] := by
      rw [hlines, List.cons_append, List.dropLast_concat_getLast hmore]
    refine ⟨Text.dropReturn bytes, _, Text.scriptLines_of_byteLines_eq hlast, ?_⟩
    rwa [isBlankLine_dropReturn, isCommandLine_dropReturn]

theorem exists_lines {script : List UInt8}
    (h : script = [] ∨ script.getLast? = some Text.lineFeed) :
    ∃ lines, Text.byteLines script = lines ++ [[]] ∧
      ∀ more, Text.scriptLines (script ++ more) =
        lines.map Text.dropReturn ++ Text.scriptLines more := by
  rcases h with rfl | h
  · exact ⟨[], rfl, fun _ => rfl⟩
  · obtain ⟨front, rfl⟩ := List.getLast?_eq_some_iff.mp h
    refine ⟨Text.byteLines front, Text.byteLines_append_cons front [], fun more => ?_⟩
    rw [List.append_assoc]
    exact Text.scriptLines_append_cons front more

theorem isBlankLine_nil : IsBlankLine [] := by
  rw [IsBlankLine, Text.decode?_eq_some_iff.mpr (show [] = ([] : List Char).flatMap _ from rfl)]
  rfl

/-- Takes lines and ends the input after them. -/
def readAll (w : Surroundings) (c : Console) (lines : List (List UInt8)) : List String × Console :=
  ((c.steps w lines).1 ++ ((c.steps w lines).2.finish w).1, ((c.steps w lines).2.finish w).2)

section ReadAll

variable {w : Surroundings} {c : Console}

theorem readAll_append (lines more : List (List UInt8)) :
    c.readAll w (lines ++ more) =
      ((c.steps w lines).1 ++ ((c.steps w lines).2.readAll w more).1,
        ((c.steps w lines).2.readAll w more).2) := by
  simp [readAll, steps_append, List.append_assoc]

theorem readAll_cons_of_breaks (hc : c.ending = none) {bytes : List UInt8}
    (h : IsBlankLine bytes ∨ IsCommandLine bytes) (more : List (List UInt8)) :
    c.readAll w (bytes :: more) =
      ((c.flush w).1 ++ ((c.flush w).2.readAll w (bytes :: more)).1,
        ((c.flush w).2.readAll w (bytes :: more)).2) := by
  simp [readAll, steps, step_of_breaks hc h, List.append_assoc]

theorem readAll_cons_of_isBlankLine (hc : c.ending = none) (hb : c.block = []) {bytes : List UInt8}
    (h : IsBlankLine bytes) (more : List (List UInt8)) :
    c.readAll w (bytes :: more) = c.readAll w more := by
  simp [readAll, steps, step_of_isBlankLine hc h, flush_of_block_eq_nil w hb]

/-- The empty piece behind the last line feed merges the block, and the end of the input finds
none. -/
theorem readAll_singleton_nil (hc : c.ending = none) :
    c.readAll w [[]] = ((c.flush w).1, { (c.flush w).2 with ending := some .finished }) := by
  have hend := (ending_flush w c).trans hc
  simp [readAll, steps, step_of_isBlankLine hc isBlankLine_nil, finish, hend,
    flush_of_block_eq_nil w (block_flush w c)]

end ReadAll

theorem run_eq_readAll (w : Surroundings) (s : Session) (script : List UInt8) :
    run w s script = readAll w { session := s } (Text.scriptLines script) := rfl

section Runs

variable {w : Surroundings} {s : Session} {P Q : List UInt8}
  (htext : (Text.decode? P).isSome) (hend : P = [] ∨ P.getLast? = some Text.lineFeed)
  (hquit : ∀ line ∈ Text.byteLines P, ¬ IsQuitLine line)
include htext hend hquit

/-- **A script in two parts**, the second of which starts with a line that ends a block. -/
theorem run_append (hQ : Breaks Q) :
    run w s (P ++ Q) =
      ((run w s P).1 ++ (run w (run w s P).2.session Q).1, (run w (run w s P).2.session Q).2) := by
  obtain ⟨bytes, more, hQ, hbreak⟩ := exists_scriptLines_of_breaks hQ
  obtain ⟨lines, hlines, happend⟩ := exists_lines hend
  have hmem : ∀ line ∈ lines, line ∈ Text.byteLines P := fun line hl => by simp [hlines, hl]
  have hopen : (steps w { session := s } (lines.map Text.dropReturn)).2.ending = none := by
    refine ending_steps rfl ?_ ?_ <;> rw [List.forall_mem_map] <;> intro line hl
    · rw [isSome_decode?_dropReturn]
      exact Text.isSome_decode?_of_mem_byteLines htext (hmem line hl)
    · rw [isQuitLine_dropReturn]
      exact hquit line (hmem line hl)
  have hP : run w s P = ((steps w { session := s } (lines.map Text.dropReturn)).1 ++
      ((steps w { session := s } (lines.map Text.dropReturn)).2.flush w).1,
      { ((steps w { session := s } (lines.map Text.dropReturn)).2.flush w).2 with
        ending := some .finished }) := by
    rw [run_eq_readAll, Text.scriptLines_of_byteLines_eq hlines, readAll_append,
      readAll_singleton_nil hopen]
  have hsession : ((steps w { session := s } (lines.map Text.dropReturn)).2.flush w).2 =
      { session := (run w s P).2.session } := by
    rw [hP]
    exact flush_eq_start w _ hopen
  rw [run_eq_readAll w s (P ++ Q), happend, hQ, readAll_append, readAll_cons_of_breaks hopen hbreak,
    hsession, run_eq_readAll w _ Q, hQ, ← List.append_assoc]
  rw [hP]

end Runs

theorem run_blankLine_append (w : Surroundings) (s : Session) {b : List UInt8}
    (hb : Text.lineFeed ∉ b) (h : IsBlankLine b) (Q : List UInt8) :
    run w s (b ++ Text.lineFeed :: Q) = run w s Q := by
  rw [run_eq_readAll, Text.scriptLines_append_cons, Text.byteLines_of_not_mem hb,
    List.map_singleton, List.singleton_append,
    readAll_cons_of_isBlankLine rfl rfl ((isBlankLine_dropReturn b).mpr h), run_eq_readAll]

/-! ### Scripts at any time -/

/-- A run that writes what two runs write one after the other, and that ends as the second one does,
but for the times in the history. -/
structure Composes (whole first second : List String × Console) : Prop where
  output : whole.1 = first.1 ++ second.1
  session : whole.2.session.untimed = second.2.session.untimed
  ending : whole.2.ending = second.2.ending

theorem composes_of_stopped {copy : List Char → Except String Unit} {s : Session}
    {R P Q : List UInt8} (t t₁ t₂ : Timestamp)
    (h : run ⟨.epoch, copy⟩ s.untimed R =
      ((run ⟨.epoch, copy⟩ s.untimed P).1 ++
          (run ⟨.epoch, copy⟩ (run ⟨.epoch, copy⟩ s.untimed P).2.session Q).1,
        (run ⟨.epoch, copy⟩ (run ⟨.epoch, copy⟩ s.untimed P).2.session Q).2)) :
    Composes (run ⟨t, copy⟩ s R) (run ⟨t₁, copy⟩ s P)
      (run ⟨t₂, copy⟩ (run ⟨t₁, copy⟩ s P).2.session Q) := by
  have hR := run_untimed ⟨t, copy⟩ s R
  have hP := run_untimed ⟨t₁, copy⟩ s P
  have hQ := run_untimed ⟨t₂, copy⟩ (run ⟨t₁, copy⟩ s P).2.session Q
  dsimp only [Surroundings.stopped] at hR hP hQ
  rw [hR, hP] at h
  dsimp only [Prod.map, untimed, id] at h
  rw [hQ] at h
  obtain ⟨hout, hconsole⟩ := Prod.mk.inj h
  have hsession := congrArg Console.session hconsole
  have hending := congrArg Console.ending hconsole
  exact ⟨hout, hsession, hending⟩

/-- **Scripts compose at the end of a block**: a blank line between two scripts, or a second script
that starts with a blank line or a command, and the first one may as well be read in a run of its
own. -/
theorem runs_compose (copy : List Char → Except String Unit) (t t₁ t₂ : Timestamp) (s : Session)
    {P : List UInt8} (htext : (Text.decode? P).isSome)
    (hend : P = [] ∨ P.getLast? = some Text.lineFeed)
    (hquit : ∀ line ∈ Text.byteLines P, ¬ IsQuitLine line) (Q : List UInt8) :
    (∀ b, Text.lineFeed ∉ b → IsBlankLine b →
      Composes (run ⟨t, copy⟩ s (P ++ (b ++ Text.lineFeed :: Q))) (run ⟨t₁, copy⟩ s P)
        (run ⟨t₂, copy⟩ (run ⟨t₁, copy⟩ s P).2.session Q)) ∧
    (Breaks Q →
      Composes (run ⟨t, copy⟩ s (P ++ Q)) (run ⟨t₁, copy⟩ s P)
        (run ⟨t₂, copy⟩ (run ⟨t₁, copy⟩ s P).2.session Q)) := by
  constructor
  · intro b hb hblank
    have hbreaks : Breaks (b ++ Text.lineFeed :: Q) := by
      refine ⟨b, Text.byteLines Q, ?_, .inl hblank⟩
      rw [Text.byteLines_append_cons, Text.byteLines_of_not_mem hb, List.singleton_append]
    refine composes_of_stopped t t₁ t₂ ?_
    rw [run_append htext hend hquit hbreaks, run_blankLine_append _ _ hb hblank]
  · intro hbreaks
    exact composes_of_stopped t t₁ t₂ (run_append htext hend hquit hbreaks)

/-- A number on a line, and `:q` behind it. -/
theorem runs_compose_number_quit :
    ((Text.decode? [55, 10]).isSome ∧ [(55 : UInt8), 10].getLast? = some Text.lineFeed ∧
      (∀ line ∈ Text.byteLines [55, 10], ¬ IsQuitLine line) ∧ IsBlankLine [] ∧ Breaks [58, 113]) ∧
    Composes (run ⟨⟨3, 0⟩, fun _ => .ok ()⟩ {} ([55, 10] ++ ([] ++ Text.lineFeed :: [58, 113])))
      (run ⟨⟨1, 0⟩, fun _ => .ok ()⟩ {} [55, 10])
      (run ⟨⟨2, 0⟩, fun _ => .ok ()⟩ (run ⟨⟨1, 0⟩, fun _ => .ok ()⟩ {} [55, 10]).2.session
        [58, 113]) ∧
    Composes (run ⟨⟨3, 0⟩, fun _ => .ok ()⟩ {} ([55, 10] ++ [58, 113]))
      (run ⟨⟨1, 0⟩, fun _ => .ok ()⟩ {} [55, 10])
      (run ⟨⟨2, 0⟩, fun _ => .ok ()⟩ (run ⟨⟨1, 0⟩, fun _ => .ok ()⟩ {} [55, 10]).2.session
        [58, 113]) := by
  have hread : Text.decode? [55, 10] = some ['7', '\n'] := Text.decode?_eq_some_iff.mpr rfl
  have hline : Text.decode? [55] = some ['7'] := Text.decode?_eq_some_iff.mpr rfl
  have hcommand : Text.decode? [58, 113] = some [':', 'q'] := Text.decode?_eq_some_iff.mpr rfl
  have htext : (Text.decode? [55, 10]).isSome := by rw [hread]; rfl
  have hquit : ∀ line ∈ Text.byteLines [55, 10], ¬ IsQuitLine line := by
    rw [show Text.byteLines [55, 10] = [[55], []] from rfl]
    rintro line hmem ⟨command, hcolon, -⟩
    rcases List.mem_cons.mp hmem with rfl | hmem
    · rw [hline] at hcolon
      exact absurd hcolon (by simp [Text.trim, Text.trimStart, Text.trimEnd, Text.isBlank])
    · rw [List.mem_singleton.mp hmem, isBlankLine_nil] at hcolon
      exact absurd hcolon (by simp)
  have hbreaks : Breaks [58, 113] :=
    ⟨[58, 113], [], rfl, .inr ⟨['q'], by rw [hcommand]; decide⟩⟩
  have h := runs_compose (fun _ => .ok ()) ⟨3, 0⟩ ⟨1, 0⟩ ⟨2, 0⟩ {} htext (.inr rfl) hquit [58, 113]
  exact ⟨⟨htext, rfl, hquit, isBlankLine_nil, hbreaks⟩,
    h.1 [] (by simp) isBlankLine_nil, h.2 hbreaks⟩

end Reckoner.Console
