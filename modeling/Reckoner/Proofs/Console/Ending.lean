import Reckoner.Proofs.Console.Pieces

/-! # How a run stops

A console stops at the first line that is `:quit` or no UTF-8, and at the end of its input if there
is no such line. What stands behind the line is never looked at. A `:quit` comes to the same as the
end of the input in its place: the block that is waiting is merged. A line that is no UTF-8 drops
that block as a whole, and what was completed in front of it stays.

* `exists_stopsAt`: the lines in front of the first one that stops, and the block among them.
* `run_quit`, `run_notText`: the two ways to stop.
* `endings_of_script`: how a run stops, and what it does not depend on. -/

namespace Reckoner

/-! ### Scripts of complete lines -/

namespace Text

/-- The script of complete lines. -/
def joinLines (lines : List (List UInt8)) : List UInt8 := lines.flatMap (· ++ [lineFeed])

/-- What may stand behind a line: nothing, or a line feed and more. -/
def EndsLine (rest : List UInt8) : Prop := rest = [] ∨ ∃ more, rest = lineFeed :: more

theorem joinLines_cons (line : List UInt8) (lines : List (List UInt8)) :
    joinLines (line :: lines) = line ++ lineFeed :: joinLines lines := by
  rw [joinLines, List.flatMap_cons, List.append_assoc, List.singleton_append, joinLines]

theorem not_mem_of_mem_byteLines {bytes line : List UInt8} (h : line ∈ byteLines bytes) :
    lineFeed ∉ line := by
  induction bytes generalizing line with
  | nil =>
    rw [List.mem_singleton.mp h]
    exact List.not_mem_nil
  | cons b bytes ih =>
    rw [byteLines, List.splitOn_cons_eq_if_modifyHead, ← byteLines] at h
    by_cases hb : b = lineFeed
    · rw [if_pos (by simp [hb])] at h
      rcases List.mem_cons.mp h with rfl | h
      · exact List.not_mem_nil
      · exact ih h
    · obtain ⟨first, others, hlines⟩ := List.exists_cons_of_ne_nil (byteLines_ne_nil bytes)
      rw [if_neg (by simpa using hb), hlines, List.modifyHead_cons] at h
      rcases List.mem_cons.mp h with rfl | h
      · have hfirst : lineFeed ∉ first := ih (by simp [hlines])
        exact fun hmem => (List.mem_cons.mp hmem).elim (fun heq => hb heq.symm) hfirst
      · exact ih (by simp [hlines, h])

theorem exists_of_byteLines_eq {script line : List UInt8} {front more : List (List UInt8)}
    (h : byteLines script = front ++ line :: more) :
    ∃ rest, script = joinLines front ++ (line ++ rest) ∧ EndsLine rest := by
  have hscript : [lineFeed].intercalate (script.splitOn lineFeed) = script :=
    List.intercalate_splitOn lineFeed
  rw [← byteLines, h] at hscript
  clear h
  induction front generalizing script with
  | nil =>
    -- behind the last line of the script nothing stands, behind any other a line feed
    cases more with
    | nil =>
      rw [List.nil_append, List.intercalate_singleton] at hscript
      exact ⟨[], by rw [← hscript, List.append_nil]; rfl, .inl rfl⟩
    | cons next more =>
      rw [List.nil_append, List.intercalate_cons_cons, List.append_assoc] at hscript
      exact ⟨_, hscript.symm, .inr ⟨_, rfl⟩⟩
  | cons first front ih =>
    obtain ⟨next, others, hcons⟩ : ∃ next others, front ++ line :: more = next :: others :=
      List.exists_cons_of_ne_nil (by simp)
    rw [List.cons_append, hcons, List.intercalate_cons_cons, ← hcons] at hscript
    obtain ⟨rest, hrest, hends⟩ := ih rfl
    refine ⟨rest, ?_, hends⟩
    rw [← hscript, hrest, joinLines_cons, List.append_assoc, List.append_assoc,
      List.singleton_append, List.cons_append]

theorem scriptLines_joinLines_append {lines : List (List UInt8)}
    (h : ∀ line ∈ lines, lineFeed ∉ line) (more : List UInt8) :
    scriptLines (joinLines lines ++ more) = lines.map dropReturn ++ scriptLines more := by
  induction lines with
  | nil => rfl
  | cons line lines ih =>
    have htail := ih fun l hl => h l (List.mem_cons_of_mem line hl)
    have hline := byteLines_of_not_mem (h line (List.mem_cons_self ..))
    rw [joinLines_cons, List.append_assoc, List.cons_append, scriptLines_append_cons, hline, htail]
    rfl

theorem exists_scriptLines_append {line rest : List UInt8} (h : lineFeed ∉ line)
    (hrest : EndsLine rest) :
    ∃ bytes more, scriptLines (line ++ rest) = bytes :: more ∧
      (bytes = line ∨ bytes = dropReturn line) := by
  have hline := byteLines_of_not_mem h
  rcases hrest with rfl | ⟨more, rfl⟩
  · rw [List.append_nil]
    rw [← List.nil_append [line]] at hline
    exact ⟨line, [], scriptLines_of_byteLines_eq hline, .inl rfl⟩
  · rw [scriptLines_append_cons, hline]
    exact ⟨_, _, rfl, .inr rfl⟩

end Text

namespace Console

open Text

/-! ### Where a script stops -/

/-- A line that stops a console: `:quit`, or bytes that are no text. -/
def Stops (bytes : List UInt8) : Prop := IsQuitLine bytes ∨ decode? bytes = none

/-- The lines of a script up to the first one that stops. The last of the `done` lines ends a block,
and the `pending` lines behind it are the block that is waiting at the line that stops. -/
structure StopsAt (script : List UInt8) (done pending : List (List UInt8))
    (last rest : List UInt8) : Prop where
  script_eq : script = joinLines (done ++ pending) ++ (last ++ rest)
  complete : ∀ line ∈ done ++ pending, lineFeed ∉ line
  not_stops : ∀ line ∈ done ++ pending, ¬ Stops line
  done : done = [] ∨ ∃ front line, done = front ++ [line] ∧ (IsBlankLine line ∨ IsCommandLine line)
  pending : ∀ line ∈ pending, ¬ (IsBlankLine line ∨ IsCommandLine line)
  line : lineFeed ∉ last
  stops : Stops last
  rest : EndsLine rest

theorem exists_first {α : Type} {p : α → Prop} {l : List α} (h : ∃ x ∈ l, p x) :
    ∃ front x more, l = front ++ x :: more ∧ p x ∧ ∀ y ∈ front, ¬ p y := by
  classical
  obtain ⟨x, hfind⟩ : ∃ x, l.find? (fun y => decide (p y)) = some x :=
    Option.isSome_iff_exists.mp (List.find?_isSome.mpr (by simpa using h))
  obtain ⟨hx, front, more, hl, hfront⟩ := List.find?_eq_some_iff_append.mp hfind
  exact ⟨front, x, more, hl, by simpa using hx, fun y hy => by simpa using hfront y hy⟩

theorem exists_done_pending (lines : List (List UInt8)) :
    ∃ done pending, lines = done ++ pending ∧
      (done = [] ∨ ∃ front line, done = front ++ [line] ∧ (IsBlankLine line ∨ IsCommandLine line)) ∧
      ∀ line ∈ pending, ¬ (IsBlankLine line ∨ IsCommandLine line) := by
  by_cases h : ∃ line ∈ lines.reverse, IsBlankLine line ∨ IsCommandLine line
  · obtain ⟨pending, line, front, hlines, hline, hpending⟩ := exists_first h
    refine ⟨front.reverse ++ [line], pending.reverse, ?_, .inr ⟨_, _, rfl, hline⟩, ?_⟩
    · rw [← List.reverse_reverse lines, hlines, List.reverse_append, List.reverse_cons]
    · exact fun l hl => hpending l (List.mem_reverse.mp hl)
  · refine ⟨[], lines, rfl, .inl rfl, fun line hline hbreaks => ?_⟩
    exact h ⟨line, List.mem_reverse.mpr hline, hbreaks⟩

/-- **A script with a line that stops** has a first one. -/
theorem exists_stopsAt {script : List UInt8} (h : ∃ line ∈ byteLines script, Stops line) :
    ∃ done pending last rest, StopsAt script done pending last rest := by
  obtain ⟨front, last, more, hlines, hlast, hfront⟩ := exists_first h
  obtain ⟨done, pending, rfl, hdone, hpending⟩ := exists_done_pending front
  obtain ⟨rest, hscript, hrest⟩ := exists_of_byteLines_eq hlines
  have hcomplete : ∀ line ∈ done ++ pending ++ last :: more, lineFeed ∉ line := fun line hline =>
    not_mem_of_mem_byteLines (hlines ▸ hline)
  exact ⟨done, pending, last, rest, hscript,
    fun line hline => hcomplete line (List.mem_append_left _ hline), hfront, hdone, hpending,
    hcomplete last (by simp), hlast, hrest⟩

/-! ### Lines that do not stop -/

theorem ending_steps_of_not_stops {w : Surroundings} {c : Console} (hc : c.ending = none)
    {lines : List (List UInt8)} (h : ∀ line ∈ lines, ¬ Stops line) :
    (c.steps w (lines.map dropReturn)).2.ending = none := by
  refine ending_steps hc ?_ ?_ <;> rw [List.forall_mem_map] <;> intro line hline
  · rw [isSome_decode?_dropReturn, Option.isSome_iff_ne_none]
    exact fun hnone => h line hline (.inr hnone)
  · rw [isQuitLine_dropReturn]
    exact fun hquit => h line hline (.inl hquit)

section Steps

variable {w : Surroundings} {c : Console}

theorem block_takeCommand (c : Console) (command : List Char) :
    (c.takeCommand w command).2.block = c.block := by
  unfold takeCommand
  split <;> rfl

theorem block_step_of_breaks (hc : c.ending = none) {bytes : List UInt8}
    (h : IsBlankLine bytes ∨ IsCommandLine bytes) : (c.step w bytes).2.block = [] := by
  rcases h with h | ⟨command, h⟩
  · rw [step_of_isBlankLine hc h, block_flush]
  · rw [step_of_isCommandLine hc h, block_takeCommand, block_flush]

theorem steps_of_pending {lines : List (List UInt8)} (hc : c.ending = none)
    (hstops : ∀ line ∈ lines, ¬ Stops line)
    (hpending : ∀ line ∈ lines, ¬ (IsBlankLine line ∨ IsCommandLine line)) :
    (c.steps w (lines.map dropReturn)).1 = [] ∧
      (c.steps w (lines.map dropReturn)).2.session = c.session := by
  induction lines generalizing c with
  | nil => exact ⟨rfl, rfl⟩
  | cons bytes lines ih =>
    have hbytes := not_or.mp (hpending bytes (List.mem_cons_self ..))
    obtain ⟨line, hline⟩ : ∃ line, decode? (dropReturn bytes) = some line := by
      rw [← Option.isSome_iff_exists, isSome_decode?_dropReturn, Option.isSome_iff_ne_none]
      exact fun hnone => hstops bytes (List.mem_cons_self ..) (.inr hnone)
    have hstep := step_of_isTextLine (w := w) hc hline
      (fun h => hbytes.1 ((isBlankLine_dropReturn bytes).mp h))
      (fun h => hbytes.2 ((isCommandLine_dropReturn bytes).mp h))
    have htail := @ih { c with block := c.block ++ line ++ ['\n'] } hc
      (fun l hl => hstops l (List.mem_cons_of_mem bytes hl))
      (fun l hl => hpending l (List.mem_cons_of_mem bytes hl))
    rw [List.map_cons, steps, hstep]
    exact htail

theorem steps_of_ending (h : c.ending.isSome) (lines : List (List UInt8)) :
    c.steps w lines = ([], c) := by
  induction lines with
  | nil => rfl
  | cons bytes lines ih =>
    rw [steps, step_of_ending w h]
    dsimp only
    rw [ih]
    rfl

theorem readAll_of_ending (h : c.ending.isSome) (lines : List (List UInt8)) :
    c.readAll w lines = ([], c) := by
  rw [readAll, steps_of_ending h, finish, if_pos h]
  rfl

theorem readAll_cons_of_ending {bytes : List UInt8} (h : (c.step w bytes).2.ending.isSome)
    (more : List (List UInt8)) : c.readAll w (bytes :: more) = c.step w bytes := by
  have happend := readAll_append (w := w) (c := c) [bytes] more
  have hsingle : c.steps w [bytes] = c.step w bytes := by
    simp [steps]
  rw [hsingle, readAll_of_ending h, List.append_nil] at happend
  exact happend

theorem step_of_isQuitLine (hc : c.ending = none) {bytes : List UInt8} (h : IsQuitLine bytes) :
    c.step w bytes = ((c.flush w).1, { (c.flush w).2 with ending := some .finished }) := by
  obtain ⟨command, htrim, hquit⟩ := h
  have htake : (c.flush w).2.takeCommand w command =
      ([], { (c.flush w).2 with ending := some .finished }) := by
    rw [takeCommand, hquit]
  rw [step_of_isCommandLine hc htrim, htake, List.append_nil]

theorem step_of_decode?_eq_none (hc : c.ending = none) {bytes : List UInt8}
    (h : decode? bytes = none) : c.step w bytes = ([], { c with ending := some .notText }) := by
  simp [step, hc, h]

end Steps

/-! ### The two ways to stop -/

theorem run_joinLines (w : Surroundings) (s : Session) {lines : List (List UInt8)}
    (hcomplete : ∀ line ∈ lines, lineFeed ∉ line) (hstops : ∀ line ∈ lines, ¬ Stops line) :
    run w s (joinLines lines) =
      ((steps w { session := s } (lines.map dropReturn)).1 ++
          ((steps w { session := s } (lines.map dropReturn)).2.flush w).1,
        { ((steps w { session := s } (lines.map dropReturn)).2.flush w).2 with
          ending := some .finished }) := by
  have hopen := ending_steps_of_not_stops (w := w) (c := { session := s }) rfl hstops
  have hlines := scriptLines_joinLines_append hcomplete []
  rw [List.append_nil] at hlines
  rw [run_eq_readAll, hlines, readAll_append]
  exact congrArg (fun r => (_ ++ Prod.fst r, Prod.snd r)) (readAll_singleton_nil hopen)

section StopsAt

variable {script : List UInt8} {done pending : List (List UInt8)} {last rest : List UInt8}
  (h : StopsAt script done pending last rest)
include h

theorem StopsAt.of_rest {other : List UInt8} (hother : EndsLine other) :
    StopsAt (joinLines (done ++ pending) ++ (last ++ other)) done pending last other :=
  { h with script_eq := rfl, rest := hother }

theorem block_steps_done (w : Surroundings) (s : Session) :
    (steps w { session := s } (done.map dropReturn)).2.block = [] := by
  rcases h.done with rfl | ⟨front, line, rfl, hbreaks⟩
  · rfl
  · have hfront := ending_steps_of_not_stops (w := w) (c := { session := s }) rfl
      fun l hl => h.not_stops l (List.mem_append_left _ (List.mem_append_left _ hl))
    rw [List.map_append, List.map_singleton, steps_append]
    rw [← isBlankLine_dropReturn, ← isCommandLine_dropReturn] at hbreaks
    have hblock := block_step_of_breaks (w := w) hfront hbreaks
    simpa [steps] using hblock

theorem exists_scriptLines_of_stopsAt :
    ∃ bytes more, scriptLines script = (done ++ pending).map dropReturn ++ bytes :: more ∧
      (IsQuitLine bytes ↔ IsQuitLine last) ∧ (decode? bytes).isSome = (decode? last).isSome := by
  obtain ⟨bytes, more, hlines, hbytes⟩ := exists_scriptLines_append h.line h.rest
  refine ⟨bytes, more, ?_, ?_⟩
  · rw [h.script_eq, scriptLines_joinLines_append h.complete, hlines]
  · rcases hbytes with rfl | rfl
    · exact ⟨Iff.rfl, rfl⟩
    · exact ⟨isQuitLine_dropReturn last, isSome_decode?_dropReturn last⟩

/-- **A `:quit` does what the end of the input does in its place.** -/
theorem run_quit (w : Surroundings) (s : Session) (hquit : IsQuitLine last) :
    run w s script = run w s (joinLines (done ++ pending)) := by
  obtain ⟨bytes, more, hlines, hbytes, -⟩ := exists_scriptLines_of_stopsAt h
  have hopen := ending_steps_of_not_stops (w := w) (c := { session := s }) rfl h.not_stops
  have hstep := step_of_isQuitLine (w := w) hopen (hbytes.mpr hquit)
  have hover := readAll_cons_of_ending (w := w) (by rw [hstep]; rfl) more
  rw [run_eq_readAll, hlines, readAll_append, hover, hstep,
    run_joinLines w s h.complete h.not_stops]

/-- **A line that is no text drops the block that is waiting** and leaves the rest as it is. -/
theorem run_notText (w : Surroundings) (s : Session) (hnone : decode? last = none) :
    (run w s script).1 = (run w s (joinLines done)).1 ∧
      (run w s script).2.session = (run w s (joinLines done)).2.session ∧
      (run w s script).2.ending = some .notText := by
  obtain ⟨bytes, more, hlines, -, hbytes⟩ := exists_scriptLines_of_stopsAt h
  have hnone' : decode? bytes = none := by
    rw [hnone, Option.isSome_none] at hbytes
    exact Option.not_isSome_iff_eq_none.mp (by rw [hbytes]; decide)
  have hdoneStops : ∀ line ∈ done, ¬ Stops line := fun line hline =>
    h.not_stops line (List.mem_append_left _ hline)
  have hopen := ending_steps_of_not_stops (w := w) (c := { session := s }) rfl h.not_stops
  have hstep := step_of_decode?_eq_none (w := w) hopen hnone'
  have hover := readAll_cons_of_ending (w := w) (by rw [hstep]; rfl) more
  have hdone := run_joinLines w s
    (fun line hline => h.complete line (List.mem_append_left _ hline)) hdoneStops
  rw [flush_of_block_eq_nil w (block_steps_done h w s), List.append_nil] at hdone
  -- the pending lines have done nothing but fill the block that the line that stops drops
  obtain ⟨houtput, hsession⟩ := steps_of_pending (w := w)
    (ending_steps_of_not_stops (w := w) (c := { session := s }) rfl hdoneStops)
    (fun line hline => h.not_stops line (List.mem_append_right _ hline)) h.pending
  rw [run_eq_readAll, hlines, readAll_append, hover, hstep, hdone, List.map_append, steps_append,
    houtput, List.append_nil, List.append_nil]
  exact ⟨rfl, hsession, rfl⟩

end StopsAt

theorem ending_run_of_not_stops (w : Surroundings) (s : Session) {script : List UInt8}
    (h : ∀ line ∈ byteLines script, ¬ Stops line) : (run w s script).2.ending = some .finished := by
  obtain ⟨front, last, hsplit⟩ : ∃ front last, byteLines script = front ++ [last] :=
    ⟨_, _, (List.dropLast_concat_getLast (byteLines_ne_nil script)).symm⟩
  rw [hsplit] at h
  have hfront := ending_steps_of_not_stops (w := w) (c := { session := s }) rfl
    fun line hline => h line (List.mem_append_left _ hline)
  have hlast := not_or.mp (h last (by simp))
  have hopen := ending_step (w := w) hfront (Option.isSome_iff_ne_none.mpr hlast.2) hlast.1
  rw [run_eq_readAll, scriptLines_of_byteLines_eq hsplit, readAll_append]
  simp [readAll, steps, finish, hopen]

/-! ### Runs at any time -/

/-- Two runs that write the same and reach the same session, but for the times in the history. -/
structure Alike (run run' : List String × Console) : Prop where
  output : run.1 = run'.1
  session : run.2.session.untimed = run'.2.session.untimed

theorem alike_of_stopped {copy : List Char → Except String Unit} {s : Session}
    {script script' : List UInt8} (t t' : Timestamp)
    (houtput : (run ⟨.epoch, copy⟩ s.untimed script).1 = (run ⟨.epoch, copy⟩ s.untimed script').1)
    (hsession : (run ⟨.epoch, copy⟩ s.untimed script).2.session =
      (run ⟨.epoch, copy⟩ s.untimed script').2.session) :
    Alike (run ⟨t, copy⟩ s script) (run ⟨t', copy⟩ s script') := by
  have hscript := run_untimed ⟨t, copy⟩ s script
  have hscript' := run_untimed ⟨t', copy⟩ s script'
  dsimp only [Surroundings.stopped] at hscript hscript'
  rw [hscript, hscript'] at houtput hsession
  exact ⟨houtput, hsession⟩

theorem Alike.symm {r r' : List String × Console} (h : Alike r r') : Alike r' r :=
  ⟨h.output.symm, h.session.symm⟩

theorem Alike.trans {r r' r'' : List String × Console} (h : Alike r r') (h' : Alike r' r'') :
    Alike r r'' :=
  ⟨h.output.trans h'.output, h.session.trans h'.session⟩

section StopsAt

variable {script : List UInt8} {done pending : List (List UInt8)} {last rest : List UInt8}
  (h : StopsAt script done pending last rest) (copy : List Char → Except String Unit) (s : Session)
  (t t' : Timestamp)
include h

theorem alike_of_isQuitLine (hquit : IsQuitLine last) :
    Alike (run ⟨t, copy⟩ s script) (run ⟨t', copy⟩ s (joinLines (done ++ pending))) ∧
      (run ⟨t, copy⟩ s script).2.ending = some .finished := by
  have hrun := run_quit h ⟨.epoch, copy⟩ s.untimed hquit
  refine ⟨alike_of_stopped t t' (by rw [hrun]) (by rw [hrun]), ?_⟩
  rw [run_quit h _ s hquit, run_joinLines _ s h.complete h.not_stops]

theorem alike_of_decode?_eq_none (hnone : decode? last = none) :
    Alike (run ⟨t, copy⟩ s script) (run ⟨t', copy⟩ s (joinLines done)) ∧
      (run ⟨t, copy⟩ s script).2.ending = some .notText := by
  obtain ⟨houtput, hsession, -⟩ := run_notText h ⟨.epoch, copy⟩ s.untimed hnone
  exact ⟨alike_of_stopped t t' houtput hsession, (run_notText h _ s hnone).2.2⟩

theorem alike_of_rest {other : List UInt8} (hother : EndsLine other) :
    Alike (run ⟨t, copy⟩ s script)
        (run ⟨t', copy⟩ s (joinLines (done ++ pending) ++ (last ++ other))) ∧
      (run ⟨t, copy⟩ s script).2.ending =
        (run ⟨t', copy⟩ s (joinLines (done ++ pending) ++ (last ++ other))).2.ending := by
  have h' := h.of_rest hother
  rcases h.stops with hlast | hlast
  · obtain ⟨halike, hending⟩ := alike_of_isQuitLine h copy s t t' hlast
    obtain ⟨halike', hending'⟩ := alike_of_isQuitLine h' copy s t' t' hlast
    exact ⟨halike.trans halike'.symm, hending.trans hending'.symm⟩
  · obtain ⟨halike, hending⟩ := alike_of_decode?_eq_none h copy s t t' hlast
    obtain ⟨halike', hending'⟩ := alike_of_decode?_eq_none h' copy s t' t' hlast
    exact ⟨halike.trans halike'.symm, hending.trans hending'.symm⟩

end StopsAt

/-- **How a run stops.** Without a line that stops it is read to its end. Otherwise nothing behind
the first such line matters. If that is `:quit`, the run does what it does with the lines in front
of it alone; if it is no text, what it does with those up to the last one that ends a block. -/
theorem endings_of_script (copy : List Char → Except String Unit) (s : Session)
    (script : List UInt8) :
    ((∀ line ∈ byteLines script, ¬ Stops line) ∧
      ∀ t, (run ⟨t, copy⟩ s script).2.ending = some .finished) ∨
    ∃ done pending last rest, StopsAt script done pending last rest ∧
      (∀ other, EndsLine other → ∀ t t',
        Alike (run ⟨t, copy⟩ s script)
            (run ⟨t', copy⟩ s (joinLines (done ++ pending) ++ (last ++ other))) ∧
          (run ⟨t, copy⟩ s script).2.ending =
            (run ⟨t', copy⟩ s (joinLines (done ++ pending) ++ (last ++ other))).2.ending) ∧
      (IsQuitLine last → ∀ t t',
        Alike (run ⟨t, copy⟩ s script) (run ⟨t', copy⟩ s (joinLines (done ++ pending))) ∧
          (run ⟨t, copy⟩ s script).2.ending = some .finished) ∧
      (decode? last = none → ∀ t t',
        Alike (run ⟨t, copy⟩ s script) (run ⟨t', copy⟩ s (joinLines done)) ∧
          (run ⟨t, copy⟩ s script).2.ending = some .notText) := by
  by_cases hstops : ∃ line ∈ byteLines script, Stops line
  · obtain ⟨done, pending, last, rest, h⟩ := exists_stopsAt hstops
    refine .inr ⟨done, pending, last, rest, h, ?_, ?_, ?_⟩
    · exact fun other hother t t' => alike_of_rest h copy s t t' hother
    · exact fun hquit t t' => alike_of_isQuitLine h copy s t t' hquit
    · exact fun hnone t t' => alike_of_decode?_eq_none h copy s t t' hnone
  · have hnone : ∀ line ∈ byteLines script, ¬ Stops line := fun line hline hline' =>
      hstops ⟨line, hline, hline'⟩
    exact .inl ⟨hnone, fun t => ending_run_of_not_stops _ s hnone⟩

end Console

end Reckoner
