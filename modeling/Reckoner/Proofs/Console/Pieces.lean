import Reckoner.Proofs.Console.Blocks
import Reckoner.Proofs.Session.Calculate
import Reckoner.Proofs.Token.Gap

/-! # A document in pieces

Where numbers are added to the expression, a console may be given a document in any pieces. Blank
lines cut it into blocks, the lines of a block lose their carriage returns, and every block is read
and merged for itself. But no number goes across a line feed or a carriage return, and no block
loses a number, so the expression is in the end the one that the document gives at once. What is
shown and recorded last is then the evaluation of that expression, if it has one.

* `merged_of_combineMode`: a batch, an empty one too, goes behind the expression.
* `gathers_step`: what a line adds to what has been gathered.
* `session_of_document`: what a console has reached at the end of a document. -/

namespace Reckoner

namespace Session

/-! ### Batches that are added -/

theorem merged_of_combineMode {s : Session} (hs : s.settings.combineMode = true)
    (batch : List Reading) :
    (s.merged batch).expression = s.expression.append (batch.map Reading.operand) := by
  rw [merged, appends, hs]
  cases s.expression <;> rfl

/-- The evaluation of the expression, if it has one, is shown and was recorded last. -/
def ShowsEvaluation (s : Session) : Prop :=
  ∀ ev, s.expression.evaluation? = some ev →
    s.result = some ev.result ∧ ∃ entry, s.history.recent? 0 = some entry ∧ entry.toEvaluation = ev

theorem showsEvaluation_start (settings : Settings) : ShowsEvaluation { settings } :=
  fun _ h => nomatch h

theorem showsEvaluation_recording (now : Timestamp) (s : Session) :
    (s.recording now s.expression.evaluation?).ShowsEvaluation := by
  intro ev hev
  rw [expression_recording] at hev
  rw [hev]
  exact ⟨rfl, ⟨ev, now⟩, rfl, rfl⟩

section Ingest

variable (now : Timestamp) {s : Session} (hs : s.settings.combineMode = true) (text : List Char)

theorem settings_step_ingest : (s.step now (.ingest text)).settings = s.settings := by
  change (s.step now (.merge (s.readings text))).settings = s.settings
  cases hb : (s.readings text).isEmpty with
  | true => rw [step_merge_of_isEmpty now s hb]
  | false =>
    rw [step_merge now s hb, settings_recording]
    rfl

include hs in
theorem expression_step_ingest :
    (s.step now (.ingest text)).expression =
      s.expression.append ((s.readings text).map Reading.operand) := by
  change (s.step now (.merge (s.readings text))).expression = _
  cases hb : (s.readings text).isEmpty with
  | true =>
    rw [step_merge_of_isEmpty now s hb, List.isEmpty_iff.mp hb, List.map_nil, Expression.append_nil]
  | false => rw [step_merge now s hb, expression_recording, merged_of_combineMode hs]

theorem showsEvaluation_step_ingest (h : s.ShowsEvaluation) :
    (s.step now (.ingest text)).ShowsEvaluation := by
  change (s.step now (.merge (s.readings text))).ShowsEvaluation
  cases hb : (s.readings text).isEmpty with
  | true => rwa [step_merge_of_isEmpty now s hb]
  | false =>
    rw [step_merge now s hb]
    exact showsEvaluation_recording now _

end Ingest

end Session

namespace Console

open Session

/-! ### Blocks that are merged -/

theorem session_mergeBlock (w : Surroundings) (s : Session) (block : List Char) :
    (mergeBlock w s block).2 = s.step w.now (.ingest block) := by
  rw [mergeBlock, Session.step, Session.perform]
  cases s.ingest w.now block with
  | error fault => cases fault <;> rfl
  | ok merge => rfl

theorem step_of_isTextLine {w : Surroundings} {c : Console} {bytes : List UInt8} {line : List Char}
    (hc : c.ending = none) (hline : Text.decode? bytes = some line) (hblank : ¬ IsBlankLine bytes)
    (hcommand : ¬ IsCommandLine bytes) :
    c.step w bytes = ([], { c with block := c.block ++ line ++ ['\n'] }) := by
  have hstep : c.step w bytes = c.takeLine w line := by simp [step, hc, hline]
  rw [hstep, takeLine]
  split
  · rename_i htrim
    exact absurd (by rw [IsBlankLine, hline, Option.map_some, htrim]) hblank
  · rename_i command htrim
    exact absurd ⟨command, by rw [hline, Option.map_some, htrim]⟩ hcommand
  · rfl

/-- A console that started with these settings has gathered these readings, in its expression and in
the block that is waiting. -/
structure Gathers (settings : Settings) (readings : List Reading) (c : Console) : Prop where
  ending : c.ending = none
  settings : c.session.settings = settings
  block : ∃ lines, c.block = Text.terminated lines
  expression : c.session.expression.append ((c.session.readings c.block).map Reading.operand) =
    .sum (readings.map Reading.operand)
  shows : c.session.ShowsEvaluation

section Gathers

variable {w : Surroundings} {settings : Settings} (hcombine : settings.combineMode = true)
  {readings : List Reading} {c : Console}

theorem gathers_start (settings : Settings) : Gathers settings [] { session := { settings } } := by
  refine ⟨rfl, rfl, ⟨[], rfl⟩, ?_, showsEvaluation_start settings⟩
  rw [Session.readings, readings_nil]
  rfl

include hcombine

theorem gathers_flush (h : Gathers settings readings c) :
    Gathers settings readings (c.flush w).2 := by
  by_cases hblock : c.block = []
  · rwa [flush_of_block_eq_nil w hblock]
  · have hs : c.session.settings.combineMode = true := by rw [h.settings, hcombine]
    have hflush : (c.flush w).2 =
        { c with session := c.session.step w.now (.ingest c.block), block := [] } := by
      rw [flush, if_neg hblock, ← session_mergeBlock]
    rw [hflush]
    refine ⟨h.ending, ?_, ⟨[], rfl⟩, ?_, showsEvaluation_step_ingest w.now c.block h.shows⟩
    · rw [settings_step_ingest, h.settings]
    · rw [Session.readings, readings_nil, List.map_nil, Expression.append_nil,
        expression_step_ingest w.now hs, h.expression]

/-- **A line adds its own readings** to what has been gathered, whether it ends a block or goes into
one. -/
theorem gathers_step (h : Gathers settings readings c) {bytes : List UInt8} {line : List Char}
    (hline : Text.decode? bytes = some line) (hcommand : ¬ IsCommandLine bytes) :
    Gathers settings
      (readings ++ Reading.ofText settings.separators settings.rowMode line)
      (c.step w bytes).2 := by
  have hreadings : ∀ text, c.session.readings text =
      Reading.ofText settings.separators settings.rowMode text := fun text => by
    rw [Session.readings, h.settings]
  by_cases hblank : IsBlankLine bytes
  · have htrim : Text.trim line = [] := by
      rwa [IsBlankLine, hline, Option.map_some, Option.some.injEq] at hblank
    rw [readings_of_isBlank _ _ (Text.isBlank_of_trim_eq_nil htrim), List.append_nil,
      step_of_isBlankLine h.ending hblank]
    exact gathers_flush hcombine h
  · obtain ⟨lines, hlines⟩ := h.block
    have hblock : c.block ++ line ++ ['\n'] = Text.terminated (lines ++ [line]) := by
      simp [hlines, Text.terminated]
    have hexpression := h.expression
    rw [hreadings, hlines, readings_terminated] at hexpression
    rw [step_of_isTextLine h.ending hline hblank hcommand]
    refine ⟨h.ending, h.settings, ⟨_, hblock⟩, ?_, h.shows⟩
    dsimp only
    rw [hreadings, hblock, readings_terminated, List.flatMap_append, List.map_append,
      ← Expression.append_append, hexpression, List.flatMap_singleton, List.map_append]
    exact Expression.append_append .empty _ _

/-- A carriage return that is taken off a line would have ended a line there as well. -/
theorem gathers_step_dropReturn (h : Gathers settings readings c) {line : List Char}
    (hcommand : ¬ IsCommandLine (line.flatMap String.utf8EncodeChar)) :
    Gathers settings (readings ++ Reading.ofText settings.separators settings.rowMode line)
      (c.step w (Text.dropReturn (line.flatMap String.utf8EncodeChar))).2 := by
  obtain ⟨t, ht, hline⟩ := Text.exists_dropReturn_flatMap line
  have hreadings : Reading.ofText settings.separators settings.rowMode line =
      Reading.ofText settings.separators settings.rowMode t := by
    obtain rfl | rfl := hline
    · rfl
    · rw [readings_append_cons _ _ t [] (e := '\r') rfl, readings_nil, List.append_nil]
  rw [hreadings]
  exact gathers_step hcombine h (Text.decode?_eq_some_iff.mpr ht)
    (by rwa [isCommandLine_dropReturn])

theorem gathers_steps (h : Gathers settings readings c) {lines : List (List Char)}
    (hcommand : ∀ line ∈ lines, ¬ IsCommandLine (line.flatMap String.utf8EncodeChar)) :
    Gathers settings
      (readings ++ lines.flatMap (Reading.ofText settings.separators settings.rowMode))
      (c.steps w ((lines.map (List.flatMap String.utf8EncodeChar)).map Text.dropReturn)).2 := by
  induction lines generalizing c readings with
  | nil => simpa [steps] using h
  | cons line lines ih =>
    have hline := gathers_step_dropReturn hcombine (w := w) h (hcommand line (by simp))
    have hlines := ih hline fun l hl => hcommand l (by simp [hl])
    rw [List.flatMap_cons, ← List.append_assoc, List.map_cons]
    exact hlines

end Gathers

theorem gathers_scriptLines (w : Surroundings) {settings : Settings}
    (hcombine : settings.combineMode = true) {script : List UInt8} {text : List Char}
    (htext : Text.decode? script = some text)
    (hcommand : ∀ line ∈ Text.byteLines script, ¬ IsCommandLine line) :
    Gathers settings (Reading.ofText settings.separators settings.rowMode text)
      (steps w { session := { settings } } (Text.scriptLines script)).2 := by
  obtain ⟨lines, last, hsplit⟩ : ∃ lines last, text.splitOn '\n' = lines ++ [last] :=
    ⟨_, _, (List.dropLast_concat_getLast (List.splitOn_ne_nil '\n' text)).symm⟩
  have hbytes := Text.byteLines_flatMap text
  rw [← Text.decode?_eq_some_iff.mp htext, hsplit, List.map_append, List.map_singleton] at hbytes
  rw [hbytes] at hcommand
  have hfront : ∀ line ∈ lines, ¬ IsCommandLine (line.flatMap String.utf8EncodeChar) :=
    fun line hline => hcommand _ (by simp [List.mem_map_of_mem hline])
  have hlines := gathers_steps hcombine (w := w) (gathers_start settings) hfront
  -- what stands behind the last line feed keeps its carriage return
  have hlast := gathers_step hcombine (w := w) hlines (Text.decode?_eq_some_iff.mpr rfl)
    (hcommand (last.flatMap String.utf8EncodeChar) (by simp))
  rw [readings_lines, hsplit, List.flatMap_append, List.flatMap_singleton,
    Text.scriptLines_of_byteLines_eq hbytes, steps_append]
  exact hlast

theorem gathers_run (w : Surroundings) {settings : Settings}
    (hcombine : settings.combineMode = true)
    {script : List UInt8} {text : List Char} (htext : Text.decode? script = some text)
    (hcommand : ∀ line ∈ Text.byteLines script, ¬ IsCommandLine line) :
    (run w { settings } script).2.session.expression =
        .sum ((Reading.ofText settings.separators settings.rowMode text).map Reading.operand) ∧
      (run w { settings } script).2.session.ShowsEvaluation ∧
      (run w { settings } script).2.ending = some .finished := by
  have hsteps := gathers_scriptLines w hcombine htext hcommand
  have hflush := gathers_flush hcombine (w := w) hsteps
  have hrun : (run w { settings } script).2 =
      { ((steps w { session := { settings } } (Text.scriptLines script)).2.flush w).2 with
        ending := some .finished } := by
    rw [run_eq_readAll]
    simp [readAll, finish, hsteps.ending]
  have hexpression := hflush.expression
  rw [block_flush, Session.readings, readings_nil, List.map_nil,
    Expression.append_nil] at hexpression
  rw [hrun]
  exact ⟨hexpression, hflush.shows, rfl⟩

end Console

/-! ### The document at once -/

namespace Session

theorem calculate_start (now : Timestamp) (settings : Settings) (text : List Char) {ev : Evaluation}
    (h : (Expression.sum ((Reading.ofText settings.separators settings.rowMode text).map
      Reading.operand)).evaluate = .ok (some ev)) :
    (calculate now [] text { settings }).1 = .ok (some ⟨ev, now⟩) := by
  have hjoined :
      (Expression.joined [] ((readings { settings } text).map Reading.operand)).evaluate =
      .ok (some ev) := by
    rw [Expression.joined_nil]
    exact h
  rw [calculate_new, hjoined]

end Session

namespace Console

/-- **A document is read the same in pieces as at once**: the expression is the sum of its numbers.
If that has an evaluation, it is shown and recorded last, and it is what a new session makes of the
whole text. -/
theorem session_of_document (w : Surroundings) {settings : Settings}
    (hcombine : settings.combineMode = true) {script : List UInt8} {text : List Char}
    (htext : Text.decode? script = some text)
    (hcommand : ∀ line ∈ Text.byteLines script, ¬ IsCommandLine line) :
    (run w { settings } script).2.ending = some .finished ∧
    (run w { settings } script).2.session.expression =
      .sum ((Reading.ofText settings.separators settings.rowMode text).map Reading.operand) ∧
    ∀ now ev, (run w { settings } script).2.session.expression.evaluate = .ok (some ev) →
      ∃ entry entry',
        (Session.calculate now [] text { settings }).1 = .ok (some entry) ∧
        (run w { settings } script).2.session.history.recent? 0 = some entry' ∧
        (run w { settings } script).2.session.result = some entry.result ∧
        entry'.toEvaluation = entry.toEvaluation ∧ entry.toEvaluation = ev := by
  obtain ⟨hexpression, hshows, hending⟩ := gathers_run w hcombine htext hcommand
  refine ⟨hending, hexpression, fun now ev hev => ?_⟩
  obtain ⟨hresult, entry', hentry', heq⟩ := hshows ev (Expression.evaluation?_eq_some.mpr hev)
  rw [hexpression] at hev
  exact ⟨⟨ev, now⟩, entry', Session.calculate_start now settings text hev, hentry', hresult, heq,
    rfl⟩

/-- A number, a line without one and, behind a blank line, another number. -/
def twoBlocks : List Char := ['1', '\n', 'x', '\r', '\n', '\n', '2']

theorem session_of_twoBlocks :
    (Text.decode? (twoBlocks.flatMap String.utf8EncodeChar) = some twoBlocks ∧
      ∀ line ∈ Text.byteLines (twoBlocks.flatMap String.utf8EncodeChar), ¬ IsCommandLine line) ∧
    ∃ ev console, console = (run ⟨⟨1, 0⟩, fun _ => .ok ()⟩ { settings := { combineMode := true } }
        (twoBlocks.flatMap String.utf8EncodeChar)).2 ∧
      console.session.expression.evaluate = .ok (some ev) ∧
      ∃ entry entry',
        (Session.calculate ⟨2, 0⟩ [] twoBlocks { settings := { combineMode := true } }).1 =
          .ok (some entry) ∧
        console.session.history.recent? 0 = some entry' ∧
        console.session.result = some entry.result ∧
        entry'.toEvaluation = entry.toEvaluation ∧ entry.toEvaluation = ev := by
  have htext : Text.decode? (twoBlocks.flatMap String.utf8EncodeChar) = some twoBlocks :=
    Text.decode?_eq_some_iff.mpr rfl
  have hcolon : ∀ line ∈ twoBlocks.splitOn '\n', (Text.trim line).head? ≠ some ':' := by
    decide
  have hcommand : ∀ line ∈ Text.byteLines (twoBlocks.flatMap String.utf8EncodeChar),
      ¬ IsCommandLine line := by
    rw [Text.byteLines_flatMap, List.forall_mem_map]
    rintro line hline ⟨command, htrim⟩
    rw [Text.decode?_eq_some_iff.mpr rfl, Option.map_some, Option.some.injEq] at htrim
    exact hcolon line hline (by rw [htrim, List.head?_cons])
  have hsum : (Expression.sum ((Reading.ofText {} false twoBlocks).map
      Reading.operand)).evaluation?.isSome := by
    decide +kernel
  obtain ⟨ev, hev⟩ := Option.isSome_iff_exists.mp hsum
  obtain ⟨-, hexpression, hcalculate⟩ := session_of_document ⟨⟨1, 0⟩, fun _ => .ok ()⟩
    (show ({ combineMode := true } : Settings).combineMode = true from rfl) htext hcommand
  have hrun := hexpression ▸ Expression.evaluation?_eq_some.mp hev
  exact ⟨⟨htext, hcommand⟩, ev, _, rfl, hrun, hcalculate ⟨2, 0⟩ ev hrun⟩

end Console

end Reckoner
