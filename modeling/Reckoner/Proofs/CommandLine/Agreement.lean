import Reckoner.CommandLine.Run
import Reckoner.Proofs.Display.Layout
import Reckoner.Proofs.Session.Calculate
import Reckoner.Proofs.Session.Finite
import Reckoner.Proofs.Text.Utf8
import Reckoner.Proofs.Token.Gap

/-! # Two jobs on one text

A text may be shown number by number, and it may be worked out. Both jobs find the same numbers:
what is worked out is written as the lines that are shown, with the operators between them and the
result behind an equals sign. Where the numbers cannot be worked out, the run says why: there are
none, or a step fails. An operator that is no symbol is named before any of this.

* `outputLines_lines`: the lines that are written are read off the output.
* `listOfText_cases`: the operators that are typed, or the first character that is none.
* `tells_evaluate`: what is said about the numbers of a text.
* `parse_and_evaluate_agree`: the two jobs together. -/

namespace Reckoner

/-! ### Operators that are typed -/

namespace Operator

/-- The characters that an operator may be typed with. -/
def spellings : List Char := ['+', '-', '−', '*', 'x', '×', '/', '÷']

/-- Whether a character is neither a blank nor a symbol of an operator. -/
def isUnknown (c : Char) : Bool := !Text.isBlank c && !spellings.contains c

theorem ofChar?_eq_none_iff {c : Char} : ofChar? c = none ↔ c ∉ spellings := by
  unfold ofChar? spellings
  split <;> simp_all

/-- **The operators that are typed**, one for each character that is no blank, or the first
character that is no symbol. -/
theorem listOfText_cases (s : List Char) :
    (∃ c, s.find? isUnknown = some c ∧ listOfText s = .error c) ∨
      (s.find? isUnknown = none ∧
        ∃ ops, (Text.compact s).map ofChar? = ops.map some ∧ listOfText s = .ok ops) := by
  induction s with
  | nil => exact .inr ⟨rfl, [], rfl, rfl⟩
  | cons c s ih =>
    by_cases hblank : Text.isBlank c
    · -- a blank is passed over
      have hcompact : Text.compact (c :: s) = Text.compact s := by simp [Text.compact, hblank]
      rw [List.find?_cons_of_neg (by simp [isUnknown, hblank]), listOfText, hcompact]
      exact ih
    · have hcompact : Text.compact (c :: s) = c :: Text.compact s := by simp [Text.compact, hblank]
      rw [listOfText, hcompact, List.mapM_cons, ← listOfText]
      cases hop : ofChar? c with
      | none =>
        have hunknown := ofChar?_eq_none_iff.mp hop
        exact .inl ⟨c, List.find?_cons_of_pos (by simp [isUnknown, hblank, hunknown]), rfl⟩
      | some op =>
        have hknown : c ∈ spellings := by
          by_contra hc
          rw [ofChar?_eq_none_iff.mpr hc] at hop
          exact absurd hop (by simp)
        rw [List.find?_cons_of_neg (by simp [isUnknown, hknown])]
        rcases ih with ⟨c', hfind, herror⟩ | ⟨hfind, ops, hops, hok⟩
        · exact .inl ⟨c', hfind, by rw [herror]; rfl⟩
        · refine .inr ⟨hfind, op :: ops, ?_, by rw [hok]; rfl⟩
          rw [List.map_cons, hop, hops, List.map_cons]

end Operator

/-! ### A row of numbers in writing -/

/-- What is shown of numbers, with the operators between them from a list that is used over and
over. -/
def inRow (ops : List Operator) (first : List Char) (others : List (List Char)) : List Char :=
  first ++
    (others.mapIdx fun i line => ' ' :: (Operator.cycled ops i).symbol :: ' ' :: line).flatten

theorem chainText_steps (write : Float → List Char) (x : Float) (steps : List (Operator × Float)) :
    chainText write (x :: steps.map Prod.snd) (steps.map Prod.fst) =
      write x ++ (steps.map fun p => ' ' :: p.1.symbol :: ' ' :: write p.2).flatten := by
  induction steps generalizing x with
  | nil => exact (List.append_nil _).symm
  | cons p steps ih =>
    rw [List.map_cons, List.map_cons, chainText, ih, List.map_cons, List.flatten_cons]
    simp only [List.append_assoc, List.cons_append, List.nil_append]

theorem chainText_cycled (write : Float → List Char) (ops : List Operator) (x : Float)
    (xs : List Float) :
    chainText write (x :: xs) ((cycledSteps ops xs).map Prod.fst) =
      inRow ops (write x) (xs.map write) := by
  have hnumbers : (cycledSteps ops xs).map Prod.snd = xs := by
    rw [cycledSteps, map_mapIdx, mapIdx_const fun y => y, List.map_id']
  have hsteps := chainText_steps write x (cycledSteps ops xs)
  rw [hnumbers] at hsteps
  rw [hsteps, inRow, mapIdx_map, cycledSteps, map_mapIdx]

namespace CommandLine

/-! ### What a run writes -/

/-- The lines of the output, without their ends. -/
def Outcome.outputLines (o : Outcome) : List (List Char) := (o.output.toList.splitOn '\n').dropLast

/-- A run that writes nothing but a message about its failure. -/
structure Outcome.FailsWith (o : Outcome) (message : String) : Prop where
  output : o.output = ""
  errors : o.errors = "Error: " ++ message ++ "\n"
  exitCode : o.exitCode = 1

theorem failsWith_failed {f : Failure} (h : f.cause? = none) :
    (Outcome.failed f).FailsWith f.message where
  output := rfl
  errors := by
    have hreport : (Outcome.failed f).errors = "" ++ f.report := rfl
    rw [hreport, Failure.report, h, String.empty_append, String.append_empty]
  exitCode := rfl

/-- **Lines that are written are read off the output** if no line ends inside one of them. -/
theorem outputLines_lines {lines : List (List Char)} (h : ∀ line ∈ lines, '\n' ∉ line) :
    (Outcome.lines (lines.map String.ofList)).outputLines = lines := by
  have htext : (Outcome.lines (lines.map String.ofList)).output.toList = Text.terminated lines := by
    rw [Outcome.lines, ofLines, String.toList_join, List.map_map, List.flatMap_map]
    simp [Text.terminated]
  rw [Outcome.outputLines, htext, Text.splitOn_terminated h, List.dropLast_concat]

/-! ### The numbers of a text, shown and worked out -/

theorem newline_not_mem_display (c : Separators) {x : Float} (hx : x.isFinite) :
    '\n' ∉ display c x := by
  have hmark : ∀ slot : Separator, slot.mark? ≠ some '\n' := by
    intro slot
    cases slot <;> decide
  intro hmem
  rcases mem_display_of_isFinite hx hmem with h | h | h | h
  · exact absurd h (by decide)
  · exact absurd h (by decide)
  · exact hmark _ h
  · exact hmark _ h

theorem outputLines_parse (s : Settings) (text : List Char) :
    (parse s false text).outputLines =
      (Reading.ofText s.separators s.rowMode text).map fun r => display s.separators r.value := by
  unfold parse
  dsimp only
  rw [if_neg (by decide)]
  by_cases hempty : (Reading.ofText s.separators s.rowMode text).isEmpty
  · rw [if_pos hempty, List.isEmpty_iff.mp hempty]
    rfl
  · have hnewline : ∀ line ∈ (Reading.ofText s.separators s.rowMode text).map fun r =>
        display s.separators r.value, '\n' ∉ line := by
      intro line hline
      obtain ⟨r, hr, rfl⟩ := List.mem_map.mp hline
      exact newline_not_mem_display _ (isFinite_of_mem_ofText hr)
    have hlines := outputLines_lines hnewline
    rw [List.map_map] at hlines
    rw [if_neg hempty]
    exact hlines

/-- What a run says about numbers and the lines that are shown of them, with operators from a list
that is used over and over: that there is no number, the row with its result, or why the first step
that fails does so. -/
inductive Tells (c : Separators) (json : Bool) (ops : List Operator) (o : Outcome) :
    List (List Char) → List Float → Prop where
  | noNumbers (message : o.FailsWith "No numbers found in the recognized text") :
      Tells c json ops o [] []
  | result {line : List Char} {lines : List (List Char)} {x : Float} {xs : List Float}
      (workable : Workable x (cycledSteps ops xs)) (exitCode : o.exitCode = 0)
      (errors : o.errors = "")
      (output : json = false → o.output = String.ofList (inRow ops line lines ++ [' ', '=', ' '] ++
        display c (applyAll x (cycledSteps ops xs))) ++ "\n") :
      Tells c json ops o (line :: lines) (x :: xs)
  | failed {line : List Char} {lines : List (List Char)} {x : Float} {xs : List Float}
      {fault : Fault}
      (unworkable : ¬ Workable x (cycledSteps ops xs))
      (first : FailsAt 1 x (cycledSteps ops xs) fault)
      (message : o.FailsWith fault.message) : Tells c json ops o (line :: lines) (x :: xs)

/-- **What is said about the numbers of a text** that is worked out. -/
theorem tells_evaluate (w : World) (s : Settings) (json : Bool) (ops : List Operator)
    (text : List Char) :
    Tells s.separators json ops (evaluate w s json ops text)
      ((Reading.ofText s.separators s.rowMode text).map fun r => display s.separators r.value)
      ((Reading.ofText s.separators s.rowMode text).map Reading.value) := by
  have hanswer := Session.calculate_new w.surroundings.now s ops text
  have hreadings : Session.readings { settings := s } text =
      Reading.ofText s.separators s.rowMode text := rfl
  rw [hreadings] at hanswer
  unfold evaluate
  rw [hanswer]
  cases Reading.ofText s.separators s.rowMode text with
  | nil => exact .noNumbers (failsWith_failed rfl)
  | cons r batch =>
    have hvalues : (batch.map Reading.operand).map Operand.value = batch.map Reading.value :=
      List.map_map ..
    have hcases := Expression.evaluate_joined ops r.operand (batch.map Reading.operand)
    rw [hvalues] at hcases
    rw [List.map_cons, List.map_cons, List.map_cons]
    rcases hcases with ⟨hwork, hev⟩ | ⟨hwork, fault, hfails, hev⟩
    · rw [hev]
      refine .result hwork rfl rfl fun hjson => ?_
      have hrow := chainText_cycled (display s.separators) ops r.value (batch.map Reading.value)
      rw [List.map_map] at hrow
      subst hjson
      have houtput : ∀ line : String, (Outcome.lines [line]).output = line ++ "\n" := fun line => by
        simp [Outcome.lines, ofLines]
      dsimp only
      rw [houtput, if_neg (by decide)]
      refine congrArg (fun row => String.ofList row ++ "\n") ?_
      exact congrArg (· ++ [' ', '=', ' '] ++ display s.separators
        (applyAll r.value (cycledSteps ops (batch.map Reading.value)))) hrow
    · rw [hev]
      exact .failed hwork hfails (failsWith_failed rfl)

section Outcome

variable {w : World} {o : Options} {s : Settings} (hs : settings w o = .ok s) {input : Input}
  {text : List Char} (htext : textOf w input = .ok text)
include hs htext

theorem outcome_parse : outcome w o (.parse input) = parse s o.json text := by
  unfold outcome perform
  rw [hs]
  dsimp only [Bind.bind, Except.bind]
  rw [htext]
  rfl

theorem outcome_evaluate (given : Option (List Char)) :
    outcome w o (.evaluate input given) =
      match Operator.listOfText (given.getD []) with
      | .error c => .failed (.unknownOperator c)
      | .ok ops => evaluate w s o.json ops text := by
  have hgiven : operatorsOf given =
      (Operator.listOfText (given.getD [])).mapError .unknownOperator := by
    cases given <;> rfl
  unfold outcome perform
  rw [hs]
  dsimp only [Bind.bind, Except.bind]
  rw [htext, hgiven]
  cases Operator.listOfText (given.getD []) <;> rfl

/-- **The two jobs agree.** The lines that are shown are the values of the text. Where a character
of the operators is no symbol, the other job fails naming the first of them. Otherwise it tells what
the same values come to with the operators, those of no or blank operators being additions. -/
theorem parse_and_evaluate_agree (given : Option (List Char)) :
    let values := (Reading.ofText s.separators s.rowMode text).map Reading.value
    let shown := (outcome w { o with json := false } (.parse input)).outputLines
    let asked := outcome w o (.evaluate input given)
    let symbols := given.getD []
    shown = values.map (display s.separators) ∧
      (∀ c, symbols.find? Operator.isUnknown = some c →
        asked.FailsWith ("Unknown operator '" ++ String.ofList [c] ++ "'")) ∧
      (symbols.find? Operator.isUnknown = none →
        ∃ ops, (Text.compact symbols).map Operator.ofChar? = ops.map some ∧
          Tells s.separators o.json ops asked shown values) := by
  intro values shown asked symbols
  have hshown : shown = (Reading.ofText s.separators s.rowMode text).map fun r =>
      display s.separators r.value := by
    have hparse := @outcome_parse w { o with json := false } s hs input text htext
    rw [← outputLines_parse, ← hparse]
  have hasked : asked = _ := outcome_evaluate hs htext given
  refine ⟨?_, ?_⟩
  · rw [hshown, List.map_map]
    rfl
  rcases Operator.listOfText_cases symbols with ⟨c, hfind, herror⟩ | ⟨hfind, ops, hops, hok⟩
  · rw [hfind]
    refine ⟨fun c' hc' => ?_, nofun⟩
    obtain rfl := Option.some.inj hc'
    rw [hasked, herror]
    exact failsWith_failed rfl
  · rw [hfind]
    refine ⟨nofun, fun _ => ⟨ops, hops, ?_⟩⟩
    rw [hasked, hok, hshown]
    exact tells_evaluate w s o.json ops text

end Outcome

/-- A seven and a zero on the standard input, and no files. -/
def sevenAndZero : World where
  surroundings := ⟨⟨0, 0⟩, fun _ => .ok ()⟩
  input := [55, 10, 48]
  read _ := .error .notFound
  userSettings := none

theorem textOf_sevenAndZero : textOf sevenAndZero .standard = .ok ['7', '\n', '0'] := by
  have hdecode : Text.decode? sevenAndZero.input = some ['7', '\n', '0'] :=
    Text.decode?_eq_some_iff.mpr rfl
  rw [textOf, hdecode]

/-- The two numbers with a division between them. -/
theorem parse_and_evaluate_agree_sevenByZero :
    (settings sevenAndZero {} = .ok {} ∧ textOf sevenAndZero .standard = .ok ['7', '\n', '0']) ∧
      let values := (Reading.ofText {} false ['7', '\n', '0']).map Reading.value
      let shown := (outcome sevenAndZero {} (.parse .standard)).outputLines
      shown = values.map (display {}) ∧
        Tells {} false [.divide] (outcome sevenAndZero {} (.evaluate .standard (some ['/']))) shown
          values := by
  obtain ⟨hshown, -, hasked⟩ :=
    parse_and_evaluate_agree (o := {}) (s := {}) rfl textOf_sevenAndZero (some ['/'])
  obtain ⟨ops, hops, htells⟩ := hasked rfl
  have hdivide : ops = [.divide] :=
    List.map_injective_iff.mpr (Option.some_injective Operator) hops.symm
  subst hdivide
  exact ⟨⟨rfl, textOf_sevenAndZero⟩, hshown, htells⟩

end CommandLine

end Reckoner
