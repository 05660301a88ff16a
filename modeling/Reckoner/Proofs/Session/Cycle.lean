import Reckoner.Proofs.Session.Calculate
import Reckoner.Proofs.Session.InPlace
import Reckoner.Proofs.Session.Result

/-! # Operators that are used over and over

A calculation in one go merges the numbers of a text, sets the operators, which begin again where
there are more places than operators, and evaluates once more. Every place is there when its
operator is set, and the expression has operands, so neither the operators nor the answer can be
missing. The answer is the entry that the last evaluation has recorded, whether or not the sum
behind the merge has an evaluation: it does not read what the first evaluation left.

* `takeCycle_drop`: a list that is gone through over and over.
* `procedure_setOperators`, `procedure_calculate`: step by step, it is the calculation.
* `entryOf_evaluate`, `calculate_eq`: the answer of any session.
* `workedOut_calculate`: the expression, the answer and the history of a new session.
* `calculate_of_text`: a calculation from its text on. -/

namespace Reckoner

/-! ### Going through a list over and over -/

/-- The first elements of a list that is gone through over and over, starting with what is left of
it. -/
def takeCycle {α : Type} (all : List α) : List α → Nat → List α
  | _, 0 => []
  | x :: rest, n + 1 => x :: takeCycle all rest n
  | [], n + 1 =>
    match all with
    | [] => []
    | x :: rest => x :: takeCycle all rest n

theorem takeCycle_drop {α : Type} {all : List α} (h : all ≠ []) (d : α) {k : Nat}
    (hk : k ≤ all.length) (n : Nat) : takeCycle all (all.drop k) n =
      (List.range n).map fun i => all.getD ((k + i) % all.length) d := by
  induction n generalizing k with
  | zero => cases all.drop k <;> rfl
  | succ n ih =>
    rw [List.range_succ_eq_map, List.map_cons, List.map_map]
    rcases Nat.lt_or_eq_of_le hk with hlt | rfl
    · rw [List.drop_eq_getElem_cons hlt, takeCycle, ih hlt, Nat.add_zero, Nat.mod_eq_of_lt hlt,
        List.getD_eq_getElem _ _ hlt]
      refine congrArg (_ :: ·) (List.map_congr_left fun i _ => ?_)
      rw [Function.comp, Nat.succ_eq_add_one, Nat.add_assoc, Nat.add_comm 1]
    · -- the list begins again
      obtain ⟨x, rest, rfl⟩ := List.exists_cons_of_ne_nil h
      have hrest := @ih 1 (by simp)
      rw [List.drop_succ_cons, List.drop_zero] at hrest
      rw [List.drop_length, takeCycle, hrest, Nat.add_zero, Nat.mod_self, List.getD_cons_zero]
      refine congrArg (_ :: ·) (List.map_congr_left fun i _ => ?_)
      rw [Function.comp, Nat.add_mod_left, Nat.add_comm]

example : takeCycle [1, 2, 3] [1, 2, 3] 7 = [1, 2, 3, 1, 2, 3, 1] := rfl

namespace Session

/-! ### Step by step -/

namespace Procedure

/-- Sets operators one after another, the first of them behind the operand at `index`. -/
def setOperators (index : Nat) : List Operator → Procedure Unit
  | [] => return ()
  | op :: ops => do
    setOperator index op
    setOperators (index + 1) ops

/-- Sets the operators if any are given and works the expression out with them. Otherwise the
evaluation behind the merge stands. -/
def workOut (now : Timestamp) (m : Merge) : Option (List Operator) → Procedure (Option Float)
  | some (op :: ops) => do
    let slots := (← get).expression.length - 1
    setOperators 0 (takeCycle (op :: ops) (op :: ops) slots)
    evaluate now
  | _ => MonadExcept.ofExcept m.evaluation

/-- Reads a text, works it out with the operators that are given and answers with the newest
entry. -/
def calculate (now : Timestamp) (ops : Option (List Operator)) (text : List Char) :
    Procedure (Option Entry) := do
  let m ← merge now ((← get).readings text)
  let _ ← workOut now m ops
  return (← get).history.recent? 0

end Procedure

/-- What is left in place of an answer and the session that comes with it. -/
def kept {α : Type} : Except Fault α × Session → EStateM.Result Fault Session α
  | (.ok x, s) => .ok x s
  | (.error fault, s) => .error fault s

/-- **Setting operators one after another** puts them in front of the operands that follow, in
order. -/
theorem procedure_setOperators (ops : List Operator) (s : Session) (first : Operand)
    (front : List Link) {back : List Link} (h : s.expression = .chain first (front ++ back))
    (hlength : back.length = ops.length) :
    Procedure.setOperators front.length ops s =
      .ok () { s with
        expression :=
          .chain first (front ++ ops.zipWith (fun op l => { l with operator := op }) back) } := by
  induction ops generalizing s front back with
  | nil =>
    obtain rfl := List.length_eq_zero_iff.mp hlength
    rw [List.zipWith_nil_left, ← h]
    rfl
  | cons op ops ih =>
    obtain ⟨l, back, rfl⟩ := List.exists_cons_of_length_eq_add_one hlength
    have hset : s.setOperator front.length op =
        .ok { s with expression := .chain first (front ++ { l with operator := op } :: back) } := by
      have hslot :
          front.length < (Expression.chain first (front ++ l :: back)).operators.length := by
        simp [Expression.operators]
      rw [setOperator, h, Expression.setOperator, if_pos hslot, List.modify_eq_take_drop,
        List.take_left, List.drop_left]
      rfl
    have hrest :=
      @ih { s with expression := .chain first (front ++ { l with operator := op } :: back) }
      (front ++ [{ l with operator := op }]) back (by simp) (by simpa using hlength)
    rw [List.length_append, List.length_singleton, List.append_assoc] at hrest
    rw [Procedure.setOperators, procedure_bind, procedure_setOperator, hset]
    exact hrest

/-- **Setting as many operators as there are places** from a list that is used over and over. -/
theorem procedure_setOperators_cycle (op : Operator) (ops : List Operator) (s : Session) :
    Procedure.setOperators 0 (takeCycle (op :: ops) (op :: ops) (s.expression.length - 1)) s =
      .ok () (s.cycleOperators (op :: ops)) := by
  cases he : s.expression with
  | empty =>
    have hsame : s.cycleOperators (op :: ops) = s := by
      rw [cycleOperators, he, Expression.cycleOperators, ← he]
    rw [hsame]
    rfl
  | chain first links =>
    have hslots : (Expression.chain first links).length - 1 = links.length := by
      simp [Expression.length, Expression.operands]
    have hcycle := takeCycle_drop (List.cons_ne_nil op ops) op (Nat.zero_le _) links.length
    rw [List.drop_zero] at hcycle
    have hset := procedure_setOperators (takeCycle (op :: ops) (op :: ops) links.length) s first []
      he (by rw [hcycle, List.length_map, List.length_range])
    have hlinks : List.zipWith (fun op l => { l with operator := op })
        (takeCycle (op :: ops) (op :: ops) links.length) links =
          links.mapIdx fun i l =>
            { l with operator := (op :: ops).getD (i % (ops.length + 1)) op } := by
      refine List.ext_getElem? fun i => ?_
      rw [hcycle, List.getElem?_zipWith, List.getElem?_mapIdx, List.getElem?_map]
      cases hl : links[i]? with
      | none => simp
      | some l =>
        have hi : i < links.length := (List.getElem?_eq_some_iff.mp hl).1
        simp [List.getElem?_range hi]
    rw [hlinks] at hset
    rw [hslots, cycleOperators, he, Expression.cycleOperators]
    exact hset

/-- **A calculation in place is the calculation**: it gives the same answer or fails with the same
fault, and the session that is left is the same. -/
theorem procedure_calculate (now : Timestamp) (ops : Option (List Operator)) (text : List Char)
    (s : Session) :
    Procedure.calculate now ops text s = kept (calculate now (ops.getD []) text s) := by
  rw [Procedure.calculate, get_bind, procedure_bind, procedure_merge, calculate, ingest]
  cases s.merge now (s.readings text) with
  | error fault => rfl
  | ok merged =>
    obtain ⟨⟨mode, added, evaluation⟩, s'⟩ := merged
    change (Procedure.workOut now ⟨mode, added, evaluation⟩ ops >>= _) s' = _
    obtain - | - | ⟨op, ops⟩ := ops
    · cases evaluation <;> rfl
    · cases evaluation <;> rfl
    · rw [procedure_bind, Procedure.workOut, get_bind, procedure_bind, procedure_setOperators_cycle]
      dsimp only
      rw [procedure_evaluate, Option.getD_some, if_neg (List.cons_ne_nil op ops)]
      cases (s'.cycleOperators (op :: ops)).evaluate now <;> rfl

/-! ### The answer -/

/-- The answer that an evaluation gives: its entry or its fault. -/
def entryOf (now : Timestamp) (outcome : Except Fault (Option Evaluation)) :
    Except Fault (Option Entry) :=
  outcome.map (Option.map (⟨·, now⟩))

theorem entryOf_evaluate {e : Expression} (he : e ≠ .empty) (now : Timestamp) :
    entryOf now e.evaluate ≠ .ok none ∧
      ∀ index length, entryOf now e.evaluate ≠ .error (.outOfRange index length) := by
  cases hev : e.evaluate with
  | error fault =>
    refine ⟨nofun, fun index length h => ?_⟩
    obtain rfl := Except.error.inj h
    obtain ⟨position, hfault⟩ | hfault := Expression.fault_of_evaluate hev <;> exact nomatch hfault
  | ok ev =>
    cases ev with
    | none => exact absurd (Expression.evaluate_eq_ok_none_iff.mp hev) he
    | some ev => exact ⟨nofun, nofun⟩

/-- The session that has taken in a text and has the operators set. -/
def prepared (now : Timestamp) (ops : List Operator) (text : List Char) (s : Session) : Session :=
  (s.step now (.ingest text)).cycleOperators ops

section Calculate

variable (now : Timestamp) (s : Session) {text : List Char}

theorem calculate_of_isEmpty (ops : List Operator) (h : (s.readings text).isEmpty) :
    calculate now ops text s = (.error .noNumbers, s) := by
  rw [calculate, ingest, merge, if_pos h]

theorem evaluate_eq (he : s.expression ≠ .empty) :
    (match s.evaluate now with
      | .error fault => (.error fault, s)
      | .ok (_, s') => (.ok (s'.history.recent? 0), s')) =
        (entryOf now s.expression.evaluate, s.step now .evaluate) := by
  rw [step_evaluate, Expression.evaluation?, evaluate]
  cases hev : s.expression.evaluate with
  | error fault => rfl
  | ok ev =>
    cases ev with
    | none => exact absurd (Expression.evaluate_eq_ok_none_iff.mp hev) he
    | some ev => rfl

variable (h : (s.readings text).isEmpty = false)
include h

theorem step_ingest : s.step now (.ingest text) =
    (s.merged (s.readings text)).recording now
      (s.merged (s.readings text)).expression.evaluation? :=
  step_merge now s h

theorem expression_prepared_ne_empty (ops : List Operator) :
    (s.prepared now ops text).expression ≠ .empty := by
  have hmerged := expression_merged_ne_empty s h
  have hexpression := expression_recording now (s.merged (s.readings text))
    (s.merged (s.readings text)).expression.evaluation?
  rw [← step_ingest now s h] at hexpression
  rw [← hexpression] at hmerged
  cases ops with
  | nil => exact hmerged
  | cons op ops =>
    rw [prepared, cycleOperators]
    cases hchain : (s.step now (.ingest text)).expression with
    | empty => exact absurd hchain hmerged
    | chain first links =>
      intro hempty
      cases hempty

/-- **The answer is that of the expression with the operators set**, whatever the sum has come to
that it was before. -/
theorem calculate_eq (ops : List Operator) :
    calculate now ops text s =
      (entryOf now (s.prepared now ops text).expression.evaluate,
        if ops = [] then s.prepared now ops text
        else (s.prepared now ops text).step now .evaluate) := by
  have hne := expression_prepared_ne_empty now s h ops
  rw [calculate, ingest, merge_eq now s h, ← step_ingest now s h]
  dsimp only
  by_cases hops : ops = []
  · -- the evaluation behind the merge is the answer
    subst hops
    have hprepared : s.prepared now [] text = s.step now (.ingest text) := rfl
    rw [if_pos rfl, if_pos rfl, hprepared]
    rw [hprepared] at hne
    rw [step_ingest now s h, expression_recording, Expression.evaluation?] at *
    cases hev : (s.merged (s.readings text)).expression.evaluate with
    | error fault => rfl
    | ok ev =>
      cases ev with
      | none => exact absurd (Expression.evaluate_eq_ok_none_iff.mp hev) hne
      | some ev => rfl
  · rw [if_neg hops, if_neg hops]
    exact evaluate_eq now (s.prepared now ops text) hne

end Calculate

/-! ### A new session -/

/-- A new session has worked out readings with operators that are used over and over: the operators
stand between the operands, the newest entry is the answer if all steps can be worked in and the
first step that cannot gives the fault if not, and what is recorded is the sum, if it has an
evaluation, and the answer. -/
structure WorkedOut (now : Timestamp) (ops : List Operator) (r : Reading) (batch : List Reading)
    (answer : Except Fault (Option Entry)) (s : Session) : Prop where
  operands : s.expression.operands = (r :: batch).map Reading.operand
  length_operators : s.expression.operators.length = batch.length
  operators : ∀ i < batch.length, s.expression.operators[i]? = ops[i % ops.length]?
  answer_eq_ok : Workable r.value (cycledSteps ops (batch.map Reading.value)) →
    answer = .ok (s.history.recent? 0) ∧
      s.history.recent? 0 = some ⟨⟨s.expression.values, s.expression.operators,
        applyAll r.value (cycledSteps ops (batch.map Reading.value))⟩, now⟩
  answer_eq_error : ¬ Workable r.value (cycledSteps ops (batch.map Reading.value)) →
    ∃ fault, FailsAt 1 r.value (cycledSteps ops (batch.map Reading.value)) fault ∧
      answer = .error fault
  entries : s.history.entries =
    ((Expression.sum ((r :: batch).map Reading.operand)).evaluation?.toList ++
      s.expression.evaluation?.toList).map (⟨·, now⟩)

section Start

variable (now : Timestamp) {settings : Settings} {text : List Char} {r : Reading}
  {batch : List Reading} (h : readings { settings } text = r :: batch)
include h

theorem expression_prepared_start (ops : List Operator) :
    (prepared now ops text { settings }).expression =
      Expression.joined ops ((r :: batch).map Reading.operand) := by
  have hmerged := merged_start settings (r :: batch)
  have hne : (readings { settings } text).isEmpty = false := by rw [h]; rfl
  have hstep := step_ingest now { settings } hne
  rw [h] at hstep
  have hexpression : (step now { settings } (.ingest text)).expression =
      .sum ((r :: batch).map Reading.operand) := by
    rw [hstep, expression_recording, hmerged]
  cases ops with
  | nil => rw [Expression.joined_nil, ← hexpression]; rfl
  | cons op ops =>
    rw [prepared, cycleOperators, hexpression, Expression.cycleOperators_sum]

theorem entries_prepared_start (ops : List Operator) :
    (prepared now ops text { settings }).history.entries =
      (Expression.sum ((r :: batch).map Reading.operand)).evaluation?.toList.map (⟨·, now⟩) := by
  have hcompleted : completed? { settings } (.ingest text) =
      (Expression.sum ((r :: batch).map Reading.operand)).evaluation? := by
    rw [completed?, target?, h, if_neg (by simp), Option.bind_some, merged_start]
  have hentries := entries_step now { settings } (.ingest text)
  rw [hcompleted] at hentries
  have hhistory : (prepared now ops text { settings }).history =
      (step now { settings } (.ingest text)).history := by
    cases ops <;> rfl
  rw [hhistory, hentries]
  cases (Expression.sum ((r :: batch).map Reading.operand)).evaluation? <;> rfl

theorem workedOut_calculate {ops : List Operator} (hops : ops ≠ []) :
    WorkedOut now ops r batch (calculate now ops text { settings }).1
      (calculate now ops text { settings }).2 := by
  have hne : (readings { settings } text).isEmpty = false := by rw [h]; rfl
  have hexpression := expression_prepared_start now h ops
  have hentries := entries_prepared_start now h ops
  have hvalues : (batch.map Reading.operand).map Operand.value = batch.map Reading.value :=
    List.map_map ..
  have hcases := Expression.evaluate_joined ops r.operand (batch.map Reading.operand)
  rw [hvalues] at hcases
  rw [calculate_eq now { settings } hne, if_neg hops, step_evaluate]
  have hjoined : ((prepared now ops text { settings }).recording now
      (prepared now ops text { settings }).expression.evaluation?).expression =
        Expression.joined ops (r.operand :: batch.map Reading.operand) := by
    rw [expression_recording, hexpression, List.map_cons]
  have hoperators := Expression.operators_joined ops r.operand (batch.map Reading.operand)
  constructor
  · rw [hjoined, Expression.operands_joined, List.map_cons]
  · rw [hjoined, hoperators, List.length_mapIdx, List.length_map]
  · intro i hi
    have hlt : i % ops.length < ops.length := Nat.mod_lt _ (List.length_pos_iff.mpr hops)
    rw [hjoined, hoperators, List.getElem?_mapIdx, List.getElem?_map, List.getElem?_eq_getElem hi,
      List.getElem?_eq_getElem hlt, Operator.cycled, List.getD_eq_getElem _ _ hlt]
    rfl
  · intro hwork
    rcases hcases with ⟨-, hev⟩ | ⟨hnot, -⟩
    · have hsome := Expression.evaluation?_eq_some.mpr hev
      obtain ⟨-, hnumbers, hops, -⟩ := Expression.evaluation?_eq_some_iff.mp hsome
      rw [hjoined, ← hnumbers, ← hops, hexpression, List.map_cons, hsome, hev]
      exact ⟨rfl, rfl⟩
    · exact absurd hwork hnot
  · intro hwork
    rcases hcases with ⟨hall, -⟩ | ⟨-, fault, hfails, hev⟩
    · exact absurd hall hwork
    · refine ⟨fault, hfails, ?_⟩
      rw [hexpression, List.map_cons, hev]
      rfl
  · rw [hjoined, hexpression, List.map_cons, List.map_append, ← List.map_cons, ← hentries]
    cases (Expression.joined ops ((r :: batch).map Reading.operand)).evaluation? with
    | none => simp [recording]
    | some ev => simp [recording, History.entries_record]

end Start

/-- **One calculation in one go.** Done step by step, it is the calculation, and an empty list of
operators is as good as none. A text without numbers is refused, and nothing has changed. Otherwise
there is an entry or a fault of the evaluation, in any session: no place for an operator is missing.
A new session has worked out the numbers with the operators that are given. -/
theorem calculate_of_text (now : Timestamp) (text : List Char) :
    (∀ s ops, Procedure.calculate now ops text s = kept (calculate now (ops.getD []) text s)) ∧
    (∀ s, Procedure.calculate now (some []) text s = Procedure.calculate now none text s) ∧
    (∀ s ops, s.readings text = [] → calculate now ops text s = (.error .noNumbers, s)) ∧
    (∀ s ops, (calculate now ops text s).1 ≠ .ok none ∧
      ∀ index length, (calculate now ops text s).1 ≠ .error (.outOfRange index length)) ∧
    ∀ settings r batch ops, readings { settings } text = r :: batch → ops ≠ [] →
      WorkedOut now ops r batch (calculate now ops text { settings }).1
        (calculate now ops text { settings }).2 := by
  refine ⟨fun s ops => procedure_calculate now ops text s, fun s => ?_, fun s ops h => ?_,
    fun s ops => ?_, fun settings r batch ops h => workedOut_calculate now h⟩
  · rw [procedure_calculate, procedure_calculate]
    rfl
  · exact calculate_of_isEmpty now s ops (by rw [h]; rfl)
  · cases h : (s.readings text).isEmpty with
    | true =>
      rw [calculate_of_isEmpty now s ops h]
      exact ⟨nofun, nofun⟩
    | false =>
      rw [calculate_eq now s h]
      exact entryOf_evaluate (expression_prepared_ne_empty now s h ops) now

/-- Three numbers that are worked out without precedence, and a text without numbers. -/
theorem calculate_of_threeNumbers :
    (readings {} [] = [] ∧
      readings {} ['9', '\n', '8', '\n', '7'] = [⟨9, ['9']⟩, ⟨8, ['8']⟩, ⟨7, ['7']⟩] ∧
      [Operator.add, .multiply] ≠ []) ∧
    calculate ⟨0, 0⟩ [.add, .multiply] [] {} = (.error .noNumbers, {}) ∧
    WorkedOut ⟨0, 0⟩ [.add, .multiply] ⟨9, ['9']⟩ [⟨8, ['8']⟩, ⟨7, ['7']⟩]
      (calculate ⟨0, 0⟩ [.add, .multiply] ['9', '\n', '8', '\n', '7'] {}).1
      (calculate ⟨0, 0⟩ [.add, .multiply] ['9', '\n', '8', '\n', '7'] {}).2 := by
  have hnone : readings {} [] = [] := by decide +kernel
  have hread : readings {} ['9', '\n', '8', '\n', '7'] = [⟨9, ['9']⟩, ⟨8, ['8']⟩, ⟨7, ['7']⟩] := by
    have hpairs : (readings {} ['9', '\n', '8', '\n', '7']).map (fun r => (r.value, r.source)) =
        [(9, ['9']), (8, ['8']), (7, ['7'])] := by decide +kernel
    have hinj : Function.Injective fun r : Reading => (r.value, r.source) := by
      rintro ⟨x, s⟩ ⟨y, t⟩ h
      obtain ⟨rfl, rfl⟩ := Prod.mk.inj h
      rfl
    exact List.map_injective_iff.mpr hinj hpairs
  obtain ⟨-, -, hempty, -, -⟩ := calculate_of_text ⟨0, 0⟩ []
  obtain ⟨-, -, -, -, hstart⟩ := calculate_of_text ⟨0, 0⟩ ['9', '\n', '8', '\n', '7']
  exact ⟨⟨hnone, hread, by decide⟩, hempty {} _ hnone, hstart {} _ _ _ hread (by decide)⟩

end Session

end Reckoner
