import Mathlib.Data.List.Induction
import Reckoner.Proofs.Expression
import Reckoner.Proofs.Session.History

/-! # The result belongs to the numbers

Where every merge is worked out, the result that is shown is that of the numbers in the expression:
an operation that changes a number makes the result void or works the expression out again. Since
then at most operators have been set, which keeps the result (`Expression.retouch`).

* `expression_step`: an operation that completes no evaluation and leaves a result sets operators at
  most.
* `current_of_result`: a result and the newest entry at the end of a run.
* `result_of_run`: the result at every point of a run. -/

namespace Reckoner

namespace Expression

/-- The expression with the operator that an operation sets. An operation of another kind sets
none. -/
def retouch (e : Expression) : Action → Expression
  | .setOperator index op => e.step (.setOperator index op)
  | _ => e

theorem values_retouch (e : Expression) (a : Action) : (e.retouch a).values = e.values := by
  cases a with
  | setOperator index op =>
    have hlists := lists_step e (.setOperator index op)
    have hoperands : (e.lists.step (.setOperator index op)).operands = e.lists.operands := by
      unfold Lists.step Lists.edit
      dsimp only
      split <;> rfl
    rw [← hlists, lists_eq, lists_eq] at hoperands
    exact congrArg (List.map Operand.value) hoperands
  | _ => rfl

end Expression

namespace Session

/-- The merge that an operation makes, if it makes one, is worked out: its evaluation does not
fail. -/
def WorksOut (now : Timestamp) (s : Session) (a : Action) : Prop :=
  ∀ m s' fault, s.perform now a = .ok (.merged m, s') → m.evaluation ≠ .error fault

/-! ### One operation -/

theorem expression_merged_ne_empty (s : Session) {batch : List Reading}
    (hb : batch.isEmpty = false) : (s.merged batch).expression ≠ .empty := by
  obtain ⟨r, batch, rfl⟩ := List.exists_cons_of_ne_nil (List.isEmpty_eq_false_iff.mp hb)
  rw [merged]
  split
  · cases s.expression <;> simp [Expression.append, Expression.sum]
  · simp [Expression.sum]

theorem completed?_merge_ne_none {now : Timestamp} {s : Session} {batch : List Reading}
    (hb : batch.isEmpty = false) (h : s.WorksOut now (.merge batch)) :
    s.completed? (.merge batch) ≠ none := by
  have hperform : ∃ m s', s.perform now (.merge batch) = .ok (.merged m, s') ∧ m.evaluation =
      (s.merged batch).expression.evaluate.map (Option.map Evaluation.result) := by
    rw [perform, merge_eq now s hb]
    exact ⟨_, _, rfl, rfl⟩
  obtain ⟨m, s', hm, hevaluation⟩ := hperform
  rw [completed?, target?, if_neg (by simp [hb]), Option.bind_some]
  cases hev : (s.merged batch).expression.evaluate with
  | error fault => exact absurd (by rw [hevaluation, hev]; rfl) (h m s' fault hm)
  | ok ev =>
    cases ev with
    | none =>
      exact absurd (Expression.evaluate_eq_ok_none_iff.mp hev) (expression_merged_ne_empty s hb)
    | some ev => simp [Expression.evaluation?_eq_some.mpr hev]

theorem expression_step_of_void {now : Timestamp} {s : Session} {a : Action}
    (hvoid : ∀ r s', s.perform now a = .ok (r, s') → s'.result = none)
    (hresult : (s.step now a).result ≠ none) : (s.step now a).expression = s.expression := by
  cases hp : s.perform now a with
  | error fault => rw [step_of_error hp]
  | ok answer =>
    obtain ⟨r, s'⟩ := answer
    rw [step_of_ok hp] at hresult
    exact absurd (hvoid r s' hp) hresult

/-- **An operation that completes no evaluation and leaves a result** sets an operator at most. -/
theorem expression_step {now : Timestamp} {s : Session} {a : Action} (hworks : s.WorksOut now a)
    (hnone : s.completed? a = none) (hresult : (s.step now a).result ≠ none) :
    (s.step now a).expression = s.expression.retouch a := by
  -- a merge of numbers would complete an evaluation, so there are none
  have hmerge : ∀ batch, s.WorksOut now (.merge batch) → s.completed? (.merge batch) = none →
      (s.step now (.merge batch)).expression = s.expression := by
    intro batch hworks hnone
    cases hb : batch.isEmpty with
    | true => rw [step_merge_of_isEmpty now s hb]
    | false => exact absurd hnone (completed?_merge_ne_none hb hworks)
  cases a with
  | ingest text => exact hmerge (s.readings text) hworks hnone
  | merge batch => exact hmerge batch hworks hnone
  | evaluate =>
    rw [step_evaluate, expression_recording]
    rfl
  | setOperator index op =>
    rw [step, perform, setOperator, Expression.retouch, Expression.step, Expression.edit]
    cases s.expression.setOperator index op <;> rfl
  | setValue index value =>
    refine expression_step_of_void (fun r s' h => ?_) hresult
    obtain ⟨t, ht, heq⟩ := map_eq_ok_iff.mp h
    obtain ⟨-, rfl⟩ := Prod.mk.inj heq
    exact (history_setValue ht).2
  | editValue index input =>
    refine expression_step_of_void (fun r s' h => ?_) hresult
    obtain ⟨⟨x, t⟩, ht, heq⟩ := map_eq_ok_iff.mp h
    obtain ⟨-, rfl⟩ := Prod.mk.inj heq
    exact (history_editValue ht).2
  | deleteAt index =>
    refine expression_step_of_void (fun r s' h => ?_) hresult
    obtain ⟨t, ht, heq⟩ := map_eq_ok_iff.mp h
    obtain ⟨-, rfl⟩ := Prod.mk.inj heq
    exact (history_deleteAt ht).2
  | clear => exact absurd rfl hresult
  | setSeparators c => rfl
  | setRowMode on => rfl
  | setCombineMode on => rfl

theorem evaluation?_step {now : Timestamp} {s : Session} {a : Action} {ev : Evaluation}
    (h : s.completed? a = some ev) : (s.step now a).expression.evaluation? = some ev := by
  have hmerge : ∀ batch, s.completed? (.merge batch) = some ev →
      (s.step now (.merge batch)).expression.evaluation? = some ev := by
    intro batch h
    cases hb : batch.isEmpty with
    | true => simp [completed?, target?, hb] at h
    | false =>
      rw [completed?, target?, if_neg (by simp [hb]), Option.bind_some] at h
      rw [step_merge now s hb, expression_recording, h]
  cases a with
  | ingest text => exact hmerge (s.readings text) h
  | merge batch => exact hmerge batch h
  | evaluate =>
    rw [step_evaluate, expression_recording]
    exact h
  | _ => simp [completed?, target?] at h

/-! ### Runs -/

theorem run_concat (s : Session) (ops : List (Timestamp × Action)) (op : Timestamp × Action) :
    s.run (ops ++ [op]) = (s.run ops).step op.1 op.2 := by
  simp [run]

/-- Every merge of a run is worked out. -/
def MergesWorkOut (s : Session) (ops : List (Timestamp × Action)) : Prop :=
  ∀ before op after, ops = before ++ op :: after → (s.run before).WorksOut op.1 op.2

theorem MergesWorkOut.of_append {s : Session} {ops ops' : List (Timestamp × Action)}
    (h : s.MergesWorkOut (ops ++ ops')) : s.MergesWorkOut ops := by
  rintro before op after rfl
  exact h before op (after ++ ops') (by simp)

theorem mergesWorkOut_nil (s : Session) : s.MergesWorkOut [] := by
  rintro before op after h
  simp at h

theorem mergesWorkOut_cons {s : Session} {op : Timestamp × Action} {ops : List (Timestamp × Action)}
    (hop : s.WorksOut op.1 op.2) (hops : (s.step op.1 op.2).MergesWorkOut ops) :
    s.MergesWorkOut (op :: ops) := by
  rintro (- | ⟨op', before⟩) next after h
  · obtain ⟨rfl, rfl⟩ := List.cons.inj h
    exact hop
  · obtain ⟨rfl, rfl⟩ := List.cons.inj h
    exact hops before next after rfl

/-- The newest entry is the evaluation of the expression that the operations `early` of a run have
reached, and since then operators have been set at most. -/
structure Current (s : Session) (early late : List (Timestamp × Action)) (entry : Entry) :
    Prop where
  recent : (s.run (early ++ late)).history.recent? 0 = some entry
  evaluation : (s.run early).expression.evaluation? = some entry.toEvaluation
  expression : (s.run (early ++ late)).expression =
    late.foldl (fun e op => e.retouch op.2) (s.run early).expression

/-- **A result that is shown at the end of a run** is that of the newest entry, and the numbers of
the expression are as they were when it was recorded. -/
theorem current_of_result {s : Session} (hs : s.result = none) {ops : List (Timestamp × Action)}
    (h : s.MergesWorkOut ops) {r : Float} (hr : (s.run ops).result = some r) :
    ∃ early late entry, ops = early ++ late ∧ s.Current early late entry ∧ entry.result = r := by
  induction ops using List.reverseRecOn generalizing r with
  | nil =>
    rw [run, List.foldl_nil, hs] at hr
    exact nomatch hr
  | append_singleton ops op ih =>
    have hrec := records_step op.1 (s.run ops) op.2
    have hworks := h ops op [] rfl
    rw [run_concat] at hr
    cases hev : (s.run ops).completed? op.2 with
    | some ev =>
      rw [hev] at hrec
      refine ⟨ops ++ [op], [], ⟨ev, op.1⟩, by simp, ⟨?_, ?_, by simp⟩, ?_⟩
      · rw [List.append_nil, run_concat, hrec.history]
        rfl
      · rw [run_concat, evaluation?_step hev]
      · have hresult := hrec.result
        simp only [hr, recording, reduceCtorEq, false_and, or_false, Option.some.injEq] at hresult
        exact hresult.symm
    | none =>
      rw [hev] at hrec
      have hresult := hrec.result
      simp only [hr, recording, reduceCtorEq, and_false, or_false] at hresult
      obtain ⟨early, late, entry, rfl, hcur, hentry⟩ := ih h.of_append hresult.symm
      have hexpression := expression_step hworks hev (by simp [hr])
      refine ⟨early, late ++ [op], entry, by simp, ⟨?_, hcur.evaluation, ?_⟩, hentry⟩
      · rw [← List.append_assoc, run_concat, hrec.history]
        exact hcur.recent
      · rw [← List.append_assoc, run_concat, hexpression, hcur.expression]
        simp

theorem values_foldl_retouch (e : Expression) (ops : List (Timestamp × Action)) :
    (ops.foldl (fun e op => e.retouch op.2) e).values = e.values := by
  induction ops generalizing e with
  | nil => rfl
  | cons op ops ih => rw [List.foldl_cons, ih, Expression.values_retouch]

/-- **A result belongs to the numbers of the expression.** Where no merge of a run fails to be
worked out, a result that is shown at some point is that of the newest entry, whose numbers are the
values of the expression; and since the operations that this entry evaluated, only operators have
been set. -/
theorem result_of_run (settings : Settings) {ops : List (Timestamp × Action)}
    (h : MergesWorkOut { settings } ops) {before : List (Timestamp × Action)}
    (hbefore : before <+: ops)
    {r : Float} (hr : (run { settings } before).result = some r) :
    ∃ entry, (run { settings } before).history.recent? 0 = some entry ∧ entry.result = r ∧
      entry.numbers = (run { settings } before).expression.values ∧
      ∃ early late, before = early ++ late ∧
        (run { settings } early).expression.evaluation? = some entry.toEvaluation ∧
        (run { settings } before).expression =
          late.foldl (fun e op => e.retouch op.2) (run { settings } early).expression := by
  obtain ⟨after, rfl⟩ := hbefore
  obtain ⟨early, late, entry, rfl, hcur, hentry⟩ := current_of_result rfl h.of_append hr
  have hnumbers := (Expression.evaluation?_eq_some_iff.mp hcur.evaluation).2.1
  refine ⟨entry, hcur.recent, hentry, ?_, early, late, rfl, hcur.evaluation, hcur.expression⟩
  rw [hnumbers, hcur.expression, values_foldl_retouch]

/-- One and zero are added; then the operator is set to a division, which cannot be worked out. -/
def addThenDivide : List (Timestamp × Action) :=
  [(⟨1, 0⟩, .merge [⟨1.0, ['1']⟩, ⟨0.0, ['0']⟩]), (⟨2, 0⟩, .setOperator 0 .divide),
    (⟨3, 0⟩, .evaluate)]

/-- The sum stays the result of the two numbers. -/
theorem result_of_addThenDivide :
    (MergesWorkOut {} addThenDivide ∧ addThenDivide <+: addThenDivide ∧
      (run {} addThenDivide).result = some 1.0) ∧
    ∃ entry, (run {} addThenDivide).history.recent? 0 = some entry ∧ entry.result = 1.0 ∧
      entry.numbers = (run {} addThenDivide).expression.values ∧
      ∃ early late, addThenDivide = early ++ late ∧
        (run {} early).expression.evaluation? = some entry.toEvaluation ∧
        (run {} addThenDivide).expression =
          late.foldl (fun e op => e.retouch op.2) (run {} early).expression := by
  have hworks : MergesWorkOut {} addThenDivide := by
    refine mergesWorkOut_cons ?_
      (mergesWorkOut_cons ?_ (mergesWorkOut_cons ?_ (mergesWorkOut_nil _)))
    · rintro m s' fault h
      obtain ⟨hmerged, -⟩ := Prod.mk.inj (Except.ok.inj h)
      obtain rfl := Answer.merged.inj hmerged
      exact nofun
    · rintro m s' fault h
      exact nomatch h
    · rintro m s' fault h
      exact nomatch h
  have hresult : (run {} addThenDivide).result = some 1.0 := rfl
  exact ⟨⟨hworks, List.prefix_refl _, hresult⟩,
    result_of_run {} hworks (List.prefix_refl _) hresult⟩

end Session

end Reckoner
