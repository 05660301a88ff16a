import Mathlib.Tactic.SplitIfs
import Reckoner.Evaluation

/-! # What an evaluation tells

A completed evaluation is sound: it has one operator fewer than numbers, its result is what the
operators give on the numbers from left to right, no number is divided by zero, and no operator
leads out of the finite values.

* `foldLinks_eq_ok_iff`: when the operands of links can be worked in, and to what.
* `foldLinks_eq_error_iff`: when they cannot, and why.
* `fault_of_evaluate`: the two reasons.
* `evaluation?_eq_some_iff`: when an expression has an evaluation, and which. -/

namespace Reckoner

/-- An operator and the number behind it. -/
def Link.step (l : Link) : Operator × Float := (l.operator, l.operand.value)

/-- What operators and the numbers behind them make of a value, from left to right. -/
def applyAll (acc : Float) (steps : List (Operator × Float)) : Float :=
  steps.foldl (fun acc p => p.1.apply acc p.2) acc

/-- No step divides by zero, and none leads from the value out of the finite values. -/
structure Workable (acc : Float) (steps : List (Operator × Float)) : Prop where
  divisor_ne_zero : ∀ x, (Operator.divide, x) ∈ steps → (x == 0) = false
  isFinite : ∀ n, 0 < n → n ≤ steps.length → (applyAll acc (steps.take n)).isFinite

/-- Why a step fails: it divides by zero, or else it leads out of the finite values. -/
def Operator.Fails (position : Nat) (acc : Float) (op : Operator) (x : Float) (fault : Fault) :
    Prop :=
  (op = .divide ∧ (x == 0) = true ∧ fault = .divisionByZero position) ∨
    (¬ (op = .divide ∧ (x == 0) = true) ∧ (op.apply acc x).isFinite = false ∧ fault = .notFinite)

/-- Some step fails, none of those in front of it does, and this is why. The number of the first
step stands at `position`. -/
def FailsAt (position : Nat) (acc : Float) (steps : List (Operator × Float)) (fault : Fault) :
    Prop :=
  ∃ n op x, steps[n]? = some (op, x) ∧ Workable acc (steps.take n) ∧
    op.Fails (position + n) (applyAll acc (steps.take n)) x fault

namespace Evaluation

/-- The operators, each with the number behind it. -/
def steps (e : Evaluation) : List (Operator × Float) := e.operators.zip e.numbers.tail

/-- The numbers and operators of an evaluation belong together and give its result. -/
structure Sound (e : Evaluation) : Prop where
  /-- There is at least one number, and an operator between every two neighbours. -/
  length_numbers : e.numbers.length = e.operators.length + 1
  result_eq : e.result = applyAll (e.numbers.headD 0) e.steps
  workable : Workable (e.numbers.headD 0) e.steps

end Evaluation

/-- **Which sound evaluations are not finite**: those of a single number that is not. An operator in
front of a number is worked out, and that leads to a finite value. -/
theorem Evaluation.Sound.isFinite_result_eq_false_iff {e : Evaluation} (h : e.Sound) :
    e.result.isFinite = false ↔ ∃ x, e.numbers = [x] ∧ x.isFinite = false := by
  have hlength := h.length_numbers
  have hresult := h.result_eq
  have hfinite := h.workable.isFinite e.steps.length
  have hsteps : e.steps = e.operators.zip e.numbers.tail := rfl
  obtain ⟨x, rest, hnumbers⟩ := List.exists_cons_of_length_eq_add_one hlength
  rw [hnumbers, List.headD_cons] at hresult hfinite
  rw [hnumbers, List.length_cons] at hlength
  rw [hnumbers, List.tail_cons] at hsteps
  cases rest with
  | nil =>
    rw [List.zip_nil_right] at hsteps
    rw [hsteps] at hresult
    have hx : e.result = x := hresult
    rw [hnumbers, hx]
    simp
  | cons y rest =>
    have hpos : 0 < e.steps.length := by
      rw [hsteps, List.length_zip, List.length_cons]
      rw [List.length_cons] at hlength
      omega
    have hlast := hfinite hpos (Nat.le_refl _)
    rw [List.take_length, ← hresult] at hlast
    rw [hnumbers, hlast]
    simp

/-! ### Steps -/

theorem workable_nil (acc : Float) : Workable acc [] := by
  constructor
  · simp
  · intro n hpos hle
    simp at hle
    omega

theorem workable_cons {acc : Float} {op : Operator} {x : Float} {steps : List (Operator × Float)} :
    Workable acc ((op, x) :: steps) ↔
      (op = .divide → (x == 0) = false) ∧ (op.apply acc x).isFinite ∧
        Workable (op.apply acc x) steps := by
  constructor
  · rintro ⟨hdiv, hfin⟩
    refine ⟨fun hop => hdiv x (by simp [hop]), hfin 1 (by omega) (by simp), ?_, ?_⟩
    · exact fun y hy => hdiv y (by simp [hy])
    · intro n _ hle
      exact hfin (n + 1) (by omega) (by simpa using hle)
  · rintro ⟨hdiv, hfin, hrest⟩
    constructor
    · intro y hy
      rcases List.mem_cons.mp hy with heq | hy
      · obtain ⟨rfl, rfl⟩ := Prod.mk.inj heq
        exact hdiv rfl
      · exact hrest.divisor_ne_zero y hy
    · rintro (- | - | n) hpos hle
      · omega
      · exact hfin
      · exact hrest.isFinite (n + 1) (by omega) (by simpa using hle)

theorem failsAt_cons {position : Nat} {acc : Float} {op : Operator} {x : Float}
    {steps : List (Operator × Float)} {fault : Fault} :
    FailsAt position acc ((op, x) :: steps) fault ↔
      op.Fails position acc x fault ∨
        ((op = .divide → (x == 0) = false) ∧ (op.apply acc x).isFinite ∧
          FailsAt (position + 1) (op.apply acc x) steps fault) := by
  constructor
  · rintro ⟨n, op', x', hstep, hwork, hfails⟩
    cases n with
    | zero =>
      obtain ⟨rfl, rfl⟩ := Prod.mk.inj (Option.some.inj hstep)
      exact .inl hfails
    | succ n =>
      obtain ⟨hdiv, hfin, hrest⟩ := workable_cons.mp hwork
      refine .inr ⟨hdiv, hfin, n, op', x', hstep, hrest, ?_⟩
      rwa [Nat.add_assoc, Nat.add_comm 1 n]
  · rintro (hfails | ⟨hdiv, hfin, n, op', x', hstep, hwork, hfails⟩)
    · exact ⟨0, op, x, rfl, workable_nil acc, hfails⟩
    · refine ⟨n + 1, op', x', hstep, workable_cons.mpr ⟨hdiv, hfin, hwork⟩, ?_⟩
      rwa [Nat.add_assoc, Nat.add_comm 1 n] at hfails

namespace Expression

theorem stepValue_eq_ok_iff {position : Nat} {acc : Float} {op : Operator} {x r : Float} :
    stepValue position acc op x = .ok r ↔
      (op = .divide → (x == 0) = false) ∧ (op.apply acc x).isFinite ∧ r = op.apply acc x := by
  unfold stepValue
  split_ifs with hzero hfin
  · simp only [Bool.and_eq_true, decide_eq_true_eq] at hzero
    refine iff_of_false (by simp) ?_
    rintro ⟨hdiv, -⟩
    rw [hdiv hzero.1] at hzero
    exact absurd hzero.2 (by decide)
  · simp only [Bool.and_eq_true, decide_eq_true_eq, not_and, Bool.not_eq_true] at hzero
    rw [Except.ok.injEq]
    exact ⟨fun h => ⟨hzero, hfin, h.symm⟩, fun h => h.2.2.symm⟩
  · refine iff_of_false (by simp) ?_
    rintro ⟨-, hfin', -⟩
    exact hfin hfin'

theorem stepValue_eq_error_iff {position : Nat} {acc : Float} {op : Operator} {x : Float}
    {fault : Fault} :
    stepValue position acc op x = .error fault ↔ op.Fails position acc x fault := by
  unfold stepValue Operator.Fails
  by_cases hzero : op = .divide ∧ (x == 0) = true
  · rw [if_pos (by simpa using hzero), Except.error.injEq]
    constructor
    · intro hfault
      exact .inl ⟨hzero.1, hzero.2, hfault.symm⟩
    · rintro (⟨-, -, rfl⟩ | ⟨hnonzero, -⟩)
      · rfl
      · exact absurd hzero hnonzero
  · rw [if_neg (by simpa using hzero)]
    by_cases hfin : (op.apply acc x).isFinite
    · rw [if_pos hfin]
      refine iff_of_false nofun ?_
      rintro (⟨hop, hx, -⟩ | ⟨-, hinfinite, -⟩)
      · exact hzero ⟨hop, hx⟩
      · rw [hfin] at hinfinite
        exact absurd hinfinite (by decide)
    · rw [if_neg hfin, Except.error.injEq]
      constructor
      · intro hfault
        exact .inr ⟨hzero, Bool.eq_false_iff.mpr hfin, hfault.symm⟩
      · rintro (⟨hop, hx, -⟩ | ⟨-, -, rfl⟩)
        · exact absurd ⟨hop, hx⟩ hzero
        · rfl

/-- **When the operands of links can be worked in**, and to what. -/
theorem foldLinks_eq_ok_iff {position : Nat} {acc r : Float} {links : List Link} :
    foldLinks position acc links = .ok r ↔
      Workable acc (links.map Link.step) ∧ r = applyAll acc (links.map Link.step) := by
  induction links generalizing position acc with
  | nil => simp [foldLinks, workable_nil, applyAll, eq_comm]
  | cons l links ih =>
    rw [List.map_cons, Link.step, workable_cons, foldLinks]
    cases hstep : stepValue position acc l.operator l.operand.value with
    | error fault =>
      refine iff_of_false (by simp) ?_
      rintro ⟨⟨hdiv, hfin, -⟩, -⟩
      have hok := (@stepValue_eq_ok_iff position _ _ _ _).mpr ⟨hdiv, hfin, rfl⟩
      simp [hstep] at hok
    | ok acc' =>
      obtain ⟨hdiv, hfin, rfl⟩ := stepValue_eq_ok_iff.mp hstep
      dsimp only
      rw [ih]
      constructor
      · rintro ⟨hwork, hr⟩
        exact ⟨⟨hdiv, hfin, hwork⟩, hr⟩
      · rintro ⟨⟨-, -, hwork⟩, hr⟩
        exact ⟨hwork, hr⟩

/-- **When the operands of links cannot be worked in**: the first step that fails decides. -/
theorem foldLinks_eq_error_iff {position : Nat} {acc : Float} {links : List Link} {fault : Fault} :
    foldLinks position acc links = .error fault ↔
      FailsAt position acc (links.map Link.step) fault := by
  induction links generalizing position acc with
  | nil => simp [foldLinks, FailsAt]
  | cons l links ih =>
    rw [List.map_cons, Link.step, failsAt_cons, foldLinks]
    cases hstep : stepValue position acc l.operator l.operand.value with
    | error fault' =>
      have hfails := stepValue_eq_error_iff.mp hstep
      constructor
      · intro hfault
        obtain rfl := Except.error.inj hfault
        exact .inl hfails
      · rintro (hfault | ⟨hdiv, hfin, -⟩)
        · rw [← hstep, stepValue_eq_error_iff.mpr hfault]
        · have hok := (@stepValue_eq_ok_iff position _ _ _ _).mpr ⟨hdiv, hfin, rfl⟩
          simp [hstep] at hok
    | ok acc' =>
      obtain ⟨hdiv, hfin, rfl⟩ := stepValue_eq_ok_iff.mp hstep
      dsimp only
      rw [ih]
      constructor
      · exact fun hrest => .inr ⟨hdiv, hfin, hrest⟩
      · rintro (hfault | ⟨-, -, hrest⟩)
        · rw [← stepValue_eq_error_iff, hstep] at hfault
          exact absurd hfault (by simp)
        · exact hrest

theorem fault_of_evaluate {e : Expression} {fault : Fault} (h : e.evaluate = .error fault) :
    (∃ position, fault = .divisionByZero position) ∨ fault = .notFinite := by
  cases e with
  | empty => cases h
  | chain first links =>
    rw [evaluate] at h
    split at h
    · rename_i hfold
      obtain rfl := Except.error.inj h
      obtain ⟨n, _, _, _, _, hfails⟩ := foldLinks_eq_error_iff.mp hfold
      rcases hfails with ⟨-, -, hfault⟩ | ⟨-, -, hfault⟩
      · exact .inl ⟨1 + n, hfault⟩
      · exact .inr hfault
    · cases h

/-- The evaluation of an expression that has operands and does not fail. -/
def evaluation? (e : Expression) : Option Evaluation :=
  match e.evaluate with
  | .ok ev => ev
  | .error _ => none

theorem evaluation?_eq_some {e : Expression} {ev : Evaluation} :
    e.evaluation? = some ev ↔ e.evaluate = .ok (some ev) := by
  rw [evaluation?]
  cases e.evaluate <;> simp

theorem zip_links (links : List Link) :
    (links.map Link.operator).zip ((links.map Link.operand).map Operand.value) =
      links.map Link.step := by
  rw [List.map_map, List.zip_map']
  rfl

/-- **When an expression has an evaluation**, and which. -/
theorem evaluation?_eq_some_iff {e : Expression} {ev : Evaluation} :
    e.evaluation? = some ev ↔
      e ≠ empty ∧ ev.numbers = e.values ∧ ev.operators = e.operators ∧ ev.Sound := by
  cases e with
  | empty => simp [evaluation?, evaluate]
  | chain first links =>
    have hsteps := zip_links links
    obtain ⟨numbers, operators, result⟩ := ev
    constructor
    · intro h
      rw [evaluation?, evaluate] at h
      cases hfold : foldLinks 1 first.value links with
      | error fault => simp [hfold] at h
      | ok r =>
        simp only [hfold, Option.some.injEq, Evaluation.mk.injEq] at h
        obtain ⟨rfl, rfl, rfl⟩ := h
        obtain ⟨hwork, hr⟩ := foldLinks_eq_ok_iff.mp hfold
        rw [← hsteps] at hwork hr
        exact ⟨by simp, rfl, rfl, by simp [values, operands, operators], hr, hwork⟩
    · rintro ⟨-, rfl, rfl, -, hr, hwork⟩
      have hfold : foldLinks 1 first.value links = .ok result := by
        rw [foldLinks_eq_ok_iff, ← hsteps]
        exact ⟨hwork, hr⟩
      rw [evaluation?, evaluate, hfold]

end Expression

end Reckoner
