import Mathlib.Data.List.GetD
import Reckoner.Proofs.Session.History

/-! # One calculation in one go

A text that is worked out in a new session is worked out once or twice: as the sum that it is merged
as, and with the operators that are given. Whatever the sum comes to, the answer is the evaluation
of the operands with the given operators, which are used over and over, or with additions where none
are given.

* `evaluate_joined`: operands with operators that are used over and over.
* `calculate_new`: the answer of a new session. -/

namespace Reckoner

/-- The operator at a place from a list that is used over and over; an addition if the list is
empty. -/
def Operator.cycled (ops : List Operator) (i : Nat) : Operator := ops.getD (i % ops.length) .add

/-- Numbers behind a first one, each with the operator in front of it from a list that is used over
and over. -/
def cycledSteps (ops : List Operator) (xs : List Float) : List (Operator × Float) :=
  xs.mapIdx fun i x => (Operator.cycled ops i, x)

theorem map_mapIdx {α β γ : Type} (g : β → γ) (f : Nat → α → β) (xs : List α) :
    (xs.mapIdx f).map g = xs.mapIdx fun i x => g (f i x) := by
  refine List.ext_getElem? fun i => ?_
  rw [List.getElem?_map, List.getElem?_mapIdx, List.getElem?_mapIdx, Option.map_map]
  rfl

theorem mapIdx_map {α β γ : Type} (f : Nat → β → γ) (g : α → β) (xs : List α) :
    (xs.map g).mapIdx f = xs.mapIdx fun i x => f i (g x) := by
  refine List.mapIdx_eq_iff.mpr fun i => ?_
  rw [List.getElem?_mapIdx, List.getElem?_map, Option.map_map]
  rfl

theorem mapIdx_const {α β : Type} (f : α → β) (xs : List α) :
    (xs.mapIdx fun _ => f) = xs.map f := by
  refine List.mapIdx_eq_iff.mpr fun i => ?_
  rw [List.getElem?_map]

namespace Expression

/-- Operands joined by operators from a list that is used over and over. -/
def joined (ops : List Operator) : List Operand → Expression
  | [] => empty
  | x :: xs => chain x (xs.mapIdx fun i y => ⟨Operator.cycled ops i, y⟩)

theorem joined_nil (xs : List Operand) : joined [] xs = sum xs := by
  cases xs with
  | nil => rfl
  | cons x xs =>
    exact congrArg (chain x) (mapIdx_const (Link.mk .add) xs)

theorem cycleOperators_sum (op : Operator) (ops : List Operator) (xs : List Operand) :
    (sum xs).cycleOperators op ops = joined (op :: ops) xs := by
  cases xs with
  | nil => rfl
  | cons x xs =>
    have hcycled : ∀ i, (op :: ops).getD (i % (ops.length + 1)) op =
        Operator.cycled (op :: ops) i := by
      intro i
      have hlt : i % (ops.length + 1) < (op :: ops).length := Nat.mod_lt i (Nat.succ_pos _)
      unfold Operator.cycled
      rw [List.length_cons, List.getD_eq_getElem _ _ hlt, List.getD_eq_getElem _ _ hlt]
    rw [sum, cycleOperators, joined, mapIdx_map]
    simp only [hcycled]

theorem operands_joined (ops : List Operator) (xs : List Operand) :
    (joined ops xs).operands = xs := by
  cases xs with
  | nil => rfl
  | cons x xs =>
    rw [joined, operands, map_mapIdx]
    exact congrArg (x :: ·) ((mapIdx_const id xs).trans (List.map_id xs))

theorem operators_joined (ops : List Operator) (x : Operand) (xs : List Operand) :
    (joined ops (x :: xs)).operators = xs.mapIdx fun i _ => Operator.cycled ops i := by
  rw [joined, operators, map_mapIdx]

theorem values_joined (ops : List Operator) (xs : List Operand) :
    (joined ops xs).values = xs.map Operand.value := by
  rw [values, operands_joined]

/-- **What becomes of operands with operators that are used over and over**: the numbers and
operators with their result, or the fault of the first step that fails. -/
theorem evaluate_joined (ops : List Operator) (x : Operand) (xs : List Operand) :
    (Workable x.value (cycledSteps ops (xs.map Operand.value)) ∧
      (joined ops (x :: xs)).evaluate = .ok (some ⟨x.value :: xs.map Operand.value,
        (cycledSteps ops (xs.map Operand.value)).map Prod.fst,
        applyAll x.value (cycledSteps ops (xs.map Operand.value))⟩)) ∨
    (¬ Workable x.value (cycledSteps ops (xs.map Operand.value)) ∧
      ∃ fault, FailsAt 1 x.value (cycledSteps ops (xs.map Operand.value)) fault ∧
        (joined ops (x :: xs)).evaluate = .error fault) := by
  have hvalues := values_joined ops (x :: xs)
  have hsteps : (xs.mapIdx fun i y => Link.mk (Operator.cycled ops i) y).map Link.step =
      cycledSteps ops (xs.map Operand.value) := by
    rw [map_mapIdx, cycledSteps, mapIdx_map]
    rfl
  have hoperators : (joined ops (x :: xs)).operators =
      (cycledSteps ops (xs.map Operand.value)).map Prod.fst := by
    rw [operators_joined, cycledSteps, mapIdx_map, map_mapIdx]
  rw [joined] at hvalues hoperators ⊢
  rw [evaluate, hvalues, hoperators]
  rw [← hsteps] at *
  cases hfold : foldLinks 1 x.value (xs.mapIdx fun i y => ⟨Operator.cycled ops i, y⟩) with
  | ok r =>
    obtain ⟨hwork, hr⟩ := foldLinks_eq_ok_iff.mp hfold
    exact .inl ⟨hwork, by rw [hr]; rfl⟩
  | error fault =>
    refine .inr ⟨fun hwork => ?_, fault, foldLinks_eq_error_iff.mp hfold, rfl⟩
    have hok := (@foldLinks_eq_ok_iff 1 _ _ _).mpr ⟨hwork, rfl⟩
    rw [hfold] at hok
    exact absurd hok (by simp)

end Expression

namespace Session

theorem merged_start (settings : Settings) (batch : List Reading) :
    (merged batch { settings }).expression = .sum (batch.map Reading.operand) := by
  rw [merged, appends]
  simp [Expression.isEmpty]

/-- **The answer of a new session** to a text and operators: the entry of the operands with the
given operators, or the fault of their evaluation. -/
theorem calculate_new (now : Timestamp) (settings : Settings) (ops : List Operator)
    (text : List Char) :
    (calculate now ops text { settings }).1 =
      match (Expression.joined ops ((readings { settings } text).map Reading.operand)).evaluate with
      | .error fault => .error fault
      | .ok none => .error .noNumbers
      | .ok (some ev) => .ok (some ⟨ev, now⟩) := by
  cases hreadings : readings { settings } text with
  | nil =>
    rw [calculate, ingest, hreadings]
    rfl
  | cons r batch =>
    have hmerged := merged_start settings (r :: batch)
    have hnone : ∀ ops, (Expression.joined ops ((r :: batch).map Reading.operand)).evaluate ≠
        .ok none :=
      fun ops h => nomatch Expression.evaluate_eq_ok_none_iff.mp h
    have hmerge := @merge_eq now { settings } (r :: batch) rfl
    rw [calculate, ingest, hreadings, hmerge]
    obtain - | ⟨op, ops⟩ := ops
    · -- no operators are given, and the evaluation of the sum is the answer
      have hsum := hnone []
      rw [Expression.joined_nil, ← hmerged] at hsum ⊢
      dsimp only
      rw [if_pos rfl, Expression.evaluation?]
      cases hev : (merged (r :: batch) { settings }).expression.evaluate with
      | error fault => rfl
      | ok ev =>
        cases ev with
        | some ev => rfl
        | none => exact absurd hev hsum
    · -- whatever the sum comes to, its operators are set and it is worked out again
      dsimp only
      rw [if_neg (List.cons_ne_nil op ops), cycleOperators, evaluate]
      dsimp only
      rw [expression_recording, hmerged, Expression.cycleOperators_sum]
      cases hev : (Expression.joined (op :: ops) ((r :: batch).map Reading.operand)).evaluate with
      | error fault => rfl
      | ok ev =>
        cases ev with
        | some ev => rfl
        | none => exact absurd hev (hnone _)

end Session

end Reckoner
