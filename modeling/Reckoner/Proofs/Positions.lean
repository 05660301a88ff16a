import Reckoner.Proofs.Binary64.Fields
import Reckoner.Proofs.Evaluation
import Reckoner.Proofs.Expression

/-! # Evaluation by positions

The items of an expression show its numbers and its operators as two lists, and an operator belongs
to the number at the position behind it. A loop over the operators that looks the numbers up by
their positions (`workOut?`) misses none of them and gives the evaluation of the expression.

Step `i` works in operator `i` and the number at position `i + 1`, and `resultAt i` is what the
steps in front of it have made of the first number. The first step that fails decides: it divides by
a zero, or it does not and leads out of the finite values.

* `workOut?_eq`: the loop over the operators.
* `resultAt_eq`, `workable_take`: the steps in front of a position.
* `evaluate_of_edits`: the evaluations of the expressions that edits lead to. -/

namespace Reckoner

/-! ### Numbers and operators as two lists -/

/-- The numbers that items show. -/
def Items.numbers (items : List Item) : List Float := items.map fun i => i.operand.value

/-- The operators that items show. -/
def Items.operators (items : List Item) : List Operator := items.filterMap Item.next

section Steps

variable (numbers : List Float) (operators : List Operator)

/-- What the first steps make of the first number. A step without an operator or a number does
nothing. -/
def resultAt : Nat → Float
  | 0 => numbers.headD 0
  | i + 1 =>
    match operators[i]?, numbers[i + 1]? with
    | some op, some x => op.apply (resultAt i) x
    | _, _ => resultAt i

/-- The number at this position is a zero, with or without the sign bit. -/
def IsZeroAt (position : Nat) : Prop :=
  ∃ x, numbers[position]? = some x ∧ (x.toBits.toNat = 0 ∨ x.toBits.toNat = Binary64.signBit)

/-- A step divides by a zero. -/
def DividesByZero (i : Nat) : Prop := operators[i]? = some .divide ∧ IsZeroAt numbers (i + 1)

/-- A step divides by a zero or leads out of the finite values. -/
def StepFails (i : Nat) : Prop :=
  DividesByZero numbers operators i ∨
    i < operators.length ∧ (resultAt numbers operators (i + 1)).isFinite = false

end Steps

/-! ### The loop over the operators -/

/-- Works in operators, the number behind the first of them being at `position`. There is nothing if
a number is missing. -/
def workIn? (numbers : List Float) (position : Nat) (acc : Float) :
    List Operator → Option (Except Fault Float)
  | [] => some (.ok acc)
  | op :: ops =>
    match numbers[position]? with
    | none => none
    | some x =>
      match Expression.stepValue position acc op x with
      | .error fault => some (.error fault)
      | .ok acc => workIn? numbers (position + 1) acc ops

/-- Works out numbers with operators between them. -/
def workOut? (numbers : List Float) (operators : List Operator) :
    Option (Except Fault (Option Evaluation)) :=
  match numbers with
  | [] => some (.ok none)
  | first :: _ =>
    (workIn? numbers 1 first operators).map fun outcome =>
      outcome.map fun result => some ⟨numbers, operators, result⟩

namespace Expression

theorem workIn?_append (front : List Float) (acc : Float) (links : List Link) :
    workIn? (front ++ links.map fun l => l.operand.value) front.length acc
      (links.map Link.operator) = some (foldLinks front.length acc links) := by
  induction links generalizing front acc with
  | nil => rfl
  | cons l links ih =>
    have hnumber : (front ++ (l :: links).map fun l => l.operand.value)[front.length]? =
        some l.operand.value := by simp
    rw [List.map_cons (f := Link.operator), workIn?, hnumber, foldLinks]
    dsimp only
    cases stepValue front.length acc l.operator l.operand.value with
    | error fault => rfl
    | ok r =>
      have hrest := ih (front ++ [l.operand.value]) r
      rw [List.length_append, List.length_singleton, List.append_assoc] at hrest
      exact hrest

theorem values_chain (first : Operand) (links : List Link) :
    (chain first links).values = first.value :: links.map fun l => l.operand.value := by
  simp [values, operands]

/-- **The loop over the operators misses no number** and gives the evaluation. -/
theorem workOut?_eq (e : Expression) : workOut? e.values e.operators = some e.evaluate := by
  cases e with
  | empty => rfl
  | chain first links =>
    have hloop : workIn? (chain first links).values 1 first.value (links.map Link.operator) =
        some (foldLinks 1 first.value links) := by
      rw [values_chain]
      exact workIn?_append [first.value] first.value links
    have hout : workOut? (chain first links).values (chain first links).operators =
        (workIn? (chain first links).values 1 first.value
          (links.map Link.operator)).map fun outcome =>
          outcome.map fun result =>
            some ⟨(chain first links).values, (chain first links).operators, result⟩ := rfl
    rw [hout, hloop, Option.map_some, evaluate]
    cases foldLinks 1 first.value links <;> rfl

end Expression

/-! ### The steps in front of a position -/

section Chain

variable (first : Float) (steps : List (Operator × Float))

theorem getElem?_numbers (i : Nat) :
    (first :: steps.map Prod.snd)[i + 1]? = (steps[i]?).map Prod.snd := by
  rw [List.getElem?_cons_succ, List.getElem?_map]

/-- **What the first steps make of the first number.** -/
theorem resultAt_eq (i : Nat) :
    resultAt (first :: steps.map Prod.snd) (steps.map Prod.fst) i =
      applyAll first (steps.take i) := by
  induction i with
  | zero => rfl
  | succ i ih =>
    rw [resultAt, getElem?_numbers, List.getElem?_map, List.take_add_one, applyAll,
      List.foldl_append, ← applyAll, ih]
    cases steps[i]? with
    | none => rfl
    | some p => rfl

theorem dividesByZero_iff (i : Nat) :
    DividesByZero (first :: steps.map Prod.snd) (steps.map Prod.fst) i ↔
      ∃ x, steps[i]? = some (.divide, x) ∧ (x == 0) = true := by
  rw [DividesByZero, IsZeroAt, getElem?_numbers, List.getElem?_map]
  cases steps[i]? with
  | none => simp
  | some p =>
    obtain ⟨op, y⟩ := p
    simp [Binary64.beq_zero_iff]

/-- **Steps that do not fail can be worked in.** -/
theorem workable_take {n : Nat}
    (h : ∀ j < n, ¬ StepFails (first :: steps.map Prod.snd) (steps.map Prod.fst) j) :
    Workable first (steps.take n) := by
  constructor
  · intro x hx
    obtain ⟨j, hj⟩ := List.mem_iff_getElem?.mp hx
    rw [List.getElem?_take] at hj
    split_ifs at hj with hlt
    by_contra hzero
    have hdivides := (dividesByZero_iff first steps j).mpr ⟨x, hj, by simpa using hzero⟩
    exact h j hlt (.inl hdivides)
  · intro m hpos hle
    obtain ⟨j, rfl⟩ : ∃ j, m = j + 1 := ⟨m - 1, by omega⟩
    rw [List.length_take] at hle
    have hresult := resultAt_eq first steps (j + 1)
    rw [List.take_take, Nat.min_eq_left (by omega), ← hresult]
    by_contra hinfinite
    refine h j (by omega) (.inr ⟨?_, by simpa using hinfinite⟩)
    rw [List.length_map]
    omega

theorem resultAt_succ {n : Nat} {op : Operator} {x : Float} (h : steps[n]? = some (op, x)) :
    resultAt (first :: steps.map Prod.snd) (steps.map Prod.fst) (n + 1) =
      op.apply (applyAll first (steps.take n)) x := by
  rw [resultAt, resultAt_eq, getElem?_numbers, List.getElem?_map, h]
  rfl

theorem lt_length_of_stepFails {n : Nat}
    (h : StepFails (first :: steps.map Prod.snd) (steps.map Prod.fst) n) : n < steps.length := by
  rcases h with hdivides | ⟨hlt, -⟩
  · obtain ⟨x, hx, -⟩ := (dividesByZero_iff first steps n).mp hdivides
    exact (List.getElem?_eq_some_iff.mp hx).1
  · rwa [List.length_map] at hlt

/-- **The first step that fails decides.** -/
theorem failsAt_of_first {n : Nat}
    (h : StepFails (first :: steps.map Prod.snd) (steps.map Prod.fst) n)
    (hfirst : ∀ j < n, ¬ StepFails (first :: steps.map Prod.snd) (steps.map Prod.fst) j) :
    (DividesByZero (first :: steps.map Prod.snd) (steps.map Prod.fst) n →
      FailsAt 1 first steps (.divisionByZero (n + 1))) ∧
    (¬ DividesByZero (first :: steps.map Prod.snd) (steps.map Prod.fst) n →
      FailsAt 1 first steps .notFinite) := by
  have hlt := lt_length_of_stepFails first steps h
  obtain ⟨⟨op, x⟩, hstep⟩ : ∃ p, steps[n]? = some p := ⟨_, List.getElem?_eq_getElem hlt⟩
  have hworkable := workable_take first steps hfirst
  have hdivides : DividesByZero (first :: steps.map Prod.snd) (steps.map Prod.fst) n ↔
      op = .divide ∧ (x == 0) = true := by
    rw [dividesByZero_iff, hstep]
    simp
  rw [hdivides]
  constructor
  · rintro ⟨hop, hx⟩
    exact ⟨n, op, x, hstep, hworkable, .inl ⟨hop, hx, by rw [Nat.add_comm]⟩⟩
  · intro hnot
    have hfinite := (h.resolve_left (mt hdivides.mp hnot)).2
    rw [resultAt_succ first steps hstep] at hfinite
    exact ⟨n, op, x, hstep, hworkable, .inr ⟨hnot, hfinite, rfl⟩⟩

end Chain

/-! ### The first step that fails -/

namespace Expression

theorem steps_chain (first : Operand) (links : List Link) :
    (chain first links).values = first.value :: (links.map Link.step).map Prod.snd ∧
      (chain first links).operators = (links.map Link.step).map Prod.fst := by
  rw [values_chain, List.map_map, List.map_map]
  exact ⟨rfl, rfl⟩

/-- **The evaluation fails as its first step that fails does.** -/
theorem evaluate_of_first {e : Expression} {n : Nat} (h : StepFails e.values e.operators n)
    (hfirst : ∀ j < n, ¬ StepFails e.values e.operators j) :
    (DividesByZero e.values e.operators n → e.evaluate = .error (.divisionByZero (n + 1))) ∧
      (¬ DividesByZero e.values e.operators n → e.evaluate = .error .notFinite) := by
  cases e with
  | empty => exact absurd h (by simp [StepFails, DividesByZero, operators])
  | chain first links =>
    obtain ⟨hvalues, hoperators⟩ := steps_chain first links
    rw [hvalues, hoperators] at h hfirst ⊢
    obtain ⟨hdivision, hinfinite⟩ := failsAt_of_first first.value _ h hfirst
    constructor
    · intro hdivides
      rw [evaluate, foldLinks_eq_error_iff.mpr (hdivision hdivides)]
    · intro hnot
      rw [evaluate, foldLinks_eq_error_iff.mpr (hinfinite hnot)]

/-- **The evaluation is completed if no step fails.** -/
theorem evaluate_of_forall_not {e : Expression} (hne : e.values ≠ [])
    (h : ∀ i, ¬ StepFails e.values e.operators i) :
    e.evaluate =
      .ok (some ⟨e.values, e.operators, resultAt e.values e.operators e.operators.length⟩) := by
  cases e with
  | empty => exact absurd rfl hne
  | chain first links =>
    obtain ⟨hvalues, hoperators⟩ := steps_chain first links
    have hall : (links.map Link.step).take links.length = links.map Link.step :=
      List.take_of_length_le (by rw [List.length_map])
    have hresult := resultAt_eq first.value (links.map Link.step) links.length
    rw [← hvalues, ← hoperators, hall] at hresult
    have hworkable : Workable first.value (links.map Link.step) := by
      rw [hvalues, hoperators] at h
      rw [← hall]
      exact workable_take first.value _ fun j _ => h j
    have hlength : (chain first links).operators.length = links.length := List.length_map ..
    rw [evaluate, foldLinks_eq_ok_iff.mpr ⟨hworkable, rfl⟩, hlength, hresult]

/-- **The evaluation of an expression that edits lead to.** The operators and the numbers of its
items belong together, so the loop over the operators misses no number and gives the evaluation.
There is none if there are no numbers. Otherwise the first step that fails decides, a division by a
zero being reported with the position of the zero whatever it would give; and if no step fails, the
evaluation has the numbers, the operators and what all steps make of the first number. -/
theorem evaluate_of_edits (edits : List Edit) :
    let numbers := Items.numbers (Items.ofEdits edits)
    let operators := Items.operators (Items.ofEdits edits)
    (∀ i < operators.length, i + 1 < numbers.length) ∧
    workOut? numbers operators = some (ofEdits edits).evaluate ∧
    ((ofEdits edits).evaluate = .ok none ↔ numbers = []) ∧
    (∀ i, StepFails numbers operators i → (∀ j < i, ¬ StepFails numbers operators j) →
      (DividesByZero numbers operators i →
        (ofEdits edits).evaluate = .error (.divisionByZero (i + 1))) ∧
      (¬ DividesByZero numbers operators i → (ofEdits edits).evaluate = .error .notFinite)) ∧
    (numbers ≠ [] → (∀ i, ¬ StepFails numbers operators i) →
      (ofEdits edits).evaluate =
        .ok (some ⟨numbers, operators, resultAt numbers operators operators.length⟩)) := by
  intro numbers operators
  have hnumbers : numbers = (ofEdits edits).values := by
    rw [values, ← map_operand_items, items_ofEdits, List.map_map]
    rfl
  have hoperators : operators = (ofEdits edits).operators := by
    rw [← filterMap_next_items, items_ofEdits]
    rfl
  rw [hnumbers, hoperators]
  refine ⟨fun i hi => ?_, workOut?_eq _, ?_, fun i h hfirst => evaluate_of_first h hfirst,
    evaluate_of_forall_not⟩
  · have hlength := length_operators (ofEdits edits)
    rw [length] at hlength
    rw [values, List.length_map]
    omega
  · rw [evaluate_eq_ok_none_iff]
    cases ofEdits edits <;> simp [values, operands]

end Expression

end Reckoner
