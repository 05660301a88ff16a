import Reckoner.Proofs.Expression
import Reckoner.Proofs.Evaluation

/-! # Evaluating what is appended

Operands that are appended stand behind the others, an addition in front of each. So the evaluation
goes on from what the others have come to, and the new numbers are added to that one after another
(`partialSums`). What has failed before fails in the same way, at the same position.

* `foldLinks_add`: a row of additions.
* `evaluate_append_of_error`, `evaluate_append`: the evaluation of a longer expression.
* `evaluate_append_of_edits`: the same of the expressions that edits lead to. -/

namespace Reckoner

/-- What numbers come to when they are added to a value from left to right, after each of them. -/
def partialSums (acc : Float) : List Float → List Float
  | [] => []
  | x :: xs => (acc + x) :: partialSums (acc + x) xs

namespace Expression

/-- **A row of additions** fails if a partial sum is not finite, and gives the last one
otherwise. -/
theorem foldLinks_add (position : Nat) (acc : Float) (xs : List Operand) :
    ((∀ s ∈ partialSums acc (xs.map Operand.value), s.isFinite) ∧
      foldLinks position acc (xs.map (Link.mk .add)) =
        .ok ((partialSums acc (xs.map Operand.value)).getLastD acc)) ∨
    ((∃ s ∈ partialSums acc (xs.map Operand.value), s.isFinite = false) ∧
      foldLinks position acc (xs.map (Link.mk .add)) = .error .notFinite) := by
  induction xs generalizing position acc with
  | nil => exact .inl ⟨by simp [partialSums], rfl⟩
  | cons x xs ih =>
    have hstep : stepValue position acc .add x.value =
        if (acc + x.value).isFinite then .ok (acc + x.value) else .error .notFinite := rfl
    rw [List.map_cons, List.map_cons, partialSums, foldLinks]
    dsimp only
    rw [hstep]
    by_cases hfinite : (acc + x.value).isFinite
    · rw [if_pos hfinite, List.getLastD_cons]
      rcases ih (position + 1) (acc + x.value) with ⟨hall, hrest⟩ | ⟨⟨s, hs, hinfinite⟩, hrest⟩
      · exact .inl ⟨List.forall_mem_cons.mpr ⟨hfinite, hall⟩, hrest⟩
      · exact .inr ⟨⟨s, List.mem_cons_of_mem _ hs, hinfinite⟩, hrest⟩
    · rw [if_neg hfinite]
      exact .inr ⟨⟨_, List.mem_cons_self, Bool.eq_false_iff.mpr hfinite⟩, rfl⟩

section Append

variable {e : Expression} (he : e ≠ empty) (xs : List Operand)
include he

theorem evaluate_append_of_error {fault : Fault} (h : e.evaluate = .error fault) :
    (e.append xs).evaluate = .error fault := by
  cases e with
  | empty => exact absurd rfl he
  | chain first links =>
    rw [evaluate] at h
    rw [append, evaluate, foldLinks_append]
    cases hfold : foldLinks 1 first.value links with
    | error fault' =>
      rw [hfold] at h
      exact h
    | ok r =>
      rw [hfold] at h
      cases h

/-- **The evaluation of a longer expression** goes on from the result of the shorter one. -/
theorem evaluate_append {ev : Evaluation} (h : e.evaluate = .ok (some ev)) :
    ((∀ s ∈ partialSums ev.result (xs.map Operand.value), s.isFinite) ∧
      (e.append xs).evaluate = .ok (some ⟨ev.numbers ++ xs.map Operand.value,
        ev.operators ++ .replicate xs.length .add,
        (partialSums ev.result (xs.map Operand.value)).getLastD ev.result⟩)) ∨
    ((∃ s ∈ partialSums ev.result (xs.map Operand.value), s.isFinite = false) ∧
      (e.append xs).evaluate = .error .notFinite) := by
  cases e with
  | empty => exact absurd rfl he
  | chain first links =>
    have hvalues : (chain first (links ++ xs.map (Link.mk .add))).values =
        (chain first links).values ++ xs.map Operand.value := by
      simp [values, operands, Function.comp_def]
    have hoperators : (chain first (links ++ xs.map (Link.mk .add))).operators =
        (chain first links).operators ++ .replicate xs.length .add := by
      simp [operators, Function.comp_def, List.map_const']
    rw [evaluate] at h
    cases hfold : foldLinks 1 first.value links with
    | error fault => simp [hfold] at h
    | ok r =>
      simp only [hfold, Except.ok.injEq, Option.some.injEq] at h
      subst h
      rw [append, evaluate, foldLinks_append, hfold, hvalues, hoperators]
      dsimp only
      rcases foldLinks_add (1 + links.length) r xs with ⟨hall, hrest⟩ | ⟨hsome, hrest⟩
      · rw [hrest]
        exact .inl ⟨hall, rfl⟩
      · rw [hrest]
        exact .inr ⟨hsome, rfl⟩

theorem evaluate_append_eq_error_iff {ev : Evaluation} (h : e.evaluate = .ok (some ev)) :
    (e.append xs).evaluate = .error .notFinite ↔
      ∃ s ∈ partialSums ev.result (xs.map Operand.value), s.isFinite = false := by
  rcases evaluate_append he xs h with ⟨hall, hok⟩ | ⟨hsome, herror⟩
  · rw [hok]
    refine iff_of_false nofun ?_
    rintro ⟨s, hs, hinfinite⟩
    exact absurd (hall s hs) (Bool.eq_false_iff.mp hinfinite)
  · exact iff_of_true herror hsome

theorem evaluate_append_of_finite {ev : Evaluation} (h : e.evaluate = .ok (some ev))
    (hall : ∀ s ∈ partialSums ev.result (xs.map Operand.value), s.isFinite) :
    (e.append xs).evaluate = .ok (some ⟨ev.numbers ++ xs.map Operand.value,
      ev.operators ++ .replicate xs.length .add,
      (partialSums ev.result (xs.map Operand.value)).getLastD ev.result⟩) := by
  rcases evaluate_append he xs h with ⟨-, hok⟩ | ⟨⟨s, hs, hinfinite⟩, -⟩
  · exact hok
  · exact absurd (hall s hs) (Bool.eq_false_iff.mp hinfinite)

end Append

theorem ofEdits_concat (edits : List Edit) (a : Edit) :
    ofEdits (edits ++ [a]) = (ofEdits edits).step a := by
  rw [ofEdits, ofEdits, List.foldl_append]
  rfl

/-- **Appending extends an evaluation and does not redo it.** To an expression that edits lead to
and that has operands, others are joined by additions, and its own operators stay. If its evaluation
fails, that of the longer expression fails in the same way. Otherwise this goes on from its result:
it fails if one of the partial sums of the new numbers is not finite, and gives the last of them if
they all are. Two batches that are appended one after the other give the same expression as both at
once. -/
theorem evaluate_append_of_edits {edits : List Edit} (h : ofEdits edits ≠ empty)
    (xs ys : List Incoming) :
    let e := ofEdits edits
    let longer := ofEdits (edits ++ [.append xs])
    let numbers := xs.map fun x => x.operand.value
    longer.lists = ⟨e.lists.operands ++ xs.map Incoming.operand,
      e.lists.operators ++ .replicate xs.length .add⟩ ∧
    ((∃ fault, e.evaluate = .error fault ∧ longer.evaluate = .error fault) ∨
      ∃ ev, e.evaluate = .ok (some ev) ∧
        (longer.evaluate = .error .notFinite ↔
          ∃ s ∈ partialSums ev.result numbers, s.isFinite = false) ∧
        ((∀ s ∈ partialSums ev.result numbers, s.isFinite) →
          longer.evaluate = .ok (some ⟨ev.numbers ++ numbers,
            ev.operators ++ .replicate xs.length .add,
            (partialSums ev.result numbers).getLastD ev.result⟩))) ∧
    ofEdits (edits ++ [.append xs, .append ys]) = ofEdits (edits ++ [.append (xs ++ ys)]) := by
  intro e longer numbers
  have hlonger : longer = e.append (xs.map Incoming.operand) := ofEdits_concat edits (.append xs)
  have hnumbers : (xs.map Incoming.operand).map Operand.value = numbers := by
    rw [List.map_map]
    rfl
  refine ⟨?_, ?_, ?_⟩
  · have hlists := lists_append_of_ne_empty h (xs.map Incoming.operand)
    rw [List.length_map] at hlists
    rw [hlonger]
    exact hlists
  · rw [hlonger]
    cases hev : e.evaluate with
    | error fault => exact .inl ⟨fault, rfl, evaluate_append_of_error h _ hev⟩
    | ok outcome =>
      cases outcome with
      | none => exact absurd (evaluate_eq_ok_none_iff.mp hev) h
      | some ev =>
        have herror := evaluate_append_eq_error_iff h (xs.map Incoming.operand) hev
        have hfinite := evaluate_append_of_finite h (xs.map Incoming.operand) hev
        rw [hnumbers] at herror hfinite
        rw [List.length_map] at hfinite
        exact .inr ⟨ev, rfl, herror, hfinite⟩
  · have htwo : ofEdits (edits ++ [.append xs, .append ys]) =
        (e.append (xs.map Incoming.operand)).append (ys.map Incoming.operand) := by
      rw [ofEdits, List.foldl_append]
      rfl
    rw [htwo, append_append, ← List.map_append]
    exact (ofEdits_concat edits (.append (xs ++ ys))).symm

/-- A number that two others bring out of range, which no reordering brings back. -/
theorem evaluate_append_of_overflow :
    ofEdits [.start [.value 1e308]] ≠ empty ∧
      (ofEdits [.start [.value 1e308], .append [.value 1e308, .value (-1e308)]]).evaluate =
        .error .notFinite := by
  have hne : ofEdits [.start [.value 1e308]] ≠ empty := nofun
  refine ⟨hne, ?_⟩
  obtain ⟨-, hcases, -⟩ := evaluate_append_of_edits hne [.value 1e308, .value (-1e308)] []
  have hfirst : (ofEdits [.start [.value 1e308]]).evaluate = .ok (some ⟨[1e308], [], 1e308⟩) := rfl
  rw [hfirst] at hcases
  obtain ⟨fault, hfault, -⟩ | ⟨ev, hev, hiff, -⟩ := hcases
  · exact nomatch hfault
  · obtain rfl := Option.some.inj (Except.ok.inj hev)
    exact hiff.mpr ⟨1e308 + 1e308, List.mem_cons_self, by decide +kernel⟩

end Expression

end Reckoner
