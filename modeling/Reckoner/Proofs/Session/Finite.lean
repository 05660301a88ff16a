import Reckoner.Proofs.Binary64.Fields
import Reckoner.Proofs.Session.Result

/-! # Finite values

An operator that leads out of the finite values makes an evaluation fail. A number that stands alone
has no operator in front of it, so an infinity that is put there by its value comes out as the
result. No such value comes from a text: what is read and what is typed is finite, and then
everything in a session is.

* `infinite_results_of_run`: which results are not finite.
* `expression_step_eq`: the edit that an operation makes of the expression.
* `finite_step`, `finite_run`: sessions that hold finite values only. -/

namespace Reckoner

/-! ### Values that are read -/

theorem isFinite_of_mem_ofText {c : Separators} {rowMode : Bool} {text : List Char} {r : Reading}
    (h : r ∈ Reading.ofText c rowMode text) : r.value.isFinite := by
  obtain ⟨token, -, htoken⟩ := List.mem_filterMap.mp h
  obtain ⟨value, hvalue, rfl⟩ := Option.map_eq_some_iff.mp htoken
  obtain ⟨n, -, hn⟩ := Option.bind_eq_some_iff.mp hvalue
  exact Binary64.isFinite_of_nearest? hn

theorem Scientific.isFinite_of_value? {n : Scientific} {x : Float} (h : n.value? = some x) :
    x.isFinite := by
  unfold Scientific.value? at h
  dsimp only at h
  split at h
  · exact Binary64.isFinite_of_nearest? h
  · split at h
    · exact nomatch h
    · exact Binary64.isFinite_of_nearest? h

theorem isFinite_of_typedValue {c : Separators} {input : List Char} {x : Float}
    (h : typedValue c input = .ok x) : x.isFinite := by
  unfold typedValue at h
  dsimp only at h
  split at h
  · rename_i value hvalue
    obtain rfl := Except.ok.inj h
    obtain ⟨n, -, hn⟩ := Option.bind_eq_some_iff.mp hvalue
    exact Binary64.isFinite_of_nearest? hn
  · split at h
    · rename_i value hvalue
      obtain rfl := Except.ok.inj h
      obtain ⟨n, -, hn⟩ := Option.bind_eq_some_iff.mp hvalue
      exact Scientific.isFinite_of_value? hn
    · exact nomatch h

namespace Session

/-! ### Results that are not finite -/

theorem evaluate_of_values_eq_singleton {e : Expression} {x : Float} (h : e.values = [x]) :
    e.evaluate = .ok (some ⟨[x], [], x⟩) := by
  obtain - | ⟨first, - | ⟨l, links⟩⟩ := e
  · simp [Expression.values, Expression.operands] at h
  · obtain rfl : first.value = x := by simpa [Expression.values, Expression.operands] using h
    rfl
  · simp [Expression.values, Expression.operands] at h

/-- **Which results are not finite.** An evaluation either fails or gives a finite result, unless
the expression is one number that is not finite. Such a number is recorded in the history and shown
as the result, and nothing else that is not finite ever is. -/
theorem infinite_results_of_run (settings : Settings) (ops : List (Timestamp × Action)) :
    (∀ e : Expression, (∃ ev, e.evaluate = .ok (some ev) ∧ ev.result.isFinite = false) ↔
      ∃ x, e.values = [x] ∧ x.isFinite = false) ∧
    (∀ entry ∈ (run { settings } ops).history.entries,
      entry.result.isFinite = false ↔ ∃ x, entry.numbers = [x] ∧ x.isFinite = false) ∧
    ∀ r, (run { settings } ops).result = some r →
      ∃ entry, (run { settings } ops).history.recent? 0 = some entry ∧ entry.result = r ∧
        (r.isFinite = false ↔ ∃ x, entry.numbers = [x] ∧ x.isFinite = false) := by
  have hrecorded := recorded_run (recorded_start settings) ops
  have hentries : ∀ entry ∈ (run { settings } ops).history.entries,
      entry.result.isFinite = false ↔ ∃ x, entry.numbers = [x] ∧ x.isFinite = false :=
    fun entry hentry => (hrecorded.sound entry hentry).isFinite_result_eq_false_iff
  refine ⟨fun e => ⟨?_, ?_⟩, hentries, fun r hr => ?_⟩
  · rintro ⟨ev, hev, hresult⟩
    obtain ⟨-, hnumbers, -, hsound⟩ :=
      Expression.evaluation?_eq_some_iff.mp (Expression.evaluation?_eq_some.mpr hev)
    obtain ⟨x, hx, hfinite⟩ := hsound.isFinite_result_eq_false_iff.mp hresult
    exact ⟨x, hnumbers ▸ hx, hfinite⟩
  · rintro ⟨x, hx, hfinite⟩
    exact ⟨_, evaluate_of_values_eq_singleton hx, hfinite⟩
  · obtain ⟨entry, hrecent, rfl⟩ := hrecorded.result r hr
    have hmem : entry ∈ (run { settings } ops).history.entries :=
      List.mem_reverse.mpr (List.mem_of_getElem? hrecent)
    exact ⟨entry, hrecent, rfl, hentries entry hmem⟩

/-- A number is merged, an infinity is put in its place, and the expression is worked out. -/
def infinityAlone : List (Timestamp × Action) :=
  [(⟨1, 0⟩, .merge [⟨1.0, ['1']⟩]), (⟨2, 0⟩, .setValue 0 (Float.ofBits 0x7ff0000000000000)),
    (⟨3, 0⟩, .evaluate)]

/-- The infinity is shown and recorded as the result. -/
theorem infinity_shown :
    (run {} infinityAlone).result = some (Float.ofBits 0x7ff0000000000000) ∧
      (run {} infinityAlone).history.recent? 0 =
        some ⟨⟨[Float.ofBits 0x7ff0000000000000], [], Float.ofBits 0x7ff0000000000000⟩, ⟨3, 0⟩⟩ ∧
      (Float.ofBits 0x7ff0000000000000).isFinite = false :=
  ⟨rfl, rfl, by decide⟩

/-! ### The edits of an expression -/

/-- The edit that a merge makes of the expression. -/
def mergeEdit (s : Session) (batch : List Reading) : Edit :=
  if s.appends then .append (batch.map Incoming.reading) else .start (batch.map Incoming.reading)

/-- The edit that an operation makes of the expression, if it makes one. -/
def edit? (s : Session) : Action → Option Edit
  | .ingest text => if (s.readings text).isEmpty then none else some (s.mergeEdit (s.readings text))
  | .merge batch => if batch.isEmpty then none else some (s.mergeEdit batch)
  | .setOperator index op => some (.setOperator index op)
  | .setValue index value => some (.setValue index value)
  | .editValue index input =>
    if s.expression.length ≤ index then none
    else (typedValue s.settings.separators input).toOption.map (.setValue index)
  | .deleteAt index => some (.deleteAt index)
  | .clear => some .clear
  | _ => none

theorem expression_merged (s : Session) (batch : List Reading) :
    (s.merged batch).expression = s.expression.step (s.mergeEdit batch) := by
  have hoperands : (batch.map Incoming.reading).map Incoming.operand = batch.map Reading.operand :=
    List.map_map ..
  unfold merged mergeEdit
  split <;> simp [Expression.step, Expression.edit, leaves, hoperands]

theorem expression_step_merge (now : Timestamp) (s : Session) (batch : List Reading) :
    (s.step now (.merge batch)).expression =
      ((s.edit? (.merge batch)).map s.expression.step).getD s.expression := by
  cases hb : batch.isEmpty with
  | true =>
    rw [step_merge_of_isEmpty now s hb, edit?, if_pos hb]
    rfl
  | false =>
    rw [step_merge now s hb, expression_recording, expression_merged, edit?, if_neg (by simp [hb])]
    rfl

theorem expression_setValue (now : Timestamp) (s : Session) (index : Nat) (value : Float) :
    (s.step now (.setValue index value)).expression =
      s.expression.step (.setValue index value) := by
  rw [step, perform, setValue, Expression.step, Expression.edit]
  cases s.expression.setValue index value <;> rfl

/-- **An operation edits the expression of its session**, or leaves it. -/
theorem expression_step_eq (now : Timestamp) (s : Session) (a : Action) :
    (s.step now a).expression = ((s.edit? a).map s.expression.step).getD s.expression := by
  cases a with
  | ingest text => exact expression_step_merge now s (s.readings text)
  | merge batch => exact expression_step_merge now s batch
  | evaluate => rw [step_evaluate, expression_recording]; rfl
  | setOperator index op =>
    rw [step, perform, setOperator, edit?, Option.map_some, Option.getD_some, Expression.step,
      Expression.edit]
    cases s.expression.setOperator index op <;> rfl
  | setValue index value => exact expression_setValue now s index value
  | editValue index input =>
    unfold edit?
    dsimp only
    by_cases hindex : s.expression.length ≤ index
    · rw [if_pos hindex, step, perform, editValue, if_pos hindex]
      rfl
    · rw [if_neg hindex]
      cases hvalue : typedValue s.settings.separators input with
      | error fault =>
        rw [step, perform, editValue, if_neg hindex, hvalue]
        rfl
      | ok value =>
        have hset := expression_setValue now s index value
        rw [step, perform] at hset
        rw [step, perform, editValue, if_neg hindex, hvalue]
        dsimp only [Except.toOption, Option.map_some, Option.getD_some]
        rw [← hset]
        cases s.setValue index value <;> rfl
  | deleteAt index =>
    rw [step, perform, deleteAt, edit?, Option.map_some, Option.getD_some, Expression.step,
      Expression.edit]
    cases s.expression.deleteAt index <;> rfl
  | clear => rfl
  | setSeparators c => rfl
  | setRowMode on => rfl
  | setCombineMode on => rfl

/-! ### Sessions with finite values -/

/-- Every item has a finite value and a source, and all that is recorded and shown is finite. -/
structure Finite (s : Session) : Prop where
  items : ∀ i ∈ s.expression.items, i.operand.value.isFinite ∧ i.operand.source.isSome
  entries : ∀ entry ∈ s.history.entries, (∀ x ∈ entry.numbers, x.isFinite) ∧ entry.result.isFinite
  result : ∀ r, s.result = some r → r.isFinite

/-- The values that come with an operation are finite. Those that it reads from a text always
are. -/
def BringsFinite : Action → Prop
  | .merge batch => ∀ r ∈ batch, r.value.isFinite
  | .setValue _ value => value.isFinite
  | _ => True

theorem finite_start (settings : Settings) : Finite { settings } := by
  constructor <;> simp [Expression.items, History.entries]

theorem Finite.operands {s : Session} (h : s.Finite) :
    ∀ x ∈ s.expression.operands, x.value.isFinite ∧ x.source.isSome := by
  rw [← Expression.map_operand_items]
  exact List.forall_mem_map.mpr h.items

theorem isFinite_of_sound {ev : Evaluation} (h : ev.Sound)
    (hnumbers : ∀ x ∈ ev.numbers, x.isFinite) : ev.result.isFinite := by
  by_contra hresult
  rw [Bool.not_eq_true] at hresult
  obtain ⟨x, hx, hinfinite⟩ := h.isFinite_result_eq_false_iff.mp hresult
  have hfinite := hnumbers x (by simp [hx])
  rw [hinfinite] at hfinite
  exact absurd hfinite (by decide)

theorem keeps_edit? {s : Session} {a : Action} (ha : BringsFinite a) {e : Edit}
    (he : s.edit? a = some e) : e.Keeps fun x => x.value.isFinite ∧ x.source.isSome := by
  have hmerge : ∀ batch, (∀ r ∈ batch, r.value.isFinite) →
      (s.mergeEdit batch).Keeps fun x => x.value.isFinite ∧ x.source.isSome := by
    intro batch hbatch
    unfold mergeEdit
    split <;> exact List.forall_mem_map.mpr fun r hr => ⟨hbatch r hr, rfl⟩
  cases a with
  | ingest text =>
    simp only [edit?, Option.ite_none_left_eq_some, Option.some.injEq] at he
    obtain ⟨-, rfl⟩ := he
    exact hmerge _ fun r hr => isFinite_of_mem_ofText hr
  | merge batch =>
    simp only [edit?, Option.ite_none_left_eq_some, Option.some.injEq] at he
    obtain ⟨-, rfl⟩ := he
    exact hmerge _ ha
  | setValue index value =>
    obtain rfl := Option.some.inj he
    exact fun x hx => ⟨ha, hx.2⟩
  | editValue index input =>
    simp only [edit?, Option.ite_none_left_eq_some, Option.map_eq_some_iff] at he
    obtain ⟨-, value, hvalue, rfl⟩ := he
    cases htyped : typedValue s.settings.separators input with
    | error fault => simp [htyped, Except.toOption] at hvalue
    | ok x =>
      obtain rfl : x = value := by simpa [htyped, Except.toOption] using hvalue
      exact fun y hy => ⟨isFinite_of_typedValue htyped, hy.2⟩
  | setOperator index op => obtain rfl := Option.some.inj he; trivial
  | deleteAt index => obtain rfl := Option.some.inj he; trivial
  | clear => obtain rfl := Option.some.inj he; trivial
  | evaluate => exact nomatch he
  | setSeparators c => exact nomatch he
  | setRowMode on => exact nomatch he
  | setCombineMode on => exact nomatch he

theorem operands_step {s : Session} (h : s.Finite) (now : Timestamp) {a : Action}
    (ha : BringsFinite a) :
    ∀ x ∈ (s.step now a).expression.operands, x.value.isFinite ∧ x.source.isSome := by
  rw [expression_step_eq]
  cases he : s.edit? a with
  | none => exact h.operands
  | some e => exact Expression.forall_operands_step h.operands (keeps_edit? ha he)

theorem numbers_of_completed? {s : Session} {a : Action} {ev : Evaluation}
    (h : s.completed? a = some ev) (now : Timestamp) :
    ev.numbers = (s.step now a).expression.values := by
  rw [(Expression.evaluation?_eq_some_iff.mp (evaluation?_step h)).2.1]

/-- **An operation that brings in finite values leaves finite values**: if it completes an
evaluation, this is of finite numbers, and its result is finite. -/
theorem finite_step {s : Session} (h : s.Finite) (now : Timestamp) {a : Action}
    (ha : BringsFinite a) : (s.step now a).Finite := by
  have hoperands := operands_step h now ha
  have hcompleted : ∀ ev, s.completed? a = some ev →
      (∀ x ∈ ev.numbers, x.isFinite) ∧ ev.result.isFinite := by
    intro ev hev
    have hnumbers : ∀ x ∈ ev.numbers, x.isFinite := by
      rw [numbers_of_completed? hev now]
      exact List.forall_mem_map.mpr fun x hx => (hoperands x hx).1
    exact ⟨hnumbers, isFinite_of_sound (sound_completed? hev) hnumbers⟩
  have hrecords := records_step now s a
  refine ⟨?_, ?_, ?_⟩
  · rw [← Expression.map_operand_items, List.forall_mem_map] at hoperands
    exact hoperands
  · rw [entries_step]
    refine List.forall_mem_append.mpr ⟨h.entries, ?_⟩
    intro entry hentry
    rw [Option.mem_toList, Option.map_eq_some_iff] at hentry
    obtain ⟨ev, hev, rfl⟩ := hentry
    exact hcompleted ev hev
  · intro r hr
    have hresult := hrecords.result
    rw [hr] at hresult
    cases hev : s.completed? a with
    | none =>
      simp only [hev, recording, reduceCtorEq, and_false, or_false] at hresult
      exact h.result r hresult.symm
    | some ev =>
      simp only [hev, recording, Option.some.injEq, reduceCtorEq, false_and, or_false] at hresult
      exact hresult ▸ (hcompleted ev hev).2

theorem finite_run {s : Session} (h : s.Finite) {ops : List (Timestamp × Action)}
    (hops : ∀ op ∈ ops, BringsFinite op.2) : (s.run ops).Finite := by
  induction ops generalizing s with
  | nil => exact h
  | cons op ops ih =>
    have hop := finite_step h op.1 (hops op (by simp))
    exact ih hop fun op' hop' => hops op' (by simp [hop'])

end Session

end Reckoner
