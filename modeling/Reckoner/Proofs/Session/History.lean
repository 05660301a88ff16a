import Reckoner.Proofs.Evaluation
import Reckoner.Session

/-! # The history over whole runs

An operation works out an expression or none (`target?`). If that gives an evaluation, it is added
to the history and its result becomes the result of the session; otherwise the history stays, and
the result stays or becomes void. So along every run the entries are sound, the result is that of
the newest entry, and no entry is ever lost.

* `records_step`: what an operation does to the history and to the result.
* `recorded_step`, `recorded_run`: the invariant of a run.
* `history_of_run`: the history of every session that can be reached. -/

namespace Reckoner.Session

/-- The expression that an operation works out, if it does. -/
def target? (s : Session) : Action → Option Expression
  | .ingest text =>
    if (s.readings text).isEmpty then none else some (s.merged (s.readings text)).expression
  | .merge batch => if batch.isEmpty then none else some (s.merged batch).expression
  | .evaluate => some s.expression
  | _ => none

/-- The evaluation that an operation completes: of an expression that has operands and does not
fail. -/
def completed? (s : Session) (a : Action) : Option Evaluation :=
  (s.target? a).bind Expression.evaluation?

/-- The session after operations, each at its moment. -/
def run (s : Session) (ops : List (Timestamp × Action)) : Session :=
  ops.foldl (fun s op => s.step op.1 op.2) s

/-! ### One operation -/

/-- The session with an evaluation recorded, if there is one. -/
def recording (now : Timestamp) (s : Session) : Option Evaluation → Session
  | some ev => { s with result := some ev.result, history := s.history.record ⟨ev, now⟩ }
  | none => s

theorem settings_recording (now : Timestamp) (s : Session) (ev : Option Evaluation) :
    (s.recording now ev).settings = s.settings := by
  cases ev <;> rfl

theorem expression_recording (now : Timestamp) (s : Session) (ev : Option Evaluation) :
    (s.recording now ev).expression = s.expression := by
  cases ev <;> rfl

theorem step_evaluate (now : Timestamp) (s : Session) :
    s.step now .evaluate = s.recording now s.expression.evaluation? := by
  unfold step perform evaluate Expression.evaluation?
  cases s.expression.evaluate with
  | error fault => rfl
  | ok ev => cases ev <;> rfl

/-- **A merge**: the batch is merged, and the evaluation is recorded if there is one. -/
theorem merge_eq (now : Timestamp) (s : Session) {batch : List Reading}
    (h : batch.isEmpty = false) :
    s.merge now batch =
      .ok (⟨if s.appends then .appended else .replaced, batch.length,
          (s.merged batch).expression.evaluate.map (Option.map Evaluation.result)⟩,
        (s.merged batch).recording now (s.merged batch).expression.evaluation?) := by
  unfold merge evaluate Expression.evaluation?
  simp only [h]
  cases (s.merged batch).expression.evaluate with
  | error fault => rfl
  | ok ev => cases ev <;> rfl

theorem step_merge (now : Timestamp) (s : Session) {batch : List Reading}
    (h : batch.isEmpty = false) :
    s.step now (.merge batch) =
      (s.merged batch).recording now (s.merged batch).expression.evaluation? := by
  rw [step, perform, merge_eq now s h]
  rfl

theorem step_merge_of_isEmpty (now : Timestamp) (s : Session) {batch : List Reading}
    (h : batch.isEmpty) : s.step now (.merge batch) = s := by
  simp [step, perform, merge, h, Except.map]

/-- A session has what another one has once an evaluation is recorded there, but for a result that
has become void. -/
structure Records (now : Timestamp) (s : Session) (ev : Option Evaluation) (s' : Session) :
    Prop where
  history : s'.history = (s.recording now ev).history
  result : s'.result = (s.recording now ev).result ∨ (ev = none ∧ s'.result = none)

theorem map_eq_ok_iff {ε α β : Type} {f : α → β} {x : Except ε α} {y : β} :
    x.map f = .ok y ↔ ∃ a, x = .ok a ∧ f a = y := by
  cases x <;> simp [Except.map]

theorem records_of_perform {now : Timestamp} {s : Session} {a : Action}
    (hnone : s.completed? a = none)
    (h : ∀ r s', s.perform now a = .ok (r, s') →
      s'.history = s.history ∧ (s'.result = s.result ∨ s'.result = none)) :
    Records now s (s.completed? a) (s.step now a) := by
  rw [hnone]
  cases hp : s.perform now a with
  | error fault =>
    rw [step_of_error hp]
    exact ⟨rfl, .inl rfl⟩
  | ok answer =>
    obtain ⟨r, s'⟩ := answer
    obtain ⟨hh, hr⟩ := h r s' hp
    rw [step_of_ok hp]
    exact ⟨hh, hr.imp_right fun hvoid => ⟨rfl, hvoid⟩⟩

theorem records_of_done {now : Timestamp} {s : Session} {a : Action} {o : Except Fault Session}
    (hnone : s.completed? a = none) (hperform : s.perform now a = o.map (.done, ·))
    (h : ∀ s', o = .ok s' →
      s'.history = s.history ∧ (s'.result = s.result ∨ s'.result = none)) :
    Records now s (s.completed? a) (s.step now a) := by
  refine records_of_perform hnone fun r s' hp => ?_
  obtain ⟨t, ht, heq⟩ := map_eq_ok_iff.mp (hperform.symm.trans hp)
  obtain ⟨-, rfl⟩ := Prod.mk.inj heq
  exact h t ht

theorem history_setValue {s s' : Session} {index : Nat} {value : Float}
    (h : s.setValue index value = .ok s') : s'.history = s.history ∧ s'.result = none := by
  obtain ⟨e, -, rfl⟩ := map_eq_ok_iff.mp h
  exact ⟨rfl, rfl⟩

theorem history_editValue {s s' : Session} {index : Nat} {input : List Char} {value : Float}
    (h : s.editValue index input = .ok (value, s')) :
    s'.history = s.history ∧ s'.result = none := by
  unfold editValue at h
  split at h
  · exact nomatch h
  · split at h
    · exact nomatch h
    · obtain ⟨t, ht, heq⟩ := map_eq_ok_iff.mp h
      obtain ⟨-, rfl⟩ := Prod.mk.inj heq
      exact history_setValue ht

theorem history_deleteAt {s s' : Session} {index : Nat} (h : s.deleteAt index = .ok s') :
    s'.history = s.history ∧ s'.result = none := by
  obtain ⟨e, -, rfl⟩ := map_eq_ok_iff.mp h
  exact ⟨rfl, rfl⟩

/-- **What an operation does to the history and to the result.** -/
theorem records_step (now : Timestamp) (s : Session) (a : Action) :
    Records now s (s.completed? a) (s.step now a) := by
  -- a text that is taken in is the merge of its readings
  have hmerge :
      ∀ batch, Records now s (s.completed? (.merge batch)) (s.step now (.merge batch)) := by
    intro batch
    cases hb : batch.isEmpty with
    | true =>
      rw [step_merge_of_isEmpty now s hb, completed?, target?, if_pos hb]
      exact ⟨rfl, .inl rfl⟩
    | false =>
      rw [step_merge now s hb, completed?, target?, if_neg (by simp [hb]), Option.bind_some]
      cases (s.merged batch).expression.evaluation? <;> exact ⟨rfl, .inl rfl⟩
  cases a with
  | ingest text => exact hmerge (s.readings text)
  | merge batch => exact hmerge batch
  | evaluate =>
    rw [step_evaluate]
    exact ⟨rfl, .inl rfl⟩
  | setOperator index op =>
    refine records_of_done rfl rfl fun s' h => ?_
    obtain ⟨e, -, rfl⟩ := map_eq_ok_iff.mp h
    exact ⟨rfl, .inl rfl⟩
  | setValue index value =>
    exact records_of_done rfl rfl fun s' h => (history_setValue h).imp_right .inr
  | editValue index input =>
    refine records_of_perform rfl fun r s' h => ?_
    obtain ⟨⟨x, t⟩, ht, heq⟩ := map_eq_ok_iff.mp h
    obtain ⟨-, rfl⟩ := Prod.mk.inj heq
    exact (history_editValue ht).imp_right .inr
  | deleteAt index =>
    exact records_of_done rfl rfl fun s' h => (history_deleteAt h).imp_right .inr
  | clear => exact ⟨rfl, .inr ⟨rfl, rfl⟩⟩
  | setSeparators c => exact ⟨rfl, .inl rfl⟩
  | setRowMode on => exact ⟨rfl, .inl rfl⟩
  | setCombineMode on => exact ⟨rfl, .inl rfl⟩

/-- **The history grows by what an operation completes**, and by nothing else. -/
theorem entries_step (now : Timestamp) (s : Session) (a : Action) :
    (s.step now a).history.entries =
      s.history.entries ++ ((s.completed? a).map (Entry.mk · now)).toList := by
  rw [(records_step now s a).history]
  cases s.completed? a with
  | none => simp [recording]
  | some ev => simp [recording, History.entries_record]

theorem sound_completed? {s : Session} {a : Action} {ev : Evaluation}
    (h : s.completed? a = some ev) : ev.Sound := by
  obtain ⟨e, -, he⟩ := Option.bind_eq_some_iff.mp h
  exact (Expression.evaluation?_eq_some_iff.mp he).2.2.2

/-! ### Runs -/

/-- What is recorded in a session is sound, and the result, if there is one, was recorded last. -/
structure Recorded (s : Session) : Prop where
  sound : ∀ entry ∈ s.history.entries, entry.Sound
  result : ∀ r, s.result = some r → ∃ entry, s.history.recent? 0 = some entry ∧ entry.result = r

theorem recorded_start (settings : Settings) : Recorded { settings } := by
  constructor
  · simp [History.entries]
  · simp

/-- **An operation keeps what is recorded in order.** -/
theorem recorded_step {s : Session} (h : s.Recorded) (now : Timestamp) (a : Action) :
    (s.step now a).Recorded := by
  obtain ⟨hhist, hres⟩ := records_step now s a
  constructor
  · intro entry hentry
    rw [entries_step, List.mem_append] at hentry
    rcases hentry with hentry | hentry
    · exact h.sound entry hentry
    · rw [Option.mem_toList, Option.map_eq_some_iff] at hentry
      obtain ⟨ev, hev, rfl⟩ := hentry
      exact sound_completed? hev
  · intro r hr
    rw [hhist]
    rw [hr] at hres
    cases hev : s.completed? a with
    | none =>
      simp only [hev, recording, reduceCtorEq, and_false, or_false] at hres ⊢
      exact h.result r hres.symm
    | some ev =>
      simp only [hev, recording, Option.some.injEq, reduceCtorEq, false_and, or_false] at hres ⊢
      exact ⟨⟨ev, now⟩, rfl, hres.symm⟩

theorem recorded_run {s : Session} (h : s.Recorded) (ops : List (Timestamp × Action)) :
    (s.run ops).Recorded := by
  induction ops generalizing s with
  | nil => exact h
  | cons op ops ih => exact ih (recorded_step h op.1 op.2)

/-- **The history of a session that has been reached by any operations**: it is kept by every
further operation and extended by exactly the evaluation that this completes, all its entries are
sound, and the result shown is that of the newest one. -/
theorem history_of_run (settings : Settings) (ops : List (Timestamp × Action)) :
    (∀ now a,
      ((run { settings } ops).step now a).history.entries =
        (run { settings } ops).history.entries ++
          (((run { settings } ops).completed? a).map (Entry.mk · now)).toList) ∧
    (∀ entry ∈ (run { settings } ops).history.entries, entry.Sound) ∧
    (∀ r, (run { settings } ops).result = some r →
      ∃ entry, (run { settings } ops).history.recent? 0 = some entry ∧ entry.result = r) := by
  obtain ⟨hsound, hresult⟩ := recorded_run (recorded_start settings) ops
  exact ⟨fun now a => entries_step now _ a, hsound, hresult⟩

end Reckoner.Session
