import Reckoner.Console.Run
import Reckoner.Proofs.Console.Grammar
import Reckoner.Proofs.Display.Entry
import Reckoner.Proofs.Session.History

/-! # What replies are made of

Every reply is one line, and a reply that reports no fault does not look like one that does: it
starts with a character that no report starts with, or it is a text that is fixed. Values are shown
in digits and marks, or by a word if they are not finite, so no line ends inside what is shown of
them.

* `isQuiet_of_mem_display`: the characters of a value.
* `singleLine_message`, `fault_of_setValue`, `quoted_of_perform`: the report of a fault.
* `unfailing_expressionLines`, `unfailing_numbered`: replies that report no fault. -/

namespace Reckoner

/-! ### Characters -/

/-- A character that neither ends a line nor starts the report of a fault. -/
structure IsQuiet (ch : Char) : Prop where
  ne_newline : ch ≠ '\n'
  ne_e : ch ≠ 'e'

theorem isQuiet_of_mem {s : List Char} (hnewline : '\n' ∉ s) (he : 'e' ∉ s) :
    ∀ ch ∈ s, IsQuiet ch := by
  intro ch hch
  constructor
  · rintro rfl
    exact hnewline hch
  · rintro rfl
    exact he hch

theorem isQuiet_of_isDigit {ch : Char} (h : ch.isDigit) : IsQuiet ch := by
  constructor <;> rintro rfl <;> exact absurd h (by decide)

theorem isQuiet_of_mark? {s : Separator} {ch : Char} (h : s.mark? = some ch) : IsQuiet ch := by
  rcases Separator.mark?_eq_some_iff.mp h with ⟨-, rfl⟩ | ⟨-, rfl⟩ | ⟨-, rfl⟩ <;>
    constructor <;> decide

theorem isQuiet_symbol (op : Operator) : IsQuiet op.symbol := by
  cases op <;> constructor <;> decide

theorem mem_grouped {mark ch : Char} {s : List Char} (h : ch ∈ grouped mark s) :
    ch = mark ∨ ch ∈ s := by
  fun_induction grouped mark s with
  | case1 => exact .inr h
  | case2 d s hgroup ih =>
    rcases List.mem_cons.mp h with rfl | h
    · exact .inr (List.mem_cons_self ..)
    · rcases List.mem_cons.mp h with rfl | h
      · exact .inl rfl
      · exact (ih h).imp_right (List.mem_cons_of_mem d)
  | case3 d s hgroup ih =>
    rcases List.mem_cons.mp h with rfl | h
    · exact .inr (List.mem_cons_self ..)
    · exact (ih h).imp_right (List.mem_cons_of_mem d)

theorem isQuiet_of_mem_group {c : Separators} {s : List Char} (hs : ∀ ch ∈ s, IsQuiet ch)
    {ch : Char} (h : ch ∈ c.group s) : IsQuiet ch := by
  unfold Separators.group at h
  split at h
  · exact hs ch h
  · rename_i mark hmark
    rcases mem_grouped h with rfl | h
    · exact isQuiet_of_mark? hmark
    · exact hs ch h

theorem isQuiet_of_mem_sign {x : Float} {d : Digits} {ch : Char} (h : ch ∈ d.sign x) :
    IsQuiet ch := by
  unfold Digits.sign Numeral.sign at h
  split at h
  · obtain rfl := List.mem_singleton.mp h
    constructor <;> decide
  · exact absurd h List.not_mem_nil

theorem isQuiet_of_mem_pointed {point ch : Char} {s : List Char} (hpoint : IsQuiet point)
    (hs : ∀ ch ∈ s, IsQuiet ch) (h : ch ∈ Numeral.pointed point s) : IsQuiet ch := by
  rcases Numeral.Layout.mem_pointed h with ⟨rfl, -⟩ | h
  · exact hpoint
  · exact hs ch h

theorem isQuiet_of_mem_ofFloat (x : Float) :
    (∀ ch ∈ (Digits.ofFloat x).whole, IsQuiet ch) ∧
      ∀ ch ∈ (Digits.ofFloat x).fraction, IsQuiet ch := by
  by_cases hx : x.isFinite
  · obtain ⟨-, hwhole, hfraction⟩ := digits_ofFloat hx
    exact ⟨fun ch hch => isQuiet_of_isDigit (isDigits_iff.mp hwhole ch hch),
      fun ch hch => isQuiet_of_isDigit (isDigits_iff.mp hfraction ch hch)⟩
  · unfold Digits.ofFloat
    split
    · exact ⟨isQuiet_of_mem (s := "NaN".toList) (by decide) (by decide), List.forall_mem_nil _⟩
    · exact ⟨isQuiet_of_mem (s := "inf".toList) (by decide) (by decide), List.forall_mem_nil _⟩

/-- **The characters that a value is shown with**, finite or not. -/
theorem isQuiet_of_mem_display {c : Separators} {x : Float} {ch : Char} (h : ch ∈ display c x) :
    IsQuiet ch := by
  obtain ⟨hwhole, hfraction⟩ := isQuiet_of_mem_ofFloat x
  unfold display at h
  split at h
  · rcases List.mem_append.mp h with h | h
    · exact isQuiet_of_mem_sign h
    · exact isQuiet_of_mem_group hwhole h
  · rename_i point hpoint
    rcases List.mem_append.mp h with h | h
    · rcases List.mem_append.mp h with h | h
      · exact isQuiet_of_mem_sign h
      · exact isQuiet_of_mem_group hwhole h
    · exact isQuiet_of_mem_pointed (isQuiet_of_mark? hpoint) hfraction h

theorem isQuiet_of_mem_chainText {c : Separators} {xs : List Float} {ops : List Operator} :
    ∀ ch ∈ chainText (display c) xs ops, IsQuiet ch :=
  forall_mem_chainText ops (by constructor <;> decide) isQuiet_symbol
    fun _ _ _ hch => isQuiet_of_mem_display hch

theorem isQuiet_of_mem_entry {c : Separators} {entry : Entry} {ch : Char} (h : ch ∈ entry.text c) :
    IsQuiet ch := by
  rw [Entry.text, List.mem_append, List.mem_append] at h
  rcases h with (h | h) | h
  · exact isQuiet_of_mem_chainText ch h
  · exact isQuiet_of_mem (s := " = ".toList) (by decide) (by decide) ch h
  · exact isQuiet_of_mem_display h

/-! ### Lines -/

/-- No line ends inside the text. -/
def SingleLine (text : String) : Prop := '\n' ∉ text.toList

instance (text : String) : Decidable (SingleLine text) :=
  inferInstanceAs (Decidable ('\n' ∉ text.toList))

theorem singleLine_ofList {s : List Char} (h : '\n' ∉ s) : SingleLine (String.ofList s) := by
  intro hmem
  rw [String.toList_ofList] at hmem
  exact h hmem

theorem SingleLine.append {a b : String} (ha : SingleLine a) (hb : SingleLine b) :
    SingleLine (a ++ b) := by
  intro hmem
  rw [String.toList_append] at hmem
  exact (List.mem_append.mp hmem).elim ha hb

theorem SingleLine.around {a b s : String} (ha : SingleLine a) (hs : SingleLine s)
    (hb : SingleLine b) : SingleLine (a ++ s ++ b) :=
  (ha.append hs).append hb

theorem singleLine_toString (n : Nat) : SingleLine (toString n) := by
  intro hmem
  have hdigits : '\n' ∈ Decimal.digits n := by
    rw [Decimal.digits, ← Nat.toList_repr]
    exact hmem
  exact absurd (Decimal.isDigit_of_mem_digits hdigits) (by decide)

theorem newline_not_mem {s : List Char} (h : ∀ ch ∈ s, IsQuiet ch) : '\n' ∉ s :=
  fun hmem => (h '\n' hmem).ne_newline rfl

/-! ### Reports -/

/-- The typed text that a fault quotes. -/
def Fault.quoted : Fault → List Char
  | .notANumber input => input
  | _ => []

theorem Fault.singleLine_message {fault : Fault} (h : '\n' ∉ fault.quoted) :
    SingleLine fault.message := by
  cases fault with
  | noNumbers => decide
  | notFinite => decide
  | divisionByZero position =>
    exact .around (by decide) (singleLine_toString position) (by decide)
  | notANumber input => exact .around (by decide) (singleLine_ofList h) (by decide)
  | outOfRange index length =>
    have hindex : SingleLine ("Index " ++ toString index ++ " is out of range (length ") :=
      .around (by decide) (singleLine_toString index) (by decide)
    exact hindex.around (singleLine_toString length) (by decide)

theorem CommandFault.singleLine_message {fault : CommandFault} (h : '\n' ∉ fault.subject) :
    SingleLine fault.message := by
  cases fault with
  | notAPosition word => exact .around (by decide) (singleLine_ofList h) (by decide)
  | unknownOperator word => exact .around (by decide) (singleLine_ofList h) (by decide)
  | notAFlag word => exact .around (by decide) (singleLine_ofList h) (by decide)
  | unknownSeparator word => exact .append (by decide) (singleLine_ofList h)
  | unknownCommand line => exact .around (by decide) (singleLine_ofList h) (by decide)

/-! ### Faults -/

namespace Expression

variable {e : Expression} {index : Nat} {fault : Fault}

theorem fault_of_setOperator {op : Operator} (h : e.setOperator index op = .error fault) :
    fault = .outOfRange index e.operators.length := by
  cases e with
  | empty => exact (Except.error.inj h).symm
  | chain first links =>
    unfold setOperator at h
    dsimp only at h
    split at h
    · cases h
    · exact (Except.error.inj h).symm

theorem fault_of_setValue {value : Float} (h : e.setValue index value = .error fault) :
    fault = .outOfRange index e.length := by
  unfold setValue at h
  split at h
  · cases h
  · split at h
    · cases h
    · exact (Except.error.inj h).symm
  · exact (Except.error.inj h).symm

theorem fault_of_deleteAt (h : e.deleteAt index = .error fault) :
    fault = .outOfRange index e.length := by
  unfold deleteAt at h
  split at h
  · cases h
  · cases h
  · split at h
    · cases h
    · exact (Except.error.inj h).symm
  · exact (Except.error.inj h).symm

end Expression

namespace Session

theorem map_eq_error_iff {ε α β : Type} {f : α → β} {x : Except ε α} {e : ε} :
    x.map f = .error e ↔ x = .error e := by
  cases x <;> simp [Except.map]

theorem quoted_of_evaluate {now : Timestamp} {s : Session} {fault : Fault}
    (h : s.evaluate now = .error fault) : fault.quoted = [] := by
  have hevaluate : s.expression.evaluate = .error fault := by
    unfold evaluate at h
    split at h
    · rename_i hfault
      rw [hfault, Except.error.inj h]
    · cases h
    · cases h
  obtain ⟨position, rfl⟩ | rfl := Expression.fault_of_evaluate hevaluate <;> rfl

theorem quoted_of_merge {now : Timestamp} {s : Session} {batch : List Reading} {fault : Fault}
    (h : s.merge now batch = .error fault) : fault.quoted = [] := by
  cases hbatch : batch.isEmpty with
  | true =>
    rw [merge, if_pos hbatch] at h
    obtain rfl := Except.error.inj h
    rfl
  | false =>
    rw [merge_eq now s hbatch] at h
    cases h

theorem quoted_of_editValue {s : Session} {index : Nat} {input : List Char} {fault : Fault}
    (h : s.editValue index input = .error fault) : fault.quoted = [] ∨ fault.quoted = input := by
  unfold editValue at h
  split at h
  · obtain rfl := Except.error.inj h
    exact .inl rfl
  · split at h
    · rename_i htyped
      obtain rfl := Except.error.inj h
      rw [typedValue_eq_error htyped]
      exact .inr rfl
    · rw [Expression.fault_of_setValue (map_eq_error_iff.mp (map_eq_error_iff.mp h))]
      exact .inl rfl

/-- **A fault quotes nothing but a value that was typed.** -/
theorem quoted_of_perform {now : Timestamp} {s : Session} {a : Action} {fault : Fault}
    (h : s.perform now a = .error fault) :
    fault.quoted = [] ∨ ∃ index, a = .editValue index fault.quoted := by
  cases a with
  | ingest text => exact .inl (quoted_of_merge (map_eq_error_iff.mp h))
  | merge batch => exact .inl (quoted_of_merge (map_eq_error_iff.mp h))
  | evaluate => exact .inl (quoted_of_evaluate (map_eq_error_iff.mp h))
  | setOperator index op =>
    rw [Expression.fault_of_setOperator (map_eq_error_iff.mp (map_eq_error_iff.mp h))]
    exact .inl rfl
  | setValue index value =>
    rw [Expression.fault_of_setValue (map_eq_error_iff.mp (map_eq_error_iff.mp h))]
    exact .inl rfl
  | editValue index input =>
    refine (quoted_of_editValue (map_eq_error_iff.mp h)).imp_right fun hinput => ⟨index, ?_⟩
    rw [hinput]
  | deleteAt index =>
    rw [Expression.fault_of_deleteAt (map_eq_error_iff.mp (map_eq_error_iff.mp h))]
    exact .inl rfl
  | clear => cases h
  | setSeparators c => cases h
  | setRowMode on => cases h
  | setCombineMode on => cases h

end Session

namespace Console

/-! ### Replies -/

/-- One line of a reply, which is not the report of a fault. -/
structure Unfailing (line : String) : Prop where
  single : SingleLine line
  not_error : ¬ "error: ".toList <+: line.toList

theorem unfailing_of_isQuiet {s : List Char} (h : ∀ ch ∈ s, IsQuiet ch) :
    Unfailing (String.ofList s) where
  single := singleLine_ofList (newline_not_mem h)
  not_error hprefix := by
    have he : 'e' ∈ "error: ".toList := by decide
    have hmem := hprefix.subset he
    rw [String.toList_ofList] at hmem
    exact (h 'e' hmem).ne_e rfl

theorem unfailing_of_head? (ch : Char) {line : String} (hsingle : SingleLine line)
    (hhead : line.toList.head? = some ch) (hch : ch ≠ 'e') : Unfailing line where
  single := hsingle
  not_error hprefix := by
    obtain ⟨s, hs⟩ := hprefix
    rw [← hs] at hhead
    exact hch (Option.some.inj hhead).symm

theorem unfailing_helpText : ∀ line ∈ helpText, Unfailing line := by
  have hlines : ∀ line ∈ helpText, SingleLine line ∧ ¬ "error: ".toList <+: line.toList := by
    decide +kernel
  exact fun line hline => ⟨(hlines line hline).1, (hlines line hline).2⟩

theorem unfailing_resultLine (s : Session) : Unfailing (resultLine s) := by
  unfold resultLine
  split
  · rename_i x _
    have hquiet : ∀ ch ∈ "= ".toList ++ shown s x, IsQuiet ch := by
      intro ch hch
      rcases List.mem_append.mp hch with hch | hch
      · exact isQuiet_of_mem (s := "= ".toList) (by decide) (by decide) ch hch
      · exact isQuiet_of_mem_display hch
    exact unfailing_of_isQuiet hquiet
  · exact unfailing_of_head? '=' (by decide) rfl (by decide)

theorem unfailing_expressionLines (s : Session) : ∀ line ∈ expressionLines s, Unfailing line := by
  intro line hline
  rcases List.mem_cons.mp hline with rfl | hline
  · exact unfailing_of_isQuiet isQuiet_of_mem_chainText
  · rw [List.mem_singleton.mp hline]
    exact unfailing_resultLine s

theorem unfailing_numbered {lines : List (List Char)} (h : ∀ line ∈ lines, '\n' ∉ line) :
    ∀ line ∈ numbered lines, Unfailing line := by
  intro line hline
  obtain ⟨i, hi, rfl⟩ := List.mem_mapIdx.mp hline
  have htext := singleLine_ofList (h lines[i] (List.getElem_mem hi))
  have hnumber := singleLine_toString (i + 1)
  have hfront : SingleLine ("[" ++ toString (i + 1) ++ "] ") :=
    .around (by decide) hnumber (by decide)
  exact unfailing_of_head? '[' (hfront.append htext) (by simp) (by decide)

theorem unfailing_itemTexts (s : Session) :
    ∀ line ∈ numbered (s.expression.items.map (itemText s)), Unfailing line := by
  refine unfailing_numbered fun line hline => ?_
  obtain ⟨item, -, rfl⟩ := List.mem_map.mp hline
  refine newline_not_mem fun ch hch => ?_
  rcases List.mem_append.mp hch with hch | hch
  · exact isQuiet_of_mem_display hch
  · rcases List.mem_cons.mp hch with rfl | hch
    · constructor <;> decide
    · obtain ⟨op, -, rfl⟩ := Option.map_eq_some_iff.mp (Option.mem_toList.mp hch)
      exact isQuiet_symbol op

theorem unfailing_entryTexts (s : Session) :
    ∀ line ∈ numbered (s.history.newestFirst.map (Entry.text s.settings.separators)),
      Unfailing line := by
  refine unfailing_numbered fun line hline => ?_
  obtain ⟨entry, -, rfl⟩ := List.mem_map.mp hline
  exact newline_not_mem fun ch hch => isQuiet_of_mem_entry hch

end Console

end Reckoner
