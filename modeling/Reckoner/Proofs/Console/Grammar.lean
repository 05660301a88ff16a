import Reckoner.Console.Command

/-! # What is a command

A line is a command if its words are those of one (`Command.Spelled`): the name and as many words
behind it as the command takes, each of them a position, an operator, a switch or a separator where
one has to be. Everything else is no command.

* `position_eq_ok_iff`, `operator_eq_ok_iff`, `flag_eq_ok_iff`, `separator_eq_ok_iff`: single words.
* `ofText_eq_ok_iff`: a line is read as the command that it spells. -/

namespace Reckoner

namespace Text

/-! ### The words of a line -/

theorem flatten_words (s : List Char) : (words s).flatten = compact s := by
  rw [words, List.flatten_filter_not_isEmpty]
  induction s with
  | nil => rfl
  | cons ch s ih =>
    rw [List.splitOnP_cons_eq_if_modifyHead, compact, List.filter_cons, ← compact]
    cases hch : isBlank ch with
    | true => simpa using ih
    | false =>
      obtain ⟨first, others, hsplit⟩ := List.exists_cons_of_ne_nil (List.splitOnP_ne_nil isBlank s)
      rw [hsplit, List.flatten_cons] at ih
      simp [hsplit, ih]

theorem mem_of_mem_words {s word : List Char} (hword : word ∈ words s) {ch : Char}
    (hch : ch ∈ word) : ch ∈ s ∧ isBlank ch = false := by
  have hmem : ch ∈ compact s := by
    rw [← flatten_words]
    exact List.mem_flatten_of_mem hword hch
  exact ⟨(List.mem_filter.mp hmem).1, not_isBlank_of_mem_compact hmem⟩

end Text

/-- What a fault is about: a word of the line, or all of it. -/
def CommandFault.subject : CommandFault → List Char
  | .notAPosition word | .unknownOperator word | .notAFlag word | .unknownSeparator word => word
  | .unknownCommand line => line

namespace Command

/-! ### Words -/

/-- The word is a position, counted from one, of what is held at `index`: digits, a plus allowed in
front of them, of a number that sixty-four bits hold. -/
def IsPosition (word : List Char) (index : Nat) : Prop :=
  ∃ plus digits,
    word = plus ++ digits ∧ (plus = [] ∨ plus = ['+']) ∧ digits ≠ [] ∧ isDigits digits ∧
    Decimal.ofDigits digits = index + 1 ∧ index + 1 < UInt64.size

/-- The characters that an operator is typed with. -/
def operatorMarks : Operator → List Char
  | .add => ['+']
  | .subtract => ['-', '−']
  | .multiply => ['*', 'x', '×']
  | .divide => ['/', '÷']

/-- The words for a switch. -/
def flagWords : Bool → List String
  | true => ["on", "true", "yes"]
  | false => ["off", "false", "no"]

/-- The word for a separator, which may be typed in capitals. -/
def separatorWord : Separator → String
  | .comma => "comma"
  | .period => "period"
  | .space => "space"
  | .disabled => "none"

/-- The words of a command. -/
inductive Spelled : List (List Char) → Command → Prop
  | setOperator {n : List Char} {ch : Char} {index : Nat} {op : Operator} (hn : IsPosition n index)
      (hch : ch ∈ operatorMarks op) : Spelled ["op".toList, n, [ch]] (.setOperator index op)
  | setValue {n : List Char} {value : List (List Char)} {index : Nat} (hn : IsPosition n index)
      (hvalue : value ≠ []) :
      Spelled ("set".toList :: n :: value) (.setValue index ([' '].intercalate value))
  | delete {n : List Char} {index : Nat} (hn : IsPosition n index) :
      Spelled ["del".toList, n] (.delete index)
  | evaluate : Spelled ["eval".toList] .evaluate
  | clear : Spelled ["clear".toList] .clear
  | showNumbers : Spelled ["show".toList] .showNumbers
  | showHistory : Spelled ["history".toList] .showHistory
  | combine {word : List Char} {on : Bool} (hword : String.ofList word ∈ flagWords on) :
      Spelled ["combine".toList, word] (.combine on)
  | row {word : List Char} {on : Bool} (hword : String.ofList word ∈ flagWords on) :
      Spelled ["row".toList, word] (.row on)
  | thousands {word : List Char} {s : Separator}
      (hword : String.ofList (word.map Char.toLower) = separatorWord s) :
      Spelled ["thousands".toList, word] (.thousands s)
  | decimal {word : List Char} {s : Separator}
      (hword : String.ofList (word.map Char.toLower) = separatorWord s) :
      Spelled ["decimal".toList, word] (.decimal s)
  | copyResult : Spelled ["copy".toList] (.copy none)
  | copyEntry {n : List Char} {index : Nat} (hn : IsPosition n index) :
      Spelled ["copy".toList, n] (.copy (some index))
  | help : Spelled ["help".toList] .help
  | quit : Spelled ["quit".toList] .quit
  | q : Spelled ["q".toList] .quit

theorem positionDigits_cons {ch : Char} (h : ch ≠ '+') (s : List Char) :
    positionDigits (ch :: s) = ch :: s := by
  unfold positionDigits
  split
  · rename_i hcons
    exact absurd (List.cons.inj hcons).1 h
  · rfl

theorem exists_positionDigits (word : List Char) :
    ∃ plus, word = plus ++ positionDigits word ∧ (plus = [] ∨ plus = ['+']) := by
  cases word with
  | nil => exact ⟨[], rfl, .inl rfl⟩
  | cons ch s =>
    by_cases h : ch = '+'
    · subst h
      exact ⟨['+'], rfl, .inr rfl⟩
    · exact ⟨[], (positionDigits_cons h s).symm, .inl rfl⟩

theorem positionDigits_append {plus digits : List Char} (hplus : plus = [] ∨ plus = ['+'])
    (hdigits : isDigits digits) : positionDigits (plus ++ digits) = digits := by
  rcases hplus with rfl | rfl
  · cases digits with
    | nil => rfl
    | cons d s =>
      refine positionDigits_cons ?_ s
      rintro rfl
      exact absurd (isDigits_cons.mp hdigits).1 (by decide)
  · rfl

theorem position_eq_ok_iff {word : List Char} {index : Nat} :
    position word = .ok index ↔ IsPosition word index := by
  have hmax : maxPosition + 1 = UInt64.size := rfl
  unfold position
  constructor
  · intro h
    dsimp only at h
    split at h
    · rename_i hn
      obtain ⟨⟨⟨hne, hdigits⟩, hpos⟩, hle⟩ := by simpa using hn
      obtain rfl := Except.ok.inj h
      obtain ⟨plus, hword, hplus⟩ := exists_positionDigits word
      exact ⟨plus, _, hword, hplus, hne, hdigits, by omega, by omega⟩
    · exact absurd h (by simp)
  · rintro ⟨plus, digits, rfl, hplus, hne, hdigits, hvalue, hlt⟩
    have hle : index + 1 ≤ maxPosition := by omega
    dsimp only
    rw [positionDigits_append hplus hdigits, hvalue]
    simp [hne, hdigits, hle]

theorem ofChar?_eq_some_iff {ch : Char} {op : Operator} :
    Operator.ofChar? ch = some op ↔ ch ∈ operatorMarks op := by
  constructor
  · intro h
    unfold Operator.ofChar? at h
    split at h <;> first | (obtain rfl := Option.some.inj h; decide) | simp at h
  · intro h
    cases op <;> simp only [operatorMarks, List.mem_cons, List.not_mem_nil, or_false] at h
    · subst h; rfl
    · rcases h with rfl | rfl <;> rfl
    · rcases h with rfl | rfl | rfl <;> rfl
    · rcases h with rfl | rfl <;> rfl

theorem operator_eq_ok_iff {word : List Char} (hword : ∀ ch ∈ word, Text.isBlank ch = false)
    {op : Operator} : operator word = .ok op ↔ ∃ ch, word = [ch] ∧ ch ∈ operatorMarks op := by
  have hok : operator word = .ok op ↔ Operator.ofText? word = some op := by
    unfold operator
    cases Operator.ofText? word <;> simp
  rw [hok, Operator.ofText?, Text.trim_eq_self hword]
  split
  · rename_i ch
    simp [ofChar?_eq_some_iff]
  · rename_i hne
    constructor
    · exact fun h => absurd h (by simp)
    · rintro ⟨ch, rfl, -⟩
      exact absurd rfl (hne ch)

theorem flag_eq_ok_iff {word : List Char} {on : Bool} :
    flag word = .ok on ↔ String.ofList word ∈ flagWords on := by
  unfold flag
  constructor
  · intro h
    split at h <;> rename_i hword <;>
      first | (obtain rfl := Except.ok.inj h; rw [hword]; decide) | simp at h
  · intro h
    cases on <;> simp only [flagWords, List.mem_cons, List.not_mem_nil, or_false] at h <;>
      rcases h with h | h | h <;> rw [h] <;> rfl

theorem separator_eq_ok_iff {word : List Char} {s : Separator} :
    separator word = .ok s ↔ String.ofList (word.map Char.toLower) = separatorWord s := by
  have hok : separator word = .ok s ↔
      Separator.ofName? (String.ofList (word.map Char.toLower)) = some s := by
    unfold separator
    cases Separator.ofName? (String.ofList (word.map Char.toLower)) <;> simp
  rw [hok]
  generalize String.ofList (word.map Char.toLower) = name
  constructor
  · intro h
    unfold Separator.ofName? at h
    split at h <;> first | (obtain rfl := Option.some.inj h; rfl) | simp at h
  · rintro rfl
    cases s <;> rfl

/-! ### Words that are none of these -/

theorem subject_of_position {word : List Char} {fault : CommandFault}
    (h : position word = .error fault) : fault.subject = word := by
  unfold position at h
  dsimp only at h
  split at h
  · simp at h
  · obtain rfl := Except.error.inj h
    rfl

theorem subject_of_operator {word : List Char} {fault : CommandFault}
    (h : operator word = .error fault) : fault.subject = word := by
  unfold operator at h
  split at h
  · simp at h
  · obtain rfl := Except.error.inj h
    rfl

theorem subject_of_flag {word : List Char} {fault : CommandFault}
    (h : flag word = .error fault) : fault.subject = word := by
  unfold flag at h
  split at h <;> first | (obtain rfl := Except.error.inj h; rfl) | simp at h

theorem subject_of_separator {word : List Char} {fault : CommandFault}
    (h : separator word = .error fault) : fault.subject = word := by
  unfold separator at h
  split at h
  · simp at h
  · obtain rfl := Except.error.inj h
    rfl

/-! ### Lines -/

theorem eq_toList {word : List Char} {s : String} (h : String.ofList word = s) :
    word = s.toList := by
  rw [← h, String.toList_ofList]

/-- What is read of a line is a command that it spells, or a fault about what stands in it. -/
structure Reads (line : List Char) (r : Except CommandFault Command) : Prop where
  spelled : ∀ command, r = .ok command → Spelled (Text.words line) command
  subject : ∀ fault, r = .error fault → ∀ ch ∈ fault.subject, ch ∈ line

section Reads

variable {line : List Char}

theorem Reads.unknown : Reads line (.error (.unknownCommand line)) where
  spelled _ h := by simp at h
  subject fault h := by
    obtain rfl := Except.error.inj h
    exact fun _ hch => hch

theorem Reads.ok {command : Command} (h : Spelled (Text.words line) command) :
    Reads line (.ok command) where
  spelled _ h' := Except.ok.inj h' ▸ h
  subject _ h' := by simp at h'

theorem Reads.bind {α : Type} {x : Except CommandFault α} {f : α → Except CommandFault Command}
    {word : List Char} (hword : word ∈ Text.words line)
    (hx : ∀ fault, x = .error fault → fault.subject = word)
    (hf : ∀ a, x = .ok a → Reads line (f a)) :
    Reads line (x >>= f) := by
  cases x with
  | error fault =>
    refine ⟨fun _ h => by simp [Bind.bind, Except.bind] at h, fun fault' h ch hch => ?_⟩
    obtain rfl := Except.error.inj h
    rw [hx _ rfl] at hch
    exact (Text.mem_of_mem_words hword hch).1
  | ok a => exact hf a rfl

theorem Reads.map {α : Type} {x : Except CommandFault α} {f : α → Command} {word : List Char}
    (hword : word ∈ Text.words line) (hx : ∀ fault, x = .error fault → fault.subject = word)
    (hf : ∀ a, x = .ok a → Spelled (Text.words line) (f a)) : Reads line (f <$> x) := by
  have hbind := Reads.bind hword hx (f := fun a => .ok (f a)) fun a ha => Reads.ok (hf a ha)
  cases x <;> exact hbind

/-- **What is read of a line** is a command that it spells, or a fault about what stands in it. -/
theorem reads_ofText (line : List Char) : Reads line (ofText line) := by
  unfold ofText
  dsimp only
  split
  · exact .unknown
  · rename_i name args hwords
    have hargs : ∀ {arg : List Char}, arg ∈ args → arg ∈ Text.words line := fun harg => by
      rw [hwords]
      exact List.mem_cons_of_mem name harg
    split <;> (try (rename_i hname; obtain rfl := eq_toList hname))
    · rename_i n o
      refine .bind (hargs (by simp)) (fun _ => subject_of_position) fun index hn => ?_
      refine .bind (hargs (by simp)) (fun _ => subject_of_operator) fun op ho => .ok ?_
      have hblank : ∀ ch ∈ o, Text.isBlank ch = false := fun ch hch =>
        (Text.mem_of_mem_words (hargs (by simp)) hch).2
      obtain ⟨ch, rfl, hch⟩ := (operator_eq_ok_iff hblank).mp ho
      rw [hwords]
      exact .setOperator (position_eq_ok_iff.mp hn) hch
    · refine .bind (hargs (by simp)) (fun _ => subject_of_position) fun index hn => .ok ?_
      rw [hwords]
      exact .setValue (position_eq_ok_iff.mp hn) (by simp)
    · refine .map (hargs (by simp)) (fun _ => subject_of_position) fun index hn => ?_
      rw [hwords]
      exact .delete (position_eq_ok_iff.mp hn)
    · exact .ok (by rw [hwords]; exact .evaluate)
    · exact .ok (by rw [hwords]; exact .clear)
    · exact .ok (by rw [hwords]; exact .showNumbers)
    · exact .ok (by rw [hwords]; exact .showHistory)
    · refine .map (hargs (by simp)) (fun _ => subject_of_flag) fun on hon => ?_
      rw [hwords]
      exact .combine (flag_eq_ok_iff.mp hon)
    · refine .map (hargs (by simp)) (fun _ => subject_of_flag) fun on hon => ?_
      rw [hwords]
      exact .row (flag_eq_ok_iff.mp hon)
    · refine .map (hargs (by simp)) (fun _ => subject_of_separator) fun s hs => ?_
      rw [hwords]
      exact .thousands (separator_eq_ok_iff.mp hs)
    · refine .map (hargs (by simp)) (fun _ => subject_of_separator) fun s hs => ?_
      rw [hwords]
      exact .decimal (separator_eq_ok_iff.mp hs)
    · exact .ok (by rw [hwords]; exact .copyResult)
    · refine .map (hargs (by simp)) (fun _ => subject_of_position) fun index hn => ?_
      rw [hwords]
      exact .copyEntry (position_eq_ok_iff.mp hn)
    · exact .ok (by rw [hwords]; exact .help)
    · exact .ok (by rw [hwords]; exact .quit)
    · exact .ok (by rw [hwords]; exact .q)
    · exact .unknown

end Reads

/-- **A line is read as the command that it spells.** -/
theorem ofText_eq_ok_iff {line : List Char} {command : Command} :
    ofText line = .ok command ↔ Spelled (Text.words line) command := by
  refine ⟨(reads_ofText line).spelled command, fun h => ?_⟩
  generalize hwords : Text.words line = words at h
  unfold ofText
  rw [hwords]
  cases h with
  | @setOperator n ch index op hn hch =>
    have hblank : ∀ x ∈ [ch], Text.isBlank x = false := fun x hx =>
      (Text.mem_of_mem_words (s := line) (by rw [hwords]; simp) hx).2
    change (position n >>= fun index => operator [ch] >>= fun op => pure (setOperator index op)) = _
    rw [position_eq_ok_iff.mpr hn, (operator_eq_ok_iff hblank).mpr ⟨ch, rfl, hch⟩]
    rfl
  | @setValue n value index hn hvalue =>
    obtain ⟨first, more, rfl⟩ := List.exists_cons_of_ne_nil hvalue
    change (position n >>= fun index =>
      pure (setValue index ([' '].intercalate (first :: more)))) = _
    rw [position_eq_ok_iff.mpr hn]
    rfl
  | delete hn =>
    change delete <$> position _ = _
    rw [position_eq_ok_iff.mpr hn]
    rfl
  | combine hword =>
    change combine <$> flag _ = _
    rw [flag_eq_ok_iff.mpr hword]
    rfl
  | row hword =>
    change row <$> flag _ = _
    rw [flag_eq_ok_iff.mpr hword]
    rfl
  | thousands hword =>
    change thousands <$> separator _ = _
    rw [separator_eq_ok_iff.mpr hword]
    rfl
  | decimal hword =>
    change decimal <$> separator _ = _
    rw [separator_eq_ok_iff.mpr hword]
    rfl
  | copyEntry hn =>
    change (fun index => copy (some index)) <$> position _ = _
    rw [position_eq_ok_iff.mpr hn]
    rfl
  | _ => rfl

end Command

end Reckoner
