import Reckoner.Proofs.Console.Ending
import Reckoner.Proofs.Console.InPlace
import Reckoner.Proofs.Console.Replies
import Reckoner.Proofs.Text.Digits

/-! # Commands that fail

A command line that is no command, or whose operation fails, is answered by one line that says so,
and the session stays as it is. Every other command line is answered by lines none of which looks
like that, and leaves the session that its operation leaves. Either way the console goes on from the
session that it has then. Of a value that is typed only the characters count, not the blanks between
them.

* `replyTo_of_refused`, `replyTo_of_not_refused`: the reply to a command line.
* `run_command`, `run_command_append`: a script that starts with a command line.
* `effects_of_commands`: what comes of a command line. -/

namespace Reckoner.Console

open Text

/-- A line of a script that is a command line, and its text behind the colon. -/
structure IsCommand (line : List UInt8) (command : List Char) : Prop where
  complete : lineFeed ∉ line
  text : (decode? line).map trim = some (':' :: command)

/-- The line is no command, or the operation of its command fails. -/
def Refused (w : Surroundings) (s : Session) (line : List Char) : Prop :=
  (∀ command, ¬ Command.Spelled (words line) command) ∨
    ∃ command action fault, Command.Spelled (words line) command ∧
      command.action? s.settings.separators = some action ∧ s.perform w.now action = .error fault

/-- The reply to a command line without its colon that does not end the console. -/
def replyTo (w : Surroundings) (s : Session) (line : List Char) : Reply :=
  match Command.ofText line with
  | .error fault => ([errorLine fault.message], s)
  | .ok command => reply w s command

/-! ### Replies to commands -/

section Reply

variable {w : Surroundings} {s : Session} {command : Command}

theorem execute_eq_error_iff_of_action {action : Action}
    (haction : command.action? s.settings.separators = some action) {fault : Fault} :
    execute w s command = .error fault ↔ s.perform w.now action = .error fault := by
  cases command with
  | setOperator | setValue | delete | evaluate =>
    obtain rfl := Option.some.inj haction
    rw [execute, Session.perform, Session.map_eq_error_iff, Session.map_eq_error_iff]
  | clear | combine | row | thousands | decimal =>
    obtain rfl := Option.some.inj haction
    simp [execute, Session.perform]
  | _ => simp [Command.action?] at haction

/-- **A command fails if its operation does**, and for no other reason. -/
theorem execute_eq_error_iff {fault : Fault} :
    execute w s command = .error fault ↔
      ∃ action, command.action? s.settings.separators = some action ∧
        s.perform w.now action = .error fault := by
  cases haction : command.action? s.settings.separators with
  | some action =>
    rw [execute_eq_error_iff_of_action haction]
    exact ⟨fun h => ⟨action, rfl, h⟩, fun ⟨_, h, hfault⟩ => Option.some.inj h ▸ hfault⟩
  | none =>
    have hok : ∃ r, execute w s command = .ok r := by
      cases command with
      | copy index => exact ⟨_, execute_copy w s index⟩
      | showNumbers | showHistory | help | quit => exact ⟨_, rfl⟩
      | _ => simp [Command.action?] at haction
    obtain ⟨r, hok⟩ := hok
    simp [hok]

/-- **No reply to a command that has not failed looks like the report of a fault**, if it has copied
nothing. -/
theorem unfailing_execute {r : Reply} (h : execute w s command = .ok r)
    (hcopy : ∀ index, command = .copy index → s.copied? index = none) :
    ∀ line ∈ r.1, Unfailing line := by
  have hedited : ∀ {x : Except Fault Session}, x.map edited = .ok r →
      ∀ line ∈ r.1, Unfailing line := by
    intro x hx
    obtain ⟨s', -, rfl⟩ := Session.map_eq_ok_iff.mp hx
    exact unfailing_expressionLines s'
  have hfixed : ∀ {lines : List String} {s' : Session},
      (.ok (lines, s') : Except Fault Reply) = .ok r →
      (∀ line ∈ lines, Unfailing line) → ∀ line ∈ r.1, Unfailing line := by
    intro lines s' hok hlines
    obtain rfl := Except.ok.inj hok
    exact hlines
  have hone : ∀ {line : String} {s' : Session}, (.ok ([line], s') : Except Fault Reply) = .ok r →
      Unfailing line → ∀ line ∈ r.1, Unfailing line := fun hok hline =>
    hfixed hok (List.forall_mem_singleton.mpr hline)
  cases command with
  | setOperator index op => exact hedited h
  | setValue index input =>
    obtain ⟨⟨x, s'⟩, -, rfl⟩ := Session.map_eq_ok_iff.mp h
    exact unfailing_expressionLines s'
  | delete index => exact hedited h
  | evaluate =>
    obtain ⟨⟨x, s'⟩, -, rfl⟩ := Session.map_eq_ok_iff.mp h
    exact unfailing_expressionLines s'
  | clear => exact hone h (unfailing_of_head? 'c' (by decide) rfl (by decide))
  | showNumbers =>
    refine hfixed h (List.forall_mem_append.mpr ⟨unfailing_itemTexts s, ?_⟩)
    exact List.forall_mem_singleton.mpr (unfailing_resultLine s)
  | showHistory =>
    refine hfixed h ?_
    split
    · exact List.forall_mem_singleton.mpr (unfailing_of_head? 'n' (by decide) rfl (by decide))
    · exact unfailing_entryTexts s
  | combine on =>
    refine hone h ?_
    cases on <;> exact unfailing_of_head? 'c' (by decide) rfl (by decide)
  | row on =>
    refine hone h ?_
    cases on <;> exact unfailing_of_head? 'r' (by decide) rfl (by decide)
  | thousands t =>
    refine hone h ?_
    cases t <;> exact unfailing_of_head? 't' (by decide) rfl (by decide)
  | decimal d =>
    refine hone h ?_
    cases d <;> exact unfailing_of_head? 'd' (by decide) rfl (by decide)
  | copy index =>
    rw [execute_copy, hcopy index rfl] at h
    exact hone h (unfailing_of_head? 'n' (by decide) rfl (by decide))
  | help => exact hfixed h unfailing_helpText
  | quit => exact hfixed h (List.forall_mem_nil _)

end Reply

/-! ### Replies to command lines -/

theorem filter_intercalate {p : Char → Bool} (hp : p ' ' = false) (value : List (List Char)) :
    ([' '].intercalate value).filter p = value.flatten.filter p := by
  induction value with
  | nil => rfl
  | cons word value ih =>
    cases value with
    | nil => simp
    | cons next more =>
      rw [List.intercalate_cons_cons, List.filter_append, List.filter_append,
        List.filter_cons_of_neg (by simp [hp]), List.filter_nil, List.append_nil, List.flatten_cons,
        List.filter_append, ih]

section Line

variable {w : Surroundings} {s : Session} {line : List Char}

theorem newline_not_mem_subject (hline : '\n' ∉ line) {fault : CommandFault}
    (h : Command.ofText line = .error fault) : '\n' ∉ fault.subject :=
  fun hmem => hline ((Command.reads_ofText line).subject fault h _ hmem)

theorem newline_not_mem_input {index : Nat} {input : List Char}
    (h : Command.Spelled (words line) (.setValue index input)) : '\n' ∉ input := by
  generalize hwords : words line = spelled at h
  cases h with
  | @setValue n value _ hn hvalue =>
    have hfilter := filter_intercalate (p := (· == '\n')) rfl value
    have hnone : value.flatten.filter (· == '\n') = [] := by
      rw [List.filter_eq_nil_iff]
      intro ch hch hnewline
      obtain ⟨word, hword, hch⟩ := List.mem_flatten.mp hch
      have hblank := (mem_of_mem_words (s := line) (by simp [hwords, hword]) hch).2
      rw [eq_of_beq hnewline] at hblank
      exact absurd hblank (by decide)
    rw [hnone, List.filter_eq_nil_iff] at hfilter
    exact fun hmem => hfilter '\n' hmem rfl

theorem newline_not_mem_quoted {action : Action} {command : Command} {fault : Fault}
    (hcommand : Command.Spelled (words line) command)
    (haction : command.action? s.settings.separators = some action)
    (hfault : s.perform w.now action = .error fault) : '\n' ∉ fault.quoted := by
  rcases Session.quoted_of_perform hfault with hquoted | ⟨index, hedit⟩
  · rw [hquoted]
    exact List.not_mem_nil
  · rw [hedit] at haction
    cases command with
    | setValue index' input =>
      obtain ⟨rfl, rfl⟩ := Action.editValue.inj (Option.some.inj haction)
      exact newline_not_mem_input hcommand
    | _ => simp [Command.action?] at haction

/-- **A command line that is refused is answered by one line** that reports a fault, and it changes
nothing. -/
theorem replyTo_of_refused (hline : '\n' ∉ line) (h : Refused w s line) :
    ∃ message, SingleLine message ∧ replyTo w s line = ([errorLine message], s) := by
  rcases h with h | ⟨command, action, fault, hcommand, haction, hfault⟩
  · cases hread : Command.ofText line with
    | ok command => exact absurd (Command.ofText_eq_ok_iff.mp hread) (h command)
    | error fault =>
      refine ⟨fault.message, CommandFault.singleLine_message (newline_not_mem_subject hline hread),
        ?_⟩
      rw [replyTo, hread]
  · have hquoted := newline_not_mem_quoted hcommand haction hfault
    refine ⟨fault.message, Fault.singleLine_message hquoted, ?_⟩
    rw [replyTo, Command.ofText_eq_ok_iff.mpr hcommand]
    dsimp only
    rw [reply, execute_eq_error_iff.mpr ⟨action, haction, hfault⟩]

/-- **A command line that is not refused** is answered by lines that report no fault, and it does
what its operation does. -/
theorem replyTo_of_not_refused (h : ¬ Refused w s line)
    (hcopy : ∀ index, Command.Spelled (words line) (.copy index) → s.copied? index = none) :
    ∃ command, Command.Spelled (words line) command ∧
      (replyTo w s line).2 = perform w s (command.action? s.settings.separators).toList ∧
      ∀ reply ∈ (replyTo w s line).1, Unfailing reply := by
  obtain ⟨hspelled, hfault⟩ := not_or.mp h
  obtain ⟨command, hcommand⟩ : ∃ command, Command.Spelled (words line) command := by
    by_contra hnone
    exact hspelled fun command hcommand => hnone ⟨command, hcommand⟩
  have hreply : replyTo w s line = reply w s command := by
    rw [replyTo, Command.ofText_eq_ok_iff.mpr hcommand]
  refine ⟨command, hcommand, by rw [hreply, session_reply], ?_⟩
  cases hexecute : execute w s command with
  | error fault =>
    obtain ⟨action, haction, hperform⟩ := execute_eq_error_iff.mp hexecute
    exact absurd ⟨command, action, fault, hcommand, haction, hperform⟩ hfault
  | ok r =>
    rw [hreply, reply, hexecute]
    exact unfailing_execute hexecute fun index hindex => hcopy index (hindex ▸ hcommand)

end Line

/-! ### Scripts -/

section Script

variable {w : Surroundings} {s : Session} {line : List UInt8} {command : List Char}

theorem takeCommand_eq (hquit : ¬ Command.Spelled (words command) .quit) (c : Console) :
    c.takeCommand w command =
      ((replyTo w c.session command).1, { c with session := (replyTo w c.session command).2 }) := by
  rw [← Command.ofText_eq_ok_iff] at hquit
  unfold takeCommand replyTo
  split
  · rename_i fault hread
    rw [hread]
  · rename_i hread
    exact absurd hread hquit
  · rename_i read hread
    rw [hread]

theorem step_of_isCommand (hline : (decode? line).map trim = some (':' :: command))
    (hquit : ¬ Command.Spelled (words command) .quit) :
    step w { session := s } line =
      ((replyTo w s command).1, { session := (replyTo w s command).2 }) := by
  rw [step_of_isCommandLine rfl hline, flush_of_block_eq_nil w rfl]
  dsimp only
  rw [takeCommand_eq hquit, List.nil_append]

theorem run_command (hline : IsCommand line command)
    (hquit : ¬ Command.Spelled (words command) .quit) :
    run w s line =
      ((replyTo w s command).1,
        { session := (replyTo w s command).2, ending := some .finished }) := by
  have hlast : byteLines line = [] ++ [line] := byteLines_of_not_mem hline.complete
  have hlines : scriptLines line = [line] := scriptLines_of_byteLines_eq hlast
  rw [run_eq_readAll, hlines, readAll, steps, step_of_isCommand hline.text hquit]
  simp [steps, finish, flush_of_block_eq_nil]

/-- **A script that starts with a command line** goes on from the session that the line leaves. -/
theorem run_command_append (hline : IsCommand line command)
    (hquit : ¬ Command.Spelled (words command) .quit) (rest : List UInt8) :
    run w s (line ++ lineFeed :: rest) =
      ((replyTo w s command).1 ++ (run w (replyTo w s command).2 rest).1,
        (run w (replyTo w s command).2 rest).2) := by
  have htext : (decode? (dropReturn line)).map trim = some (':' :: command) := by
    rw [map_trim_decode?_dropReturn]
    exact hline.text
  have hsteps : steps w { session := s } [dropReturn line] =
      ((replyTo w s command).1, { session := (replyTo w s command).2 }) := by
    rw [steps, step_of_isCommand htext hquit]
    simp [steps]
  rw [run_eq_readAll, scriptLines_append_cons, byteLines_of_not_mem hline.complete,
    List.map_singleton, readAll_append, hsteps]
  rfl

end Script

/-! ### Values that are typed -/

theorem words_eq_nil_iff {v : List Char} : words v = [] ↔ compact v = [] := by
  rw [← flatten_words, List.flatten_eq_nil_iff]
  constructor
  · intro h
    rw [h]
    exact List.forall_mem_nil _
  · intro h
    refine List.eq_nil_iff_forall_not_mem.mpr fun word hword => ?_
    have hne := (List.mem_filter.mp hword).2
    rw [h word hword] at hne
    exact absurd hne (by decide)

theorem toOption_typedValue (c : Separators) {input input' : List Char}
    (h : compact input = compact input') :
    (typedValue c input).toOption = (typedValue c input').toOption := by
  unfold typedValue
  rw [h]
  dsimp only
  split
  · rfl
  · split <;> rfl

theorem toOption_editValue (s : Session) (index : Nat) {input input' : List Char}
    (h : compact input = compact input') :
    (s.editValue index input).toOption = (s.editValue index input').toOption := by
  have htyped := toOption_typedValue s.settings.separators h
  unfold Session.editValue
  split
  · rfl
  · cases hx : typedValue s.settings.separators input with
    | ok x =>
      cases hx' : typedValue s.settings.separators input' with
      | ok x' =>
        rw [hx, hx'] at htyped
        rw [Option.some.inj htyped]
      | error fault' =>
        rw [hx, hx'] at htyped
        cases htyped
    | error fault =>
      cases hx' : typedValue s.settings.separators input' with
      | ok x' =>
        rw [hx, hx'] at htyped
        cases htyped
      | error fault' => rfl

/-- What a command line that does not fail comes to. -/
def outcome? (w : Surroundings) (s : Session) (line : List Char) : Option Reply :=
  match Command.ofText line with
  | .error _ => none
  | .ok command => (execute w s command).toOption

theorem refused_iff {w : Surroundings} {s : Session} {line : List Char} :
    Refused w s line ↔ outcome? w s line = none := by
  unfold Refused outcome?
  cases hread : Command.ofText line with
  | error fault =>
    refine iff_of_true (.inl fun command hcommand => ?_) rfl
    rw [← Command.ofText_eq_ok_iff, hread] at hcommand
    cases hcommand
  | ok command =>
    have hcommand := Command.ofText_eq_ok_iff.mp hread
    dsimp only
    constructor
    · rintro (hnone | ⟨other, action, fault, hother, haction, hfault⟩)
      · exact absurd hcommand (hnone command)
      · rw [← Command.ofText_eq_ok_iff, hread] at hother
        obtain rfl := Except.ok.inj hother
        rw [execute_eq_error_iff.mpr ⟨action, haction, hfault⟩]
        rfl
    · intro hnone
      cases hexecute : execute w s command with
      | error fault =>
        obtain ⟨action, haction, hfault⟩ := execute_eq_error_iff.mp hexecute
        exact .inr ⟨command, action, fault, hcommand, haction, hfault⟩
      | ok r =>
        rw [hexecute] at hnone
        cases hnone

theorem session_replyTo (w : Surroundings) (s : Session) (line : List Char) :
    (replyTo w s line).2 = ((outcome? w s line).map Prod.snd).getD s := by
  unfold replyTo outcome?
  cases Command.ofText line with
  | error fault => rfl
  | ok command =>
    dsimp only
    rw [reply]
    cases execute w s command <;> rfl

theorem outcome?_of_words (w : Surroundings) (s : Session) {line n : List Char}
    {value : List (List Char)} (h : words line = "set".toList :: n :: value) :
    outcome? w s line =
      if value = [] then none
      else (Command.position n).toOption.bind fun index =>
        (s.editValue index ([' '].intercalate value)).toOption.map fun r => edited r.2 := by
  unfold outcome? Command.ofText
  rw [h]
  cases value with
  | nil => rfl
  | cons first more =>
    rw [if_neg (List.cons_ne_nil first more)]
    change (match (Command.position n >>= fun index => pure (Command.setValue index _)) with
      | .error _ => none
      | .ok command => (execute w s command).toOption) = _
    cases Command.position n with
    | error fault => rfl
    | ok index =>
      change ((s.editValue index _).map _).toOption = ((s.editValue index _).toOption).map _
      cases s.editValue index ([' '].intercalate (first :: more)) <;> rfl

/-- **Of a value that is typed only the characters count**, not the blanks in it. -/
theorem outcome?_set (w : Surroundings) (s : Session) {front n v v' : List Char} {b b' : Char}
    (hfront : words front = ["set".toList, n]) (hb : isBlank b) (hb' : isBlank b')
    (hv : compact v = compact v') :
    outcome? w s (front ++ b :: v) = outcome? w s (front ++ b' :: v') := by
  have hcompact : ∀ u, compact ([' '].intercalate (words u)) = compact u := by
    intro u
    rw [compact, filter_intercalate (by decide), flatten_words, ← compact, compact_compact]
  have hwords : words (front ++ b :: v) = "set".toList :: n :: words v := by
    rw [words_append_cons front v hb, hfront]
    rfl
  have hwords' : words (front ++ b' :: v') = "set".toList :: n :: words v' := by
    rw [words_append_cons front v' hb', hfront]
    rfl
  have hnil : words v = [] ↔ words v' = [] := by
    rw [words_eq_nil_iff, words_eq_nil_iff, hv]
  have hedit : ∀ index, (s.editValue index ([' '].intercalate (words v))).toOption =
      (s.editValue index ([' '].intercalate (words v'))).toOption := fun index =>
    toOption_editValue s index (by rw [hcompact, hcompact, hv])
  rw [outcome?_of_words w s hwords, outcome?_of_words w s hwords']
  simp only [hnil, hedit]

theorem not_quit_of_words_set {front n v : List Char} {b : Char}
    (hfront : words front = ["set".toList, n]) (hb : isBlank b) :
    ¬ Command.Spelled (words (front ++ b :: v)) .quit := by
  rw [words_append_cons front v hb, hfront]
  intro h
  generalize hwords : ["set".toList, n] ++ words v = spelled at h
  cases h with
  | quit => exact absurd (List.cons.inj hwords).1 (by decide)
  | q => exact absurd (List.cons.inj hwords).1 (by decide)

/-! ### Command lines -/

theorem IsCommand.newline_not_mem {line : List UInt8} {command : List Char}
    (h : IsCommand line command) : '\n' ∉ command := by
  obtain ⟨text, htext, htrim⟩ := Option.map_eq_some_iff.mp h.text
  obtain ⟨a, b, hsplit, -, -⟩ := exists_trim text
  rw [htrim] at hsplit
  intro hmem
  have hnewline : '\n' ∈ text := by
    rw [hsplit]
    exact List.mem_append_left _ (List.mem_append_right _ (.tail _ hmem))
  -- the line feed that it would be encoded as is not in the line
  refine h.complete ?_
  rw [decode?_eq_some_iff.mp htext]
  exact List.mem_flatMap.mpr ⟨'\n', hnewline, by rw [utf8EncodeChar_newline]; simp⟩

/-- **What comes of a command line** that does not end the console and copies nothing, in any
session and with no block waiting. If it is refused, the reply is one line that reports a fault, and
the session stays as it was; otherwise no line of the reply looks like that. The rest of the script
is read from the session that the line has left. A command in place has changed and written nothing
if it fails. A value may be typed with any blanks in it. -/
theorem effects_of_commands (w : Surroundings) (s : Session) :
    (∀ line command, IsCommand line command → ¬ Command.Spelled (words command) .quit →
      (∀ index, Command.Spelled (words command) (.copy index) → s.copied? index = none) →
      ((Refused w s command ∧ ∃ message, SingleLine message ∧
          run w s line = ([errorLine message], { session := s, ending := some .finished })) ∨
        (¬ Refused w s command ∧ ∃ replies spelled, (∀ reply ∈ replies, Unfailing reply) ∧
          Command.Spelled (words command) spelled ∧
          run w s line = (replies,
            { session := perform w s (spelled.action? s.settings.separators).toList,
              ending := some .finished }))) ∧
      ∀ rest, run w s (line ++ lineFeed :: rest) =
        ((run w s line).1 ++ (run w (run w s line).2.session rest).1,
          (run w (run w s line).2.session rest).2)) ∧
    (∀ command written,
      answer w command ⟨s, written⟩ =
        .ok () ⟨(reply w s command).2, written ++ (reply w s command).1⟩ ∧
      ∀ message t, inPlace w command ⟨s, written⟩ = .error message t → t = ⟨s, written⟩) ∧
    ∀ line line' front n b b' v v', words front = ["set".toList, n] → isBlank b → isBlank b' →
      compact v = compact v' → IsCommand line (front ++ b :: v) →
        IsCommand line' (front ++ b' :: v') →
      (Refused w s (front ++ b :: v) ↔ Refused w s (front ++ b' :: v')) ∧
        (run w s line).2 = (run w s line').2 := by
  refine ⟨fun line command hline hquit hcopy => ?_, fun command written => ?_, ?_⟩
  · have hrun := run_command (w := w) (s := s) hline hquit
    refine ⟨?_, fun rest => ?_⟩
    · by_cases hrefused : Refused w s command
      · obtain ⟨message, hsingle, hreply⟩ := replyTo_of_refused hline.newline_not_mem hrefused
        rw [hreply] at hrun
        exact .inl ⟨hrefused, message, hsingle, hrun⟩
      · obtain ⟨spelled, hspelled, hsession, hunfailing⟩ := replyTo_of_not_refused hrefused hcopy
        rw [hsession] at hrun
        exact .inr ⟨hrefused, _, spelled, hunfailing, hspelled, hrun⟩
    · rw [hrun, run_command_append hline hquit]
  · exact ⟨answer_eq w ⟨s, written⟩ command, fun message t => eq_of_inPlace_eq_error⟩
  · intro line line' front n b b' v v' hfront hb hb' hv hline hline'
    have houtcome := outcome?_set w s hfront hb hb' hv
    have hrun := run_command (w := w) (s := s) hline (not_quit_of_words_set hfront hb)
    have hrun' := run_command (w := w) (s := s) hline' (not_quit_of_words_set hfront hb')
    refine ⟨by rw [refused_iff, refused_iff, houtcome], ?_⟩
    rw [hrun, hrun', session_replyTo, session_replyTo, houtcome]

/-- A divisor that is zero, with another command behind it, and a value typed with and without a
blank. -/
theorem effects_on_oneByZero_commands :
    (IsCommand (":eval".toList.flatMap String.utf8EncodeChar) "eval".toList ∧
      Refused ⟨⟨0, 0⟩, fun _ => .ok ()⟩ Session.oneByZero "eval".toList ∧
      ∃ message, run ⟨⟨0, 0⟩, fun _ => .ok ()⟩ Session.oneByZero
          (":eval".toList.flatMap String.utf8EncodeChar ++ lineFeed ::
            ":show".toList.flatMap String.utf8EncodeChar) =
        (errorLine message :: (run ⟨⟨0, 0⟩, fun _ => .ok ()⟩ Session.oneByZero
            (":show".toList.flatMap String.utf8EncodeChar)).1,
          (run ⟨⟨0, 0⟩, fun _ => .ok ()⟩ Session.oneByZero
            (":show".toList.flatMap String.utf8EncodeChar)).2)) ∧
    words "set +2".toList = ["set".toList, "+2".toList] ∧
      compact "1 234,5".toList = compact "1234,5".toList ∧
      (run ⟨⟨0, 0⟩, fun _ => .ok ()⟩ Session.oneByZero
          (":set +2 1 234,5".toList.flatMap String.utf8EncodeChar)).2 =
        (run ⟨⟨0, 0⟩, fun _ => .ok ()⟩ Session.oneByZero
          (":set +2\t1234,5".toList.flatMap String.utf8EncodeChar)).2 := by
  have htyped : ∀ s : List Char, lineFeed ∉ s.flatMap String.utf8EncodeChar → trim s = s →
      ∀ command, s = ':' :: command → IsCommand (s.flatMap String.utf8EncodeChar) command := by
    intro s hcomplete htrim command hs
    refine ⟨hcomplete, ?_⟩
    rw [decode?_eq_some_iff.mpr rfl, Option.map_some, htrim, hs]
  have heval := htyped ":eval".toList (by decide) (by decide) "eval".toList rfl
  have hwords : words "eval".toList = ["eval".toList] := by decide
  have hrefused : Refused ⟨⟨0, 0⟩, fun _ => .ok ()⟩ Session.oneByZero "eval".toList :=
    .inr ⟨.evaluate, .evaluate, .divisionByZero 1, by rw [hwords]; exact .evaluate, rfl, rfl⟩
  have hquit : ¬ Command.Spelled (words "eval".toList) .quit := by
    rw [← Command.ofText_eq_ok_iff]
    decide
  have hcopy : ∀ index, Command.Spelled (words "eval".toList) (.copy index) →
      Session.oneByZero.copied? index = none := by
    intro index h
    rw [← Command.ofText_eq_ok_iff] at h
    cases h
  obtain ⟨hlines, -, hset⟩ := effects_of_commands ⟨⟨0, 0⟩, fun _ => .ok ()⟩ Session.oneByZero
  obtain ⟨hreply, hrest⟩ := hlines _ _ heval hquit hcopy
  have hfront : words "set +2".toList = ["set".toList, "+2".toList] := by decide
  have hvalues : compact "1 234,5".toList = compact "1234,5".toList := by decide
  have hsets :=
    hset _ _ "set +2".toList "+2".toList ' ' '\t' "1 234,5".toList "1234,5".toList hfront
    (by decide) (by decide) hvalues
    (htyped ":set +2 1 234,5".toList (by decide) (by decide) _ rfl)
    (htyped ":set +2\t1234,5".toList (by decide) (by decide) _ rfl)
  refine ⟨⟨heval, hrefused, ?_⟩, hfront, hvalues, hsets.2⟩
  rcases hreply with ⟨-, message, -, hrun⟩ | ⟨hnot, -⟩
  · refine ⟨message, ?_⟩
    rw [hrest, hrun]
    rfl
  · exact absurd hrefused hnot

end Reckoner.Console
