import Reckoner.History
import Reckoner.Proofs.Display.ReadBack

/-! # A recorded line is read back

An entry of the history in writing is one line of text. A blank and a symbol follow every number of
it but the last, so no number goes on into what follows it; a blank follows every symbol, so none of
them is taken for the sign of the number behind it. A scan of the line gives back the numbers and
the result.

* `stops_space_cons`, `scan_space_cons`: numbers stop at a symbol between blanks, and it leaves no
  trace.
* `forall_mem_chainText`, `scan_chainText_append`: the characters of a chain and what a scan finds
  in it.
* `scan_entry_text`, `tokens_of_entry_text`: the tokens of an entry are its numbers and its
  result. -/

namespace Reckoner

open Reckoner.Numeral

/-! ### A symbol between blanks -/

namespace Token

variable {spaced : Bool} {symbol : Char} (h : symbol.isDigit = false)
include h

theorem stops_space_cons (rest : List Char) : Stops spaced (' ' :: symbol :: rest) where
  word := rfl
  groups := by rcases rest with - | ⟨d₂, - | ⟨d₃, rest⟩⟩ <;> simp [takeGroups, h]
  fraction := by simp [takeFraction, isPointOrComma]

theorem scan_space_cons (rest : List Char) :
    scan spaced (' ' :: symbol :: ' ' :: rest) = scan spaced rest := by
  have hblank : ∀ s, s.head?.any Char.isDigit = false → scan spaced (' ' :: s) = scan spaced s := by
    intro s hs
    rw [scan, dif_neg (by decide), if_neg (by simp)]
  rw [hblank _ (by simp [h]), scan, dif_neg (by simp [h]), if_neg (by simp), scan,
    dif_neg (by decide), if_neg (by simp)]

end Token

/-! ### The characters of a chain -/

theorem forall_mem_chainText {p : Char → Prop} {write : Float → List Char} {xs : List Float}
    (ops : List Operator) (hspace : p ' ') (hsymbol : ∀ op : Operator, p op.symbol)
    (hwrite : ∀ x ∈ xs, ∀ ch ∈ write x, p ch) : ∀ ch ∈ chainText write xs ops, p ch := by
  fun_induction chainText write xs ops with
  | case1 => simp
  | case2 x ops => exact hwrite x (by simp)
  | case3 x xs => exact hwrite x (by simp)
  | case4 x y xs op ops ih =>
    intro ch hch
    simp only [List.mem_append, List.mem_cons, List.not_mem_nil, or_false] at hch
    rcases hch with (hch | rfl | rfl | rfl) | hch
    · exact hwrite x (by simp) ch hch
    · exact hspace
    · exact hsymbol op
    · exact hspace
    · exact ih (fun z hz => hwrite z (List.mem_cons_of_mem x hz)) ch hch

/-! ### Scanning a chain -/

section Convention

variable {c : Separators} (hc : c.ambiguous = false) (hd : c.decimal ≠ .space)
include hc hd

theorem scan_display_append {x : Float} (hx : x.isFinite) {rest : List Char}
    (hr : Token.Stops (c.thousand = .space) rest) :
    Token.scan (c.thousand = .space) (display c x ++ rest) =
      display c x :: Token.scan (c.thousand = .space) rest := by
  obtain ⟨l, mark, point, hfits, htext, -⟩ := exists_display_eq_text hc hx
  rw [htext]
  exact Token.scan_text_of_fits hfits (isPointOrComma_of_decimal hd hfits) hr

/-- **A scan finds the numbers of a chain as they are shown**, if they have one operator fewer. -/
theorem scan_chainText_append {xs : List Float} {ops : List Operator}
    (hlen : xs.length = ops.length + 1) (hxs : ∀ x ∈ xs, x.isFinite) {rest : List Char}
    (hr : Token.Stops (c.thousand = .space) rest) :
    Token.scan (c.thousand = .space) (chainText (display c) xs ops ++ rest) =
      xs.map (display c) ++ Token.scan (c.thousand = .space) rest := by
  fun_induction chainText (display c) xs ops with
  | case1 => simp at hlen
  | case2 x ops => exact scan_display_append hc hd (hxs x (by simp)) hr
  | case3 x xs hxs' =>
    -- without an operator there is one number only
    simp only [List.length_cons, List.length_nil, Nat.add_right_cancel_iff, List.length_eq_zero_iff]
      at hlen
    exact absurd hlen hxs'
  | case4 x y xs op ops ih =>
    have hsymbol : op.symbol.isDigit = false := by cases op <;> rfl
    have htail := ih (by simpa using hlen) fun z hz => hxs z (List.mem_cons_of_mem x hz)
    have hstops := @Token.stops_space_cons (c.thousand = .space) _ hsymbol
      (' ' :: (chainText (display c) (y :: xs) ops ++ rest))
    rw [List.append_assoc, List.append_assoc, List.cons_append, List.cons_append, List.cons_append,
      List.nil_append, scan_display_append hc hd (hxs x (by simp)) hstops,
      Token.scan_space_cons hsymbol, htail]
    rfl

end Convention

/-! ### The tokens of an entry -/

section Entry

variable {c : Separators} (hc : c.ambiguous = false) (hd : c.decimal ≠ .space) {entry : Entry}
  (hlen : entry.numbers.length = entry.operators.length + 1)
  (hnumbers : ∀ x ∈ entry.numbers, x.isFinite) (hresult : entry.result.isFinite)
include hc hd hnumbers hresult

theorem not_isNoise_of_mem_entry_text {ch : Char} (hch : ch ∈ entry.text c) :
    Token.isNoise ch = false ∧ Text.isLineEnd ch = false := by
  have hshown : ∀ x : Float, x.isFinite → ∀ ch ∈ display c x,
      Token.isNoise ch = false ∧ Text.isLineEnd ch = false := fun x hx ch hch =>
    ⟨Token.not_isNoise_of_isNumeric (mem_display hc hd hx hch),
      not_isLineEnd_of_mem_display hc hd hx ch hch⟩
  have hequals : ∀ ch ∈ " = ".toList, ch = ' ' ∨ ch = '=' := by
    intro ch hch
    rw [show " = ".toList = [' ', '=', ' '] from rfl] at hch
    simpa [or_comm, or_assoc] using hch
  have hsymbol : ∀ op : Operator,
      Token.isNoise op.symbol = false ∧ Text.isLineEnd op.symbol = false := fun op => by
    cases op <;> decide
  rw [Entry.text, List.mem_append, List.mem_append] at hch
  rcases hch with (hch | hch) | hch
  · exact forall_mem_chainText (p := fun ch => Token.isNoise ch = false ∧ Text.isLineEnd ch = false)
      entry.operators (by decide) hsymbol (fun x hx => hshown x (hnumbers x hx)) ch hch
  · rcases hequals ch hch with rfl | rfl <;> decide
  · exact hshown _ hresult ch hch

include hlen

theorem scan_entry_text :
    Token.scan (c.thousand = .space) (entry.text c) =
      (entry.numbers ++ [entry.result]).map (display c) := by
  have hresult' := scan_display_append hc hd hresult (Token.stops_nil _)
  rw [List.append_nil, Token.scan] at hresult'
  have hequals : " = ".toList ++ display c entry.result =
      ' ' :: '=' :: ' ' :: display c entry.result :=
    rfl
  have hstops := @Token.stops_space_cons (c.thousand = .space) '=' (by decide)
    (' ' :: display c entry.result)
  rw [Entry.text, List.append_assoc, hequals, scan_chainText_append hc hd hlen hnumbers hstops,
    Token.scan_space_cons (by decide), hresult', List.map_append, List.map_singleton]

theorem tokens_of_entry :
    (Token.ofText c false (entry.text c)).map (fun t => (resolve c t).map Numeral.text) =
      (entry.numbers ++ [entry.result]).map fun x => some (shownNumeral c x) := by
  have hchars := fun ch => @not_isNoise_of_mem_entry_text c hc hd entry hnumbers hresult ch
  have hxs : ∀ x ∈ entry.numbers ++ [entry.result], x.isFinite := by
    simpa [or_imp, forall_and] using ⟨hnumbers, hresult⟩
  rw [Token.ofText_line fun ch hch => (hchars ch hch).2,
    Token.ofLine_of_not_isNoise fun ch hch => (hchars ch hch).1,
    scan_entry_text hc hd hlen hnumbers hresult, List.map_map, List.map_map]
  exact List.map_congr_left fun x hx => resolve_clean_display hc hd (hxs x hx)

end Entry

/-- **A recorded line can be pasted back.** In a convention that opens fractions by a comma or a
period, the tokens of an entry are as many as its numbers and its result, and stand for them in
order: each for the plain form of its number. -/
theorem tokens_of_entry_text {c : Separators} (hc : c.ambiguous = false)
    (hd : c.decimal = .comma ∨ c.decimal = .period) {entry : Entry}
    (hlen : entry.numbers.length = entry.operators.length + 1)
    (hnumbers : ∀ x ∈ entry.numbers, x.isFinite) (hresult : entry.result.isFinite) :
    (Token.ofText c false (entry.text c)).map (fun t => (resolve c t).map Numeral.text) =
      (entry.numbers ++ [entry.result]).map fun x => some (plain x) := by
  have hspace : c.decimal ≠ .space := by rcases hd with h | h <;> simp [h]
  have hdisabled : c.decimal ≠ .disabled := by rcases hd with h | h <;> simp [h]
  have hplain : ∀ x, shownNumeral c x = plain x := fun x => if_neg hdisabled
  simpa only [hplain] using tokens_of_entry hc hspace hlen hnumbers hresult

/-- Numbers in groups that spaces join, a negative one behind a minus. -/
def spacedEntry : Entry where
  numbers := [1234567.5, -250, 3000]
  operators := [.subtract, .add]
  result := 1237817.5
  time := ⟨0, 0⟩

theorem tokens_of_spacedEntry_text :
    (Separators.ambiguous ⟨.space, .comma⟩ = false ∧
      spacedEntry.numbers.length = spacedEntry.operators.length + 1 ∧
      (∀ x ∈ spacedEntry.numbers, x.isFinite) ∧ spacedEntry.result.isFinite) ∧
    (Token.ofText ⟨.space, .comma⟩ false (spacedEntry.text ⟨.space, .comma⟩)).map
        (fun t => (resolve ⟨.space, .comma⟩ t).map Numeral.text) =
      (spacedEntry.numbers ++ [spacedEntry.result]).map fun x => some (plain x) :=
  ⟨⟨by decide, rfl, by decide, by decide⟩,
    tokens_of_entry_text (by decide) (.inl rfl) rfl (by decide) (by decide)⟩

end Reckoner
