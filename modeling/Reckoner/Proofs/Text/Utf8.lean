import Mathlib.Data.List.Basic
import Reckoner.Text.Blank
import Reckoner.Text.Utf8

/-! # The lines of a text in UTF-8

A line feed is one byte in UTF-8, and no other character has that byte in its encoding. So the
pieces between the line feeds of a text in UTF-8 are the encodings of its lines, and all of them can
be read.

* `decode?_eq_some_iff`: which bytes are a text.
* `byteLines_flatMap`: the byte lines of a text.
* `isSome_decode?_of_mem_byteLines`: every line of a text is a text.
* `map_trim_decode?_dropReturn`: what a line is does not hang on its carriage return. -/

namespace Reckoner.Text

theorem decode?_eq_some_iff {bytes : List UInt8} {s : List Char} :
    decode? bytes = some s ↔ bytes = s.flatMap String.utf8EncodeChar := by
  rw [decode?, String.fromUTF8?]
  constructor
  · intro h
    split at h
    · rename_i hvalid
      rw [Option.map_some, Option.some.injEq] at h
      have hbytes := String.utf8Encode_toList (b := String.fromUTF8 bytes.toByteArray hvalid)
      rw [h, List.utf8Encode] at hbytes
      exact (List.toByteArray_inj.mp hbytes).symm
    · simp at h
  · rintro rfl
    have hvalid : (s.flatMap String.utf8EncodeChar).toByteArray.IsValidUTF8 :=
      ByteArray.isValidUTF8_utf8Encode (l := s)
    have hstring : String.fromUTF8 _ hvalid = String.ofList s :=
      String.toByteArray_inj.mp (by rw [String.toByteArray_ofList]; rfl)
    rw [dif_pos hvalid, hstring, Option.map_some, String.toList_ofList]

/-! ### Single bytes -/

theorem eq_of_mem_utf8EncodeChar {c d : Char} (hd : d.toNat < 128)
    (h : UInt8.ofNat d.toNat ∈ String.utf8EncodeChar c) : c = d := by
  have hbyte : ∀ n : Nat, UInt8.ofNat d.toNat = UInt8.ofNat n → n % 256 = d.toNat := fun n hn => by
    have := congrArg UInt8.toNat hn
    rw [UInt8.toNat_ofNat', UInt8.toNat_ofNat'] at this
    omega
  unfold String.utf8EncodeChar at h
  dsimp only at h
  split at h
  · have hn := hbyte _ (List.mem_singleton.mp h)
    refine Char.ext (UInt32.toNat_inj.mp ?_)
    change c.val.toNat = d.toNat
    omega
  · exfalso
    split at h
    · simp only [List.mem_cons, List.not_mem_nil, or_false] at h
      rcases h with h | h <;> have := hbyte _ h <;> omega
    · split at h
      · simp only [List.mem_cons, List.not_mem_nil, or_false] at h
        rcases h with h | h | h <;> have := hbyte _ h <;> omega
      · simp only [List.mem_cons, List.not_mem_nil, or_false] at h
        rcases h with h | h | h | h <;> have := hbyte _ h <;> omega

theorem utf8EncodeChar_newline : String.utf8EncodeChar '\n' = [lineFeed] := rfl

theorem utf8EncodeChar_return : String.utf8EncodeChar '\r' = [carriageReturn] := rfl

/-! ### Lines -/

theorem byteLines_append {b : List UInt8} (h : lineFeed ∉ b) (s : List UInt8) :
    byteLines (b ++ s) = (byteLines s).modifyHead (b ++ ·) := by
  induction b with
  | nil => cases h : byteLines s <;> simp [h]
  | cons x b ih =>
    have hx : (x == lineFeed) = false := by
      rw [beq_eq_false_iff_ne]
      rintro rfl
      exact h (by simp)
    have hb := ih fun hmem => h (by simp [hmem])
    rw [byteLines, List.cons_append, List.splitOn_cons_eq_if_modifyHead, hx, ← byteLines, hb,
      List.modifyHead_modifyHead]
    rfl

theorem byteLines_of_not_mem {b : List UInt8} (h : lineFeed ∉ b) : byteLines b = [b] := by
  have := byteLines_append h []
  simpa [byteLines] using this

/-- **The byte lines of a text are its lines.** -/
theorem byteLines_flatMap (s : List Char) :
    byteLines (s.flatMap String.utf8EncodeChar) =
      (s.splitOn '\n').map (List.flatMap String.utf8EncodeChar) := by
  induction s with
  | nil => rfl
  | cons c s ih =>
    rw [List.flatMap_cons, List.splitOn_cons_eq_if_modifyHead]
    by_cases hc : c = '\n'
    · rw [hc, utf8EncodeChar_newline, List.singleton_append, if_pos (by simp), List.map_cons, ← ih]
      exact byteLines_append_cons [] _
    · rw [byteLines_append fun h => hc (eq_of_mem_utf8EncodeChar (d := '\n') (by decide) h), ih,
        if_neg (by simpa using hc)]
      cases s.splitOn '\n' <;> rfl

/-- **Every line of a text is a text.** -/
theorem isSome_decode?_of_mem_byteLines {bytes line : List UInt8} (h : (decode? bytes).isSome)
    (hline : line ∈ byteLines bytes) : (decode? line).isSome := by
  obtain ⟨s, hs⟩ := Option.isSome_iff_exists.mp h
  rw [decode?_eq_some_iff.mp hs, byteLines_flatMap] at hline
  obtain ⟨t, -, rfl⟩ := List.mem_map.mp hline
  rw [decode?_eq_some_iff.mpr rfl]
  rfl

/-! ### Line ends -/

theorem eq_dropReturn_or (line : List UInt8) :
    line = dropReturn line ∨ line = dropReturn line ++ [carriageReturn] := by
  rw [dropReturn]
  split_ifs with hlast
  · obtain ⟨front, rfl⟩ := List.getLast?_eq_some_iff.mp hlast
    exact .inr (by rw [List.dropLast_concat])
  · exact .inl rfl

theorem exists_dropReturn_flatMap (s : List Char) :
    ∃ t, dropReturn (s.flatMap String.utf8EncodeChar) = t.flatMap String.utf8EncodeChar ∧
      (s = t ∨ s = t ++ ['\r']) := by
  rcases eq_dropReturn_or (s.flatMap String.utf8EncodeChar) with h | h
  · exact ⟨s, h.symm, .inl rfl⟩
  · obtain rfl | ⟨t, c, rfl⟩ := List.eq_nil_or_concat s
    · simp at h
    · rw [List.concat_eq_append, List.flatMap_append, List.flatMap_singleton] at h ⊢
      -- the last byte belongs to the last character
      have hlast := congrArg List.getLast? h
      rw [List.getLast?_append_of_ne_nil _ (String.utf8EncodeChar_ne_nil), List.getLast?_concat]
        at hlast
      obtain rfl := eq_of_mem_utf8EncodeChar (d := '\r') (by decide) (List.mem_of_getLast? hlast)
      exact ⟨t, (List.append_cancel_right h).symm, .inr rfl⟩

/-- **A carriage return at the end of a line is blank**, so that trimmed the line is the same
without it. -/
theorem map_trim_decode?_dropReturn (line : List UInt8) :
    (decode? (dropReturn line)).map trim = (decode? line).map trim := by
  cases hline : decode? line with
  | some s =>
    obtain ⟨t, ht, hs⟩ := exists_dropReturn_flatMap s
    rw [decode?_eq_some_iff.mp hline, ht, decode?_eq_some_iff.mpr rfl, Option.map_some,
      Option.map_some]
    obtain rfl | rfl := hs
    · rfl
    · rw [trim_append_of_isBlank t rfl]
  | none =>
    cases hdrop : decode? (dropReturn line) with
    | none => rfl
    | some t =>
      have ht := decode?_eq_some_iff.mp hdrop
      rcases eq_dropReturn_or line with h | h
      · rw [h, hdrop] at hline
        exact nomatch hline
      · have hreturn : line = (t ++ ['\r']).flatMap String.utf8EncodeChar := by
          rw [h, ht, List.flatMap_append, List.flatMap_singleton, utf8EncodeChar_return]
        rw [decode?_eq_some_iff.mpr hreturn] at hline
        exact nomatch hline

end Reckoner.Text
