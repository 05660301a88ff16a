import Reckoner.Text.WordRanges

/-! # Word characters

A group of three digits ends where no word character follows. `isWord` is that class (within ASCII
the letters, the digits and `_`), and `startsWord` asks whether a text goes on with one. -/

namespace Reckoner.Text

/-- The characters that words are made of. -/
def isWord (c : Char) : Bool :=
  if c.toNat < 128 then c.isAlphanum || c == '_'
  else wordRanges.any fun r => r.1 ≤ c.toNat && c.toNat ≤ r.2

/-- Whether the text goes on with a word character. -/
def startsWord : List Char → Bool
  | [] => false
  | c :: _ => isWord c

theorem isWord_of_isDigit {c : Char} (h : c.isDigit) : isWord c := by
  have h1 : c.toNat ≤ 57 := by
    simp only [Char.isDigit, Bool.and_eq_true, decide_eq_true_eq] at h
    exact UInt32.le_iff_toNat_le.1 h.2
  have h2 : c.toNat < 128 := by omega
  simp [isWord, h2, Char.isAlphanum, h]

end Reckoner.Text
