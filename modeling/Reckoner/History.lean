import Reckoner.Display
import Reckoner.Evaluation
import Reckoner.Timestamp

/-! # History

The completed evaluations, each with the moment it was made. Entries are only ever added;
`newestFirst` is the order in which they are shown. -/

namespace Reckoner

/-- A completed evaluation and when it was made. -/
structure Entry extends Evaluation where
  time : Timestamp

/-- An entry in writing, as in `10 + 20 × 3 = 90`. -/
def Entry.text (c : Separators) (entry : Entry) : List Char :=
  chainText (display c) entry.numbers entry.operators ++ " = ".toList ++ display c entry.result

/-- The completed evaluations. -/
structure History where
  /-- The entries, the newest at the front. -/
  newestFirst : List Entry := []

namespace History

/-- The entries in the order they were made. -/
def entries (h : History) : List Entry := h.newestFirst.reverse

/-- The number of entries. -/
def length (h : History) : Nat := h.newestFirst.length

/-- Adds the newest entry. -/
def record (entry : Entry) (h : History) : History := ⟨entry :: h.newestFirst⟩

/-- The entry with `n` newer ones. -/
def recent? (h : History) (n : Nat) : Option Entry := h.newestFirst[n]?

theorem entries_record (entry : Entry) (h : History) :
    (h.record entry).entries = h.entries ++ [entry] := by
  simp [entries, record]

end History

end Reckoner
