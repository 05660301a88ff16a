/-! # Blanks

The white space of recognised and of typed text: the twenty-five characters of the Unicode property
`White_Space`. `trim` takes the blanks off both ends, `compact` takes out all of them, and `words`
are the runs between them. -/

namespace Reckoner.Text

/-- The characters of the Unicode property `White_Space`. -/
def isBlank (c : Char) : Bool :=
  let n := c.toNat
  (9 ≤ n && n ≤ 13) || n == 0x20 || n == 0x85 || n == 0xA0 || n == 0x1680 ||
    (0x2000 ≤ n && n ≤ 0x200A) || n == 0x2028 || n == 0x2029 || n == 0x202F || n == 0x205F ||
    n == 0x3000

/-- The text without the blanks at its front. -/
def trimStart (s : List Char) : List Char := s.dropWhile isBlank

/-- The text without the blanks at its end. -/
def trimEnd (s : List Char) : List Char := (s.reverse.dropWhile isBlank).reverse

/-- The text without the blanks at its two ends. -/
def trim (s : List Char) : List Char := trimEnd (trimStart s)

/-- The text without any blank. -/
def compact (s : List Char) : List Char := s.filter (!isBlank ·)

/-- The runs of characters between blanks. -/
def words (s : List Char) : List (List Char) := (s.splitOnP isBlank).filter (!·.isEmpty)

/-- A blank separates the words in front of it from the words behind it. -/
theorem words_append_cons (s t : List Char) {c : Char} (h : isBlank c) :
    words (s ++ c :: t) = words s ++ words t := by
  rw [words, List.splitOnP_append_cons s t h, List.filter_append]
  rfl

theorem not_isBlank_of_mem_compact {s : List Char} {c : Char} (h : c ∈ compact s) :
    isBlank c = false := by
  simpa using (List.mem_filter.1 h).2

theorem compact_append (s t : List Char) : compact (s ++ t) = compact s ++ compact t :=
  List.filter_append ..

theorem compact_compact (s : List Char) : compact (compact s) = compact s := by
  simp [compact, List.filter_filter]

theorem trim_eq_self {s : List Char} (h : ∀ c ∈ s, isBlank c = false) : trim s = s := by
  have hself : ∀ t : List Char, (∀ c ∈ t, isBlank c = false) → t.dropWhile isBlank = t := by
    rintro (- | ⟨c, t⟩) ht
    · rfl
    · simp [ht c]
  rw [trim, trimStart, hself s h, trimEnd, hself _ (by simpa using h), List.reverse_reverse]

theorem trim_append_of_isBlank (s : List Char) {c : Char} (h : isBlank c) :
    trim (s ++ [c]) = trim s := by
  rw [trim, trimStart, List.dropWhile_append]
  split
  · rename_i hempty
    simp [trim, trimStart, trimEnd, h, List.isEmpty_iff.mp hempty]
  · simp [trim, trimStart, trimEnd, h]

theorem toNat_of_isDigit {c : Char} (h : c.isDigit) : 48 ≤ c.toNat ∧ c.toNat ≤ 57 := by
  simp only [Char.isDigit, Bool.and_eq_true, decide_eq_true_eq] at h
  exact ⟨UInt32.le_iff_toNat_le.1 h.1, UInt32.le_iff_toNat_le.1 h.2⟩

theorem not_isBlank_of_isDigit {c : Char} (h : c.isDigit) : isBlank c = false := by
  have h1 := toNat_of_isDigit h
  simp only [isBlank, Bool.or_eq_false_iff, Bool.and_eq_false_iff, decide_eq_false_iff_not,
    beq_eq_false_iff_ne]
  omega

end Reckoner.Text
