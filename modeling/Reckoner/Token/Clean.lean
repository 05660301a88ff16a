import Reckoner.Separator
import Reckoner.Text.Blank
import Reckoner.Text.Word

/-! # Cleaning a token

Recognition damages numbers in three ways: blanks inside, marks doubled or left hanging at the end,
and a comma read as a period. `clean` undoes them in that order: `compact`, `collapse`, `trimMarks`,
`mendGroup`. -/

namespace Reckoner.Token

/-- Keeps of every run of marks the first; `held` says that a mark has just been kept. -/
def collapseFrom : Bool → List Char → List Char
  | _, [] => []
  | held, c :: s =>
    if isPointOrComma c then
      if held then collapseFrom true s else c :: collapseFrom true s
    else c :: collapseFrom false s

/-- Keeps of every run of marks the first. -/
def collapse (s : List Char) : List Char := collapseFrom false s

/-- The text without the marks at its end. -/
def trimMarks (s : List Char) : List Char := (s.reverse.dropWhile isPointOrComma).reverse

/-- Whether three digits, a comma and three digits are next, and no word character after them. -/
def startsGroups : List Char → Bool
  | d₁ :: d₂ :: d₃ :: ',' :: e₁ :: e₂ :: e₃ :: rest =>
    [d₁, d₂, d₃, e₁, e₂, e₃].all Char.isDigit && !Text.startsWord rest
  | _ => false

/-- A lone period in front of groups joined by a comma was a comma, unless periods group. -/
def mendGroup (c : Separators) (s : List Char) : List Char :=
  match s.dropWhile (· != '.') with
  | _ :: after =>
    if c.thousand ≠ .period && !after.contains '.' && startsGroups after then
      s.takeWhile (· != '.') ++ ',' :: after
    else s
  | [] => s

/-- A candidate without the usual damage of recognition. -/
def clean (c : Separators) (raw : List Char) : List Char :=
  mendGroup c (trimMarks (collapse (Text.compact raw)))

theorem not_isBlank_of_isPointOrComma {c : Char} (h : isPointOrComma c) :
    Text.isBlank c = false := by
  rcases isPointOrComma_iff.mp h with rfl | rfl <;> rfl

end Reckoner.Token
