import Reckoner.Fault
import Reckoner.Numeral.Resolve
import Reckoner.Numeral.Scientific
import Reckoner.Numeral.Value
import Reckoner.Token.Scan

/-! # Reading numbers

Recognised text gives a list of readings, each a value with the token it was read from; tokens that
are no number or out of range are left out. Typed text stands for one value: what its numeral
denotes or, failing that, what it denotes in scientific notation. -/

namespace Reckoner

/-- A number read from recognised text. -/
structure Reading where
  value : Float
  source : List Char

namespace Reading

/-- The reading of a token, if it stands for a number in range. -/
def ofToken? (c : Separators) (token : List Char) : Option Reading :=
  ((Numeral.resolve c token).bind Numeral.value?).map fun value => ⟨value, token⟩

/-- The readings of a text, in the order of its tokens. -/
def ofText (c : Separators) (rowMode : Bool) (text : List Char) : List Reading :=
  (Token.ofText c rowMode text).filterMap (ofToken? c)

end Reading

/-- The value that typed text stands for. -/
def typedValue (c : Separators) (input : List Char) : Except Fault Float :=
  let s := Text.compact input
  match (Numeral.resolve c s).bind Numeral.value? with
  | some value => .ok value
  | none =>
    match (Scientific.ofText? s).bind Scientific.value? with
    | some value => .ok value
    | none => .error (.notANumber input)

/-- The only fault of typed text names it as it was typed. -/
theorem typedValue_eq_error {c : Separators} {input : List Char} {fault : Fault}
    (h : typedValue c input = .error fault) : fault = .notANumber input := by
  unfold typedValue at h
  dsimp only at h
  split at h
  · cases h
  · split at h
    · cases h
    · exact (Except.error.inj h).symm

end Reckoner
