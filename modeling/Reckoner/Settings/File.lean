import Reckoner.Settings
import Reckoner.Toml.Document

/-! # Settings files

Settings are kept in a TOML document, a line for each. A key that is missing takes its default, and
other keys are passed over; a slot must hold one of the four symbols, a switch a boolean. -/

namespace Reckoner

/-- The slot that a value names: by its symbol, or as a table with the symbol as its only key and
nothing under it. -/
def Separator.ofToml? : Toml.Value → Option Separator
  | .scalar (.string s) => ofSymbol? (String.ofList s)
  | .table _ [(key, .table _ [])] => ofSymbol? (String.ofList key)
  | _ => none

namespace Settings

/-- What a document says under a key, or the default where it says nothing. -/
def fromKey? {α : Type} (read : Toml.Value → Option α) (missing : α) (key : String)
    (t : Toml.Members) : Option α :=
  match t.find? key.toList with
  | none => some missing
  | some v => read v

/-- A boolean. -/
def switch? : Toml.Value → Option Bool
  | .scalar (.boolean b) => some b
  | _ => none

/-- Reads settings. -/
def ofToml? (text : List Char) : Option Settings := do
  let t ← Toml.document? text
  let thousand ← fromKey? Separator.ofToml? .comma "thousand_separator" t
  let decimal ← fromKey? Separator.ofToml? .period "decimal_point" t
  let rowMode ← fromKey? switch? false "row_mode" t
  let combineMode ← fromKey? switch? false "combine_mode" t
  some ⟨⟨thousand, decimal⟩, rowMode, combineMode⟩

/-- A boolean in writing. -/
def switchText (b : Bool) : String := if b then "true" else "false"

/-- Writes settings, all four keys. -/
def toml (s : Settings) : String :=
  "thousand_separator = \"" ++ s.separators.thousand.symbol ++ "\"\n" ++
    "decimal_point = \"" ++ s.separators.decimal.symbol ++ "\"\n" ++
    "row_mode = " ++ switchText s.rowMode ++ "\n" ++
    "combine_mode = " ++ switchText s.combineMode ++ "\n"

end Settings

end Reckoner
