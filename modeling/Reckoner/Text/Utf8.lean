/-! # Text in UTF-8

Text comes in as bytes. `decode?` reads it and refuses bytes that are not UTF-8, `encode` is the way
back, and `byteLines` cuts a script at its line feeds before anything is read, so that a line that
is not text spoils no line in front of it. `scriptLines` takes off the carriage return in front of a
line feed too. -/

namespace Reckoner.Text

/-- The bytes of a text. -/
def encode (s : List Char) : List UInt8 := (String.ofList s).toUTF8.toList

/-- The text of bytes that are UTF-8. -/
def decode? (bytes : List UInt8) : Option (List Char) :=
  (String.fromUTF8? bytes.toByteArray).map String.toList

/-- The byte that ends a line of a script. -/
def lineFeed : UInt8 := 10

/-- The pieces of a script between its line feeds; a script that ends with one has an empty last
piece. -/
def byteLines (bytes : List UInt8) : List (List UInt8) := bytes.splitOn lineFeed

/-- A line feed separates the lines in front of it from the lines behind it. -/
theorem byteLines_append_cons (s t : List UInt8) :
    byteLines (s ++ lineFeed :: t) = byteLines s ++ byteLines t :=
  List.splitOnP_append_cons s t (by simp)

theorem byteLines_ne_nil (bytes : List UInt8) : byteLines bytes ≠ [] :=
  List.splitOn_ne_nil lineFeed bytes

/-! ### Line ends -/

/-- The byte that may stand between a line and its line feed. -/
def carriageReturn : UInt8 := 13

/-- A line without the carriage return at its end, if it has one. -/
def dropReturn (line : List UInt8) : List UInt8 :=
  if line.getLast? = some carriageReturn then line.dropLast else line

/-- The lines of a script without their ends. What stands behind the last line feed is no complete
line and keeps a carriage return. -/
def scriptLines (bytes : List UInt8) : List (List UInt8) :=
  (byteLines bytes).dropLast.map dropReturn ++ (byteLines bytes).getLast?.toList

theorem scriptLines_of_byteLines_eq {bytes : List UInt8} {lines : List (List UInt8)}
    {last : List UInt8} (h : byteLines bytes = lines ++ [last]) :
    scriptLines bytes = lines.map dropReturn ++ [last] := by
  simp [scriptLines, h]

/-- A line feed separates the lines in front of it, which are complete, from the lines behind it. -/
theorem scriptLines_append_cons (s t : List UInt8) :
    scriptLines (s ++ lineFeed :: t) = (byteLines s).map dropReturn ++ scriptLines t := by
  have ht := (List.dropLast_concat_getLast (byteLines_ne_nil t)).symm
  have hst := byteLines_append_cons s t
  rw [ht, ← List.append_assoc] at hst
  rw [scriptLines_of_byteLines_eq hst, scriptLines_of_byteLines_eq ht, List.map_append,
    List.append_assoc]

end Reckoner.Text
