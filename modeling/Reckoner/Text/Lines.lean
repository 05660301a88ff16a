/-! # Lines

Recognised text ends a line at every carriage return and at every line feed, so that each of the
usual line ends separates lines, some of them empty (`lines`). -/

namespace Reckoner.Text

/-- The characters that end a line of recognised text. -/
def isLineEnd (c : Char) : Bool := c == '\r' || c == '\n'

/-- The lines of recognised text, the empty ones included. -/
def lines (s : List Char) : List (List Char) := s.splitOnP isLineEnd

/-- A line end separates the lines in front of it from the lines behind it. -/
theorem lines_append_cons (s t : List Char) {c : Char} (h : isLineEnd c) :
    lines (s ++ c :: t) = lines s ++ lines t :=
  List.splitOnP_append_cons s t h

end Reckoner.Text
