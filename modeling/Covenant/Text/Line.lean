import Covenant.Text.Blank

/-!
# Lines of a text

A line ends at a line feed, and a carriage return directly before the line
feed belongs to the ending.  The text after the last line feed is a line of
its own only when it is not empty.
-/

namespace Covenant.Text

def dropReturn (line : List Char) : List Char :=
  if line.getLast? = some '\r' then line.dropLast else line

def linesOfPieces : List (List Char) → List (List Char)
  | [] => []
  | [last] => if last.isEmpty then [] else [last]
  | line :: next :: rest => dropReturn line :: linesOfPieces (next :: rest)

/-- The lines of a text without their endings. -/
def lines (text : String) : List String :=
  (linesOfPieces (split (· == '\n') text.toList)).map String.ofList

end Covenant.Text
