import Covenant.Error
import Covenant.Text.Blank
import Covenant.Text.Width

/-!
# Error reports

A report shows an error with its code, and the source line it is about.  The
line is marked as a whole, with the end of the line; so the line after it is
shown as well, unless the marked line is the last one.
-/

namespace Covenant.Report

/-! ## Source lines -/

def sourceLines (source : String) : List (List Char) :=
  Text.split (· == '\n') source.toList

/-- Characters at the end of a line that are not shown. -/
def isHidden (character : Char) : Bool :=
  character == '\n' || character == '\r' || character.toNat == 0

def shown (line : List Char) : List Char :=
  (line.reverse.dropWhile isHidden).reverse

def tabStop : Nat := 4

/-- The number of columns that a character takes from a column on. -/
def columnsAt (column : Nat) (character : Char) : Nat :=
  if character = '\t' then tabStop - column % tabStop else Text.width character

/-- The text of a line from a column on, with blanks for tabs. -/
def expandFrom (column : Nat) : List Char → List Char
  | [] => []
  | character :: rest =>
    let columns := columnsAt column character
    (if character = '\t' then List.replicate columns ' ' else [character]) ++
      expandFrom (column + columns) rest

def columnAfter (column : Nat) : List Char → Nat
  | [] => column
  | character :: rest => columnAfter (column + columnsAt column character) rest

def lineText (line : List Char) : String :=
  String.ofList (expandFrom 0 (shown line))

/-- The number of columns that are marked under the last line.  The column
behind the text is marked as well if the line has an end that is not shown, or
if it has no characters at all. -/
def markedColumns (line : List Char) : Nat :=
  let text := shown line
  let ending := if text.length < line.length || line.isEmpty then 1 else 0
  columnAfter 0 text + ending

/-! ## The parts of a report -/

def run (count : Nat) (character : Char) : String :=
  String.ofList (List.replicate count character)

def aligned (width number : Nat) : String :=
  let text := toString number
  run (width - text.length) ' ' ++ text

def header (error : Error) : String :=
  "error[" ++ error.code ++ "]: " ++ error.message ++ "\n"

/-- The remark on an error of the compiler itself. -/
def remark : String := "= this is a compiler bug\n"

/-- The place of an error and the empty line under it. -/
def place (margin file : String) (number : Nat) (gap : String) : String :=
  let line := toString number
  margin ++ "┌─ " ++ file ++ ":" ++ line ++ ":1\n" ++ margin ++ "│" ++ gap ++ "\n"

def withLines (isInternal : Bool) (margin file : String) (number : Nat) (gap : String)
    (lines : String) : String :=
  let ending := if isInternal then margin ++ "│" ++ gap ++ "\n" ++ margin ++ remark else ""
  place margin file number gap ++ lines ++ ending

/-- The part of a report that shows the last line of a source. -/
def lastSnippet (isInternal : Bool) (file : String) (number : Nat) (line : List Char) :
    String :=
  let numeral := toString number
  let margin := run (numeral.length + 1) ' '
  withLines isInternal margin file number ""
    (numeral ++ " │ " ++ lineText line ++ "\n" ++
      margin ++ "│ " ++ run (markedColumns line) '^' ++ "\n")

/-- The part of a report that shows a line and the one after it. -/
def pairSnippet (isInternal : Bool) (file : String) (number : Nat)
    (line following : List Char) : String :=
  let last := toString (number + 1)
  let margin := run (last.length + 1) ' '
  withLines isInternal margin file number "  "
    (aligned last.length number ++ " │ ╭ " ++ lineText line ++ "\n" ++
      last ++ " │ │ " ++ lineText following ++ "\n" ++
      margin ++ "│ ╰^\n")

def linesAt? (source : String) (number : Nat) : Option (List Char × Option (List Char)) :=
  if number = 0 then
    none
  else
    match (sourceLines source).drop (number - 1) with
    | [] => none
    | [line] => some (line, none)
    | line :: following :: _ => some (line, some following)

def details (error : Error) (file source : String) : String :=
  let located := error.line?.bind fun number =>
    (linesAt? source number).map fun lines => (number, lines)
  match located with
  | some (number, line, none) => lastSnippet error.isInternal file number line
  | some (number, line, some following) =>
    pairSnippet error.isInternal file number line following
  | none => if error.isInternal then " " ++ remark else ""

def render (error : Error) (file source : String) : String :=
  header error ++ details error file source ++ "\n"

end Covenant.Report
