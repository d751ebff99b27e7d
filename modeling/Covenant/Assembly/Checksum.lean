import Covenant.Assembly.Basic
import Covenant.Text.Bytes

/-!
# The checksum assembler

A small assembler for trying out the compiler: every line of code becomes one
byte, which is a checksum of the line.  Comments and empty lines make no code;
a comment with a source line says where the following code comes from.
-/

namespace Covenant.Checksum

def checksum (line : String) : UInt8 :=
  (Text.bytes line).foldl (fun sum byte => sum * 31 + byte) 0

def startsWith (start line : String) : Bool :=
  start.toList.isPrefixOf line.toList

def contains (part : List Char) : List Char → Bool
  | [] => part.isEmpty
  | character :: rest => part.isPrefixOf (character :: rest) || contains part rest

def annotationMark : String := "// Line "

def annotatedLine? (line : String) : Option Nat :=
  let rest := line.toList.drop annotationMark.length
  Text.readNat? Text.limit32 (String.ofList (rest.takeWhile (· != ':')))

def label? (line : String) : Option String :=
  let characters := line.toList
  if characters.head? = some '@' && characters.contains ':' then
    some (String.ofList (characters.takeWhile (· != ':')))
  else
    none

/-- What has been assembled so far; the newest parts come first. -/
structure Progress where
  sourceLine : Nat := 0
  script : List UInt8 := []
  ranges : List DebugRange := []
  labels : List (String × Nat) := []

def step (progress : Progress) (number : Nat) (line : String) :
    Except AssemblerError Progress :=
  if startsWith annotationMark line then
    .ok { progress with sourceLine := (annotatedLine? line).getD progress.sourceLine }
  else if line.isEmpty || startsWith "//" line then
    .ok progress
  else if contains "BOGUS".toList line.toList then
    .error { line := number, message := "unknown opcode in `" ++ line ++ "`" }
  else
    let offset := progress.script.length
    .ok {
      sourceLine := progress.sourceLine
      script := checksum line :: progress.script
      ranges := { line := progress.sourceLine, first := offset, last := offset } ::
        progress.ranges
      labels :=
        match label? line with
        | some label => (label, offset) :: progress.labels
        | none => progress.labels }

def steps (progress : Progress) (number : Nat) : List String → Except AssemblerError Progress
  | [] => .ok progress
  | line :: rest => do
      let progress ← step progress number line
      steps progress (number + 1) rest

/-- A line that makes the assembler forget all labels. -/
def forgetLabels : String := "DROPLABELS"

def fileName : String := "test.tomb"

def assemble : Assembler := fun lines => do
  let progress ← steps {} 1 lines
  return {
    script := progress.script.reverse
    debug := { fileName, ranges := progress.ranges.reverse }
    labels := if lines.contains forgetLabels then [] else progress.labels }

end Covenant.Checksum
