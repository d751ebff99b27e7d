import Covenant.Json.Writer

/-!
# Assembled code

An assembler turns lines of assembly into a script.  It also says where the
labels are and which source line each byte belongs to.
-/

namespace Covenant

/-- The bytes of a script that belong to a source line, both ends included. -/
structure DebugRange where
  line : Nat
  first : Nat
  last : Nat
deriving DecidableEq

/-- Which source line each byte of a script belongs to. -/
structure DebugMap where
  fileName : String
  ranges : List DebugRange
deriving DecidableEq

namespace DebugMap

def lineAt? (map : DebugMap) (offset : Nat) : Option Nat :=
  (map.ranges.find? fun range => range.first ≤ offset && offset ≤ range.last).map
    DebugRange.line

def toJson (map : DebugMap) : Json :=
  .record [("fileName", .text map.fileName),
    ("ranges", .array (map.ranges.map fun range =>
      .record [("sourceLine", .natural range.line), ("startOffset", .natural range.first),
        ("endOffset", .natural range.last)]))]

end DebugMap

structure Assembly where
  script : List UInt8
  debug : DebugMap
  /-- The place of every label; the first entry for a label counts. -/
  labels : List (String × Nat)
deriving DecidableEq

/-- Why assembly is refused; lines count from one. -/
structure AssemblerError where
  line : Nat
  message : String
deriving DecidableEq

def AssemblerError.text (error : AssemblerError) : String :=
  let message := error.message
  let line := error.line
  s!"line {line}: {message}"

/-- Turns lines of assembly into a script. -/
abbrev Assembler := List String → Except AssemblerError Assembly

end Covenant
