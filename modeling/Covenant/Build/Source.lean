import Covenant.Build.Basic
import Covenant.Reading.Source

/-!
# Compiling a source

A source is read as a whole before any of its modules is compiled, so an error
in reading comes before any error in compiling.
-/

namespace Covenant

structure CompileOptions where
  assemble : Assembler
  interface? : String → Option Interface := fun _ => none
  annotated : Bool := true

def compile (options : CompileOptions) (source : String) :
    Except Failure (List CompiledTop) := do
  let program ← Program.read options.interface? source
  let env : Build.Env :=
    { program
      assemble := options.assemble
      annotated := options.annotated
      sourceLines := Text.lines source }
  match Build.compileTops env [] program.modules with
  | .ok compiled => return compiled
  | .error error => throw (.error error)

namespace Error

/-- The listing of a refused assembly, which can be written to a file. -/
def refusedListing? : Error → Option String
  | .assembler _ _ listing => some ("\n".intercalate listing)
  | _ => none

end Error

end Covenant
