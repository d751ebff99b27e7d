import Covenant.Settings.Format

/-!
# Settings

What a user can choose about compilation.  Every setting has a default, and
settings with unknown names are skipped.
-/

namespace Covenant

structure Settings where
  libraryPaths : List String := []
  /-- Where the assembly goes that the assembler refuses. -/
  failedPath : String := "/tmp/tomb_failed.asm"
  annotated : Bool := true
deriving DecidableEq

namespace Settings

def Value.text? : Value → Option String
  | .text content => some content
  | _ => none

def Value.flag? : Value → Option Bool
  | .flag isSet => some isSet
  | _ => none

def Value.texts? : Value → Option (List String)
  | .list items => items.mapM Value.text?
  | _ => none

/-- Read a setting, or take its default where it is not given. -/
def setting? {Outcome : Type} (entries : List (String × Value)) (key : String)
    (read? : Value → Option Outcome) (default : Outcome) : Option Outcome :=
  match entries.lookup key with
  | some value => read? value
  | none => some default

def read? (text : String) : Option Settings := do
  let entries ← entries? text
  let defaults : Settings := {}
  return {
    libraryPaths := ← setting? entries "library_paths" Value.texts? defaults.libraryPaths
    failedPath := ← setting? entries "failed_asm_path" Value.text? defaults.failedPath
    annotated := ← setting? entries "annotate_source" Value.flag? defaults.annotated }

/-- The parts of a path that matter: whether it starts at the root, and the names in it. -/
def pathParts (path : String) : Bool × List (List Char) :=
  (path.toList.head? == some '/',
    (Text.split (· == '/') path.toList).filter fun part => !part.isEmpty && part ≠ ['.'])

/-- Do refused listings go to the default place? -/
def hasDefaultPath (settings : Settings) : Bool :=
  pathParts settings.failedPath == pathParts ({} : Settings).failedPath

def isDefault (settings : Settings) : Bool :=
  settings.libraryPaths.isEmpty && settings.hasDefaultPath && settings.annotated

end Settings

end Covenant
