import Covenant.Callable.Method
import Covenant.Text.Line

/-!
# Helper routines

A routine is written in assembly and called like a method of the own module.
Its code is appended to the assembly of every module that calls it.

A table of routines is a text: a header line with the library, the name, the
type of the result and the parameters of a routine, and then the lines of its
body.  Blank lines and comments are skipped, and the first line of a body
carries the label of the routine.
-/

namespace Covenant

/-- A routine; the label is the one its body starts with. -/
structure Routine where
  library : String
  name : String
  returns : Ty
  parameters : List Parameter
  label : String
  body : List String
deriving DecidableEq

namespace Routine

def method (routine : Routine) : Method :=
  { name := routine.name
    library := routine.library
    returns := routine.returns
    parameters := routine.parameters
    aliasName := routine.label
    means := .localCall }

def find? (routines : List Routine) (label : String) : Option Routine :=
  routines.find? fun routine => routine.label == label

def ofLibrary (routines : List Routine) (library : String) : List Routine :=
  routines.filter fun routine => routine.library == library

/-! ## Reading a table -/

def marker : String := "#BUILTIN"

structure Header where
  library : String
  name : String
  returns : Ty
  parameters : List Parameter

/-- The type of a parameter or a result: it must need no further details. -/
def readType (line : Nat) (name : String) : Except Error Ty :=
  match (Ty.Kind.ofTypeName? name).bind Ty.ofPrimitive? with
  | some ty => .ok ty
  | none => blame line (.routineType name)

/-- A parameter is written as its name, a colon and its type. -/
def readParameter (line : Nat) (text : List Char) : Except Error Parameter :=
  match Text.cutAt ':' text with
  | some (name, type) => do
      let ty ← readType line (String.ofList type)
      return { name := String.ofList name, ty }
  | none => blame line (.routineParameter (String.ofList text))

/-- Read what follows the marker of a header line. -/
def readHeader (line : Nat) (text : List Char) : Except Error Header :=
  match Text.words text with
  | library :: name :: returns :: parameters => do
      let returns ← readType line (String.ofList returns)
      let parameters ← parameters.mapM (readParameter line)
      return { library := String.ofList library, name := String.ofList name, returns, parameters }
  | _ => blame line .routineHeader

def beforeColon (text : List Char) : List Char :=
  text.takeWhile (· != ':')

/-- Put a header and the lines of its body together. -/
def close (line : Nat) (header : Header) (body : List String) : Except Error Routine :=
  let label := (body.head?.map fun first => beforeColon first.toList).getD []
  match label with
  | '@' :: _ =>
    .ok { library := header.library, name := header.name, returns := header.returns
          parameters := header.parameters, label := String.ofList label, body }
  | _ => blame line (.routineLabel header.library header.name)

structure Draft where
  header : Header
  body : List String

def closeDraft (line : Nat) : Option Draft → Except Error (List Routine)
  | none => .ok []
  | some draft => do
      let routine ← close line draft.header draft.body
      return [routine]

/--
Read the lines of a table; `number` is the number of lines before them and
`draft` the routine whose body they continue.
-/
def readLines (number : Nat) (draft : Option Draft) :
    List String → Except Error (List Routine)
  | [] => closeDraft number draft
  | line :: rest => do
      let text := Text.trim line.toList
      if marker.toList.isPrefixOf text then
        let finished ← closeDraft number draft
        let header ← readHeader (number + 1) (text.drop marker.length)
        let following ← readLines (number + 1) (some { header, body := [] }) rest
        return finished ++ following
      else if text.isEmpty || "//".toList.isPrefixOf text then
        readLines (number + 1) draft rest
      else
        match draft with
        | none => blame (number + 1) (.routineOrphan (String.ofList text))
        | some current =>
          let body := current.body ++ [String.ofList text]
          readLines (number + 1) (some { current with body }) rest

def readTable (text : String) : Except Error (List Routine) :=
  readLines 0 none (Text.lines text)

end Routine

end Covenant
