import Covenant.Callable.Routine
import Covenant.Digest.Sha256
import Covenant.Machine.Line
import Covenant.Text.Bytes
import Covenant.Text.Hex
import Covenant.Tree.Basic
import Covenant.Ty.Declared

/-!
# Emitting code

The code of a module is emitted line by line.  Between lines the `Generator`
keeps the register file, the registers that are bound to variables, the
routines that have been called, and the last source line that was written
out.

An `Emission` is a program of single actions on the generator.  Running it
performs them one after the other, and stops at the first that fails.
-/

namespace Covenant

/-- What later modules can use of a compiled one. -/
structure Artifact where
  script : List UInt8
  /-- The written interface; empty where there is none. -/
  interface : List UInt8
deriving DecidableEq

/-- What does not change while a module is emitted. -/
structure Emission.Env where
  moduleName : String
  declared : Declared := {}
  scopes : ScopeTree := {}
  routines : List Routine := []
  artifacts : List (String × Artifact) := []
  annotated : Bool := true
  sourceLines : List String := []

structure Generator where
  output : Array Line := #[]
  lastLine : Nat := 0
  registers : RegisterFile := {}
  bindings : List (VarId × Register) := []
  /-- The labels of the routines called, in the order of the first call. -/
  called : List String := []

namespace Emission

/-- One thing that emission does to the generator. -/
inductive Action where
  | write (line : Line)
  /-- Remember the number of the source line that was written out. -/
  | note (number : Nat)
  /-- Give a register back; the line is for the error. -/
  | give (register : Register) (line : Nat)
  | bind (id : VarId) (register : Register)
  | unbind (id : VarId)
  | remember (label : String)

def Action.perform (generator : Generator) : Action → Except Error Generator
  | .write line => .ok { generator with output := generator.output.push line }
  | .note number => .ok { generator with lastLine := number }
  | .give register line =>
    (generator.registers.dealloc register line).map fun registers =>
      { generator with registers }
  | .bind id register => .ok { generator with bindings := (id, register) :: generator.bindings }
  | .unbind id =>
    .ok { generator with bindings := generator.bindings.filter fun (bound, _) => bound != id }
  | .remember label => .ok { generator with called := generator.called ++ [label] }

end Emission

def Generator.take (generator : Generator) (mark : Mark) (aliasName : Option String) :
    Except Error (Register × Generator) :=
  (generator.registers.alloc mark.id aliasName mark.line).map fun (register, registers) =>
    (register, { generator with registers })

/-- A program of actions, which may fail and ends with an outcome. -/
inductive Emission (Outcome : Type) where
  | done (outcome : Outcome)
  | fail (error : Error)
  /-- Go on in a way that depends on the generator. -/
  | look (next : Generator → Emission Outcome)
  | take (mark : Mark) (aliasName : Option String) (next : Register → Emission Outcome)
  | act (action : Emission.Action) (next : Unit → Emission Outcome)

namespace Emission

/-- Run one program and then another, which depends on the outcome of the first. -/
def andThen {First Second : Type} (code : Emission First)
    (following : First → Emission Second) : Emission Second :=
  match code with
  | .done outcome => following outcome
  | .fail error => .fail error
  | .look next => .look fun generator => (next generator).andThen following
  | .take mark aliasName next =>
    .take mark aliasName fun register => (next register).andThen following
  | .act action next => .act action fun _ => (next ()).andThen following

instance : Monad Emission where
  pure := .done
  bind := andThen

def result {Outcome : Type} : Except Error Outcome → Emission Outcome
  | .ok outcome => .done outcome
  | .error error => .fail error

instance : MonadLift (Except Error) Emission where
  monadLift := result

def run {Outcome : Type} (code : Emission Outcome) (generator : Generator) :
    Except Error (Outcome × Generator) :=
  match code with
  | .done outcome => .ok (outcome, generator)
  | .fail error => .error error
  | .look next => (next generator).run generator
  | .take mark aliasName next =>
    match generator.take mark aliasName with
    | .ok (register, taken) => (next register).run taken
    | .error error => .error error
  | .act action next =>
    match action.perform generator with
    | .ok changed => (next ()).run changed
    | .error error => .error error

def perform (action : Action) : Emission Unit :=
  .act action fun _ => .done ()

def generator : Emission Generator :=
  .look .done

def onlyIf (condition : Bool) (code : Emission Unit) : Emission Unit :=
  if condition then code else pure ()

/-! ## Lines -/

def line (line : Line) : Emission Unit :=
  perform (.write line)

def instruction (opcode : Opcode) (operands : List Operand) : Emission Unit :=
  line (.instruction opcode operands)

def label (place : Label) : Emission Unit :=
  line (.label place)

def loadScratch (value : Operand) : Emission Unit :=
  instruction .load [.scratch, value]

/-- Push a value by way of the scratch register. -/
def pushValue (value : Operand) : Emission Unit := do
  loadScratch value
  instruction .push [.scratch]

def hostCall (name : String) : Emission Unit := do
  loadScratch (.quoted name)
  instruction .extCall [.scratch]

/-- Write the text of a source line as a comment, unless it was the last one written. -/
def annotate (env : Env) (number : Nat) : Emission Unit := do
  if env.annotated && number ≠ 0 && number ≠ (← generator).lastLine then
    perform (.note number)
    match env.sourceLines[number - 1]? with
    | some text => line (.source number (Text.trimmed text))
    | none => return ()

/-! ## Registers -/

def takeRegister (mark : Mark) (aliasName : Option String) : Emission Register :=
  .take mark aliasName .done

def alloc (mark : Mark) : Emission Register :=
  takeRegister mark none

def allocAlias (mark : Mark) (aliasName : String) : Emission Register := do
  let register ← takeRegister mark (some aliasName)
  line (.aliasing register.index aliasName)
  return register

def dealloc (register : Register) (line : Nat) : Emission Unit :=
  perform (.give register line)

/-! ## Variables -/

def binding? (id : VarId) : Emission (Option Register) := do
  return (← generator).bindings.lookup id

def isBound (id : VarId) : Emission Bool := do
  return (← binding? id).isSome

def bind (env : Env) (id : VarId) (register : Register) (line : Nat) : Emission Unit := do
  if ← isBound id then
    fail (.internal line (.alreadyBound (env.scopes.declaration id).name))
  else
    perform (.bind id register)

/--
The alias for the register of a variable: its name, or its name and number
where the name is in use.
-/
def aliasFor (env : Env) (id : VarId) : Emission String := do
  let name := (env.scopes.declaration id).name
  let taken := (← generator).bindings.any fun (_, register) => register.aliasName == some name
  return if taken then s!"{name}_{id}" else name

/-- Make sure that a variable has a register; is it a new one? -/
def ensureBound (env : Env) (id : VarId) (mark : Mark) : Emission Bool := do
  if ← isBound id then
    return false
  else
    let aliasName ← aliasFor env id
    let register ← allocAlias mark aliasName
    bind env id register mark.line
    return true

/-- Give back the register of a variable; did it have one? -/
def release (id : VarId) (line : Nat) : Emission Bool := do
  match ← binding? id with
  | some register =>
    perform (.unbind id)
    dealloc register line
    return true
  | none => return false

def operand (env : Env) (id : VarId) (line : Nat) : Emission Register := do
  match ← binding? id with
  | some register => return register
  | none => fail (.semantic line (.unassignedVariable (env.scopes.declaration id).name))

/-! ## The world outside the method -/

def useRoutine (env : Env) (label : String) : Emission Unit := do
  let known := (Routine.find? env.routines label).isSome
  if known && !(← generator).called.contains label then
    perform (.remember label)

/-- What is known of a module that must have been compiled. -/
def artifact (env : Env) (name : String) (line : Nat) : Except Error Artifact :=
  match env.artifacts.lookup name with
  | some artifact => .ok artifact
  | none => complain line (.moduleNotCompiled name)

def bytesLiteral (bytes : List UInt8) : String :=
  "0x" ++ Text.hex bytes

/-- The address of a module: a mark of two bytes and the digest of its name. -/
def addressOf (moduleName : String) : String :=
  bytesLiteral ([2, 0] ++ Sha256.digest (Text.bytes moduleName))

end Emission

structure EmittedCode where
  lines : List Line
  /-- The labels of the routines called, in the order of the first call. -/
  called : List String
  stats : RegisterStats
deriving DecidableEq

namespace Generator

/-- Hand over the code; no variable and no node may hold a register. -/
def finish (env : Emission.Env) (generator : Generator) (line : Nat) :
    Except Error EmittedCode := do
  match generator.bindings.head? with
  | some (id, _) => blame line (.stillBound (env.scopes.declaration id).name)
  | none =>
    generator.registers.verify line
    return {
      lines := generator.output.toList
      called := generator.called
      stats := generator.registers.stats }

end Generator

end Covenant
