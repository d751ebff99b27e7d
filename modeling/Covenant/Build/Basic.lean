import Covenant.Assembly.Basic
import Covenant.Callable.StandardRoutine
import Covenant.Emission.Method
import Covenant.Interface.Format
import Covenant.Module.Template

/-!
# Building a module

The code of a module is emitted, the routines it calls are appended, and the
whole is assembled.  The interface lists the public methods with the places of
their entry labels.
-/

namespace Covenant

/-- A compiled module without the modules inside it. -/
structure Compiled where
  name : String
  kind : Module.Kind
  lines : List String
  script : List UInt8
  interface : Option Interface
  debug : DebugMap
  stats : RegisterStats
deriving DecidableEq

namespace Compiled

def assemblyText (compiled : Compiled) : String :=
  "\n".intercalate compiled.lines ++ "\n"

def artifact (compiled : Compiled) : Artifact :=
  { script := compiled.script
    interface := (compiled.interface.map fun interface => Text.bytes interface.encode).getD [] }

end Compiled

namespace Build

/-- What stays the same for all modules of a source. -/
structure Env where
  program : Program
  assemble : Assembler
  annotated : Bool
  sourceLines : List String

/-- Modules compiled so far, the newest first. -/
abbrev Artifacts := List (String × Artifact)

def assembled (env : Env) (name : String) (lines : List String) : Except Error Assembly :=
  match env.assemble lines with
  | .ok assembly => .ok assembly
  | .error error => .error (.assembler name error.text lines)

/-! ## Interfaces -/

def interfaceParameter (parameter : Parameter) : Except Error Interface.Parameter := do
  return { name := parameter.name, shape := ← parameter.ty.machineType }

def interfaceMethod (assembly : Assembly) (decl : MethodDecl) :
    Except Error Interface.Method := do
  let label := (Label.entry decl.name).text
  match assembly.labels.lookup label with
  | none => blame decl.line (.labelNotAssembled label)
  | some offset =>
    let parameters ← decl.method.parameters.mapM interfaceParameter
    let returns ← decl.method.returns.machineType
    return { name := decl.name, returns, offset, parameters }

/-- The program that shows an event, in hexadecimal digits. -/
def descriptionDigits (env : Env) (artifacts : Artifacts) (moduleName : String)
    (event : Event) : Except Error String :=
  match event.description with
  | .template text => do
      let lines := (Template.code text).map Line.render
      let assembly ← assembled env (moduleName ++ "." ++ event.name) lines
      return Text.hex assembly.script
  | .bytes digits => .ok digits
  | .module name =>
    match artifacts.lookup name with
    | some artifact => .ok (Text.hex artifact.script)
    | none => complain event.line (.moduleNotCompiled name)

def interfaceEvent (env : Env) (artifacts : Artifacts) (moduleName : String)
    (event : Event) : Except Error Interface.Event := do
  let description ← descriptionDigits env artifacts moduleName event
  return { name := event.name, number := event.number, shape := ← event.ty.machineType
           description }

def interfaceOf (env : Env) (artifacts : Artifacts) (moduleName : String)
    (contract : Contract) (assembly : Assembly) : Except Error Interface := do
  let publicMethods := contract.methods.filter fun decl => decl.method.isPublic
  let methods ← publicMethods.mapM (interfaceMethod assembly)
  let events ← contract.events.mapM (interfaceEvent env artifacts moduleName)
  return { methods, events }

/-! ## Modules -/

def emissionEnv (env : Env) (artifacts : Artifacts) (moduleName : String) : Emission.Env :=
  { moduleName, artifacts
    declared := env.program.declared
    scopes := env.program.scopes
    routines := Routine.standard
    annotated := env.annotated
    sourceLines := env.sourceLines }

def routineLines (called : List String) : List String :=
  called.flatMap fun label =>
    ((Routine.find? Routine.standard label).map Routine.body).getD []

def compileModule (env : Env) (artifacts : Artifacts) (module : Module) :
    Except Error Compiled := do
  let code ← Emission.moduleCode (emissionEnv env artifacts module.name) module
  let lines := code.lines.map Line.render ++ routineLines code.called
  let assembly ← assembled env module.name lines
  let interface ←
    match module.content.contract? with
    | some contract => do
        let interface ← interfaceOf env artifacts module.name contract assembly
        pure (some interface)
    | none => pure none
  return {
    name := module.name
    kind := module.kind
    lines
    script := assembly.script
    interface
    debug := assembly.debug
    stats := code.stats }

def compileModules (env : Env) (artifacts : Artifacts) :
    List Module → Except Error (List Compiled × Artifacts)
  | [] => .ok ([], artifacts)
  | first :: rest => do
      let compiled ← compileModule env artifacts first
      let artifacts := (first.name, compiled.artifact) :: artifacts
      let (others, artifacts) ← compileModules env artifacts rest
      return (compiled :: others, artifacts)

end Build

/-- A compiled module with the NFTs declared inside it. -/
structure CompiledTop extends Compiled where
  nfts : List Compiled := []
deriving DecidableEq

namespace CompiledTop

def find? (top : CompiledTop) (name : String) : Option Compiled :=
  if top.name = name then
    some top.toCompiled
  else
    top.nfts.find? fun nft => nft.name == name

end CompiledTop

namespace Build

def compileTop (env : Env) (artifacts : Artifacts) (top : TopModule) :
    Except Error (CompiledTop × Artifacts) := do
  let (nfts, artifacts) ← compileModules env artifacts top.nfts
  let compiled ← compileModule env artifacts top.toModule
  return ({ compiled with nfts }, (top.name, compiled.artifact) :: artifacts)

def compileTops (env : Env) (artifacts : Artifacts) :
    List TopModule → Except Error (List CompiledTop)
  | [] => .ok []
  | first :: rest => do
      let (compiled, artifacts) ← compileTop env artifacts first
      let others ← compileTops env artifacts rest
      return compiled :: others

end Build

end Covenant
