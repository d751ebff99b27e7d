import Covenant.Emission.Statement
import Covenant.Module.Basic
import Covenant.Tree.Walk

/-!
# Emitting methods

A method takes its arguments off the stack, loads the globals that its body
uses from storage, runs its body and stores the globals that its body assigns.
A constructor does not load globals; it must assign each of them once.
-/

namespace Covenant.Emission

def popVariable (env : Env) (mark : Mark) (id : VarId) : Emission Unit := do
  discard (ensureBound env id mark)
  let register ← operand env id mark.line
  instruction .pop [.register register]

def popVariables (env : Env) (mark : Mark) : List VarId → Emission Unit
  | [] => return ()
  | first :: rest => do
      popVariable env mark first
      popVariables env mark rest

def releaseAll (line : Nat) : List VarId → Emission Unit
  | [] => return ()
  | first :: rest => do
      discard (release first line)
      releaseAll line rest

/-! ## Globals -/

/-- The globals of a module that are kept in a single place, in order. -/
def globals (env : Env) (moduleScope : ScopeId) : List Variable :=
  (env.scopes.declaredIn moduleScope).filter fun declaration =>
    declaration.storage = .global && declaration.collection.isNone

def loadGlobal (env : Env) (mark : Mark) (declaration : Variable) : Emission Unit := do
  let shape ← declaration.ty.machineType
  discard (ensureBound env declaration.id mark)
  pushValue (.natural shape.tag)
  pushValue (.quoted declaration.name)
  pushValue (.quoted env.moduleName)
  hostCall "Data.Get"
  let register ← operand env declaration.id mark.line
  instruction .pop [.register register]

def loadGlobals (env : Env) (mark : Mark) (body : Block) : List Variable → Emission Unit
  | [] => return ()
  | first :: rest => do
      onlyIf (body.uses first.id) (loadGlobal env mark first)
      loadGlobals env mark body rest

def storeGlobal (env : Env) (line : Nat) (declaration : Variable) : Emission Unit := do
  let register ← operand env declaration.id line
  instruction .push [.register register]
  pushValue (.quoted declaration.name)
  hostCall "Data.Set"

/-- Store a global if a body assigns it, and give back its register. -/
def leaveGlobal (env : Env) (line : Nat) (body : Block) (declaration : Variable) :
    Emission Unit := do
  if ← isBound declaration.id then
    onlyIf (body.assigns declaration.id) (storeGlobal env line declaration)
    discard (release declaration.id line)
  else
    return ()

def storeGlobals (env : Env) (line : Nat) (body : Block) : List Variable → Emission Unit
  | [] => return ()
  | first :: rest => do
      leaveGlobal env line body first
      storeGlobals env line body rest

/-- A constructor must assign every global as a whole, and once. -/
def checkInitialized (body : Block) (line : Nat) : List Variable → Except Error Unit
  | [] => .ok ()
  | first :: rest =>
    match body.initializations first.id with
    | 0 => complain line (.globalNotInitialized first.name)
    | 1 => checkInitialized body line rest
    | _ => complain line (.globalInitializedTwice first.name)

/-! ## NFTs -/

def tokenField? : String → Option String
  | "_seriesID" => some "seriesID"
  | "_mintID" => some "mintID"
  | "_ROM" => some "ROM"
  | "_RAM" => some "RAM"
  | _ => none

def readFields (env : Env) (mark : Mark) (data : Register) :
    List (Variable × String) → Emission Unit
  | [] => return ()
  | (declaration, field) :: rest => do
      discard (ensureBound env declaration.id mark)
      let target ← operand env declaration.id mark.line
      loadScratch (.quoted field)
      instruction .get [.register data, .register target, .scratch]
      unpackStruct declaration.ty target
      readFields env mark data rest

/-- The variables of an NFT that a body uses, with the fields behind them. -/
def usedFields (body : Block) (implicit : List Variable) : List (Variable × String) :=
  (implicit.filter fun declaration => body.uses declaration.id).filterMap fun declaration =>
    (tokenField? declaration.name).map fun field => (declaration, field)

/--
Take the number of a token off the stack and read the fields that a body uses.
The variables that have got a register are the result.
-/
def loadToken (env : Env) (mark : Mark) (moduleScope : ScopeId) (token : String)
    (body : Block) : Emission (List VarId) := do
  let implicit := (env.scopes.declaredIn moduleScope).filter fun declaration =>
    declaration.storage = .nft
  match implicit.find? fun declaration => declaration.name == "_tokenID" with
  | none => fail (.internal mark.line .noTokenIdentifier)
  | some number =>
    popVariable env mark number.id
    let used := usedFields body implicit
    if used.isEmpty then
      return [number.id]
    else
      let register ← operand env number.id mark.line
      instruction .push [.register register]
      pushValue (.quoted token)
      hostCall "Runtime.ReadToken"
      let data ← alloc mark
      instruction .pop [.register data]
      readFields env mark data used
      dealloc data mark.line
      return number.id :: used.map fun (declaration, _) => declaration.id

/-! ## Whole bodies -/

def bodyCode (env : Env) (name : String) (scope : ScopeId) (line : Nat) (body : Block) :
    Emission Unit := do
  inMethod env (.exit name) body
  leaveScope env scope line
  label (.exit name)

/-- Load the token that a method is about, if it is a method of an NFT. -/
def loadImplicit (env : Env) (moduleScope : ScopeId) (token : Option String)
    (decl : MethodDecl) : Emission (List VarId) :=
  match token with
  | some token => loadToken env decl.mark moduleScope token decl.body
  | none => return []

/-- Load the globals that a method uses; a constructor must initialize all instead. -/
def prepareGlobals (env : Env) (moduleScope : ScopeId) (decl : MethodDecl) : Emission Unit :=
  if decl.method.role = .constructor then
    checkInitialized decl.body decl.line (globals env moduleScope)
  else
    loadGlobals env decl.mark decl.body (globals env moduleScope)

/--
The code of a method up to its body; `token` owns the module if it is an NFT.
The variables of the token that have got a register are the result.
-/
def prologue (env : Env) (moduleScope : ScopeId) (token : Option String)
    (decl : MethodDecl) : Emission (List VarId) := do
  annotate env decl.line
  label (.entry decl.name)
  let implicit ← loadImplicit env moduleScope token decl
  popVariables env decl.mark decl.parameters
  prepareGlobals env moduleScope decl
  return implicit

def epilogue (env : Env) (moduleScope : ScopeId) (decl : MethodDecl)
    (implicit : List VarId) : Emission Unit := do
  storeGlobals env decl.line decl.body (globals env moduleScope)
  releaseAll decl.line (implicit ++ decl.parameters)
  instruction .ret []

/-- The code of a method of a module; `token` owns the module if it is an NFT. -/
def method (env : Env) (moduleScope : ScopeId) (token : Option String) (decl : MethodDecl) :
    Emission Unit := do
  let implicit ← prologue env moduleScope token decl
  bodyCode env decl.name decl.scope decl.line decl.body
  epilogue env moduleScope decl implicit

def methods (env : Env) (moduleScope : ScopeId) (token : Option String) :
    List MethodDecl → Emission Unit
  | [] => return ()
  | first :: rest => do
      method env moduleScope token first
      methods env moduleScope token rest

def scriptPrologue (env : Env) (script : Script) : Emission Unit := do
  annotate env script.mark.line
  popVariables env script.mark script.parameters

/-- The code of a script, which runs from its first line. -/
def script (env : Env) (script : Script) : Emission Unit := do
  let line := script.mark.line
  scriptPrologue env script
  bodyCode env env.moduleName script.scope line script.body
  releaseAll line script.parameters
  instruction .ret []

def content (env : Env) (moduleScope : ScopeId) : Module.Content → Emission Unit
  | .contract contract => methods env moduleScope none contract.methods
  | .token contract => methods env moduleScope none contract.methods
  | .organization contract => methods env moduleScope none contract.methods
  | .nft contract types => methods env moduleScope (some types.token) contract.methods
  | .script body => script env body
  | .description body => script env body

def moduleCode (env : Env) (module : Module) : Except Error EmittedCode := do
  let ((), generator) ← (content env module.scope module.content).run {}
  generator.finish env module.line

end Covenant.Emission
