import Covenant.Reading.Draft

/-!
# Reading methods

A method is callable in its own body, so its signature is made known before
the body is read.  Constructors, tasks and triggers have fixed signatures.
-/

namespace Covenant.Reading

/-! ## Signatures -/

def parameter (declared : Declared) (scope : ScopeId) : Reading VarId := do
  let name ← identifier
  separator ":"
  let ty ← writtenType declared
  declare scope name.value ty .argument none name.line

def parameters (declared : Declared) (scope : ScopeId) : Reading (List VarId) := do
  separator "("
  commaSeparated (parameter declared scope)

def resultType (declared : Declared) : Reading (Option Ty) := do
  if ← eat .separator ":" then
    return some (← writtenType declared)
  else
    return none

def noResult (name : String) (declared : Option Ty) (line : Nat) : Except Error Ty :=
  match declared with
  | none => .ok .none
  | some _ => complain line (.noReturnValue name)

/-- Check the signature that a role asks for, and find the type of the result. -/
def checkSignature (name : String) (role : Role) (types : List Ty) (declared : Option Ty)
    (line : Nat) : Except Error Ty :=
  match role with
  | .method | .property => .ok (declared.getD .none)
  | .constructor =>
    if types = [.address] then
      noResult name declared line
    else
      complain line .constructorParameters
  | .task =>
    if types.isEmpty then
      match declared with
      | none => .ok .bool
      | some ty =>
        if ty = .bool then
          .ok .bool
        else
          .error (.wrongType line Ty.bool.display ty.display)
    else
      complain line (.taskParameters name)
  | .trigger =>
    match Trigger.signature? name with
    | none => blame line (.triggerSignature name)
    | some wanted =>
      if types = wanted then
        noResult name declared line
      else
        complain line (.triggerParameters name (wanted.map Ty.display))

def signature (name : String) (role : Role) (isPublic : Bool) (parameters : List Variable)
    (returns : Ty) : Method :=
  { Method.make "this" name .localCall returns
      (parameters.map fun declaration => (declaration.name, declaration.ty)) with
    role, isPublic }

def recordMethod (scope : ScopeId) (name : String) (line : Nat) : Reading Unit :=
  alter (ScopeTree.recordMethod scope name line)

/-! ## Bodies -/

def body (context : Context) (name : String) (scope : ScopeId) (line : Nat) :
    Reading Block := do
  let body ← block (statement context) scope
  if context.returns ≠ .none ∧ !body.alwaysReturns then
    refuse line (.missingReturn name)
  else
    return body

def declarations (ids : List VarId) : Reading (List Variable) := do
  let tree ← scopes
  return ids.map tree.declaration

def method (outside : Outside) (draft : Draft) (name : String) (role : Role)
    (isPublic : Bool) (line : Nat) : Reading Draft := do
  let scope ← childScope draft.scope
  let parameters ← parameters outside.declared scope
  let declared ← resultType outside.declared
  let arguments ← declarations parameters
  let returns ← result (checkSignature name role (arguments.map Variable.ty) declared line)
  let method := signature name role isPublic arguments returns
  recordMethod draft.scope name line
  let draft := draft.addSignature method
  let body ← body (draft.context outside returns) name scope line
  node line fun mark => draft.addMethod { method, scope, parameters, body, mark }

def propertyName (name : String) (ty : Ty) : String :=
  if ty = .bool ∧ Word.startsCamel "is" name then name else "get" ++ Word.capitalize name

/-- The body of a property that is written as an expression. -/
def propertyValue (context : Context) (scope : ScopeId) (line : Nat) : Reading Block := do
  let inner ← childScope scope
  let value ← coerce (← expression context inner) context.returns line
  separator ";"
  let statement ← node line fun mark => Stmt.giveBack mark (some value)
  return { scope := inner, statements := [statement] }

def property (outside : Outside) (draft : Draft) (line : Nat) : Reading Draft := do
  let written ← identifier
  separator ":"
  let ty ← writtenType outside.declared
  let name := propertyName written.value ty
  let scope ← childScope draft.scope
  let method := signature name .property true [] ty
  recordMethod draft.scope name line
  let draft := draft.addSignature method
  let context := draft.context outside ty
  let body ←
    if ← eat .operator "=" then
      propertyValue context scope line
    else
      body context name scope line
  node line fun mark => draft.addMethod { method, scope, parameters := [], body, mark }

/-- Read the body of a script or a description, behind its keyword. -/
def code (outside : Outside) (draft : Draft) (line : Nat) : Reading Draft := do
  if draft.script.isSome then
    fail (.duplicate line "code")
  let scope ← childScope draft.scope
  let parameters ← parameters outside.declared scope
  let arguments ← declarations parameters
  if draft.kind = .description ∧ arguments.map Variable.ty ≠ [.address, .any] then
    refuse line .descriptionParameters
  let returns := (← resultType outside.declared).getD .none
  let body ← body (draft.context outside returns) "code" scope line
  node line fun mark =>
    { draft with script := some { scope, parameters, body, returns, mark } }

end Covenant.Reading
