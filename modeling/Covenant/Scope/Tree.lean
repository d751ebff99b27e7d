import Covenant.Error
import Covenant.Token.Word
import Covenant.Ty.Basic

/-!
# Scopes

Scopes form trees, one for each module, and are numbered in the order of
their creation.  A child is always created after its parent, so walking
outwards visits smaller and smaller numbers.  Variables are numbered across
all scopes in the order of their declaration.
-/

namespace Covenant

abbrev ScopeId := Nat

abbrev VarId := Nat

/-- Where a variable lives while the program runs. -/
inductive Storage where
  /-- Contract storage, read when a method is entered and written when it is left. -/
  | global
  | local
  /-- Taken from the stack when a method is entered. -/
  | argument
  /-- Read from the token behind the methods of an NFT. -/
  | nft
deriving DecidableEq

/-- The key and value types of a storage collection; only maps have a key. -/
structure CollectionTypes where
  key : Option Ty
  value : Ty
deriving DecidableEq

structure Variable where
  id : VarId
  name : String
  ty : Ty
  storage : Storage
  scope : ScopeId
  line : Nat
  collection : Option CollectionTypes := none
deriving DecidableEq

instance : Inhabited Variable where
  default := { id := 0, name := "", ty := .none, storage := .local, scope := 0, line := 0 }

/-- A named literal; `value` is its text, quotes included. -/
structure Constant where
  name : String
  ty : Ty
  value : String
  line : Nat
deriving DecidableEq

/--
What is declared directly in a scope.  Variables are looked up by name; beside
their names, the order of their declaration is kept for when the scope is left.
-/
structure Scope where
  parent : Option ScopeId
  moduleName : String
  names : List (String × VarId) := []
  variableIds : List VarId := []
  constants : List Constant := []
  methods : List String := []
deriving DecidableEq

namespace Scope

def variableId? (scope : Scope) (name : String) : Option VarId :=
  scope.names.lookup name

def constant? (scope : Scope) (name : String) : Option Constant :=
  scope.constants.find? fun constant => constant.name == name

/-- Is the name declared here, as a variable or as a constant? -/
def declares (scope : Scope) (name : String) : Bool :=
  (scope.variableId? name).isSome || (scope.constant? name).isSome

end Scope

instance : Inhabited Scope where
  default := { parent := none, moduleName := "" }

/-- All scopes and all variables of a source, by number. -/
structure ScopeTree where
  scopes : List Scope := []
  declarations : List Variable := []

namespace ScopeTree

def scope (tree : ScopeTree) (id : ScopeId) : Scope :=
  tree.scopes[id]?.getD default

def declaration (tree : ScopeTree) (id : VarId) : Variable :=
  tree.declarations[id]?.getD default

def declaredIn (tree : ScopeTree) (id : ScopeId) : List Variable :=
  (tree.scope id).variableIds.map tree.declaration

/-- Add a scope; its number is the number of scopes before. -/
def push (tree : ScopeTree) (scope : Scope) : ScopeId × ScopeTree :=
  (tree.scopes.length, { tree with scopes := tree.scopes ++ [scope] })

def root (tree : ScopeTree) (moduleName : String) : ScopeId × ScopeTree :=
  tree.push { parent := none, moduleName }

def child (tree : ScopeTree) (parent : ScopeId) : ScopeId × ScopeTree :=
  tree.push { parent := some parent, moduleName := (tree.scope parent).moduleName }

def update (tree : ScopeTree) (id : ScopeId) (change : Scope → Scope) : ScopeTree :=
  { tree with scopes := tree.scopes.modify id change }

/--
Declare a variable.  The implicit variables of an NFT may have any name; all
other names must be variable names, and no scope declares a name twice.
-/
def declareVariable (scope : ScopeId) (name : String) (ty : Ty) (storage : Storage)
    (collection : Option CollectionTypes) (line : Nat) : Change ScopeTree VarId := do
  if storage ≠ .nft && !Word.isVariableName name then
    throw (.invalidName line "variable" name)
  else if ((← get).scope scope).declares name then
    throw (.duplicate line name)
  else
    let id := (← get).declarations.length
    let declaration : Variable := { id, name, ty, storage, scope, line, collection }
    modify fun tree => { tree with declarations := tree.declarations ++ [declaration] }
    modify fun tree => tree.update scope fun target =>
      { target with names := target.names ++ [(name, id)] }
    modify fun tree => tree.update scope fun target =>
      { target with variableIds := target.variableIds ++ [id] }
    return id

/-- Declare a constant; its name must be a constant name. -/
def declareConstant (scope : ScopeId) (constant : Constant) : Change ScopeTree Unit := do
  if !Word.isConstantName constant.name then
    throw (.invalidName constant.line "constant" constant.name)
  else if ((← get).scope scope).declares constant.name then
    throw (.duplicate constant.line constant.name)
  else
    modify fun tree => tree.update scope fun target =>
      { target with constants := target.constants ++ [constant] }

/-- Record the name of a method, which must be new in its scope. -/
def recordMethod (scope : ScopeId) (name : String) (line : Nat) : Change ScopeTree Unit := do
  if ((← get).scope scope).methods.contains name then
    throw (.duplicate line name)
  else
    modify fun tree => tree.update scope fun target =>
      { target with methods := target.methods ++ [name] }

/--
A scope and the scopes around it, from the inside out.  At most `bound` of
them are visited.
-/
def chainWithin (tree : ScopeTree) : Nat → ScopeId → List ScopeId
  | 0, _ => []
  | bound + 1, id =>
    match (tree.scope id).parent with
    | none => [id]
    | some parent => id :: tree.chainWithin bound parent

/-- A scope and the scopes around it, from the inside out. -/
def chain (tree : ScopeTree) (id : ScopeId) : List ScopeId :=
  tree.chainWithin (id + 1) id

def findVariable? (tree : ScopeTree) (scope : ScopeId) (name : String) : Option VarId :=
  (tree.chain scope).findSome? fun id => (tree.scope id).variableId? name

/-- The variable with a name; a name that is `required` must be declared. -/
def findVariable (tree : ScopeTree) (scope : ScopeId) (name : String) (required : Bool)
    (line : Nat) : Except Error (Option VarId) :=
  match tree.findVariable? scope name with
  | some id => .ok (some id)
  | none => if required then .error (.undeclaredVariable line name) else .ok none

def findConstant? (tree : ScopeTree) (scope : ScopeId) (name : String) : Option Constant :=
  (tree.chain scope).findSome? fun id => (tree.scope id).constant? name

end ScopeTree

end Covenant
