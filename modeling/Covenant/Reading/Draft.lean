import Covenant.Interface.Basic
import Covenant.Reading.Statement
import Covenant.Tree.Walk

/-!
# Modules in the making

A `Draft` is a module whose declarations are still being read.  A name can be
used from its declaration on, so what a body can refer to depends on what
stands before it.
-/

namespace Covenant.Reading

/-- What a module can see of the rest of the source and of the world. -/
structure Outside where
  declared : Declared
  finished : List TopModule
  interface? : String → Option Interface

structure Draft where
  name : String
  kind : Module.Kind
  scope : ScopeId
  line : Nat
  libraries : List Library
  own : Library := { name := "this" }
  methods : List MethodDecl := []
  events : List Event := []
  nfts : List Module := []
  script : Option Script := none
  nft : Option NftTypes := none
  /-- The modules that can be used as values. -/
  moduleNames : List String

namespace Draft

def start (outside : Outside) (name : String) (kind : Module.Kind) (scope : ScopeId)
    (line : Nat) (nft : Option NftTypes) (moduleNames : List String) : Draft :=
  { name, kind, scope, line, nft, moduleNames
    libraries := [Library.ofStructs outside.declared] }

/-- The symbol of the token that the module is or belongs to. -/
def symbol? (draft : Draft) : Option String :=
  match draft.kind with
  | .token => some draft.name
  | .nft => draft.nft.map NftTypes.token
  | _ => none

/-- What names mean in a body that gives back values of a type. -/
def context (outside : Outside) (draft : Draft) (returns : Ty) : Context :=
  { declared := outside.declared
    moduleName := draft.name
    symbol := draft.symbol?
    libraries := draft.libraries
    own := draft.own
    events := draft.events
    moduleNames := draft.moduleNames
    returns }

def addLibrary (draft : Draft) (library : Library) (line : Nat) : Except Error Draft :=
  if draft.libraries.any fun known => known.name == library.name then
    .error (.duplicate line library.name)
  else
    .ok { draft with libraries := draft.libraries ++ [library] }

def addEvent (draft : Draft) (name : String) (ty : Ty) (description : Description)
    (line : Nat) : Except Error Draft :=
  if (Event.find? draft.events name).isSome then
    .error (.duplicate line name)
  else
    match Event.nextNumber? draft.events with
    | some number =>
      let event := { name, number, ty, description, line }
      .ok { draft with events := draft.events ++ [event] }
    | none => complain line .tooManyEvents

def addSignature (draft : Draft) (method : Method) : Draft :=
  { draft with own := draft.own.insert method }

def addMethod (draft : Draft) (decl : MethodDecl) : Draft :=
  { draft with methods := draft.methods ++ [decl] }

/-- Add an NFT, which can be used as a value from now on. -/
def addNft (draft : Draft) (nft : Module) : Draft :=
  { draft with
    nfts := draft.nfts ++ [nft]
    moduleNames := draft.moduleNames ++ [nft.name] }

def contract (draft : Draft) : Contract :=
  { methods := draft.methods, events := draft.events }

def body (draft : Draft) : Except Error Script :=
  match draft.script with
  | some script => .ok script
  | none => complain draft.line (.missingCode draft.name)

def content (draft : Draft) : Except Error Module.Content :=
  match draft.kind with
  | .contract => .ok (.contract draft.contract)
  | .token => .ok (.token draft.contract)
  | .organization => .ok (.organization draft.contract)
  | .nft =>
    match draft.nft with
    | some types => .ok (.nft draft.contract types)
    | none => blame draft.line .nftWithoutTypes
  | .script => do return .script (← draft.body)
  | .description => do return .description (← draft.body)

def finish (draft : Draft) : Except Error Module := do
  let content ← draft.content
  return {
    name := draft.name
    scope := draft.scope
    libraries := draft.libraries.map Library.name
    line := draft.line
    content }

end Draft

end Covenant.Reading
