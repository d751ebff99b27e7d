import Covenant.Module.Trigger
import Covenant.Tree.Basic
import Covenant.Ty.Declared

/-!
# Modules

A source declares modules.  Contracts, tokens, organizations and NFTs have
methods and events; scripts and descriptions have a single body.  NFTs are
declared inside a token and nowhere else, so modules nest exactly once.
-/

namespace Covenant

inductive Module.Kind where
  | contract
  | token
  | organization
  | nft
  | script
  | description
deriving DecidableEq

namespace Module.Kind

def name : Module.Kind → String
  | contract => "contract"
  | token => "token"
  | organization => "organization"
  | nft => "nft"
  | script => "script"
  | description => "description"

def ofKeyword? : String → Option Module.Kind
  | "contract" => some contract
  | "token" => some token
  | "organization" => some organization
  | "script" => some script
  | "description" => some description
  | _ => none

/-- Kinds with a single body. -/
def isScript : Module.Kind → Bool
  | script | description => true
  | _ => false

/-- Kinds with methods and events. -/
def isContract (kind : Module.Kind) : Bool :=
  !kind.isScript

def triggers? : Module.Kind → Option TriggerSet
  | contract => some .account
  | token => some .token
  | organization => some .organization
  | nft | script | description => none

end Module.Kind

inductive Description where
  | template (text : String)
  /-- A program in hexadecimal digits. -/
  | bytes (digits : String)
  /-- The program of a description module. -/
  | module (name : String)
deriving DecidableEq

/-- An event; `number` is what the host knows it by. -/
structure Event where
  name : String
  number : Nat
  ty : Ty
  description : Description
  line : Nat
deriving DecidableEq

namespace Event

def firstNumber : Nat := 64

/-- The number of the next event after some; numbers have eight bits. -/
def nextNumber? (events : List Event) : Option Nat :=
  if firstNumber + events.length < 256 then some (firstNumber + events.length) else none

def find? (events : List Event) (name : String) : Option Event :=
  events.find? fun event => event.name == name

end Event

/-- A method with its body; the scope of the body is inside `scope`. -/
structure MethodDecl where
  method : Method
  /-- The scope of the parameters. -/
  scope : ScopeId
  parameters : List VarId
  body : Block
  mark : Mark

namespace MethodDecl

def name (decl : MethodDecl) : String :=
  decl.method.name

def line (decl : MethodDecl) : Nat :=
  decl.mark.line

end MethodDecl

def constructorName : String := "Initialize"

structure Contract where
  methods : List MethodDecl := []
  events : List Event := []

namespace Contract

def method? (contract : Contract) (name : String) : Option MethodDecl :=
  contract.methods.find? fun decl => decl.name == name

end Contract

structure Script where
  /-- The scope of the parameters. -/
  scope : ScopeId
  parameters : List VarId
  body : Block
  returns : Ty
  mark : Mark

/-- What an NFT stores in each token, and the token it belongs to. -/
structure NftTypes where
  rom : Ty
  ram : Ty
  token : String
deriving DecidableEq

inductive Module.Content where
  | contract (contract : Contract)
  | token (contract : Contract)
  | organization (contract : Contract)
  | nft (contract : Contract) (types : NftTypes)
  | script (script : Script)
  | description (script : Script)

namespace Module.Content

def kind : Module.Content → Module.Kind
  | contract _ => .contract
  | token _ => .token
  | organization _ => .organization
  | nft _ _ => .nft
  | script _ => .script
  | description _ => .description

def contract? : Module.Content → Option Contract
  | contract body | token body | organization body | nft body _ => some body
  | script _ | description _ => none

def script? : Module.Content → Option Script
  | script body | description body => some body
  | contract _ | token _ | organization _ | nft _ _ => none

def nftTypes? : Module.Content → Option NftTypes
  | nft _ types => some types
  | _ => none

end Module.Content

/-- A module without the modules inside it. -/
structure Module where
  name : String
  scope : ScopeId
  /-- The names of the libraries that can be called. -/
  libraries : List String
  line : Nat
  content : Module.Content

namespace Module

def kind (module : Module) : Module.Kind :=
  module.content.kind

/-- The method and script bodies with their names, in order. -/
def bodies (module : Module) : List (String × Block) :=
  match module.content.contract?, module.content.script? with
  | some contract, _ => contract.methods.map fun decl => (decl.name, decl.body)
  | none, some script => [(module.name, script.body)]
  | none, none => []

end Module

/-- A module that stands on its own, with the NFTs declared inside it. -/
structure TopModule extends Module where
  nfts : List Module := []

namespace TopModule

def inOrder (top : TopModule) : List Module :=
  top.nfts ++ [top.toModule]

end TopModule

structure Program where
  declared : Declared := {}
  scopes : ScopeTree := {}
  modules : List TopModule := []

namespace Program

/-- The first module with a name; the NFTs of a module come after it. -/
def module? (program : Program) (name : String) : Option Module :=
  program.modules.findSome? fun top =>
    if top.name = name then
      some top.toModule
    else
      top.nfts.find? fun nft => nft.name == name

end Program

end Covenant
