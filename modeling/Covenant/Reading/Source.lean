import Covenant.Reading.Item
import Covenant.Token.Scan

/-!
# Reading a source

A source is a list of structs, enums and modules.  Each of them sees what was
declared before it.
-/

namespace Covenant.Reading

/-! ## NFTs -/

/-- The variables that every method of an NFT can read. -/
def nftVariables (types : NftTypes) : List (String × Ty) :=
  [("_tokenID", .number), ("_seriesID", .number), ("_mintID", .number), ("_ROM", types.rom),
    ("_RAM", types.ram)]

def declareNft (scope : ScopeId) (line : Nat) : List (String × Ty) → Reading Unit
  | [] => return ()
  | (name, ty) :: rest => do
      discard (declare scope name ty .nft none line)
      declareNft scope line rest

def nft (outside : Outside) (token : Draft) (line : Nat) : Reading Module := do
  let name ← identifier
  operator "<"
  let rom ← writtenType outside.declared
  separator ","
  let ram ← writtenType outside.declared
  closeAngle
  if token.moduleNames.contains name.value then
    fail (.duplicate line name.value)
  let scope ← rootScope name.value
  let types : NftTypes := { rom, ram, token := token.name }
  declareNft scope line (nftVariables types)
  separator "\x7b"
  let draft := Draft.start outside name.value .nft scope line (some types) token.moduleNames
  let draft ← items (item outside) draft
  result draft.finish

def tokenItem (outside : Outside) (draft : Draft) : Reading Draft := do
  if ← check .keyword "nft" then
    let keyword ← fetch
    return draft.addNft (← nft outside draft keyword.line)
  else
    item outside draft

/-! ## Modules -/

def itemOf (outside : Outside) : Module.Kind → Draft → Reading Draft
  | .token => tokenItem outside
  | _ => item outside

def topModule (outside : Outside) (kind : Module.Kind) : Reading TopModule := do
  let line := (← fetch).line
  let name ← identifier
  let moduleNames := outside.finished.map fun top => top.name
  if moduleNames.contains name.value then
    fail (.duplicate line name.value)
  let scope ← rootScope name.value
  separator "\x7b"
  let draft := Draft.start outside name.value kind scope line none moduleNames
  let draft ← items (itemOf outside kind) draft
  let module ← result draft.finish
  return { module with nfts := draft.nfts }

structure Progress where
  declared : Declared := {}
  modules : List TopModule := []

def declaration (interface? : String → Option Interface) (progress : Progress) :
    Reading Progress := do
  let token ← current
  let unexpected := fail (.unexpectedToken token.line token.value)
  if token.kind ≠ .keyword then
    unexpected
  else if token.value = "struct" then
    return { progress with declared := ← structDeclaration progress.declared }
  else if token.value = "enum" then
    return { progress with declared := ← enumDeclaration progress.declared }
  else
    match Module.Kind.ofKeyword? token.value with
    | none => unexpected
    | some kind =>
      let outside : Outside :=
        { declared := progress.declared, finished := progress.modules, interface? }
      return { progress with modules := progress.modules ++ [← topModule outside kind] }

def atEnd : Reading Bool := do
  return (← get).rest.isEmpty

def source (interface? : String → Option Interface) : Reading Progress :=
  iterate atEnd (declaration interface?) {}

end Covenant.Reading

namespace Covenant.Program

def ofTokens (interface? : String → Option Interface) (tokens : List Token) :
    Except Failure Program := do
  let (progress, state) ← (Reading.source interface?).run (.start tokens)
  return { declared := progress.declared, scopes := state.scopes, modules := progress.modules }

def read (interface? : String → Option Interface) (source : String) :
    Except Failure Program :=
  ofTokens interface? (Token.scan source)

end Covenant.Program
