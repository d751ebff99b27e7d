import Covenant.Reading.State
import Covenant.Ty.Declared

/-!
# Types in a source

A written type is the name of a type of the language or of a declared one,
followed by a pair of brackets for every level of arrays.
-/

namespace Covenant.Reading

/-- Take the pairs of brackets behind a type. -/
def arrayLevels (ty : Ty) : List Token → Ty × List Token
  | first :: second :: rest =>
    if first.is .separator "[" && second.is .separator "]" then
      arrayLevels (.array ty) rest
    else
      (ty, first :: second :: rest)
  | rest => (ty, rest)

def places : Reading Nat := do
  let token ← fetch
  if token.kind ≠ .number then
    fail (.expected token.line "decimal precision" token.value)
  match Text.readNat? Text.limit8 token.value with
  | some value =>
    if 1 ≤ value && value ≤ Ty.maxPlaces then
      return value
    else
      refuse token.line (.precisionRange token.value)
  | none => refuse token.line (.precisionRange token.value)

/-- A type of the language, of which the name has been taken. -/
def languageType (token : Token) : Reading Ty := do
  match Ty.Kind.ofTypeName? token.value with
  | none => fail (.expected token.line "type" token.value)
  | some .decimal =>
    operator "<"
    let count ← places
    closeAngle
    result (Ty.ofPlaces count)
  | some .method => return .method ""
  | some kind =>
    if kind.isStorageCollection then
      refuse token.line (.storageOutsideGlobal token.value)
    else
      result (Ty.ofKind kind)

/-- The type that a token starts, without brackets. -/
def innermostType (declared : Declared) (token : Token) : Reading Ty :=
  match token.kind with
  | .identifier =>
    require (declared.named? token.value) (.unknownIdentifier token.line token.value)
  | .type | .keyword =>
    if Word.isTypeName token.value then
      languageType token
    else
      fail (.expected token.line "type" token.value)
  | _ => fail (.expected token.line "type" token.value)

def writtenType (declared : Declared) : Reading Ty := do
  let ty ← innermostType declared (← fetch)
  let state ← get
  let (whole, rest) := arrayLevels ty state.rest
  set { state with rest }
  return whole

/-! ## Declarations of types -/

def structField (declared : Declared) (decl : StructDecl) : Reading StructDecl := do
  let field ← identifier
  separator ":"
  let ty ← writtenType declared
  let extended ← result (decl.add field.value ty field.line)
  unless ← eat .separator ";" do
    discard (eat .separator ",")
  return extended

def structDeclaration (declared : Declared) : Reading Declared := do
  let keyword ← expect .keyword "struct"
  let name ← identifier
  separator "\x7b"
  let decl ← iterate (eat .separator "\x7d") (structField declared) { name := name.value }
  result (declared.addStruct decl keyword.line)

/-- The value that an entry of an enum is given, if it is given one. -/
def entryValue : Reading (Option Nat) := do
  if ← eat .operator "=" then
    let token ← fetch
    let value? := if token.kind = .number then Text.readNat? Text.limit32 token.value else none
    let value ← require value? (.expected token.line "enum value" token.value)
    return some value
  else
    return none

def enumEntry (decl : EnumDecl) : Reading EnumDecl := do
  let entry ← identifier
  let value? ← entryValue
  let extended ← (decl.add entry.value value? entry.line : Except Failure EnumDecl)
  discard (eat .separator ",")
  return extended

def enumDeclaration (declared : Declared) : Reading Declared := do
  let keyword ← expect .keyword "enum"
  let name ← identifier
  separator "\x7b"
  let decl ← iterate (eat .separator "\x7d") enumEntry { name := name.value }
  result (declared.addEnum decl keyword.line)

end Covenant.Reading
