import Covenant.Reading.Method

/-!
# Reading the declarations of a module

Each declaration starts with a keyword.  Which declarations a module may have
depends on its kind; NFTs can only be declared in a token.
-/

namespace Covenant.Reading

/-! ## Declarations without bodies -/

def importName : Reading String := do
  let first ← identifier
  iterate (do return !(← eat .selector "."))
    (fun name => do return name ++ "." ++ (← member).value) first.value

/-- The library behind an imported name; a name with dots is that of a contract. -/
def importedLibrary (outside : Outside) (name : String) (line : Nat) : Except Error Library :=
  if name.toList.contains '.' then
    match outside.interface? name with
    | some interface => .ok (interface.library name)
    | none => .error (.unknownLibrary line name)
  else
    Library.load name line

def importation (outside : Outside) (draft : Draft) (line : Nat) : Reading Draft := do
  let name ← importName
  separator ";"
  let library ← result (importedLibrary outside name line)
  result (draft.addLibrary library line)

/-- The text of a literal that is not a constant. -/
def writtenText? : Expr → Option String
  | .literal _ _ text => some text
  | _ => none

def constant (outside : Outside) (draft : Draft) (line : Nat) : Reading Draft := do
  let name ← identifier
  separator ":"
  let ty ← writtenType outside.declared
  operator "="
  let written ← expression (draft.context outside .none) draft.scope
  let value ← coerce written ty line
  let text ← require (writtenText? value) (.semantic line (.constantNotLiteral name.value))
  separator ";"
  let declaration : Constant := { name := name.value, ty, value := text, line }
  alter (ScopeTree.declareConstant draft.scope declaration)
  return draft

def collectionKind? (token : Token) : Option Ty.Kind :=
  if token.kind = .type then
    (Ty.Kind.ofTypeName? token.value).filter Ty.Kind.isStorageCollection
  else
    none

def collectionTypes (declared : Declared) (kind : Ty.Kind) : Reading CollectionTypes := do
  operator "<"
  let key ←
    if kind = .storageMap then
      let key ← writtenType declared
      separator ","
      pure (some key)
    else
      pure none
  let value ← writtenType declared
  closeAngle
  return { key, value }

def globalVariable (outside : Outside) (draft : Draft) (line : Nat) : Reading Draft := do
  let name ← identifier
  separator ":"
  match collectionKind? (← current) with
  | some kind =>
    skip
    let types ← collectionTypes outside.declared kind
    let ty ← result (Ty.ofKind kind)
    discard (declare draft.scope name.value ty .global (some types) line)
  | none =>
    let ty ← writtenType outside.declared
    discard (declare draft.scope name.value ty .global none line)
  separator ";"
  return draft

def withoutQuotes (text : String) : String :=
  let opened := text.toList.dropWhile (· == '"')
  String.ofList (opened.reverse.dropWhile (· == '"')).reverse

def withoutHexMark (text : String) : String :=
  match text.toList with
  | '0' :: 'x' :: digits => String.ofList digits
  | _ => text

/-- Check that a description module can show events of a type. -/
def checkDescription (outside : Outside) (tree : ScopeTree) (name : String) (ty : Ty)
    (line : Nat) : Except Error Unit := do
  match outside.finished.find? fun top => top.name == name with
  | none => throw (.unknownIdentifier line name)
  | some top =>
    match top.content with
    | .description script =>
      match script.parameters[1]? with
      | none => blame line .descriptionParameter
      | some id =>
        let wanted := (tree.declaration id).ty
        if wanted.accepts ty then
          return ()
        else
          throw (.wrongType line wanted.display ty.display)
    | _ => complain line (.notDescription name)

def description (outside : Outside) (ty : Ty) (token : Token) : Reading Description :=
  match token.kind with
  | .string => return .template (withoutQuotes token.value)
  | .bytes => return .bytes (withoutHexMark token.value)
  | .identifier => do
      result (checkDescription outside (← scopes) token.value ty token.line)
      return .module token.value
  | _ => fail (.expected token.line "event description" token.value)

def event (outside : Outside) (draft : Draft) (line : Nat) : Reading Draft := do
  let name ← identifier
  separator ":"
  let ty ← writtenType outside.declared
  operator "="
  let description ← description outside ty (← fetch)
  separator ";"
  result (draft.addEvent name.value ty description line)

/-! ## Any declaration -/

def trigger (outside : Outside) (draft : Draft) (line : Nat) : Reading Draft := do
  let set ← require draft.kind.triggers? (.semantic line (.noTriggers draft.kind.name))
  let name := Trigger.fullName (← identifier).value
  if set.contains name then
    method outside draft name .trigger true line
  else
    refuse line (.foreignTrigger name draft.kind.name)

/-- Refuse a declaration that the kind of the module does not allow. -/
def allow (allowed : Bool) (draft : Draft) (keyword : String) (line : Nat) : Reading Unit :=
  if allowed then
    return ()
  else
    refuse line (.itemNotAllowed keyword draft.kind.name)

def namedMethod (outside : Outside) (draft : Draft) (role : Role) (isPublic : Bool)
    (line : Nat) : Reading Draft := do
  let name ← identifier
  method outside draft name.value role isPublic line

/-- Read a declaration behind its keyword, other than that of an NFT. -/
def keywordItem (outside : Outside) (draft : Draft) (keyword : String) (line : Nat) :
    Reading Draft := do
  let contractOnly := allow draft.kind.isContract draft keyword line
  match keyword with
  | "import" => importation outside draft line
  | "const" => constant outside draft line
  | "global" =>
    contractOnly
    globalVariable outside draft line
  | "event" =>
    contractOnly
    event outside draft line
  | "constructor" =>
    contractOnly
    method outside draft constructorName .constructor true line
  | "property" =>
    contractOnly
    property outside draft line
  | "public" =>
    contractOnly
    namedMethod outside draft .method true line
  | "private" =>
    contractOnly
    namedMethod outside draft .method false line
  | "task" =>
    contractOnly
    namedMethod outside draft .task true line
  | "trigger" => trigger outside draft line
  | "code" =>
    allow draft.kind.isScript draft keyword line
    code outside draft line
  | "nft" => refuse line (.itemNotAllowed keyword draft.kind.name)
  | _ => fail (.unexpectedToken line keyword)

/-- Read a declaration other than that of an NFT. -/
def item (outside : Outside) (draft : Draft) : Reading Draft := do
  let token ← fetch
  if token.kind = .keyword then
    keywordItem outside draft token.value token.line
  else
    fail (.unexpectedToken token.line token.value)

/-- The module that is being read. -/
def underway (draft : Option Draft) (line : Nat) : Reading Draft :=
  require draft (.internal line .noModule)

/-- Read the declarations of a module, up to its closing brace. -/
def items (round : Draft → Reading Draft) (draft : Draft) : Reading Draft := do
  let draft ← iterate (eat .separator "\x7d") (fun draft => do
    let draft ← underway draft (← line)
    return some (← round draft)) (some draft)
  underway draft (← line)

end Covenant.Reading
