import Covenant.Callable.Registry
import Covenant.Module.Basic
import Covenant.Reading.WrittenType
import Covenant.Reading.Coercion

/-!
# Reading expressions

An expression is a chain of operands with operators between them, which group
to the left whatever the operators are.  A group in parentheses at the start
of an expression must be followed by an operator.

The operand of a prefix sign is the whole expression behind it.
-/

namespace Covenant.Reading

/-- What names mean at a place of a source, apart from the scopes. -/
structure Context where
  declared : Declared
  moduleName : String
  /-- The symbol of the token that the module is or belongs to. -/
  symbol : Option String
  libraries : List Library
  own : Library
  events : List Event
  /-- The modules that can be used as values. -/
  moduleNames : List String
  returns : Ty

namespace Context

def library? (context : Context) (name : String) : Option Library :=
  context.libraries.find? fun library => library.name == name

def isModuleName (context : Context) (name : String) : Bool :=
  context.moduleNames.contains name

end Context

/-! ## Operands without parts -/

def plainLiteralType? : Token.Kind → Option Ty
  | .string => some .string
  | .number => some .number
  | .bool => some .bool
  | .address => some .address
  | .hash => some .hash
  | .bytes => some .bytes
  | _ => none

/-- The text and the type of a literal; decimals are scaled. -/
def literalValue (token : Token) : Reading (String × Ty) :=
  match token.kind with
  | .decimal =>
    match scaledDecimal? token.value with
    | some (text, places) =>
      if places ≤ Ty.maxPlaces then do
        let ty ← result (Ty.ofPlaces places)
        return (text, ty)
      else
        refuse token.line (.invalidDecimal token.value)
    | none => refuse token.line (.invalidDecimal token.value)
  | kind => do
      let ty ← require (plainLiteralType? kind) (.expected token.line "literal" token.value)
      return (token.value, ty)

/-- A literal; `sign` is put in front of its text. -/
def literal (sign : String) (token : Token) : Reading Expr := do
  let (text, ty) ← literalValue token
  node token.line fun mark => .literal mark ty (sign ++ text)

def macroValue (context : Context) (token : Token) : Reading Expr :=
  match token.value with
  | "THIS_ADDRESS" => node token.line fun mark => .thisAddress mark .address
  | "THIS_SYMBOL" => do
      let symbol ← require context.symbol (.semantic token.line .symbolOutsideToken)
      node token.line fun mark => .literal mark .string (enquote symbol)
  | "TYPE_OF" => do
      separator "("
      let ty ← writtenType context.declared
      separator ")"
      let shape ← result ty.machineType
      node token.line fun mark => .literal mark .number (toString shape.tag)
  | name => fail (.unknownIdentifier token.line ("$" ++ name))

/-- A variable as a value; collections are not values. -/
def variableValue (id : VarId) (line : Nat) : Reading Expr := do
  let declaration := (← scopes).declaration id
  if declaration.collection.isSome then
    refuse line (.collectionAsValue declaration.name)
  else
    node line fun mark => .variable mark declaration.ty id

/-- A name that stands alone: a variable, a constant, a method or a module. -/
def nameValue (context : Context) (scope : ScopeId) (token : Token) : Reading Expr := do
  let tree ← scopes
  match tree.findVariable? scope token.value with
  | some id => variableValue id token.line
  | none =>
    match tree.findConstant? scope token.value with
    | some constant =>
      node token.line fun mark => .constant mark constant.ty token.value constant.value
    | none =>
      if (context.own.method? token.value).isSome then
        node token.line fun mark => .literal mark (.method token.value) token.value
      else if context.isModuleName token.value then
        node token.line fun mark => .moduleRef mark .moduleRef token.value
      else
        fail (.undeclaredVariable token.line token.value)

/-! ## Operands with parts

The parts are read by `nested`.
-/

def typeArgument (context : Context) : Reading (Option Ty) := do
  if ← eat .operator "<" then
    let ty ← writtenType context.declared
    closeAngle
    return some ty
  else
    return none

/-- The call of a method, behind its name; `implicit` are its first arguments. -/
def call (context : Context) (nested : Reading Expr) (method : Method) (implicit : List Expr)
    (line : Nat) : Reading Expr := do
  let typeArgument ← typeArgument context
  separator "("
  let written ← commaSeparated nested
  let arguments ← fitArguments method (implicit ++ written) line
  let ty ← callType method arguments typeArgument line
  node line fun mark => .call mark ty method typeArgument arguments

/-- The variable that a token names, which must be declared. -/
def declaredVariable (scope : ScopeId) (token : Token) : Reading VarId := do
  let found ← result ((← scopes).findVariable scope token.value true token.line)
  require found (.internal token.line .lookupEmpty)

def element (scope : ScopeId) (nested : Reading Expr) (token : Token) : Reading Expr := do
  let id ← declaredVariable scope token
  let array ← variableValue id token.line
  let ty ← require array.ty.element? (.wrongType token.line "array" array.ty.display)
  let index ← coerce (← nested) .number token.line
  separator "]"
  node token.line fun mark => .element mark ty array index

def valueLibrary? : Ty.Kind → Option String
  | .string => some "String"
  | .bytes => some "Bytes"
  | .array => some "Array"
  | .decimal => some "Decimal"
  | .enum => some "Enum"
  | .address => some "Address"
  | _ => none

/-- A method of a storage collection; its first argument is the name of the collection. -/
def collectionMember (context : Context) (nested : Reading Expr) (declaration : Variable)
    (member : Token) : Reading Expr := do
  let library ← result (Library.ofCollection declaration)
  let method ← require (library.method? member.value)
    (.unknownMethod member.line declaration.name member.value)
  let name ← node member.line fun mark => .literal mark .string (enquote declaration.name)
  call context nested method [name] member.line

def fieldMember (context : Context) (declaration : Variable) (member : Token) :
    Reading Expr := do
  let ty ← require (context.declared.fieldType? declaration.ty member.value)
    (.semantic member.line (.noField declaration.ty.display member.value))
  let target ← variableValue declaration.id member.line
  node member.line fun mark => .field mark ty target member.value

/-- A method of a value; its first argument is the value. -/
def valueMember (context : Context) (nested : Reading Expr) (declaration : Variable)
    (member : Token) : Reading Expr := do
  let name ← require (valueLibrary? declaration.ty.kind)
    (.semantic member.line (.noMethods declaration.ty.display))
  let library ← result (Library.load name member.line)
  let method ← require (library.method? member.value)
    (.unknownMethod member.line name member.value)
  let target ← variableValue declaration.id member.line
  call context nested method [target] member.line

def variableMember (context : Context) (nested : Reading Expr) (declaration : Variable)
    (member : Token) : Reading Expr := do
  if declaration.collection.isSome then
    collectionMember context nested declaration member
  else if declaration.ty.kind = .struct && !(← check .separator "(") then
    fieldMember context declaration member
  else
    valueMember context nested declaration member

/-- What follows a name and a dot, where the name is no variable. -/
def namedMember (context : Context) (nested : Reading Expr) (target member : Token) :
    Reading Expr :=
  match context.declared.enum? target.value with
  | some decl => do
      let entry ← require (decl.entry? member.value)
        (.unknownIdentifier target.line (target.value ++ "." ++ member.value))
      let ty ← require (context.declared.named? target.value)
        (.internal target.line .enumWithoutType)
      node target.line fun mark => .literal mark ty (toString entry.value)
  | none =>
    match context.library? target.value with
    | some library => do
        let method ← require (library.method? member.value)
          (.unknownMethod target.line target.value member.value)
        call context nested method [] target.line
    | none =>
      if Catalogue.isImportable target.value then
        fail (.unimportedLibrary target.line target.value)
      else
        fail (.unknownIdentifier target.line target.value)

def selection (context : Context) (scope : ScopeId) (nested : Reading Expr)
    (target : Token) : Reading Expr := do
  let member ← member
  let tree ← scopes
  match tree.findVariable? scope target.value with
  | some id => variableMember context nested (tree.declaration id) member
  | none => namedMember context nested target member

def named (context : Context) (scope : ScopeId) (nested : Reading Expr) (token : Token) :
    Reading Expr := do
  if ← check .separator "(" then
    let method ← require (context.own.method? token.value)
      (.unknownMethod token.line context.moduleName token.value)
    call context nested method [] token.line
  else if ← eat .selector "." then
    selection context scope nested token
  else if ← eat .separator "[" then
    element scope nested token
  else
    nameValue context scope token

/-- A method of the module itself, behind `this`. -/
def ownMember (context : Context) (nested : Reading Expr) (line : Nat) : Reading Expr := do
  discard (expect .selector ".")
  let member ← member
  let method ← require (context.own.method? member.value)
    (.unknownMethod line "this" member.value)
  call context nested method [] line

def negation (nested : Reading Expr) (line : Nat) : Reading Expr := do
  let inner ← nested
  if inner.ty = .bool then
    node line fun mark => .not mark .bool inner
  else
    wrongType line .bool inner.ty

def hasOpposite (ty : Ty) : Bool :=
  ty.kind == .number || ty.kind == .decimal

/-- What follows a minus sign; the sign of a literal becomes a part of it. -/
def opposite (nested : Reading Expr) (line : Nat) : Reading Expr := do
  let next ← current
  if next.kind = .number ∨ next.kind = .decimal then
    skip
    literal "-" next
  else
    let inner ← nested
    if hasOpposite inner.ty then
      node line fun mark => .negate mark inner.ty inner
    else
      wrongType line .number inner.ty

/-- The next token, if it is an operator between two operands. -/
def peekOperator : Reading (Option String) := do
  return ((← peek 0).filter fun token =>
    token.kind = .operator && Word.isBinaryOperator token.value).map Token.value

def group (nested : Reading Expr) (leading : Bool) : Reading Expr := do
  let inner ← nested
  separator ")"
  if leading && (← peekOperator).isNone then
    let found ← current
    fail (.expected found.line "operator after `)`" found.value)
  else
    return inner

/-- One operand; `leading` says that it starts an expression. -/
def operand (context : Context) (scope : ScopeId) (nested : Reading Expr)
    (leading : Bool) : Reading Expr := do
  let token ← fetch
  match token.kind with
  | .operator =>
    match token.value with
    | "!" => negation nested token.line
    | "-" => opposite nested token.line
    | value => fail (.unexpectedToken token.line value)
  | .separator =>
    match token.value with
    | "(" => group nested leading
    | value => fail (.unexpectedToken token.line value)
  | .keyword =>
    match token.value with
    | "this" => ownMember context nested token.line
    | value => fail (.unexpectedToken token.line value)
  | .macroName => macroValue context token
  | .identifier => named context scope nested token
  | kind =>
    if kind.isLiteral then
      literal "" token
    else
      fail (.unexpectedToken token.line token.value)

/-! ## Chains -/

/-- Add an operator and its right operand to a chain. -/
def link (right : Reading Expr) (left : Expr) : Reading Expr := do
  let token ← fetch
  binary token.value left (← right) token.line

/-- The rest of a chain; `right` reads an operand. -/
def chain (right : Reading Expr) (left : Expr) : Reading Expr :=
  iterate (do return (← peekOperator).isNone) (link right) left

/-- Read an expression in which fewer than `bound` expressions are nested. -/
def expressionWithin (context : Context) (scope : ScopeId) : Nat → Reading Expr
  | 0 => stall
  | bound + 1 => do
      let start ← get
      let nested := below start.weight (expressionWithin context scope bound)
      let first ← operand context scope nested true
      chain (operand context scope nested false) first

def expression (context : Context) (scope : ScopeId) : Reading Expr :=
  bounded (expressionWithin context scope)

end Covenant.Reading
