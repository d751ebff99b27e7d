import Covenant.Reading.Expression

/-!
# Reading statements

A block opens a scope of its own; so do a `for` statement, for the variable of
the loop, every case of a switch, and an `else` that is followed by another
`if`.  The statements inside are read by `nested`, in the scope it is given.
-/

namespace Covenant.Reading

/-- A step that reads a statement in a scope. -/
abbrev StatementReader := ScopeId → Reading Stmt

def block (nested : StatementReader) (parent : ScopeId) : Reading Block := do
  separator "\x7b"
  let scope ← childScope parent
  let statements ← collect (eat .separator "\x7d") (nested scope)
  return { scope, statements }

def truth (line : Nat) (expr : Expr) : Reading Unit :=
  if expr.ty = .bool then
    return ()
  else
    wrongType line .bool expr.ty

def condition (context : Context) (scope : ScopeId) : Reading Expr := do
  separator "("
  let line ← line
  let value ← expression context scope
  separator ")"
  truth line value
  return value

/-! ## Variables -/

def localValue (context : Context) (scope : ScopeId) (declared : Option Ty) (line : Nat) :
    Reading (Option Expr) := do
  if ← eat .operator "=" then
    let value ← expression context scope
    match declared with
    | some ty => return some (← coerce value ty line)
    | none => return some value
  else
    return none

def localType (name : String) (declared : Option Ty) (value : Option Expr) (line : Nat) :
    Reading Ty := do
  let ty ← require (declared <|> value.map Expr.ty) (.semantic line (.untypedLocal name))
  if ty = .none then
    refuse line (.emptyLocal name)
  else
    return ty

def localVariable (context : Context) (scope : ScopeId) (line : Nat) : Reading Stmt := do
  let name ← identifier
  let declared ←
    if ← eat .separator ":" then
      pure (some (← writtenType context.declared))
    else
      pure none
  let value ← localValue context scope declared line
  separator ";"
  let ty ← localType name.value declared value line
  let id ← declare scope name.value ty .local none line
  node line fun mark => .declare mark id value

def assignable (scope : ScopeId) (token : Token) : Reading Variable := do
  let tree ← scopes
  if (tree.findConstant? scope token.value).isSome then
    refuse token.line (.assignedConstant token.value)
  let id ← declaredVariable scope token
  let declaration := tree.declaration id
  if declaration.collection.isSome then
    refuse token.line (.assignedCollection declaration.name)
  if declaration.storage = .nft then
    refuse token.line (.readOnly declaration.name)
  return declaration

/-- The part of a variable that is assigned to, with its type. -/
def selector (context : Context) (scope : ScopeId) (declaration : Variable) (line : Nat) :
    Reading (Selector × Ty) := do
  if ← eat .selector "." then
    let field ← member
    let ty ← require (context.declared.fieldType? declaration.ty field.value)
      (.semantic line (.noField declaration.ty.display field.value))
    return (.field field.value, ty)
  else if ← eat .separator "[" then
    let ty ← require declaration.ty.element?
      (.wrongType line "array" declaration.ty.display)
    let index ← coerce (← expression context scope) .number line
    separator "]"
    return (.index index, ty)
  else
    return (.whole, declaration.ty)

/-- The value that a compound assignment starts from. -/
def assignedValue (id : VarId) (selector : Selector) (ty : Ty) (line : Nat) :
    Reading Expr := do
  let target ← variableValue id line
  match selector with
  | .whole => return target
  | .field name => node line fun mark => .field mark ty target name
  | .index index => node line fun mark => .element mark ty target index

def assignmentOperator : Reading String := do
  let token ← fetch
  if token.kind = .operator && Word.isAssignmentOperator token.value then
    return token.value
  else
    fail (.expected token.line "assignment" token.value)

/-- The value of an assignment; a compound one applies its operator. -/
def assignedResult (spelling : String) (id : VarId) (selector : Selector) (ty : Ty)
    (value : Expr) (line : Nat) : Reading Expr :=
  match BinaryOp.compoundSpelling? spelling with
  | none => return value
  | some base => do
      let before ← assignedValue id selector ty line
      binary base before value line

/-- An assignment; where it is `terminated`, a semicolon follows. -/
def assignment (context : Context) (scope : ScopeId) (terminated : Bool) :
    Reading Stmt := do
  let token ← identifier
  let line := token.line
  let declaration ← assignable scope token
  let (part, ty) ← selector context scope declaration line
  let spelling ← assignmentOperator
  let value ← expression context scope
  let combined ← assignedResult spelling declaration.id part ty value line
  let value ← coerce combined ty line
  if terminated then
    separator ";"
  node line fun mark => .assign mark declaration.id part value

/-! ## Statements with blocks -/

/-- What follows the first block of a condition. -/
def otherwise (nested : StatementReader) (scope : ScopeId) : Reading (Option Block) := do
  if ← eat .keyword "else" then
    if ← check .keyword "if" then
      let inner ← childScope scope
      let statement ← nested inner
      return some { scope := inner, statements := [statement] }
    else
      return some (← block nested scope)
  else
    return none

def branch (context : Context) (nested : StatementReader) (scope : ScopeId) (line : Nat) :
    Reading Stmt := do
  let value ← condition context scope
  let body ← block nested scope
  let other ← otherwise nested scope
  node line fun mark => .branch mark value body other

/-- A loop that tests before each round, behind its keyword. -/
def whileLoop (context : Context) (nested : StatementReader) (scope : ScopeId)
    (line : Nat) : Reading Stmt := do
  let value ← condition context scope
  let body ← block nested scope
  node line fun mark => .whileLoop mark value body

/-- A loop that tests after each round, behind its keyword. -/
def doLoop (context : Context) (nested : StatementReader) (scope : ScopeId) (line : Nat) :
    Reading Stmt := do
  let body ← block nested scope
  discard (expect .keyword "while")
  let value ← condition context scope
  separator ";"
  node line fun mark => .doLoop mark body value

/-- A loop with a variable of its own, behind its keyword. -/
def forLoop (context : Context) (nested : StatementReader) (scope : ScopeId) (line : Nat) :
    Reading Stmt := do
  let outer ← childScope scope
  separator "("
  let init ←
    if ← eat .keyword "local" then
      localVariable context outer line
    else
      assignment context outer true
  let value ← expression context outer
  truth line value
  separator ";"
  let step ← assignment context outer false
  separator ")"
  let body ← block nested outer
  node line fun mark => .forLoop mark outer init value step body

/-- Does the body of a case end here? -/
def caseEnds : Reading Bool := do
  return (← check .keyword "case") || (← check .keyword "default") ||
    (← check .separator "\x7d")

def caseBody (nested : StatementReader) (parent : ScopeId) : Reading Block := do
  let scope ← childScope parent
  let statements ← collect caseEnds (nested scope)
  return { scope, statements }

/-- The cases of a switch and its default, as far as they have been read. -/
structure Cases where
  cases : List Case := []
  default : Option Block := none

/-- Read a case or the default of a switch over values of a type. -/
def switchArm (context : Context) (nested : StatementReader) (scope : ScopeId) (ty : Ty)
    (arms : Cases) : Reading Cases := do
  let token ← fetch
  if token.is .keyword "case" then
    let value ← operand context scope (expression context scope) false
    if !value.isLiteral then
      refuse token.line .caseNotLiteral
    let value ← coerce value ty token.line
    separator ":"
    let body ← caseBody nested scope
    return { arms with cases := arms.cases ++ [{ value, body }] }
  else if token.is .keyword "default" && arms.default.isNone then
    separator ":"
    let body ← caseBody nested scope
    return { arms with default := some body }
  else
    fail (.unexpectedToken token.line token.value)

def switch (context : Context) (nested : StatementReader) (scope : ScopeId) (line : Nat) :
    Reading Stmt := do
  separator "("
  let value ← expression context scope
  separator ")"
  separator "\x7b"
  let arms ← iterate (eat .separator "\x7d")
    (switchArm context nested scope value.ty) ({} : Cases)
  node line fun mark => .switch mark value arms.cases arms.default

/-! ## Statements without blocks -/

def giveBack (context : Context) (scope : ScopeId) (line : Nat) : Reading Stmt := do
  if ← eat .separator ";" then
    if context.returns = .none then
      node line fun mark => .giveBack mark none
    else
      refuse line (.returnNeedsValue context.returns.display)
  else
    let value ← expression context scope
    separator ";"
    if context.returns = .none then
      refuse line .returnWithoutType
    else
      let value ← coerce value context.returns line
      node line fun mark => .giveBack mark (some value)

def throwing (context : Context) (scope : ScopeId) (line : Nat) : Reading Stmt := do
  let value ← coerce (← expression context scope) .string line
  separator ";"
  node line fun mark => .throw mark value

def emission (context : Context) (scope : ScopeId) (line : Nat) : Reading Stmt := do
  let name ← identifier
  let event ← require (Event.find? context.events name.value)
    (.unknownIdentifier line name.value)
  separator "("
  let address ← coerce (← expression context scope) .address line
  separator ","
  let value ← coerce (← expression context scope) event.ty line
  separator ")"
  separator ";"
  node line fun mark => .emit mark name.value event.number address value

def callStatement (context : Context) (scope : ScopeId) (line : Nat) : Reading Stmt := do
  let expr ← expression context scope
  separator ";"
  if expr.isCall then
    node line fun mark => .call mark expr
  else
    refuse line .notCall

def isAssignment (token : Option Token) : Bool :=
  (token.map fun token =>
    token.kind = .operator && Word.isAssignmentOperator token.value).getD false

/-- Does the statement that starts with a name look like an assignment? -/
def assignmentAhead : Reading Bool := do
  match ← peek 1 with
  | some token =>
    if token.is .selector "." then
      return isAssignment (← peek 3)
    else if token.is .separator "[" then
      return true
    else
      return isAssignment (some token)
  | none => return false

/-- A statement that starts with a keyword, which has been taken. -/
def keywordStatement (context : Context) (nested : StatementReader) (scope : ScopeId)
    (token : Token) : Reading Stmt :=
  match token.value with
  | "local" => localVariable context scope token.line
  | "if" => branch context nested scope token.line
  | "while" => whileLoop context nested scope token.line
  | "do" => doLoop context nested scope token.line
  | "for" => forLoop context nested scope token.line
  | "switch" => switch context nested scope token.line
  | "break" => do
      separator ";"
      node token.line Stmt.leave
  | "continue" => do
      separator ";"
      node token.line Stmt.next
  | "return" => giveBack context scope token.line
  | "throw" => throwing context scope token.line
  | "emit" => emission context scope token.line
  | value => fail (.unexpectedToken token.line value)

/-- Read a statement whose inner statements are read by `nested`. -/
def statementWith (context : Context) (nested : StatementReader) (scope : ScopeId) :
    Reading Stmt := do
  let token ← current
  match token.kind with
  | .keyword =>
    if token.value = "this" then
      callStatement context scope token.line
    else
      skip
      keywordStatement context nested scope token
  | .assembly =>
    skip
    node token.line fun mark => .assembly mark (Text.lines token.value)
  | .identifier =>
    if ← assignmentAhead then
      assignment context scope true
    else
      callStatement context scope token.line
  | _ => fail (.unexpectedToken token.line token.value)

/-- Read a statement in which fewer than `bound` statements are nested. -/
def statementWithin (context : Context) : Nat → ScopeId → Reading Stmt
  | 0, _ => stall
  | bound + 1, scope => do
      let start ← get
      statementWith context (fun inner => below start.weight (statementWithin context bound inner))
        scope

def statement (context : Context) (scope : ScopeId) : Reading Stmt :=
  bounded fun bound => statementWithin context bound scope

end Covenant.Reading
