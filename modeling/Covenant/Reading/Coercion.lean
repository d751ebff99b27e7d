import Covenant.Reading.State
import Covenant.Text.Blank
import Covenant.Ty.Declared

/-!
# Fitting types together

Where a value of one type is wanted and one of another type is given, a
literal may be written with more places, or a conversion may be inserted.
Decimals are kept as whole numbers: the literal `1.50` is the whole number
`150` with two places.
-/

namespace Covenant

/-! ## Decimal literals -/

/-- A whole number in digits, without needless zeros in front. -/
def wholeDigits (digits : List Char) : List Char :=
  match digits.dropWhile (· == '0') with
  | [] => ['0']
  | significant => significant

def scaledDecimal? (written : String) : Option (String × Nat) :=
  (Text.cutAt '.' written.toList).map fun (whole, fraction) =>
    (String.ofList (wholeDigits (whole ++ fraction)), fraction.length)

def rescaled? (text : String) (places wanted : Nat) : Option String :=
  if places ≤ wanted then
    some (text ++ String.ofList (List.replicate (wanted - places) '0'))
  else
    none

namespace Expr

def rescaledText? (wanted : Nat) : Expr → Option String
  | .literal _ .number text => rescaled? text 0 wanted
  | .literal _ (.decimal places) text => rescaled? text places.val wanted
  | _ => none

end Expr

namespace Reading

def wrongType {Outcome : Type} (line : Nat) (wanted found : Ty) : Reading Outcome :=
  fail (.wrongType line wanted.display found.display)

def convert (expr : Expr) (target : Ty) : Reading Expr :=
  node expr.line fun mark => .cast mark target expr

def rescale (expr : Expr) (wanted : Nat) : Reading (Option Expr) :=
  match expr.rescaledText? wanted with
  | some text => do
      let ty ← result (Ty.ofPlaces wanted)
      let literal ← node expr.line fun mark => .literal mark ty text
      return some literal
  | none => return none

/-- The literal with the places that a type asks for, if it asks for any. -/
def rescaleFor (target : Ty) (expr : Expr) : Reading (Option Expr) :=
  match target.places? with
  | some wanted => rescale expr wanted
  | none => return none

def coerce (expr : Expr) (target : Ty) (line : Nat) : Reading Expr := do
  if target.accepts expr.ty then
    return expr
  else
    match ← rescaleFor target expr with
    | some literal => return literal
    | none =>
      if expr.ty.canCast target then
        convert expr target
      else
        wrongType line target expr.ty

/-! ## Operands of an operator -/

/-- The type that the right operand is converted to, whatever its own. -/
def implicitTarget? : BinaryOp → Ty → Ty → Option Ty
  | .add, .string, .string => none
  | .add, .string, _ => some .string
  | .sub, .number, .timestamp => some .number
  | .add, .timestamp, .number => some .timestamp
  | _, _, _ => none

def convertRight (op : BinaryOp) (left right : Expr) : Reading Expr :=
  match implicitTarget? op left.ty right.ty with
  | some target => if right.ty.canCast target then convert right target else return right
  | none => return right

def unify (op : BinaryOp) (left right : Expr) (line : Nat) : Reading (Expr × Expr) := do
  let right ← convertRight op left right
  if left.ty = right.ty then
    return (left, right)
  else
    match ← rescaleFor left.ty right with
    | some literal => return (left, literal)
    | none =>
      match ← rescaleFor right.ty left with
      | some literal => return (literal, right)
      | none => fail (.typeMismatch line left.ty.display right.ty.display)

/-- Apply the operator with a spelling to two operands. -/
def binary (spelling : String) (left right : Expr) (line : Nat) : Reading Expr := do
  let op ← require (BinaryOp.ofSpelling? spelling) (.unexpectedToken line spelling)
  let (left, right) ← unify op left right line
  let ty := if op.isComparison then .bool else left.ty
  let expr ← node line fun mark => .binary mark ty op left right
  if spelling = "!=" then
    node line fun mark => .not mark .bool expr
  else
    return expr

/-! ## Arguments of a call -/

def coerceAll (line : Nat) : List Expr → List Parameter → Reading (List Expr)
  | argument :: arguments, parameter :: parameters => do
      let first ← coerce argument parameter.ty line
      let rest ← coerceAll line arguments parameters
      return first :: rest
  | _, _ => return []

def takesCount (method : Method) (count : Nat) : Bool :=
  if method.isUntyped then
    method.parameters.length ≤ count
  else
    count == method.parameters.length

def fitArguments (method : Method) (arguments : List Expr) (line : Nat) :
    Reading (List Expr) :=
  if !takesCount method arguments.length then
    refuse line (.argumentCount method.library method.name method.parameters.length
      arguments.length)
  else if method.isUntyped then
    return arguments
  else
    coerceAll line arguments method.parameters

def callType (method : Method) (arguments : List Expr) (typeArgument : Option Ty)
    (line : Nat) : Reading Ty :=
  match method.resultType with
  | .declared => return method.returns
  | .explicit required =>
    match typeArgument with
    | some ty => return ty
    | none =>
      if required then
        refuse line (.missingTypeArgument method.library method.name)
      else
        return .none
  | .argument index =>
    match arguments[index]? with
    | some argument => return argument.ty
    | none => fail (.internal line .genericArgument)
  | .element index =>
    match arguments[index]? with
    | some argument =>
      require argument.ty.element? (.wrongType line "array" argument.ty.display)
    | none => fail (.internal line .genericArgument)

end Reading

end Covenant
