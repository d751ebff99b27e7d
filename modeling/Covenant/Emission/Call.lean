import Covenant.Emission.Generator

/-!
# Emitting calls

Arguments go on the stack, the last one first, so that they are taken off in
the order of the parameters.  A call with a result leaves it on the stack,
from where it is taken into a register.
-/

namespace Covenant.Emission

/-- An argument of a call with the code that computes it. -/
structure Argument where
  expr : Expr
  code : Emission Register

/-! ## Arguments -/

def pushArgument (argument : Argument) : Emission Unit := do
  let register ← argument.code
  instruction .push [.register register]
  dealloc register argument.expr.line

def pushArguments : List Argument → Emission Unit
  | [] => return ()
  | first :: rest => do
      pushArguments rest
      pushArgument first

/-- The argument at an index, which must exist. -/
def argument (arguments : List Argument) (index line : Nat) : Except Error Argument :=
  match arguments[index]? with
  | some argument => .ok argument
  | none => blame line (.missingArgument index)

/-- The text of an argument that must be a literal. -/
def literalArgument (arguments : List Argument) (index line : Nat) : Except Error String := do
  match (← argument arguments index line).expr.literalText? with
  | some text => return text
  | none => complain line (.argumentNotLiteral (index + 1))

/-- The text between the quotes of an argument that must be a string literal. -/
def stringArgument (arguments : List Argument) (index line : Nat) : Except Error String := do
  match (← argument arguments index line).expr.stringText? with
  | some text => return text
  | none => complain line (.argumentNotString (index + 1))

def moduleArgument (argument : Argument) (line : Nat) : Except Error String :=
  match argument.expr with
  | .moduleRef _ _ name => .ok name
  | _ => .error (.wrongType line "module" "expression")

def compute (arguments : List Argument) (index line : Nat) : Emission Register := do
  (← argument arguments index line).code

/-! ## Results -/

def popResult (mark : Mark) (ty : Ty) : Emission (Option Register) :=
  if ty = .none then
    return none
  else do
    let register ← alloc mark
    instruction .pop [.register register]
    return some register

def loadBytes (mark : Mark) (bytes : List UInt8) : Emission (Option Register) := do
  let register ← alloc mark
  instruction .load [.register register, .literal (bytesLiteral bytes)]
  return some register

def applyUnary (mark : Mark) (arguments : List Argument)
    (operands : Register → Register → List Operand) (opcode : Opcode) :
    Emission (Option Register) := do
  let source ← compute arguments 0 mark.line
  let register ← alloc mark
  instruction opcode (operands source register)
  dealloc source mark.line
  return some register

def applyBinary (mark : Mark) (arguments : List Argument)
    (code : Register → Register → Register → Emission Unit) : Emission (Option Register) := do
  let first ← compute arguments 0 mark.line
  let second ← compute arguments 1 mark.line
  let register ← alloc mark
  code first second register
  dealloc second mark.line
  dealloc first mark.line
  return some register

/-! ## Operations that are written out -/

def contractCall (contract method : String) : Emission Unit := do
  pushValue (.quoted method)
  loadScratch (.quoted contract)
  instruction .ctx [.scratch, .scratch]
  instruction .switch [.scratch]

def expectation (mark : Mark) (arguments : List Argument) : Emission (Option Register) := do
  let condition ← compute arguments 0 mark.line
  instruction .jmpIf [.register condition, .label (.expectation mark.id)]
  let message ← compute arguments 1 mark.line
  instruction .throw [.register message]
  dealloc message mark.line
  label (.expectation mark.id)
  dealloc condition mark.line
  return none

def range (mark : Mark) (arguments : List Argument) : Emission (Option Register) := do
  let index ← literalArgument arguments 1 mark.line
  let length ← literalArgument arguments 2 mark.line
  applyUnary mark arguments (fun source register =>
    [.register source, .register register, .literal index, .literal length]) .range

def decimalPlaces (mark : Mark) (arguments : List Argument) :
    Emission (Option Register) := do
  let target ← argument arguments 0 mark.line
  match target.expr.ty.places? with
  | some places =>
    let register ← alloc mark
    instruction .load [.register register, .natural places]
    return some register
  | none => fail (.wrongType mark.line "decimal" target.expr.ty.display)

def putFields (target : Register) (line : Nat) : List Field → List Argument → Emission Unit
  | field :: fields, argument :: arguments => do
      let value ← argument.code
      loadScratch (.quoted field.name)
      instruction .put [.register value, .register target, .scratch]
      dealloc value line
      putFields target line fields arguments
  | _, _ => return ()

def construct (env : Env) (mark : Mark) (structName : String) (arguments : List Argument) :
    Emission (Option Register) := do
  match env.declared.struct? structName with
  | none => fail (.unknownIdentifier mark.line structName)
  | some decl =>
    let register ← alloc mark
    instruction .clear [.register register]
    putFields register mark.line decl.fields arguments
    return some register

def pushTag (ty : Ty) : Emission Unit := do
  let shape ← ty.machineType
  pushValue (.natural shape.tag)

def storage (env : Env) (mark : Mark) (ty : Ty) (method : Method)
    (namesContract typed : Bool) (arguments : List Argument) :
    Emission (Option Register) := do
  onlyIf typed (pushTag ty)
  pushArguments arguments
  onlyIf namesContract (pushValue (.quoted env.moduleName))
  hostCall method.aliasName
  popResult mark ty

/-- Create a series of tokens behind the module that is the last argument. -/
def createSeries (env : Env) (mark : Mark) (ty : Ty) (method : Method)
    (arguments : List Argument) : Emission (Option Register) := do
  match arguments.getLast? with
  | none => fail (.internal mark.line .seriesWithoutArguments)
  | some last =>
    let name ← moduleArgument last mark.line
    let artifact ← artifact env name mark.line
    pushValue (.literal (bytesLiteral artifact.interface))
    pushValue (.literal (bytesLiteral artifact.script))
    pushArguments arguments.dropLast
    hostCall method.aliasName
    popResult mark ty

/-- Structs are stored packed: unpack the one in a register. -/
def unpackStruct (ty : Ty) (register : Register) : Emission Unit :=
  onlyIf (ty.kind = .struct) (instruction .unpack [.register register, .register register])

def readToken (mark : Mark) (ty : Ty) (method : Method) (field : String)
    (arguments : List Argument) : Emission (Option Register) := do
  pushArguments arguments
  hostCall method.aliasName
  let token ← alloc mark
  instruction .pop [.register token]
  let register ← alloc mark
  loadScratch (.quoted field)
  instruction .get [.register token, .register register, .scratch]
  unpackStruct ty register
  dealloc token mark.line
  return some register

def inlineCall (env : Env) (mark : Mark) (ty : Ty) (method : Method)
    (arguments : List Argument) : Inline → Emission (Option Register)
  | .expect => expectation mark arguments
  | .unary opcode =>
    applyUnary mark arguments
      (fun source register => [.register source, .register register]) opcode
  | .binary opcode =>
    applyBinary mark arguments fun first second register =>
      instruction opcode [.register first, .register second, .register register]
  | .cast shape =>
    applyUnary mark arguments
      (fun source register =>
        [.register source, .register register, .machineType shape]) .cast
  | .range => range mark arguments
  | .decimalPlaces => decimalPlaces mark arguments
  | .enumFlag =>
    applyBinary mark arguments fun value flag register => do
      instruction .and [.register value, .register flag, .register value]
      instruction .equal [.register value, .register flag, .register register]
  | .construct structName => construct env mark structName arguments
  | .arrayGet =>
    applyBinary mark arguments fun array index register =>
      instruction .get [.register array, .register register, .register index]
  | .storage namesContract typed =>
    storage env mark ty method namesContract typed arguments
  | .callHost => do
      let name ← stringArgument arguments 0 mark.line
      pushArguments (arguments.drop 1)
      hostCall name
      popResult mark ty
  | .callContract => do
      let contract ← stringArgument arguments 0 mark.line
      let name ← stringArgument arguments 1 mark.line
      pushArguments (arguments.drop 2)
      contractCall contract name
      popResult mark ty
  | .callMethod => do
      let name ← stringArgument arguments 0 mark.line
      pushArguments (arguments.drop 1)
      instruction .call [.label (.entry name)]
      popResult mark ty
  | .moduleScript => do
      let name ← moduleArgument (← argument arguments 0 mark.line) mark.line
      loadBytes mark (← artifact env name mark.line).script
  | .moduleInterface => do
      let name ← moduleArgument (← argument arguments 0 mark.line) mark.line
      loadBytes mark (← artifact env name mark.line).interface
  | .createSeries => createSeries env mark ty method arguments
  | .readToken field => readToken mark ty method field arguments

def call (env : Env) (mark : Mark) (ty : Ty) (method : Method) (arguments : List Argument) :
    Emission (Option Register) :=
  match method.means with
  | .hostCall => do
      pushArguments arguments
      hostCall method.aliasName
      popResult mark ty
  | .contractCall => do
      pushArguments arguments
      contractCall (method.contract.getD method.library) method.aliasName
      popResult mark ty
  | .localCall => do
      pushArguments arguments
      useRoutine env method.aliasName
      instruction .call [.label (.named method.aliasName)]
      popResult mark ty
  | .inline operation => inlineCall env mark ty method arguments operation

end Covenant.Emission
