import Covenant.Emission.Call

/-!
# Emitting expressions

The code of an expression leaves its value in a register of its own, which
whoever asked for the value gives back.
-/

namespace Covenant.Emission

def opcodeOf (op : BinaryOp) (kind : Ty.Kind) : Opcode :=
  match op with
  | .add => if kind = .string ∨ kind = .bytes then .cat else .add
  | .sub => .sub
  | .mul => .mul
  | .div => .div
  | .mod => .mod
  | .shl => .shl
  | .shr => .shr
  | .and => .and
  | .or => .or
  | .xor => .xor
  | .equal => .equal
  | .less => .lt
  | .lessEqual => .lte
  | .greater => .gt
  | .greaterEqual => .gte

/-- One, scaled to a number of places. -/
def scale (places : Nat) : Operand :=
  .literal (String.ofList ('1' :: List.replicate places '0'))

/-- Turn the text in a register into an object of the host. -/
def makeObject (register : Register) (constructor : String) : Emission Unit := do
  instruction .push [.register register]
  hostCall constructor
  instruction .pop [.register register]

def loadLiteral (register : Register) (kind : Ty.Kind) (text : String) : Emission Unit :=
  match kind with
  | .address => do
      instruction .load [.register register, .quoted text]
      makeObject register "Address()"
  | .hash => do
      instruction .load [.register register, .quoted text]
      makeObject register "Hash()"
  | .enum => do
      instruction .load [.register register, .literal text]
      instruction .cast [.register register, .register register, .machineType .enum]
  | .method => instruction .load [.register register, .quoted text]
  | _ => instruction .load [.register register, .literal text]

def literal (mark : Mark) (ty : Ty) (text : String) : Emission Register := do
  let register ← alloc mark
  loadLiteral register ty.kind text
  return register

/-- The code of an operation with one operand, which `inner` computes. -/
def unary (mark : Mark) (opcode : Opcode) (inner : Emission Register)
    (extra : List Operand) : Emission Register := do
  let source ← inner
  let register ← alloc mark
  instruction opcode ([.register source, .register register] ++ extra)
  dealloc source mark.line
  return register

/-- Scale the decimal in a register up before it is divided. -/
def scaleDividend (op : BinaryOp) (places : Option Nat) (register : Register) :
    Emission Unit :=
  match op, places with
  | .div, some places => do
      loadScratch (scale places)
      instruction .mul [.register register, .scratch, .register register]
  | _, _ => return ()

/-- Scale the decimal in a register down after a multiplication. -/
def scaleProduct (op : BinaryOp) (places : Option Nat) (register : Register) :
    Emission Unit :=
  match op, places with
  | .mul, some places => do
      loadScratch (scale places)
      instruction .div [.register register, .scratch, .register register]
  | _, _ => return ()

/-- The code of an operator; the left operand has the type `ty`. -/
def binary (mark : Mark) (op : BinaryOp) (ty : Ty) (left right : Emission Register) :
    Emission Register := do
  let register ← alloc mark
  let first ← left
  let second ← right
  scaleDividend op ty.places? first
  instruction (opcodeOf op ty.kind) [.register first, .register second, .register register]
  scaleProduct op ty.places? register
  dealloc second mark.line
  dealloc first mark.line
  return register

def fieldValue (mark : Mark) (target : Emission Register) (name : String) :
    Emission Register := do
  let source ← target
  let register ← alloc mark
  loadScratch (.quoted name)
  instruction .get [.register source, .register register, .scratch]
  dealloc source mark.line
  return register

def elementValue (mark : Mark) (array index : Emission Register) : Emission Register := do
  let source ← array
  let key ← index
  let register ← alloc mark
  instruction .get [.register source, .register register, .register key]
  dealloc key mark.line
  dealloc source mark.line
  return register

mutual

def expression (env : Env) : Expr → Emission Register
  | .literal mark ty text => literal mark ty text
  | .constant mark ty _ text => literal mark ty text
  | .variable mark _ id => do
      let source ← operand env id mark.line
      let register ← alloc mark
      instruction .copy [.register source, .register register]
      return register
  | .binary mark _ op left right =>
    binary mark op left.ty (expression env left) (expression env right)
  | .not mark _ inner => unary mark .not (expression env inner) []
  | .negate mark _ inner => unary mark .negate (expression env inner) []
  | .cast mark ty inner => do
      let shape ← ty.machineType
      unary mark .cast (expression env inner) [.machineType shape]
  | .call mark ty method _ written => do
      match ← call env mark ty method (arguments env written) with
      | some register => return register
      | none => fail (.semantic mark.line (.noResult method.name))
  | .field mark _ target name => fieldValue mark (expression env target) name
  | .element mark _ array index =>
    elementValue mark (expression env array) (expression env index)
  | .thisAddress mark _ => do
      let register ← alloc mark
      instruction .load [.register register, .literal (addressOf env.moduleName)]
      makeObject register "Address()"
      return register
  | .moduleRef mark _ name => do
      let artifact ← artifact env name mark.line
      let register ← alloc mark
      instruction .load [.register register, .literal (bytesLiteral artifact.script)]
      return register

def arguments (env : Env) : List Expr → List Argument
  | [] => []
  | first :: rest => { expr := first, code := expression env first } :: arguments env rest

end

end Covenant.Emission
