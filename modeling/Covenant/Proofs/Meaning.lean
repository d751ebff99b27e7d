import Covenant.Emission.Expression
import Covenant.Proofs.Arithmetic
import Mathlib.Algebra.Group.Nat.Defs

/-!
# What expressions mean

The value of an expression, said without any code.  Decimals are whole numbers
that are scaled by the places of their type, so a product is scaled down again
and a dividend is scaled up first.
-/

namespace Covenant

/-- The struct that a method constructs. -/
def Method.constructs? (method : Method) : Option String :=
  match method.means with
  | .inline (.construct name) => some name
  | _ => none

/-- Literals of the type are written as they are. -/
def Ty.isWritten (ty : Ty) : Bool :=
  match ty.kind with
  | .number | .decimal | .bool | .string | .bytes | .enum => true
  | _ => false

namespace Expr

mutual

/--
Expressions of literals, variables, operators, conversions, fields, elements
and structs, whose values depend on nothing but the variables.
-/
def isElementary : Expr → Bool
  | .literal _ ty _ | .constant _ ty _ _ => ty.isWritten
  | .variable _ _ _ => true
  | .binary _ _ _ left right => left.isElementary && right.isElementary
  | .not _ _ inner | .negate _ _ inner | .cast _ _ inner => inner.isElementary
  | .call _ _ method _ arguments => method.constructs?.isSome && allElementary arguments
  | .field _ _ target _ => target.isElementary
  | .element _ _ array index => array.isElementary && index.isElementary
  | .thisAddress _ _ | .moduleRef _ _ _ => false

/-- All of the expressions are elementary. -/
def allElementary : List Expr → Bool
  | [] => true
  | first :: rest => first.isElementary && allElementary rest

end

theorem isElementary_of_mem {expr : Expr} {exprs : List Expr}
    (elementary : allElementary exprs = true) (member : expr ∈ exprs) :
    expr.isElementary = true := by
  induction exprs with
  | nil => cases member
  | cons first rest ih =>
    rw [allElementary, Bool.and_eq_true] at elementary
    rcases List.mem_cons.mp member with rfl | later
    · exact elementary.1
    · exact ih elementary.2 later

end Expr

namespace Arithmetic

variable {Value : Type} (arithmetic : Arithmetic Value)

/-- The value of an operator on operands of a type. -/
def apply (op : BinaryOp) (ty : Ty) (left right : Value) : Option Value :=
  match op, ty with
  | .mul, .decimal places => do
      let product ← arithmetic.operator .mul left right
      arithmetic.operator .div product (arithmetic.number (10 ^ places.val))
  | .div, .decimal places => do
      let dividend ← arithmetic.operator .mul left (arithmetic.number (10 ^ places.val))
      arithmetic.operator .div dividend right
  | .add, .string | .add, .bytes => arithmetic.concatenate left right
  | op, _ => arithmetic.operator op left right

/-- The value of a literal of a type; an entry of an enum is written as a number. -/
def literalOf (ty : Ty) (text : String) : Option Value :=
  match ty.kind with
  | .enum => do arithmetic.convert .enum (← arithmetic.literal text)
  | _ => arithmetic.literal text

def convertTo (ty : Ty) (value : Value) : Option Value :=
  match ty.machineType with
  | .ok shape => arithmetic.convert shape value
  | .error _ => none

/-- Add fields to a struct, as far as there are values for them. -/
def fill (struct : Value) : List Field → List (Option Value) → Option Value
  | field :: fields, value :: values => do
      let struct ← arithmetic.put struct (arithmetic.text field.name) (← value)
      fill struct fields values
  | _, _ => some struct

mutual

/-- The value of an elementary expression, given the values of the variables. -/
def evaluate (declared : Declared) (store : VarId → Value) : Expr → Option Value
  | .literal _ ty text | .constant _ ty _ text => arithmetic.literalOf ty text
  | .variable _ _ id => some (store id)
  | .binary _ _ op left right => do
      let first ← evaluate declared store left
      let second ← evaluate declared store right
      arithmetic.apply op left.ty first second
  | .not _ _ inner => do
      arithmetic.complement (← evaluate declared store inner)
  | .negate _ _ inner => do
      arithmetic.opposite (← evaluate declared store inner)
  | .cast _ ty inner => do
      arithmetic.convertTo ty (← evaluate declared store inner)
  | .call _ _ method _ arguments => do
      let decl ← declared.struct? (← method.constructs?)
      arithmetic.fill arithmetic.empty decl.fields
        (evaluateAll declared store arguments)
  | .field _ _ target name => do
      arithmetic.get (← evaluate declared store target) (arithmetic.text name)
  | .element _ _ array index => do
      let array ← evaluate declared store array
      arithmetic.get array (← evaluate declared store index)
  | .thisAddress _ _ | .moduleRef _ _ _ => none

/-- The values of several expressions. -/
def evaluateAll (declared : Declared) (store : VarId → Value) : List Expr → List (Option Value)
  | [] => []
  | first :: rest =>
    evaluate declared store first :: evaluateAll declared store rest

end

/-! ## Operators and opcodes -/

/-- Where no decimal has to be scaled, one instruction computes the operator. -/
theorem binary_opcodeOf {op : BinaryOp} {ty : Ty}
    (unscaled : ty.places? = none ∨ op ≠ .mul ∧ op ≠ .div) (left right : Value) :
    arithmetic.binary (Emission.opcodeOf op ty.kind) left right =
      arithmetic.apply op ty left right := by
  cases op with
  | add =>
    cases ty <;> rfl
  | mul | div =>
    cases ty with
    | decimal places => simp [Ty.places?] at unscaled
    | _ => rfl
  | _ => rfl

/-- One and some zeros spell a power of ten. -/
theorem digitsValue_scale (places : Nat) :
    Text.digitsValue ('1' :: List.replicate places '0') = 10 ^ places := by
  unfold Text.digitsValue
  suffices general : ∀ value, (List.replicate places '0').foldl
      (fun value digit => value * 10 + (digit.toNat - '0'.toNat)) value = value * 10 ^ places by
    simpa using general 1
  induction places with
  | zero => simp
  | succ places ih =>
    intro value
    rw [List.replicate_succ, List.foldl_cons, ih, Nat.pow_succ]
    simp [Nat.mul_assoc, Nat.mul_comm 10]

/-- What is loaded to scale a decimal. -/
theorem constant_scale (places : Nat) :
    arithmetic.constant (Emission.scale places) = some (arithmetic.number (10 ^ places)) := by
  have digits : ('1' :: List.replicate places '0').all Text.isDigit = true := by
    simp [Text.isDigit]
  show arithmetic.literal _ = _
  rw [arithmetic.literal_digits _ (by simp) digits, digitsValue_scale]

end Arithmetic

end Covenant
