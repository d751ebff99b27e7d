/-!
# Operators

The operators between two operands.  The spellings `&` and `&&` are one
operator, and so are `|` and `||`.  An inequality is the negation of an
equality and has no operator of its own.
-/

namespace Covenant

inductive BinaryOp where
  | add
  | sub
  | mul
  | div
  | mod
  | shl
  | shr
  | and
  | or
  | xor
  | equal
  | less
  | lessEqual
  | greater
  | greaterEqual
deriving DecidableEq

namespace BinaryOp

def ofSpelling? : String → Option BinaryOp
  | "+" => some .add
  | "-" => some .sub
  | "*" => some .mul
  | "/" => some .div
  | "%" => some .mod
  | "<<" => some .shl
  | ">>" => some .shr
  | "&&" | "&" => some .and
  | "||" | "|" => some .or
  | "^" => some .xor
  | "==" | "!=" => some .equal
  | "<" => some .less
  | "<=" => some .lessEqual
  | ">" => some .greater
  | ">=" => some .greaterEqual
  | _ => none

/-- The spelling in front of the equals sign of a compound assignment. -/
def compoundSpelling? (assignment : String) : Option String :=
  match assignment.toList.reverse with
  | '=' :: spelling =>
    if spelling.isEmpty then none else some (String.ofList spelling.reverse)
  | _ => none

def ofAssignment? (assignment : String) : Option BinaryOp :=
  (compoundSpelling? assignment).bind ofSpelling?

/-- Operators that yield a truth value. -/
def isComparison : BinaryOp → Bool
  | equal | less | lessEqual | greater | greaterEqual => true
  | _ => false

/-- Operators on truth values or bits. -/
def isLogical : BinaryOp → Bool
  | .and | .or | .xor => true
  | _ => false

def symbol : BinaryOp → String
  | add => "+"
  | sub => "-"
  | mul => "*"
  | div => "/"
  | mod => "%"
  | shl => "<<"
  | shr => ">>"
  | .and => "&&"
  | .or => "||"
  | .xor => "^"
  | equal => "=="
  | less => "<"
  | lessEqual => "<="
  | greater => ">"
  | greaterEqual => ">="

end BinaryOp

end Covenant
