import Covenant.Callable.Method
import Covenant.Scope.Tree
import Covenant.Tree.Operator

/-!
# Syntax trees

Expressions and statements with all names resolved.  Every node carries a
`Mark`: a number of its own, from which labels are made, and its source line.
The type of an expression is the type of the value it leaves in a register.
-/

namespace Covenant

structure Mark where
  id : Nat
  line : Nat
deriving DecidableEq

inductive Expr where
  /-- The text that is loaded; strings keep their quotes and decimals are scaled. -/
  | literal (mark : Mark) (ty : Ty) (text : String)
  | constant (mark : Mark) (ty : Ty) (name text : String)
  | variable (mark : Mark) (ty : Ty) (id : VarId)
  | binary (mark : Mark) (ty : Ty) (op : BinaryOp) (left right : Expr)
  | not (mark : Mark) (ty : Ty) (inner : Expr)
  | negate (mark : Mark) (ty : Ty) (inner : Expr)
  | cast (mark : Mark) (ty : Ty) (inner : Expr)
  | call (mark : Mark) (ty : Ty) (method : Method) (typeArgument : Option Ty)
      (arguments : List Expr)
  | field (mark : Mark) (ty : Ty) (target : Expr) (name : String)
  | element (mark : Mark) (ty : Ty) (array index : Expr)
  | thisAddress (mark : Mark) (ty : Ty)
  /-- Another module, as the bytes of its script. -/
  | moduleRef (mark : Mark) (ty : Ty) (name : String)

namespace Expr

def mark : Expr → Mark
  | literal mark _ _ | constant mark _ _ _ | .variable mark _ _ | binary mark _ _ _ _
  | not mark _ _ | negate mark _ _ | cast mark _ _ | call mark _ _ _ _ | field mark _ _ _
  | element mark _ _ _ | thisAddress mark _ | moduleRef mark _ _ => mark

def ty : Expr → Ty
  | literal _ ty _ | constant _ ty _ _ | .variable _ ty _ | binary _ ty _ _ _
  | not _ ty _ | negate _ ty _ | cast _ ty _ | call _ ty _ _ _ | field _ ty _ _
  | element _ ty _ _ | thisAddress _ ty | moduleRef _ ty _ => ty

def line (expr : Expr) : Nat :=
  expr.mark.line

def literalText? : Expr → Option String
  | literal _ _ text | constant _ _ _ text => some text
  | _ => none

def isLiteral (expr : Expr) : Bool :=
  expr.literalText?.isSome

def isCall : Expr → Bool
  | call .. => true
  | _ => false

def stringText? (expr : Expr) : Option String := do
  let text ← expr.literalText?
  match text.toList with
  | '"' :: rest =>
    if rest.getLast? = some '"' then some (String.ofList rest.dropLast) else none
  | _ => none

end Expr

/-- Statements between braces, with a scope of their own. -/
structure BlockOf (Statement : Type) where
  scope : ScopeId
  statements : List Statement

structure CaseOf (Statement : Type) where
  value : Expr
  body : BlockOf Statement

/-- What part of a variable an assignment replaces. -/
inductive Selector where
  | whole
  | field (name : String)
  | index (index : Expr)

inductive Stmt where
  | declare (mark : Mark) (target : VarId) (value : Option Expr)
  /-- An assignment; compound forms are already expanded. -/
  | assign (mark : Mark) (target : VarId) (selector : Selector) (value : Expr)
  | call (mark : Mark) (call : Expr)
  | branch (mark : Mark) (condition : Expr) (body : BlockOf Stmt)
      (otherwise : Option (BlockOf Stmt))
  | whileLoop (mark : Mark) (condition : Expr) (body : BlockOf Stmt)
  | doLoop (mark : Mark) (body : BlockOf Stmt) (condition : Expr)
  /-- The scope holds the variable of the loop. -/
  | forLoop (mark : Mark) (scope : ScopeId) (init : Stmt) (condition : Expr) (step : Stmt)
      (body : BlockOf Stmt)
  | switch (mark : Mark) (value : Expr) (cases : List (CaseOf Stmt))
      (default : Option (BlockOf Stmt))
  | giveBack (mark : Mark) (value : Option Expr)
  | throw (mark : Mark) (value : Expr)
  | leave (mark : Mark)
  | next (mark : Mark)
  /-- `number` is the number that the event is known by. -/
  | emit (mark : Mark) (event : String) (number : Nat) (address value : Expr)
  | assembly (mark : Mark) (lines : List String)

abbrev Block := BlockOf Stmt

abbrev Case := CaseOf Stmt

namespace Stmt

def mark : Stmt → Mark
  | declare mark _ _ | assign mark _ _ _ | call mark _ | branch mark _ _ _
  | whileLoop mark _ _ | doLoop mark _ _ | forLoop mark _ _ _ _ _ | switch mark _ _ _
  | giveBack mark _ | throw mark _ | leave mark | next mark | emit mark _ _ _ _
  | assembly mark _ => mark

def line (statement : Stmt) : Nat :=
  statement.mark.line

/-- The variable that a statement writes, wholly or in part. -/
def assigned? : Stmt → Option VarId
  | assign _ target _ _ => some target
  | declare _ target (some _) => some target
  | _ => none

/-- The variable that a statement replaces as a whole. -/
def initialized? : Stmt → Option VarId
  | assign _ target .whole _ => some target
  | declare _ target (some _) => some target
  | _ => none

/-- The statement jumps out of, or back to the start of, its loop. -/
def isLoopJump : Stmt → Bool
  | leave _ | next _ => true
  | _ => false

end Stmt

end Covenant
