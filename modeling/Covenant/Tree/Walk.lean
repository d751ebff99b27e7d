import Covenant.Tree.Basic

/-!
# Walking a tree

The nodes of a tree in the order in which a walk meets them: a node before its
parts, and the condition of a loop before its body.  Questions about where a
variable is read or written are questions about this list.
-/

namespace Covenant

/-- A node met on a walk. -/
inductive Node where
  | statement (statement : Stmt)
  | expression (expression : Expr)

namespace Expr

mutual

/-- The expressions of a tree, each before its parts. -/
def walk : Expr → List Expr
  | expr@(.binary _ _ _ left right) => expr :: (left.walk ++ right.walk)
  | expr@(.not _ _ inner) => expr :: inner.walk
  | expr@(.negate _ _ inner) => expr :: inner.walk
  | expr@(.cast _ _ inner) => expr :: inner.walk
  | expr@(.call _ _ _ _ arguments) => expr :: walkAll arguments
  | expr@(.field _ _ target _) => expr :: target.walk
  | expr@(.element _ _ array index) => expr :: (array.walk ++ index.walk)
  | expr@(.literal ..) => [expr]
  | expr@(.constant ..) => [expr]
  | expr@(.variable ..) => [expr]
  | expr@(.thisAddress ..) => [expr]
  | expr@(.moduleRef ..) => [expr]

def walkAll : List Expr → List Expr
  | [] => []
  | first :: rest => first.walk ++ walkAll rest

end

def nodes (expr : Expr) : List Node :=
  expr.walk.map .expression

def reads (target : VarId) : Expr → Bool
  | .variable _ _ id => id == target
  | _ => false

end Expr

def optionalNodes : Option Expr → List Node
  | none => []
  | some expr => expr.nodes

namespace Selector

def nodes : Selector → List Node
  | .index position => position.nodes
  | _ => []

end Selector

namespace Stmt

mutual

/-- The nodes of a statement, each before its parts. -/
def nodes : Stmt → List Node
  | stmt@(.declare _ _ value) => .statement stmt :: optionalNodes value
  | stmt@(.assign _ _ selector value) => .statement stmt :: (selector.nodes ++ value.nodes)
  | stmt@(.call _ invoked) => .statement stmt :: invoked.nodes
  | stmt@(.branch _ condition ⟨_, body⟩ none) =>
    .statement stmt :: (condition.nodes ++ allNodes body)
  | stmt@(.branch _ condition ⟨_, body⟩ (some ⟨_, otherwise⟩)) =>
    .statement stmt :: (condition.nodes ++ allNodes body ++ allNodes otherwise)
  | stmt@(.whileLoop _ condition ⟨_, body⟩) =>
    .statement stmt :: (condition.nodes ++ allNodes body)
  | stmt@(.doLoop _ ⟨_, body⟩ condition) =>
    .statement stmt :: (condition.nodes ++ allNodes body)
  | stmt@(.forLoop _ _ init condition step ⟨_, body⟩) =>
    .statement stmt :: (init.nodes ++ condition.nodes ++ step.nodes ++ allNodes body)
  | stmt@(.switch _ value cases none) => .statement stmt :: (value.nodes ++ caseNodes cases)
  | stmt@(.switch _ value cases (some ⟨_, default⟩)) =>
    .statement stmt :: (value.nodes ++ caseNodes cases ++ allNodes default)
  | stmt@(.giveBack _ value) => .statement stmt :: optionalNodes value
  | stmt@(.throw _ value) => .statement stmt :: value.nodes
  | stmt@(.leave _) => [.statement stmt]
  | stmt@(.next _) => [.statement stmt]
  | stmt@(.emit _ _ _ address value) => .statement stmt :: (address.nodes ++ value.nodes)
  | stmt@(.assembly _ _) => [.statement stmt]

def allNodes : List Stmt → List Node
  | [] => []
  | first :: rest => first.nodes ++ allNodes rest

def caseNodes : List Case → List Node
  | [] => []
  | ⟨value, ⟨_, body⟩⟩ :: rest => value.nodes ++ allNodes body ++ caseNodes rest

end

mutual

/-- Every way through the statement ends in a return or a throw. -/
def alwaysReturns : Stmt → Bool
  | .giveBack _ _ => true
  | .throw _ _ => true
  | .branch _ _ ⟨_, body⟩ (some ⟨_, otherwise⟩) => allReturn body && allReturn otherwise
  | .switch _ _ cases (some ⟨_, default⟩) => allReturn default && casesReturn cases
  | _ => false

/--
Every way through the statements ends in a return or a throw.  What follows a
jump out of a loop is never reached.
-/
def allReturn : List Stmt → Bool
  | [] => false
  | first :: rest => !first.isLoopJump && (first.alwaysReturns || allReturn rest)

/-- Every way through every case ends in a return or a throw. -/
def casesReturn : List Case → Bool
  | [] => true
  | ⟨_, ⟨_, body⟩⟩ :: rest => allReturn body && casesReturn rest

end

mutual

/-- The scopes that a statement opens, from the outside in. -/
def scopes : Stmt → List ScopeId
  | .branch _ _ ⟨scope, body⟩ none => scope :: allScopes body
  | .branch _ _ ⟨scope, body⟩ (some ⟨other, otherwise⟩) =>
    scope :: allScopes body ++ other :: allScopes otherwise
  | .whileLoop _ _ ⟨scope, body⟩ => scope :: allScopes body
  | .doLoop _ ⟨scope, body⟩ _ => scope :: allScopes body
  | .forLoop _ outer init _ step ⟨scope, body⟩ =>
    outer :: init.scopes ++ step.scopes ++ scope :: allScopes body
  | .switch _ _ cases none => caseScopes cases
  | .switch _ _ cases (some ⟨scope, default⟩) => caseScopes cases ++ scope :: allScopes default
  | _ => []

def allScopes : List Stmt → List ScopeId
  | [] => []
  | first :: rest => first.scopes ++ allScopes rest

def caseScopes : List Case → List ScopeId
  | [] => []
  | ⟨_, ⟨scope, body⟩⟩ :: rest => scope :: allScopes body ++ caseScopes rest

end

end Stmt

namespace Node

def assigns (target : VarId) : Node → Bool
  | .statement stmt => stmt.assigned? == some target
  | .expression _ => false

def initializes (target : VarId) : Node → Bool
  | .statement stmt => stmt.initialized? == some target
  | .expression _ => false

def uses (target : VarId) : Node → Bool
  | .expression expr => expr.reads target
  | node => node.assigns target

end Node

namespace BlockOf

def nodes (block : Block) : List Node :=
  Stmt.allNodes block.statements

def uses (block : Block) (target : VarId) : Bool :=
  block.nodes.any (Node.uses target)

def assigns (block : Block) (target : VarId) : Bool :=
  block.nodes.any (Node.assigns target)

def initializations (block : Block) (target : VarId) : Nat :=
  block.nodes.countP (Node.initializes target)

def alwaysReturns (block : Block) : Bool :=
  Stmt.allReturn block.statements

def scopes (block : Block) : List ScopeId :=
  block.scope :: Stmt.allScopes block.statements

end BlockOf

end Covenant
