import Covenant.Tree.Walk

/-!
# Variables in reach of a body

The variables that a body can refer to: those of its own scopes, of the scopes
inside it, and of the scopes around it.
-/

namespace Covenant

namespace Node

def mark : Node → Mark
  | .statement stmt => stmt.mark
  | .expression expr => expr.mark

end Node

structure VariableUse where
  declaration : Variable
  isUsed : Bool
  isAssigned : Bool
  initializations : Nat

namespace ScopeTree

/-- The variables in reach of a body, in the order of their numbers. -/
def inReach (tree : ScopeTree) (body : Block) : List Variable :=
  let reached := tree.chain body.scope ++ body.scopes
  tree.declarations.filter fun declaration => reached.contains declaration.scope

/-- How a body treats the variables in its reach. -/
def usesIn (tree : ScopeTree) (body : Block) : List VariableUse :=
  (tree.inReach body).map fun declaration =>
    { declaration
      isUsed := body.uses declaration.id
      isAssigned := body.assigns declaration.id
      initializations := body.initializations declaration.id }

end ScopeTree

end Covenant
