import Covenant.Proofs.Induction
import Covenant.Tree.Walk

/-!
# The arguments that a call reads

An operation that is written out at the place of its call reads some of the
arguments one by one, and those must be there.  An expression is supplied if
all its calls have the arguments that they read.
-/

namespace Covenant

/-- The number of arguments that an operation reads one by one. -/
def Inline.needs : Inline → Nat
  | .unary _ | .cast _ | .decimalPlaces | .callHost | .callMethod | .moduleScript
  | .moduleInterface | .createSeries => 1
  | .expect | .binary _ | .enumFlag | .arrayGet | .callContract => 2
  | .range => 3
  | .construct _ | .storage .. | .readToken _ => 0

/-- The number of arguments that a call of the method reads one by one. -/
def Method.needs (method : Method) : Nat :=
  match method.means with
  | .inline operation => operation.needs
  | _ => 0

/-- If the expression is a call, then it has the arguments that it reads. -/
def Expr.hasArguments : Expr → Bool
  | .call _ _ method _ arguments => method.needs ≤ arguments.length
  | _ => true

/-- The expression reads the variable, itself or in one of its parts. -/
def Expr.Reads (expr : Expr) (id : VarId) : Prop :=
  ∃ part ∈ expr.walk, part.reads id = true

namespace Expr

/-- The expressions that an expression is made of. -/
def children : Expr → List Expr
  | .binary _ _ _ left right => [left, right]
  | .not _ _ inner | .negate _ _ inner | .cast _ _ inner => [inner]
  | .call _ _ _ _ arguments => arguments
  | .field _ _ target _ => [target]
  | .element _ _ array index => [array, index]
  | .literal .. | .constant .. | .variable .. | .thisAddress .. | .moduleRef .. => []

theorem mem_walkAll {part : Expr} {exprs : List Expr} :
    part ∈ walkAll exprs ↔ ∃ expr ∈ exprs, part ∈ expr.walk := by
  induction exprs with
  | nil => simp [walkAll]
  | cons first rest ih => simp [walkAll, ih]

/-- A walk meets the expression and what is met on the walks over its children. -/
theorem mem_walk {part expr : Expr} :
    part ∈ expr.walk ↔ part = expr ∨ ∃ child ∈ expr.children, part ∈ child.walk := by
  cases expr <;> simp [walk, children, mem_walkAll]

/-- What holds of an expression if it holds of its children holds of every expression. -/
theorem byChildren {motive : Expr → Prop}
    (step : ∀ expr : Expr, (∀ child ∈ expr.children, motive child) → motive expr)
    (expr : Expr) : motive expr := by
  induction expr using Expr.induction with
  | literal | constant | named | thisAddress | moduleRef =>
    exact step _ (fun child member => nomatch member)
  | binary _ _ _ left right holdsLeft holdsRight | element _ _ left right holdsLeft holdsRight =>
    exact step _ (List.forall_mem_cons.mpr ⟨holdsLeft, List.forall_mem_singleton.mpr holdsRight⟩)
  | not _ _ inner holds | negate _ _ inner holds | cast _ _ inner holds | field _ _ inner _ holds =>
    exact step _ (List.forall_mem_singleton.mpr holds)
  | call _ _ _ _ arguments holds => exact step _ holds

theorem self_mem_walk (expr : Expr) : expr ∈ expr.walk :=
  mem_walk.mpr (.inl rfl)

theorem Reads.of_child {child expr : Expr} {id : VarId} (member : child ∈ expr.children)
    (reads : child.Reads id) : expr.Reads id := by
  rcases reads with ⟨part, among, found⟩
  exact ⟨part, mem_walk.mpr (.inr ⟨child, member, among⟩), found⟩

end Expr

end Covenant
