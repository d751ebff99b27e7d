import Covenant.Module.Basic
import Covenant.Tree.Walk

/-!
# Well-typed trees

A node of a tree `Fits` if its type and the types of its parts agree with what
it refers to: the variables, the structs, the methods and the events that make
up a `Vocabulary`.  The judgement looks at one node at a time, so a tree is
well typed when every node of its walk fits.

While a source is read its vocabulary only grows at the end, and a node that
fits goes on to fit.
-/

namespace Covenant

variable {returns : Ty}

/-- What the nodes of a body can refer to. -/
structure Vocabulary where
  /-- The variables by number. -/
  declarations : List Variable
  declared : Declared
  /-- The methods of the module itself. -/
  own : List Method
  events : List Event

/-- Everything that was known stays known, in the same place. -/
structure Vocabulary.Grows (before after : Vocabulary) : Prop where
  declarations : before.declarations <+: after.declarations
  structs : before.declared.structs <+: after.declared.structs
  own : before.own <+: after.own
  events : before.events <+: after.events

/-- The type of the part of a variable that a selector stands for. -/
def Vocabulary.partType? (known : Vocabulary) (target : VarId) (selector : Selector) :
    Option Ty := do
  let declaration ← known.declarations[target]?
  match selector with
  | .whole => return declaration.ty
  | .field name => known.declared.fieldType? declaration.ty name
  | .index _ => declaration.ty.element?

theorem Vocabulary.partType?_eq {known : Vocabulary} {target : VarId} {declaration : Variable}
    (found : known.declarations[target]? = some declaration) (selector : Selector) :
    known.partType? target selector =
      match selector with
      | .whole => some declaration.ty
      | .field name => known.declared.fieldType? declaration.ty name
      | .index _ => declaration.ty.element? := by
  cases selector <;> simp [partType?, found]

/-- The method belongs to the module that calls it. -/
def Method.IsOwn (method : Method) : Prop :=
  method.means = .localCall ∧ method.library = "this"

instance (method : Method) : Decidable method.IsOwn :=
  inferInstanceAs (Decidable (method.means = .localCall ∧ method.library = "this"))

/-! ## The judgement -/

/-- There are as many arguments as parameters, and each is accepted by its parameter. -/
def Suitable (parameters : List Parameter) (arguments : List Expr) : Prop :=
  arguments.length = parameters.length ∧
    ∀ pair ∈ parameters.zip arguments, pair.1.ty.accepts pair.2.ty

/-- The type of an expression agrees with its parts and with what it refers to. -/
def Expr.Fits (known : Vocabulary) : Expr → Prop
  | .literal .. | .constant .. | .thisAddress .. | .moduleRef .. => True
  | .variable _ ty id =>
    ∃ declaration ∈ known.declarations[id]?,
      declaration.ty = ty ∧ declaration.collection = none
  | .binary _ ty op left right =>
    left.ty = right.ty ∧ ty = if op.isComparison then .bool else left.ty
  | .not _ ty inner => inner.ty = .bool ∧ ty = .bool
  | .negate _ ty inner =>
    (inner.ty.kind = .number ∨ inner.ty.kind = .decimal) ∧ ty = inner.ty
  | .cast _ ty inner => inner.ty.canCast ty
  | .call _ _ method _ arguments =>
    (method.isUntyped = false → Suitable method.parameters arguments) ∧
      (method.IsOwn → method ∈ known.own)
  | .field _ ty target name => known.declared.fieldType? target.ty name = some ty
  | .element _ ty array index =>
    array.ty.element? = some ty ∧ Ty.number.accepts index.ty

/-- An index is accepted as a number. -/
def Selector.Fits : Selector → Prop
  | .index position => Ty.number.accepts position.ty
  | _ => True

/-- The values of a statement are accepted where they go, in a body that gives back a type. -/
def Stmt.Fits (known : Vocabulary) (returns : Ty) : Stmt → Prop
  | .declare _ target value =>
    ∃ declaration ∈ known.declarations[target]?,
      ∀ expr ∈ value, declaration.ty.accepts expr.ty
  | .assign _ target selector value =>
    selector.Fits ∧ ∃ ty ∈ known.partType? target selector, ty.accepts value.ty
  | .branch _ condition _ _ | .whileLoop _ condition _ | .doLoop _ _ condition
  | .forLoop _ _ _ condition _ _ => condition.ty = .bool
  | .switch _ value cases _ => ∀ arm ∈ cases, value.ty.accepts arm.value.ty
  | .giveBack _ none => returns = .none
  | .giveBack _ (some value) => returns.accepts value.ty
  | .throw _ value => Ty.string.accepts value.ty
  | .emit _ name number address value =>
    Ty.address.accepts address.ty ∧
      ∃ event ∈ Event.find? known.events name,
        event.number = number ∧ event.ty.accepts value.ty
  | .call .. | .leave _ | .next _ | .assembly .. => True

/-- A node of a body fits. -/
def Node.Fits (known : Vocabulary) (returns : Ty) : Node → Prop
  | .statement made => made.Fits known returns
  | .expression expr => expr.Fits known

/-- Every node of a body fits. -/
def BlockOf.WellTyped (known : Vocabulary) (returns : Ty) (block : Block) : Prop :=
  ∀ node ∈ block.nodes, node.Fits known returns

/-! ## Acceptance -/

/-- A value of the declared type itself is always accepted. -/
@[simp]
theorem Ty.accepts_self (ty : Ty) : ty.accepts ty = true := by
  induction ty with
  | array element ih => simpa [Ty.accepts] using ih
  | _ => simp [Ty.accepts]

/-! ## Statements and their parts -/

namespace Stmt

theorem allNodes_append (first second : List Stmt) :
    allNodes (first ++ second) = allNodes first ++ allNodes second := by
  induction first with
  | nil => rfl
  | cons head tail ih =>
    rw [List.cons_append, allNodes, ih, ← List.append_assoc]
    rfl

end Stmt

/-! ## Growing vocabularies -/

namespace Vocabulary.Grows

variable {before between after : Vocabulary} (grows : before.Grows after)

include grows

/-- A variable keeps its number. -/
theorem declaration? {id : VarId} {declaration : Variable}
    (found : before.declarations[id]? = some declaration) :
    after.declarations[id]? = some declaration := by
  rcases List.getElem?_eq_some_iff.mp found with ⟨bound, rfl⟩
  exact List.prefix_iff_getElem?.mp grows.declarations id bound

/-- The fields of a struct do not change. -/
theorem fieldType? {ty : Ty} {name : String} {found : Ty}
    (typed : before.declared.fieldType? ty name = some found) :
    after.declared.fieldType? ty name = some found := by
  simp only [Declared.fieldType?, Option.bind_eq_bind, Option.bind_eq_some_iff] at typed ⊢
  rcases typed with ⟨decl, known, rest⟩
  refine ⟨decl, ?_, rest⟩
  unfold Declared.structOf? at known ⊢
  split at known
  · exact grows.structs.find?_eq_some known
  · cases known

theorem partType? {target : VarId} {selector : Selector} {found : Ty}
    (typed : before.partType? target selector = some found) :
    after.partType? target selector = some found := by
  simp only [Vocabulary.partType?, Option.bind_eq_bind, Option.bind_eq_some_iff] at typed ⊢
  rcases typed with ⟨declaration, known, rest⟩
  refine ⟨declaration, grows.declaration? known, ?_⟩
  cases selector with
  | field name => exact grows.fieldType? rest
  | whole => exact rest
  | index position => exact rest

theorem exprFits {expr : Expr} (fits : expr.Fits before) : expr.Fits after := by
  cases expr with
  | «variable» mark ty id =>
    rcases fits with ⟨declaration, known, typed⟩
    exact ⟨declaration, grows.declaration? known, typed⟩
  | call mark ty method typeArgument arguments =>
    exact ⟨fits.1, fun isOwn => grows.own.subset (fits.2 isOwn)⟩
  | field mark ty target name => exact grows.fieldType? fits
  | _ => exact fits

theorem stmtFits {statement : Stmt} (fits : statement.Fits before returns) :
    statement.Fits after returns := by
  cases statement with
  | declare mark target value =>
    rcases fits with ⟨declaration, known, typed⟩
    exact ⟨declaration, grows.declaration? known, typed⟩
  | assign mark target selector value =>
    rcases fits with ⟨indexed, ty, known, typed⟩
    exact ⟨indexed, ty, grows.partType? known, typed⟩
  | giveBack mark value => cases value <;> exact fits
  | emit mark name number address value =>
    rcases fits with ⟨addressed, event, known, typed⟩
    exact ⟨addressed, event, grows.events.find?_eq_some known, typed⟩
  | _ => exact fits

/-- A node that fits goes on to fit. -/
theorem nodeFits {node : Node} (fits : node.Fits before returns) : node.Fits after returns := by
  cases node with
  | statement statement => exact grows.stmtFits fits
  | expression expr => exact grows.exprFits fits

theorem wellTyped {block : Block} (typed : block.WellTyped before returns) :
    block.WellTyped after returns :=
  fun node member => grows.nodeFits (typed node member)

end Vocabulary.Grows

end Covenant
