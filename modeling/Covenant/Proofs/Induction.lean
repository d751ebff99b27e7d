import Covenant.Tree.Basic

/-!
# Induction on trees

Expressions occur in lists inside expressions.  The principle here gives, in
the case of a call, the hypothesis for each of its arguments.
-/

namespace Covenant

/-- Induction on expressions. -/
@[elab_as_elim]
theorem Expr.induction {motive : Expr → Prop}
    (literal : ∀ mark ty text, motive (.literal mark ty text))
    (constant : ∀ mark ty name text, motive (.constant mark ty name text))
    (named : ∀ mark ty id, motive (.variable mark ty id))
    (binary : ∀ mark ty op left right, motive left → motive right →
      motive (.binary mark ty op left right))
    (not : ∀ mark ty inner, motive inner → motive (.not mark ty inner))
    (negate : ∀ mark ty inner, motive inner → motive (.negate mark ty inner))
    (cast : ∀ mark ty inner, motive inner → motive (.cast mark ty inner))
    (call : ∀ mark ty method typeArgument arguments,
      (∀ argument ∈ arguments, motive argument) →
      motive (.call mark ty method typeArgument arguments))
    (field : ∀ mark ty target name, motive target → motive (.field mark ty target name))
    (element : ∀ mark ty array index, motive array → motive index →
      motive (.element mark ty array index))
    (thisAddress : ∀ mark ty, motive (.thisAddress mark ty))
    (moduleRef : ∀ mark ty name, motive (.moduleRef mark ty name)) (expr : Expr) :
    motive expr := by
  refine @Expr.rec motive (fun arguments => ∀ argument ∈ arguments, motive argument)
    literal constant named binary not negate cast call field element thisAddress moduleRef
    ?_ ?_ expr
  · intro argument member
    simp at member
  · intro first rest holds others argument member
    rcases List.mem_cons.mp member with rfl | listed
    · exact holds
    · exact others argument listed

end Covenant
