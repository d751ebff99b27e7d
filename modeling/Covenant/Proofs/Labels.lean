import Covenant.Proofs.LoopRegisters

/-!
# The labels of a flow

Every construct that jumps places labels of its own.  The labels carry the
number of the construct, so that constructs with different numbers place
different labels.
-/

namespace Covenant

/-- The number of the node that a label belongs to; nodes are counted from one. -/
def Label.owner : Label → Nat
  | .joined node | .otherwise node | .loopStart node | .loopContinue node | .loopEnd node
  | .caseSkip node _ | .caseEnd node | .expectation node => node
  | .entry _ | .exit _ | .named _ => 0

namespace Flow

variable {Note Value : Type}

/-- The labels that a flow places, in the order of its code. -/
def labels : Flow Note Value → List Label
  | .seq first second => first.labels ++ second.labels
  | .within _ _ _ body => body.labels
  | .expect mark _ _ => [.expectation mark.id]
  | .branch mark _ body other =>
    body.labels ++ .otherwise mark.id :: (other.labels ++ [.joined mark.id])
  | .whileLoop _ mark _ body => .loopStart mark.id :: (body.labels ++ [.loopEnd mark.id])
  | .doLoop _ mark body _ =>
    .loopStart mark.id :: (body.labels ++ [.loopContinue mark.id, .loopEnd mark.id])
  | .forLoop _ mark _ body step =>
    .loopStart mark.id :: (body.labels ++ .loopContinue mark.id ::
      (step.labels ++ [.loopEnd mark.id]))
  | .switch mark _ arms => arms.labels ++ [.caseEnd mark.id]
  | .arm mark index _ body others => body.labels ++ .caseSkip mark.id index :: others.labels
  | _ => []

variable {OtherNote OtherValue : Type} (note : Note → OtherNote) (value : Value → OtherValue)

/-! ## What does not depend on the code -/

@[simp]
theorem labels_map (flow : Flow Note Value) : (flow.map note value).labels = flow.labels := by
  induction flow with
  | _ => simp_all [Flow.map, labels]

@[simp]
theorem assigned_map (flow : Flow Note Value) :
    (flow.map note value).assigned = flow.assigned := by
  induction flow with
  | _ => simp_all [Flow.map, assigned]

@[simp]
theorem deeds_map (flow : Flow Note Value) : (flow.map note value).deeds = flow.deeds := by
  induction flow with
  | _ => simp_all [Flow.map, deeds]

@[simp]
theorem scoped_map {tree : ScopeTree} (flow : Flow Note Value) (enclosing : List ScopeId) :
    (flow.map note value).Scoped tree enclosing ↔ flow.Scoped tree enclosing := by
  induction flow generalizing enclosing with
  | _ => simp_all [Flow.map, Scoped]

end Flow

end Covenant
