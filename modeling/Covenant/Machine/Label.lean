/-!
# Labels

Structured statements mark places in the assembly with labels.  A label is
made from the number of its node, or from the name of its method, so labels of
different nodes and purposes are different.
-/

namespace Covenant

inductive Label where
  /-- Behind both branches of a condition. -/
  | joined (node : Nat)
  /-- At the second branch of a condition. -/
  | otherwise (node : Nat)
  | loopStart (node : Nat)
  | loopContinue (node : Nat)
  | loopEnd (node : Nat)
  /-- Behind one case of a switch. -/
  | caseSkip (node index : Nat)
  | caseEnd (node : Nat)
  /-- Where an expectation that holds continues. -/
  | expectation (node : Nat)
  | entry (method : String)
  | exit (method : String)
  | named (text : String)
deriving DecidableEq

def Label.text : Label → String
  | .joined node => s!"@then_{node}"
  | .otherwise node => s!"@else_{node}"
  | .loopStart node => s!"@loop_start_{node}"
  | .loopContinue node => s!"@loop_continue_{node}"
  | .loopEnd node => s!"@loop_end_{node}"
  | .caseSkip node index => s!"@case_{node}_{index}"
  | .caseEnd node => s!"@end_case_{node}"
  | .expectation node => s!"@expect_{node}"
  | .entry method => s!"@entry_{method}"
  | .exit method => s!"@exit_{method}"
  | .named text => text

/-- The labels of a loop that `break` and `continue` jump to. -/
structure LoopLabels where
  breakLabel : Label
  continueLabel : Label
deriving DecidableEq

/-- The loops around a statement, the innermost first. -/
abbrev LoopStack := List LoopLabels

namespace LoopStack

def breakLabel? (loops : LoopStack) : Option Label :=
  loops.head?.map (·.breakLabel)

def continueLabel? (loops : LoopStack) : Option Label :=
  loops.head?.map (·.continueLabel)

def enter (loops : LoopStack) (breakLabel continueLabel : Label) : LoopStack :=
  { breakLabel, continueLabel } :: loops

def leave (loops : LoopStack) : LoopStack :=
  loops.tail

end LoopStack

end Covenant
