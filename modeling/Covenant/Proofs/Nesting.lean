import Covenant.Proofs.EmittedFlow

/-!
# Constructs that need another one around them

A jump out of a loop or to its next round needs a loop around it, and a case
needs its switch.  The first is checked when code is emitted, so code that is
emitted without an error has it; the second is so in the flow of any statement.
-/

namespace Covenant

namespace Flow

variable {Note Value : Type}

/-- Cases stand in the switch that they belong to, which is the number `switch?`. -/
def Wired (switch? : Option Nat) : Flow Note Value → Prop
  | .seq first second => first.Wired none ∧ second.Wired none
  | .within _ _ _ body => body.Wired none
  | .branch _ _ body other => body.Wired none ∧ other.Wired none
  | .whileLoop _ _ _ body => body.Wired none
  | .doLoop _ _ body _ => body.Wired none
  | .forLoop _ _ _ body step => body.Wired none ∧ step.Wired none
  | .switch mark _ arms => arms.Wired (some mark.id)
  | .arm mark _ _ body others =>
    switch? = some mark.id ∧ body.Wired none ∧ others.Wired switch?
  | _ => True

variable {OtherNote OtherValue : Type} (note : Note → OtherNote) (value : Value → OtherValue)

@[simp]
theorem enclosed_map (flow : Flow Note Value) (inLoop : Bool) :
    (flow.map note value).Enclosed inLoop ↔ flow.Enclosed inLoop := by
  induction flow generalizing inLoop with
  | _ => cases inLoop <;> simp_all [Flow.map, Enclosed]

@[simp]
theorem wired_map (flow : Flow Note Value) (switch? : Option Nat) :
    (flow.map note value).Wired switch? ↔ flow.Wired switch? := by
  induction flow generalizing switch? with
  | _ => simp_all [Flow.map, Wired]

end Flow

open Emission

/-- Code that is emitted without an error jumps out of loops only. -/
theorem Flow.enclosed_of_ends {env : Env} {exit : Label} (flow : Plan) {loops : LoopStack}
    {subject : Register} {before after : Generator}
    (ends : (flow.code env exit loops subject).Ends before () after) :
    flow.Enclosed (!loops.isEmpty) := by
  rcases exists_trace (fun _ => none) flow [] ends with ⟨-, -, -, -, -, enclosed⟩
  exact enclosed

namespace Stmt

/-- In the flow of statements every case stands in its switch. -/
theorem wired_flow : (∀ stmt : Stmt, stmt.flow.Wired none) ∧
    (∀ (mark : Mark) (index : Nat) (last : Plan) (cases : List Case),
      last.Wired (some mark.id) → (caseFlow mark index last cases).Wired (some mark.id)) ∧
    ∀ body : List Stmt, (allFlow body).Wired none := by
  apply Stmt.flow.mutual_induct
  case case1 => rintro mark target (_ | value) <;> trivial
  case case3 =>
    -- A discarded expression is one deed, or a test with nothing after it.
    intro mark expr
    refine ⟨trivial, ?_⟩
    unfold Plan.discard
    split <;> trivial
  case case4 => exact fun mark condition scope body inner => ⟨trivial, inner, trivial⟩
  case case5 =>
    exact fun mark condition scope body otherScope other one two => ⟨trivial, one, two⟩
  case case6 => exact fun mark condition scope body inner => ⟨trivial, inner⟩
  case case7 => exact fun mark scope body condition inner => ⟨trivial, inner⟩
  case case8 =>
    intro mark outer init condition step scope body first inner last
    exact ⟨trivial, first, inner, last⟩
  -- The arms of a switch, and behind them what is done if none of them fits.
  case case9 => exact fun mark value cases arms => ⟨trivial, arms trivial⟩
  case case10 => exact fun mark value cases scope body inner arms => ⟨trivial, arms inner⟩
  case case17 => exact fun mark index last wired => wired
  case case18 =>
    exact fun mark index last value scope body rest inner later wired =>
      ⟨rfl, inner, later wired⟩
  case case20 => exact fun first rest one later => ⟨one, later⟩
  all_goals
    intros
    trivial

end Stmt

end Covenant
