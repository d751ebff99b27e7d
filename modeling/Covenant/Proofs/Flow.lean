import Covenant.Emission.Statement
import Covenant.Proofs.Moment

/-!
# The flow of control in a body

A body is a tree of simple statements that are put together by a few control
constructs.  `Flow` is that tree without the rest of the syntax: a `Deed` is a
statement that runs from its first line to its last, and a value is computed
where a construct needs one to decide how to go on.  The two parameters leave
room for what is known of the code once it has been emitted; the flow of a
statement as it is written knows nothing of this.

`Flow.code` emits a flow construct by construct.  `code_flow` says that the
code of a statement is the code of its flow, so whatever is to be said about
emitted statements can be said by induction on flows.
-/

namespace Covenant

/-- What a simple statement does. -/
inductive Deed where
  /-- Write the source line as a comment. -/
  | comment (line : Nat)
  | assign (mark : Mark) (target : VarId) (selector : Selector) (value : Expr)
  /-- Compute a value, or call something, and forget the result. -/
  | discard (line : Nat) (expr : Expr)
  | emit (line : Nat) (number : Nat) (address value : Expr)
  /-- Push what a method gives back. -/
  | result (line : Nat) (value : Option Expr)
  | raw (lines : List String)

namespace Deed

/-- The variable that a simple statement assigns. -/
def target? : Deed → Option VarId
  | .assign _ target _ _ => some target
  | _ => none

/-- A call of `expect`, with its condition and its message. -/
def expectation? : Expr → Option (Mark × Expr × Expr)
  | .call mark _ method _ (condition :: message :: _) =>
    if method.means = .inline .expect then some (mark, condition, message) else none
  | _ => none

/-- The code may not run from its first line to its last. -/
def turns : Deed → Bool
  | .discard _ expr => (expectation? expr).isSome
  | .raw _ => true
  | _ => false

end Deed

/-- Simple statements, values and the constructs that put them together. -/
inductive Flow (Note Value : Type) where
  | skip
  | simple (note : Note) (deed : Deed)
  | seq (first second : Flow Note Value)
  /-- The local variables of a scope live up to the end of its body. -/
  | within (note : Note) (scope : ScopeId) (line : Nat) (body : Flow Note Value)
  /-- Go on if the condition holds, throw the message otherwise. -/
  | expect (mark : Mark) (condition message : Value)
  | branch (mark : Mark) (condition : Value) (body other : Flow Note Value)
  | whileLoop (note : Note) (mark : Mark) (condition : Value) (body : Flow Note Value)
  | doLoop (note : Note) (mark : Mark) (body : Flow Note Value) (condition : Value)
  | forLoop (note : Note) (mark : Mark) (condition : Value) (body step : Flow Note Value)
  | switch (mark : Mark) (subject : Value) (arms : Flow Note Value)
  /-- One case of a switch and what is tried if it does not match. -/
  | arm (mark : Mark) (index : Nat) (value : Value) (body others : Flow Note Value)
  | giveBack (note : Note) (deed : Deed)
  | throw (line : Nat) (value : Value)
  | leave (line : Nat)
  | next (line : Nat)

/-- A flow as it is written. -/
abbrev Plan := Flow Unit Expr

/-! ## The flow of a statement -/

namespace Plan

/-- A simple statement. -/
def deed (deed : Deed) : Plan :=
  .simple () deed

/-- A statement whose source line is written first. -/
def commented (line : Nat) (rest : Plan) : Plan :=
  .seq (deed (.comment line)) rest

/-- The flow of an assignment that may be missing. -/
def assignment (mark : Mark) (target : VarId) : Option Expr → Plan
  | some value => deed (.assign mark target .whole value)
  | none => .skip

/-- The flow of an expression whose value is not used. -/
def discard (line : Nat) (expr : Expr) : Plan :=
  match Deed.expectation? expr with
  | some (mark, condition, message) => .expect mark condition message
  | none => deed (.discard line expr)

end Plan

namespace Stmt

mutual

/-- The flow of a statement. -/
def flow : Stmt → Plan
  | .declare mark target value => .commented mark.line (Plan.assignment mark target value)
  | .assign mark target selector value =>
    .commented mark.line (Plan.deed (.assign mark target selector value))
  | .call mark expr => .commented mark.line (Plan.discard mark.line expr)
  | .branch mark condition ⟨scope, body⟩ none =>
    .commented mark.line (.branch mark condition
      (.within () scope (Emission.lastLine body) (allFlow body)) .skip)
  | .branch mark condition ⟨scope, body⟩ (some ⟨otherScope, other⟩) =>
    .commented mark.line (.branch mark condition
      (.within () scope (Emission.lastLine body) (allFlow body))
      (.within () otherScope (Emission.lastLine other) (allFlow other)))
  | .whileLoop mark condition ⟨scope, body⟩ =>
    .commented mark.line (.whileLoop () mark condition
      (.within () scope (Emission.lastLine body) (allFlow body)))
  | .doLoop mark ⟨scope, body⟩ condition =>
    .commented mark.line (.doLoop () mark
      (.within () scope (Emission.lastLine body) (allFlow body)) condition)
  | .forLoop mark outer init condition step ⟨scope, body⟩ =>
    .commented mark.line (.within () outer mark.line (.seq init.flow (.forLoop () mark condition
      (.within () scope (Emission.lastLine body) (allFlow body)) step.flow)))
  | .switch mark value cases none =>
    .commented mark.line (.switch mark value (caseFlow mark 0 .skip cases))
  | .switch mark value cases (some ⟨scope, body⟩) =>
    .commented mark.line (.switch mark value (caseFlow mark 0
      (.within () scope (Emission.lastLine body) (allFlow body)) cases))
  | .giveBack mark value => .commented mark.line (.giveBack () (.result mark.line value))
  | .throw mark value => .commented mark.line (.throw mark.line value)
  | .leave mark => .commented mark.line (.leave mark.line)
  | .next mark => .commented mark.line (.next mark.line)
  | .emit mark _ number address value =>
    .commented mark.line (Plan.deed (.emit mark.line number address value))
  | .assembly mark lines => .commented mark.line (Plan.deed (.raw lines))

/-- The flow of statements, one after the other. -/
def allFlow : List Stmt → Plan
  | [] => .skip
  | first :: rest => .seq first.flow (allFlow rest)

/-- The flow of the cases of a switch, counted from `index`, and then of `last`. -/
def caseFlow (mark : Mark) (index : Nat) (last : Plan) : List Case → Plan
  | [] => last
  | ⟨value, ⟨scope, body⟩⟩ :: rest =>
    .arm mark index value (.within () scope (Emission.lastLine body) (allFlow body))
      (caseFlow mark (index + 1) last rest)

end

end Stmt

def BlockOf.flow (block : Block) : Plan :=
  .within () block.scope (Emission.lastLine block.statements) (Stmt.allFlow block.statements)

/-! ## The code of a flow -/

open Emission

/-- The code of a simple statement. -/
def Deed.code (env : Env) : Deed → Emission Unit
  | .comment line => annotate env line
  | .assign mark target selector value => Emission.assign env mark target selector value
  | .discard line expr => discarded env line expr
  | .emit line number address value => do
      pushExpression env value line
      pushExpression env address line
      pushValue (.natural number)
      hostCall "Runtime.Notify"
  | .result line value => pushResult env line value
  | .raw lines => rawLines lines

/-- Compare a value with the subject of a switch. -/
def Emission.comparison (env : Env) (subject : Register) (value : Expr) : Emission Register := do
  let register ← expression env value
  instruction .equal [.register subject, .register register, .register register]
  return register

/-- The code of a flow; an arm compares with the register `subject`. -/
def Flow.code {Note : Type} (env : Env) (exit : Label) (loops : LoopStack) (subject : Register) :
    Flow Note Expr → Emission Unit
  | .skip => return ()
  | .simple _ deed => deed.code env
  | .seq first second => do
      first.code env exit loops subject
      second.code env exit loops subject
  | .within _ scope line body => do
      body.code env exit loops subject
      leaveScope env scope line
  | .expect mark condition message => do
      let tested ← expression env condition
      instruction .jmpIf [.register tested, .label (.expectation mark.id)]
      let thrown ← expression env message
      instruction .throw [.register thrown]
      dealloc thrown mark.line
      label (.expectation mark.id)
      dealloc tested mark.line
  | .branch mark condition body other => do
      test env .jmpNot condition (.otherwise mark.id) mark.line
      body.code env exit loops subject
      instruction .jmp [.label (.joined mark.id)]
      label (.otherwise mark.id)
      other.code env exit loops subject
      label (.joined mark.id)
  | .whileLoop _ mark condition body => do
      label (.loopStart mark.id)
      test env .jmpNot condition (.loopEnd mark.id) mark.line
      body.code env exit (loops.enter (.loopEnd mark.id) (.loopStart mark.id)) subject
      instruction .jmp [.label (.loopStart mark.id)]
      label (.loopEnd mark.id)
  | .doLoop _ mark body condition => do
      label (.loopStart mark.id)
      body.code env exit (loops.enter (.loopEnd mark.id) (.loopContinue mark.id)) subject
      label (.loopContinue mark.id)
      test env .jmpIf condition (.loopStart mark.id) mark.line
      label (.loopEnd mark.id)
  | .forLoop _ mark condition body step => do
      label (.loopStart mark.id)
      test env .jmpNot condition (.loopEnd mark.id) mark.line
      body.code env exit (loops.enter (.loopEnd mark.id) (.loopContinue mark.id)) subject
      label (.loopContinue mark.id)
      step.code env exit loops subject
      instruction .jmp [.label (.loopStart mark.id)]
      label (.loopEnd mark.id)
  | .switch mark value arms => do
      let scrutinee ← expression env value
      arms.code env exit loops scrutinee
      label (.caseEnd mark.id)
      dealloc scrutinee mark.line
  | .arm mark index value body others => do
      let register ← comparison env subject value
      instruction .jmpNot [.register register, .label (.caseSkip mark.id index)]
      dealloc register mark.line
      body.code env exit loops subject
      instruction .jmp [.label (.caseEnd mark.id)]
      label (.caseSkip mark.id index)
      others.code env exit loops subject
  | .giveBack _ deed => do
      deed.code env
      instruction .jmp [.label exit]
  | .throw line value => do
      let register ← expression env value
      instruction .throw [.register register]
      dealloc register line
  | .leave line => jumpTo loops.breakLabel? (.outsideLoop line "break")
  | .next line => jumpTo loops.continueLabel? (.outsideLoop line "continue")

/-! ## Statements and their flows -/

/-- The code of an expression whose value is not used. -/
theorem discard_code (env : Env) (exit : Label) (loops : LoopStack) (subject : Register)
    (line : Nat) (expr : Expr) :
    (Plan.discard line expr).code env exit loops subject = discarded env line expr := by
  unfold Plan.discard
  cases turning : Deed.expectation? expr with
  | none => rfl
  | some parts =>
    unfold Deed.expectation? at turning
    split at turning
    · split at turning
      · rename_i means
        cases turning
        simp [Flow.code, discarded, call, means, inlineCall, expectation, arguments, compute,
          argument]
        rfl
      · cases turning
    · cases turning

/-- What follows the cases of a switch comes after their code. -/
theorem caseFlow_code (env : Env) (exit : Label) (loops : LoopStack) (subject : Register)
    (mark : Mark) (index : Nat) (last : Plan) (cases : List Case) :
    (Stmt.caseFlow mark index last cases).code env exit loops subject = (do
      (Stmt.caseFlow mark index .skip cases).code env exit loops subject
      last.code env exit loops subject) := by
  induction cases generalizing index with
  | nil => simp [Stmt.caseFlow, Flow.code]
  | cons first rest ih =>
    rw [Stmt.caseFlow, Flow.code, ih]
    simp [Stmt.caseFlow, Flow.code]

/-- The code, with a frame that is as it was. -/
def Emission.keeping (frame : Frame) (code : Emission Unit) : Emission (Unit × Frame) := do
  code
  return ((), frame)

/-- Behind the body of a loop the frame is as it was. -/
theorem inLoop_keeping {code : Framed Unit} {inner : Emission Unit} {loops : LoopStack}
    {exit? : Option Label} (breakLabel continueLabel : Label)
    (keeps : code.run ⟨loops.enter breakLabel continueLabel, exit?⟩ =
      keeping ⟨loops.enter breakLabel continueLabel, exit?⟩ inner) :
    (inLoop breakLabel continueLabel code).run ⟨loops, exit?⟩ = keeping ⟨loops, exit?⟩ inner := by
  simp only [inLoop, StateT.run_bind, StateT.run_modify, pure_bind, keeps]
  simp [keeping, LoopStack.enter, LoopStack.leave]

theorem within_keeping {env : Env} {exit : Label} {loops : LoopStack} {subject : Register}
    {body : List Stmt} (scope : ScopeId) (line : Nat)
    (keeps : (statements env body).run ⟨loops, some exit⟩ =
      keeping ⟨loops, some exit⟩ ((Stmt.allFlow body).code env exit loops subject)) :
    (do statements env body; leaveScope env scope line : Framed Unit).run ⟨loops, some exit⟩ =
      keeping ⟨loops, some exit⟩ ((Flow.within () scope line (Stmt.allFlow body)).code env exit
        loops subject) := by
  simp [keeping, Flow.code, keeps]

/-- In a method, the code of statements is that of their flow, and the frame is kept. -/
theorem code_flow (env : Env) (exit : Label) :
    (∀ (stmt : Stmt) (loops : LoopStack) (subject : Register),
      (statement env stmt).run ⟨loops, some exit⟩ =
        keeping ⟨loops, some exit⟩ (stmt.flow.code env exit loops subject)) ∧
    (∀ (mark : Mark) (index : Nat) (_ : Plan) (cases : List Case) (loops : LoopStack)
      (subject : Register), (caseCode env mark subject index cases).run ⟨loops, some exit⟩ =
        keeping ⟨loops, some exit⟩
          ((Stmt.caseFlow mark index .skip cases).code env exit loops subject)) ∧
    ∀ (body : List Stmt) (loops : LoopStack) (subject : Register),
      (statements env body).run ⟨loops, some exit⟩ =
        keeping ⟨loops, some exit⟩ ((Stmt.allFlow body).code env exit loops subject) := by
  apply Stmt.flow.mutual_induct
  case case1 =>
    rintro mark target (_ | value) loops subject <;>
    simp [statement, keeping, Stmt.flow, Plan.commented, Plan.deed, Plan.assignment, Flow.code,
      Deed.code]
  case case3 =>
    intro mark expr loops subject
    simp [statement, keeping, Stmt.flow, Plan.commented, Plan.deed, Flow.code, Deed.code,
      discard_code]
  case case4 =>
    intro mark condition scope body inner loops subject
    simp [statement, keeping, Stmt.flow, Plan.commented, Plan.deed, Flow.code, Deed.code,
      inner loops subject]
  case case5 =>
    intro mark condition scope body otherScope other one two loops subject
    simp [statement, keeping, Stmt.flow, Plan.commented, Plan.deed, Flow.code, Deed.code,
      one loops subject, two loops subject]
  case case6 | case7 =>
    intro mark _ _ _ inner loops subject
    simp [statement, keeping, Stmt.flow, Plan.commented, Plan.deed, Flow.code, Deed.code,
      inLoop_keeping _ _ (within_keeping _ _ (inner _ subject))]
  case case8 =>
    intro mark outer init condition step scope body first inner last loops subject
    simp [statement, keeping, Stmt.flow, Plan.commented, Plan.deed, Flow.code, Deed.code,
      first loops subject, last loops subject,
      inLoop_keeping _ _ (within_keeping _ _ (inner _ subject))]
  case case9 =>
    intro mark value cases arms loops subject
    simp [statement, keeping, Stmt.flow, Plan.commented, Plan.deed, Flow.code, Deed.code, arms]
  case case10 =>
    intro mark value cases scope body inner arms loops subject
    have unread (other : Register) : (Stmt.allFlow body).code env exit loops other =
        (Stmt.allFlow body).code env exit loops subject := by
      have both := (inner loops other).symm.trans (inner loops subject)
      simpa [keeping] using congrArg (Functor.map fun _ => ()) both
    simp [statement, keeping, Stmt.flow, Plan.commented, Plan.deed, Flow.code, Deed.code, arms,
      caseFlow_code env exit loops _ mark 0 (.within _ _ _ _), inner loops subject, unread]
  case case18 =>
    intro mark index last value scope body rest inner later loops subject
    simp [caseCode, keeping, Stmt.caseFlow, Flow.code, comparison, inner loops subject, later]
  case case20 =>
    intro first rest one later loops subject
    simp [statements, keeping, Stmt.allFlow, Flow.code, one loops subject, later loops subject]
  all_goals
    intros
    simp [statement, statements, caseCode, keeping, Stmt.flow, Stmt.allFlow, Stmt.caseFlow,
      Plan.commented, Plan.deed, Flow.code, Deed.code, jumpTo]

/-- The register that no comparison outside a switch refers to. -/
def Emission.noSubject : Register :=
  { index := 0 }

/-- The code of a block is that of its flow, and it leaves the frame as it was. -/
theorem block_keeping (env : Env) (exit : Label) (loops : LoopStack) (body : Block)
    (subject : Register) :
    (block env body).run ⟨loops, some exit⟩ =
      keeping ⟨loops, some exit⟩ (body.flow.code env exit loops subject) :=
  within_keeping _ _ ((code_flow env exit).2.2 body.statements loops subject)

theorem inMethod_eq (env : Env) (exit : Label) (body : Block) (subject : Register) :
    inMethod env exit body = body.flow.code env exit [] subject := by
  simp [inMethod, block_keeping env exit [] body subject, keeping]

end Covenant
