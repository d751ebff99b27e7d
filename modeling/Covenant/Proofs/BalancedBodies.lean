import Covenant.Proofs.ControlFlow
import Covenant.Proofs.StackCode
import Covenant.Proofs.StackHeights

/-!
# Bodies keep the stack balanced

Between the statements of a body and at its labels nothing is on the stack, and
at its exit there is the result, if there is one.  `body_balanced` says so for
the bodies of a program: what a body gives back is a value exactly if its type
is not none.  The value of a property is not checked for this, so a property
without a type may leave one behind.
-/

namespace Covenant

variable {returns : Ty} {module : Module} {body : Body} {before after : Nat}

open Emission

/-! ## The steps of a flow -/

namespace Emission

/-- What the calls in the lines of a step do. -/
def Step.effects (declared : Declared) : Step → List Effect
  | .deed _ task => task.effects declared
  | .figure _ value => value.expr.effects declared
  | _ => []

/-- The step leads from one height of the stack to another. -/
def Step.Lifts (exit : Label) (result before after : Nat) : Step → Prop
  | .turn written => written.line.Lifts exit result [] before after
  | .deed _ task => before = 0 ∧ after = task.left
  | _ => before = 0 ∧ after = 0

/-- The steps lead from one height of the stack to another. -/
def Chained (exit : Label) (result : Nat) : List Step → Nat → Nat → Prop
  | [], before, after => after = before
  | step :: rest, before, after =>
    ∃ between, step.Lifts exit result before between ∧ Chained exit result rest between after

variable {exit : Label} {result : Nat}

theorem Chained.append {first second : List Step} {between : Nat}
    (left : Chained exit result first before between)
    (right : Chained exit result second between after) :
    Chained exit result (first ++ second) before after := by
  induction first generalizing before with
  | nil =>
    cases left
    exact right
  | cons step rest ih =>
    rcases left with ⟨later, lifts, further⟩
    exact ⟨later, lifts, ih further⟩

theorem Chained.split {first second : List Step}
    (chained : Chained exit result (first ++ second) before after) :
    ∃ between, Chained exit result first before between ∧
      Chained exit result second between after := by
  induction first generalizing before with
  | nil => exact ⟨before, rfl, chained⟩
  | cons step rest ih =>
    rcases chained with ⟨later, lifts, further⟩
    rcases ih further with ⟨between, left, right⟩
    exact ⟨between, ⟨later, lifts, left⟩, right⟩

theorem Chained.single {step : Step} (lifts : step.Lifts exit result before after) :
    Chained exit result [step] before after :=
  ⟨after, lifts, rfl⟩

/-- The lines of the steps of a walk lead where the steps lead. -/
theorem Walk.rises {env : Env} {steps : List Step} {start finish : Generator}
    {held later : List Register} (walk : Walk env steps start held finish later)
    (runs : ∀ step ∈ steps, ∀ task, step.deed? = some task → task.turns = false)
    (chained : Chained exit result steps before after) :
    Rises exit result (steps.flatMap Step.lines) (steps.flatMap (Step.effects env.declared))
      before after := by
  induction steps generalizing start held before with
  | nil =>
    cases chained
    exact .nil _
  | cons step rest ih =>
    rcases walk.cons with ⟨between, middle, happens, lines, -, further⟩
    rcases chained with ⟨height, lifts, others⟩
    have remaining := ih further (fun step member => runs step (List.mem_cons_of_mem _ member))
      others
    refine Rises.append ?_ remaining
    have written : ∀ {Outcome : Type} {code : Emission Outcome} {outcome : Outcome} {effects},
        code.Ends start outcome between → Shifts exit result effects before height code →
        Rises exit result step.lines effects before height := by
      intro Outcome code outcome effects ends shifts
      rcases shifts _ _ _ ends with ⟨added, same, rises⟩
      rw [lines] at same
      rwa [List.append_cancel_left same]
    cases step with
    | turn turning => exact .single lifts
    | deed span task =>
      rcases lifts with ⟨rfl, rfl⟩
      have shifts := @deed_shifts exit result env task (runs _ List.mem_cons_self task rfl) 0
      rw [Nat.zero_add] at shifts
      exact written happens.2 shifts
    | figure subject value =>
      rcases lifts with ⟨rfl, rfl⟩
      exact written happens.2 (valueCode_shifts env subject value.expr 0)
    | _ =>
      rcases lifts with ⟨rfl, rfl⟩
      exact .nil 0

end Emission

namespace Flow

variable {Note Value : Type}

/-- What is given back leaves so many values, and no other simple statement leaves any. -/
def Answers (result : Nat) : Flow Note Value → Prop
  | .simple _ deed => deed.left = 0
  | .giveBack _ deed => deed.left = result
  | .seq first second => first.Answers result ∧ second.Answers result
  | .within _ _ _ body => body.Answers result
  | .branch _ _ body other => body.Answers result ∧ other.Answers result
  | .whileLoop _ _ _ body => body.Answers result
  | .doLoop _ _ body _ => body.Answers result
  | .forLoop _ _ _ body step => body.Answers result ∧ step.Answers result
  | .switch _ _ arms => arms.Answers result
  | .arm _ _ _ body others => body.Answers result ∧ others.Answers result
  | _ => True

@[simp]
theorem answers_map {OtherNote OtherValue : Type} (note : Note → OtherNote)
    (value : Value → OtherValue) (flow : Flow Note Value) (result : Nat) :
    (flow.map note value).Answers result ↔ flow.Answers result := by
  induction flow with
  | _ => simp_all [Flow.map, Answers]

end Flow

/-- The calls in the steps of a flow are those in the flow. -/
theorem Flow.effects_of_steps (declared : Declared) (emitted : EmittedFlow) (exit : Label)
    (loops : LoopStack) (subject : Register) :
    (emitted.steps exit loops subject).flatMap (Step.effects declared) =
      emitted.plan.effects declared := by
  induction emitted generalizing loops subject with
  | leave line =>
    cases broken : loops.breakLabel? <;>
      simp [Flow.steps, jumpSteps, broken, Step.effects, EmittedFlow.plan, Flow.map, Flow.effects]
  | next line =>
    cases continued : loops.continueLabel? <;>
      simp [Flow.steps, jumpSteps, continued, Step.effects, EmittedFlow.plan, Flow.map,
        Flow.effects]
  | _ => simp_all [Flow.steps, tested, Step.effects, EmittedFlow.plan, Flow.map, Flow.effects]

/-- None of the loops is left or repeated by a jump to the exit. -/
def LoopStack.Inside (exit : Label) (loops : LoopStack) : Prop :=
  ∀ labels ∈ loops, labels.breakLabel ≠ exit ∧ labels.continueLabel ≠ exit

theorem LoopStack.Inside.enter {exit breaking continuing : Label} {loops : LoopStack}
    (inside : loops.Inside exit) (leaves : breaking ≠ exit) (repeats : continuing ≠ exit) :
    (loops.enter breaking continuing).Inside exit :=
  List.forall_mem_cons.mpr ⟨⟨leaves, repeats⟩, inside⟩

namespace Emission

variable {exit : Label} {result : Nat}

theorem tested_chained (subject : Option Register) (holds : Bool) {target : Label}
    (inside : target ≠ exit) (line : Nat) (figure : Figure) :
    Chained exit result (tested subject holds target line figure) 0 0 := by
  refine ⟨0, ⟨rfl, rfl⟩, 0, ?_, 0, ⟨rfl, rfl⟩, rfl⟩
  cases holds with
  | true => exact .jumpIf _ inside
  | false => exact .jumpNot _ inside

theorem place_chained (label : Label) : Chained exit result [.turn (.place label)] 0 0 :=
  .single (Line.Lifts.label _)

theorem opens_chained (span : Span) (label : Label) :
    Chained exit result [.opens span, .turn (.place label)] 0 0 :=
  ⟨0, ⟨rfl, rfl⟩, 0, .label _, rfl⟩

theorem jumpSteps_chained {target? : Option Label} (inside : ∀ target ∈ target?, target ≠ exit) :
    Chained exit result (jumpSteps target?) 0 0 := by
  cases target? with
  | none => exact rfl
  | some target => exact .single (.jump (inside target rfl))

end Emission

/-- A flow whose results are as announced leads back to an empty stack. -/
theorem Flow.chained (name : String) (emitted : EmittedFlow) {result : Nat}
    (answers : emitted.Answers result) {loops : LoopStack} (inside : loops.Inside (.exit name))
    (subject : Register) :
    Chained (.exit name) result (emitted.steps (.exit name) loops subject) 0 0 := by
  induction emitted generalizing loops subject with
  | skip => exact rfl
  | simple span task => exact .single ⟨rfl, answers.symm⟩
  | seq first second firstIh secondIh =>
    exact (firstIh answers.1 inside subject).append (secondIh answers.2 inside subject)
  | within span scope line body ih =>
    have opening : Chained (.exit name) result [.opens span, .enter scope] 0 0 :=
      ⟨0, ⟨rfl, rfl⟩, 0, ⟨rfl, rfl⟩, rfl⟩
    exact (opening.append (ih answers inside subject)).append ⟨0, ⟨rfl, rfl⟩, 0, ⟨rfl, rfl⟩, rfl⟩
  | expect mark condition message =>
    exact ⟨0, ⟨rfl, rfl⟩, 0, .jumpIf _ nofun, 0, ⟨rfl, rfl⟩, 0, .throw _, 0, ⟨rfl, rfl⟩, 0,
      .label _, 0, ⟨rfl, rfl⟩, rfl⟩
  | branch mark condition body other bodyIh otherIh =>
    have test := @tested_chained (.exit name) result none false (.otherwise mark.id) nofun
      mark.line condition
    have turn : Chained (.exit name) result
        [.turn (.jump (.joined mark.id)), .turn (.place (.otherwise mark.id))] 0 0 :=
      ⟨0, .jump nofun, 0, .label _, rfl⟩
    refine (((test.append (bodyIh answers.1 inside subject)).append turn).append
      (otherIh answers.2 inside subject)).append (.single (Line.Lifts.label _))
  | whileLoop span mark condition body ih =>
    have test := @tested_chained (.exit name) result none false (.loopEnd mark.id) nofun
      mark.line condition
    have around : (loops.enter (.loopEnd mark.id) (.loopStart mark.id)).Inside (.exit name) :=
      inside.enter nofun nofun
    refine (((opens_chained span _).append test).append (ih answers around subject)).append ?_
    exact ⟨0, .jump nofun, 0, .label _, 0, ⟨rfl, rfl⟩, rfl⟩
  | doLoop span mark body condition ih =>
    have test := @tested_chained (.exit name) result none true (.loopStart mark.id) nofun
      mark.line condition
    have around : (loops.enter (.loopEnd mark.id) (.loopContinue mark.id)).Inside (.exit name) :=
      inside.enter nofun nofun
    refine ((((opens_chained span _).append (ih answers around subject)).append
      (place_chained _)).append test).append ?_
    exact ⟨0, .label _, 0, ⟨rfl, rfl⟩, rfl⟩
  | forLoop span mark condition body step bodyIh stepIh =>
    have test := @tested_chained (.exit name) result none false (.loopEnd mark.id) nofun
      mark.line condition
    have around : (loops.enter (.loopEnd mark.id) (.loopContinue mark.id)).Inside (.exit name) :=
      inside.enter nofun nofun
    refine (((((opens_chained span _).append test).append (bodyIh answers.1 around subject)).append
      (place_chained _)).append (stepIh answers.2 inside subject)).append ?_
    exact ⟨0, .jump nofun, 0, .label _, 0, ⟨rfl, rfl⟩, rfl⟩
  | switch mark value arms ih =>
    have computed : Chained (.exit name) result [.figure none value] 0 0 := .single ⟨rfl, rfl⟩
    refine (computed.append (ih answers inside value.register)).append ?_
    exact ⟨0, .label _, 0, ⟨rfl, rfl⟩, rfl⟩
  | arm mark index value body others bodyIh othersIh =>
    have test := @tested_chained (.exit name) result (some subject) false
      (.caseSkip mark.id index) nofun mark.line value
    have turn : Chained (.exit name) result
        [.turn (.jump (.caseEnd mark.id)), .turn (.place (.caseSkip mark.id index))] 0 0 :=
      ⟨0, .jump nofun, 0, .label _, rfl⟩
    exact ((test.append (bodyIh answers.1 inside subject)).append turn).append
      (othersIh answers.2 inside subject)
  | giveBack span task => exact ⟨task.left, ⟨rfl, rfl⟩, 0, answers ▸ .giveBack, rfl⟩
  | throw line value => exact ⟨0, ⟨rfl, rfl⟩, 0, .throw _, 0, ⟨rfl, rfl⟩, rfl⟩
  | leave line =>
    refine jumpSteps_chained fun target found => ?_
    cases loops with
    | nil => cases found
    | cons labels outer =>
      cases found
      exact (inside labels List.mem_cons_self).1
  | next line =>
    refine jumpSteps_chained fun target found => ?_
    cases loops with
    | nil => cases found
    | cons labels outer =>
      cases found
      exact (inside labels List.mem_cons_self).2

/-! ## Results -/

/-- The statement gives back a value exactly if there is something to be given back. -/
def Node.Answers (gives : Bool) : Node → Prop
  | .statement (.giveBack _ value) => value.isSome = gives
  | _ => True

instance (gives : Bool) (node : Node) : Decidable (node.Answers gives) := by
  unfold Node.Answers
  split <;> infer_instance

namespace Stmt

variable {gives : Bool}

/-- What is given back in a flow is what is given back in the statements. -/
theorem answers_flow :
    (∀ stmt : Stmt, (∀ node ∈ stmt.nodes, node.Answers gives) →
      stmt.flow.Answers gives.toNat) ∧
    (∀ (mark : Mark) (index : Nat) (last : Plan) (cases : List Case),
      last.Answers gives.toNat → (∀ node ∈ caseNodes cases, node.Answers gives) →
      (caseFlow mark index last cases).Answers gives.toNat) ∧
    ∀ body : List Stmt, (∀ node ∈ allNodes body, node.Answers gives) →
      (allFlow body).Answers gives.toNat := by
  apply Stmt.flow.mutual_induct
  case case1 => rintro mark target (_ | value) _ <;> exact ⟨rfl, by trivial⟩
  case case3 =>
    intro mark expr _
    refine ⟨rfl, ?_⟩
    unfold Plan.discard
    split <;> trivial
  case case11 =>
    rintro mark (_ | value) holds <;>
      simp_all [nodes, Node.Answers, flow, Plan.commented, Plan.deed, Flow.Answers, Deed.left]
  case case4 =>
    intro mark condition scope body inner holds
    simp only [nodes, List.forall_mem_cons, List.forall_mem_append] at holds
    exact ⟨rfl, inner holds.2.2, trivial⟩
  case case5 =>
    intro mark condition scope body otherScope other one two holds
    simp only [nodes, List.forall_mem_cons, List.forall_mem_append] at holds
    exact ⟨rfl, one holds.2.1.2, two holds.2.2⟩
  case case6 | case7 =>
    intro mark _ _ _ inner holds
    simp only [nodes, List.forall_mem_cons, List.forall_mem_append] at holds
    exact ⟨rfl, inner holds.2.2⟩
  case case8 =>
    intro mark outer init condition step scope body first inner last holds
    simp only [nodes, List.forall_mem_cons, List.forall_mem_append] at holds
    exact ⟨rfl, first holds.2.1.1.1, inner holds.2.2, last holds.2.1.2⟩
  case case9 =>
    intro mark value cases arms holds
    simp only [nodes, List.forall_mem_cons, List.forall_mem_append] at holds
    exact ⟨rfl, arms trivial holds.2.2⟩
  case case10 =>
    intro mark value cases scope body inner arms holds
    simp only [nodes, List.forall_mem_cons, List.forall_mem_append] at holds
    exact ⟨rfl, arms (inner holds.2.2) holds.2.1.2⟩
  case case17 => exact fun mark index last answers _ => answers
  case case18 =>
    intro mark index last value scope body rest inner later answers holds
    simp only [caseNodes, List.forall_mem_append] at holds
    exact ⟨inner holds.1.2, later answers holds.2⟩
  case case20 =>
    intro first rest one later holds
    simp only [allNodes, List.forall_mem_append] at holds
    exact ⟨one holds.1, later holds.2⟩
  all_goals
    intros
    trivial

end Stmt

/-! ## Bodies that always return -/

/-- The flow never comes to its end. -/
def Flow.Turns (flow : Plan) : Prop :=
  ∀ outcomes, (flow.perform outcomes).last ≠ .through

namespace Flow.Turns

variable {first second : Plan}

theorem seqLeft (turns : first.Turns) (second : Plan) : (Flow.seq first second).Turns := by
  intro outcomes
  rw [Flow.perform, Performance.andThen]
  split
  · rename_i through
    exact absurd through (turns outcomes)
  · exact turns outcomes

theorem seqRight (first : Plan) (turns : second.Turns) : (Flow.seq first second).Turns := by
  intro outcomes
  rw [Flow.perform, Performance.andThen]
  split
  · exact turns _
  · assumption

theorem test {computed : Happening Unit Expr} {value : Expr}
    {next : Bool → List Bool → Performance Unit Expr Ending}
    (turns : ∀ holds rest, (next holds rest).last ≠ .through) (outcomes : List Bool) :
    (Performance.test computed value .waiting next outcomes).last ≠ .through := by
  cases outcomes with
  | nil => nofun
  | cons holds rest => exact turns holds rest

theorem branch (mark : Mark) (condition : Expr) (one : first.Turns) (other : second.Turns) :
    (Flow.branch mark condition first second).Turns := by
  refine fun outcomes => test (fun holds rest => ?_) outcomes
  cases holds with
  | true => exact one rest
  | false => exact other rest

theorem arm (mark : Mark) (index : Nat) (value : Expr) (one : first.Turns)
    (other : second.Turns) : (Flow.arm mark index value first second).Turns := by
  refine fun outcomes => test (fun holds rest => ?_) outcomes
  cases holds with
  | true => exact one rest
  | false => exact other rest

end Flow.Turns

namespace Stmt

/-- Statements that always return never come to their end. -/
theorem turns_flow :
    (∀ stmt : Stmt, stmt.alwaysReturns = true → stmt.flow.Turns) ∧
    (∀ (mark : Mark) (index : Nat) (last : Plan) (cases : List Case), last.Turns →
      casesReturn cases = true → (caseFlow mark index last cases).Turns) ∧
    ∀ body : List Stmt, allReturn body = true → (allFlow body).Turns := by
  apply Stmt.flow.mutual_induct
  case case5 =>
    intro mark condition scope body otherScope other one two returns
    rw [alwaysReturns, Bool.and_eq_true] at returns
    exact .seqRight _ (.branch mark condition (one returns.1) (two returns.2))
  case case10 =>
    intro mark value cases scope body one arms returns
    rw [alwaysReturns, Bool.and_eq_true] at returns
    exact .seqRight _ (arms (one returns.1) returns.2)
  case case11 | case12 =>
    intro mark value _
    refine .seqRight _ fun outcomes ends => ?_
    cases ends
  case case17 => exact fun mark index last turns _ => turns
  case case18 =>
    intro mark index last value scope body rest one later turns returns
    rw [casesReturn, Bool.and_eq_true] at returns
    exact .arm mark index value (one returns.1) (later turns returns.2)
  case case20 =>
    intro first rest one later returns
    rw [allReturn, Bool.and_eq_true, Bool.or_eq_true] at returns
    rcases returns.2 with own | last
    · exact .seqLeft (one own) _
    · exact .seqRight _ (later last)
  all_goals simp [alwaysReturns, allReturn]

end Stmt

/-! ## Bodies -/

/-- The place where a statement, a scope or a loop starts, or where a scope or a loop ends. -/
def Emission.Step.boundary? : Step → Option Nat
  | .deed span (.comment _) => some span.before.lines.length
  | .opens span => some span.before.lines.length
  | .closes span => some span.after.lines.length
  | _ => none

/-- The places between the statements of a body. -/
def EmittedFlow.boundaries (name : String) (emitted : EmittedFlow) : List Nat :=
  (emitted.steps (.exit name) [] noSubject).filterMap Step.boundary?

namespace Body

/-- Stepping through the code of a body, the machine has come to a place with so many values. -/
abbrev Climbs (env : Env) (body : Body) (start finish : Generator) (outcomes : List Bool)
    (place height : Nat) (rest : List Bool) : Prop :=
  (Span.region ⟨start, finish⟩).Climbs (.exit body.name) (body.block.flow.effects env.declared)
    outcomes place height rest

/-- Stepping through the code of a body, the machine comes to the exit with so many values. -/
abbrev Arrives (env : Env) (body : Body) (start finish : Generator) (outcomes : List Bool)
    (height : Nat) : Prop :=
  (Span.region ⟨start, finish⟩).Arrives (.exit body.name) (body.block.flow.effects env.declared)
    outcomes height

/-- What the code of a body does to the stack; it gives back a value or none. -/
structure Balanced (env : Env) (body : Body) (gives : Bool) (start finish : Generator) : Prop where
  /-- There is an effect for each call. -/
  calls : (Span.region ⟨start, finish⟩).lines.countP (·.stackUse = .call) =
    (body.block.flow.effects env.declared).length
  /-- Whichever way the machine has come to a place, the height of the stack is the same. -/
  unique : ∀ first second place height other rest last,
    body.Climbs env start finish first place height rest →
    body.Climbs env start finish second place other last → other = height
  /-- No line takes off more than has been pushed since the body has started. -/
  safe : ∀ outcomes place height rest line,
    body.Climbs env start finish outcomes place height rest →
    (Span.region ⟨start, finish⟩).line? place = some line →
    (line.stackUse.shift? ((Span.region ⟨start, finish⟩).effect?
      (body.block.flow.effects env.declared) place) height).isSome = true
  labels : ∀ outcomes place height rest label,
    body.Climbs env start finish outcomes place height rest →
    (Span.region ⟨start, finish⟩).line? place = some (.label label) → height = 0
  boundaries : ∃ emitted, body.Realized env start finish emitted ∧
    ∀ place ∈ emitted.boundaries body.name, ∀ outcomes height rest,
      body.Climbs env start finish outcomes place height rest → height = 0
  result : ∀ outcomes height, body.Arrives env start finish outcomes height →
    height = gives.toNat
  /-- Where the body returns or comes to its end, the machine comes to the exit. -/
  arrives : ∀ outcomes, (body.block.flow.perform outcomes).last = .returned ∨
      (body.block.flow.perform outcomes).last = .through →
    ∃ height, body.Arrives env start finish outcomes height

namespace Settled

variable {env : Env} {module : Module} {body : Body} {start finish : Generator}
  {emitted : EmittedFlow} {gives : Bool}

theorem chained (settled : body.Settled env module start finish emitted)
    (answers : ∀ node ∈ body.block.nodes, node.Answers gives) :
    Chained (.exit body.name) gives.toNat (emitted.steps (.exit body.name) [] noSubject) 0 0 := by
  refine Flow.chained body.name emitted ?_ (fun _ member => by cases member) noSubject
  rw [← Flow.answers_map (fun _ => ()) Figure.expr, ← EmittedFlow.plan, settled.plan]
  exact Stmt.answers_flow.2.2 body.block.statements answers

theorem effects (settled : body.Settled env module start finish emitted) :
    (emitted.steps (.exit body.name) [] noSubject).flatMap (Step.effects env.declared) =
      body.block.flow.effects env.declared := by
  rw [Flow.effects_of_steps, settled.plan]

/-- The lines of a body lead from an empty stack to an empty stack. -/
theorem rises (settled : body.Settled env module start finish emitted)
    (free : Node.AssemblyFree body.block.nodes)
    (answers : ∀ node ∈ body.block.nodes, node.Answers gives) :
    Rises (.exit body.name) gives.toNat (Span.region ⟨start, finish⟩).lines
      (body.block.flow.effects env.declared) 0 0 := by
  rw [settled.lines, ← settled.effects]
  exact settled.walk.rises (settled.turnless free) (settled.chained answers)

/-- At the boundaries of statements nothing is on the stack. -/
theorem heightAt_boundary (settled : body.Settled env module start finish emitted)
    (free : Node.AssemblyFree body.block.nodes)
    (answers : ∀ node ∈ body.block.nodes, node.Answers gives) {place : Nat}
    (member : place ∈ emitted.boundaries body.name) :
    (Span.region ⟨start, finish⟩).HeightAt (.exit body.name) gives.toNat
      (body.block.flow.effects env.declared) place 0 := by
  rcases List.mem_filterMap.mp member with ⟨step, among, bounds⟩
  rcases List.append_of_mem among with ⟨earlier, later, order⟩
  have walk := settled.walk
  have chained := settled.chained answers
  have runs := settled.turnless free
  have effects := settled.effects
  have lines := settled.lines
  rw [order] at walk chained runs effects lines
  rcases walk.split with ⟨between, middle, front, back⟩
  rcases chained.split with ⟨height, before, after⟩
  -- a boundary is a step of its own, and it starts from an empty stack
  have empty : height = 0 ∧ between.lines.length = place := by
    rcases back.cons with ⟨beyond, -, happens, -, -, -⟩
    rcases after with ⟨next, lifts, -⟩
    cases step with
    | deed span task =>
      cases task with
      | comment line =>
        cases bounds
        rw [happens.1]
        exact ⟨lifts.1, rfl⟩
      | _ => cases bounds
    | opens span | closes span =>
      cases bounds
      rw [happens.1]
      exact ⟨lifts.1, rfl⟩
    | _ => cases bounds
  rcases empty with ⟨rfl, rfl⟩
  rw [List.flatMap_append] at effects lines
  refine ⟨_, _, _, _, lines, effects.symm, ?_,
    front.rises (fun step listed => runs step (List.mem_append_left _ listed)) before,
    back.rises (fun step listed => runs step (List.mem_append_right _ listed)) after⟩
  rw [front.lines, List.length_append]
  rfl

/-- The code of a body is balanced if what it gives back is always a value, or never. -/
theorem balanced (settled : body.Settled env module start finish emitted)
    (free : Node.AssemblyFree body.block.nodes)
    (ends : (Emission.inMethod env (.exit body.name) body.block).Ends start () finish)
    (answers : ∀ node ∈ body.block.nodes, node.Answers gives)
    (complete : gives = true → body.block.alwaysReturns = true) :
    body.Balanced env gives start finish := by
  have rises := settled.rises free answers
  have outside := settled.outside free
  have runs : ∀ outcomes, ∃ sights rest, (Span.region ⟨start, finish⟩).Runs (.exit body.name)
      start.lines.length outcomes sights (body.block.flow.perform outcomes).last rest := by
    intro outcomes
    have same : (emitted.perform outcomes).last = (body.block.flow.perform outcomes).last := by
      rw [← settled.plan, EmittedFlow.plan, Flow.perform_map]
      rfl
    exact ⟨_, _, same ▸ settled.runs free ends outcomes⟩
  refine ⟨rises.length_eq.symm, ?_, ?_, ?_, ?_, ?_, ?_⟩
  · intro first second place height other rest last climbs again
    exact (climbs.heightAt rises outside).unique (again.heightAt rises outside)
  · intro outcomes place height rest line climbs stands
    rcases (climbs.heightAt rises outside).line stands with ⟨used, others, next, lifts, effect, -⟩
    rw [effect]
    exact lifts.isSome_shift? others
  · intro outcomes place height rest label climbs stands
    exact (Region.heightAt_label rises stands).unique (climbs.heightAt rises outside)
  · refine ⟨emitted, settled.toRealized, fun place member outcomes height rest climbs => ?_⟩
    exact (settled.heightAt_boundary free answers member).unique (climbs.heightAt rises outside)
  · intro outcomes height arrives
    cases arrives with
    | returned climbs stops => exact (climbs.heightAt rises outside).eq_result stops
    | through climbs =>
      have last : (Span.region ⟨start, finish⟩).HeightAt (.exit body.name) gives.toNat
          (body.block.flow.effects env.declared) (Span.region ⟨start, finish⟩).finish 0 :=
        ⟨_, [], _, [], (List.append_nil _).symm, (List.append_nil _).symm, rfl, rises, .nil 0⟩
      rw [last.unique (climbs.heightAt rises outside)]
      cases gives with
      | false => rfl
      | true =>
        rcases climbs.leads with ⟨sights, leads⟩
        rcases runs outcomes with ⟨seen, remaining, run⟩
        have through := leads _ _ _ (Region.runs_finish _)
        have turns := Stmt.turns_flow.2.2 body.block.statements (complete rfl) outcomes
        exact absurd (run.unique through).2.1.symm turns
  · intro outcomes ending
    rcases runs outcomes with ⟨sights, rest, run⟩
    exact Region.Climbs.arrives rises outside ending .start run

end Settled

end Body

/-! ## The bodies of a program -/

/-- The bodies of a module with the types of what they give back. -/
def Module.promises (module : Module) : List (Body × Ty) :=
  match module.content.script? with
  | some script => [(script.asBody module.name, script.returns)]
  | none =>
    module.content.contract?.toList.flatMap fun contract =>
      contract.methods.map fun decl => (decl.asBody, decl.method.returns)

/-- What is known of a body that promises a type. -/
theorem Module.fulfilled {declared : Declared} {declarations : List Variable}
    (typed : module.WellTyped declared declarations) (composed : module.Composed)
    (promised : (body, returns) ∈ module.promises) :
    body.block.WellTyped (module.vocabulary declared declarations) returns ∧
      (returns ≠ .none → body.block.alwaysReturns = true) := by
  unfold Module.promises at promised
  split at promised
  · rename_i script found
    cases List.mem_singleton.mp promised
    exact ⟨typed.script script found, composed.script script found⟩
  · rcases List.mem_flatMap.mp promised with ⟨contract, held, member⟩
    rcases List.mem_map.mp member with ⟨decl, among, same⟩
    cases same
    have found : contract ∈ module.content.contract? := Option.mem_toList.mp held
    exact ⟨(typed.methods contract found decl among).body,
      composed.methods contract found decl among⟩

theorem Module.mem_routines (promised : (body, returns) ∈ module.promises) :
    body ∈ module.routines := by
  unfold Module.promises at promised
  unfold Module.routines
  cases found : module.content.script? with
  | some script =>
    rw [found] at promised
    cases List.mem_singleton.mp promised
    exact List.mem_singleton_self _
  | none =>
    rw [found] at promised
    rcases List.mem_flatMap.mp promised with ⟨contract, held, member⟩
    rcases List.mem_map.mp member with ⟨decl, among, same⟩
    cases same
    exact List.mem_flatMap.mpr ⟨contract, held, List.mem_map_of_mem among⟩

namespace Emission

/-- In a body without a type no statement gives back a value. -/
def Unanswered (returns : Ty) (block : Block) : Prop :=
  returns = .none → ∀ mark value, Node.statement (.giveBack mark (some value)) ∉ block.nodes

/-- What is given back is a value exactly if the body has a type. -/
theorem Unanswered.answers {block : Block} {known : Vocabulary}
    (unanswered : Unanswered returns block) (typed : block.WellTyped known returns) :
    ∀ node ∈ block.nodes, node.Answers (returns ≠ .none) := by
  intro node met
  unfold Node.Answers
  split
  · rename_i mark value
    cases value with
    | none =>
      have none : returns = .none := typed _ met
      simp [none]
    | some value =>
      have typed : returns ≠ .none := fun none => unanswered none mark value met
      simp [typed]
  · trivial

/--
The code of a body has one height of the stack at each line, which is that of
its start between statements and at labels.  At the exit there is one value more if
the body has a type.
-/
theorem body_balanced {interface? : String → Option Interface} {source : String}
    {program : Program} {env : Env} {module : Module} {body : Body} {returns : Ty}
    {start finish : Generator} (accepted : Program.read interface? source = .ok program)
    (emits : program.Emits env module body start finish)
    (promised : (body, returns) ∈ module.promises)
    (free : Node.AssemblyFree body.block.nodes) (unanswered : Unanswered returns body.block) :
    body.Balanced env (returns ≠ .none) start finish := by
  rcases emits.exists_settled accepted with ⟨emitted, settled⟩
  rcases emits.listed with ⟨top, among, listed⟩
  have composed := (read_composed accepted).1 top among module listed
  rcases Module.fulfilled (read_typed accepted top among module listed) composed promised with
    ⟨typed, complete⟩
  exact settled.balanced free emits.ends (unanswered.answers typed)
    fun gives => complete (by simpa using gives)

/-! ## Sources with bodies of a type -/

/-- The source is read, and a module of it is emitted and has a body with such a type. -/
def hasPromise (test : Env → Ty → Block → Bool) : List String → Bool :=
  emitsModule fun env module => module.promises.any fun (body, returns) =>
    Node.AssemblyFree body.block.nodes && test env returns body.block

/-- A body of such a source, with the generator before and after it. -/
theorem exists_promise {test : Env → Ty → Block → Bool} {pieces : List String}
    (holds : hasPromise test pieces = true) :
    ∃ program env module body returns start finish,
      Program.read (fun _ => none) (String.join pieces) = .ok program ∧
      program.Emits env module body start finish ∧ (body, returns) ∈ module.promises ∧
      Node.AssemblyFree body.block.nodes ∧ test env returns body.block = true := by
  rcases exists_module holds with ⟨program, module, after, accepted, listed, ends, found⟩
  rcases List.any_eq_true.mp found with ⟨⟨body, returns⟩, promised, fits⟩
  rw [Bool.and_eq_true, decide_eq_true_eq] at fits
  rcases exists_starts rfl ends (Module.mem_routines promised) with ⟨start, finish, starts, inside⟩
  exact ⟨program, program.plainEnv module, module, body, returns, start, finish, accepted,
    ⟨listed, rfl, starts, inside⟩, promised, fits⟩

/-- Calls of the host and of a method, as values and as arguments, between all kinds of turns. -/
def callsBetweenTurns : List String :=
  ["contract test \x7b import Runtime; private half(n:number):number \x7b return n / 2; \x7d ",
    "public f(a:address, n:number):number \x7b ",
    "if (Runtime.isWitness(a)) \x7b return half(1); \x7d ",
    "while (n > 4) \x7b n = half(half(n)); \x7d return n; \x7d \x7d"]

theorem body_balanced_callsBetweenTurns :
    ∃ program env module body returns start finish,
      Program.read (fun _ => none) (String.join callsBetweenTurns) = .ok program ∧
      program.Emits env module body start finish ∧ (body, returns) ∈ module.promises ∧
      Node.AssemblyFree body.block.nodes ∧ returns = .number ∧
      4 ≤ (body.block.flow.effects env.declared).length ∧
      body.Balanced env true start finish := by
  have holds : hasPromise (fun env returns block => returns = .number &&
      4 ≤ (block.flow.effects env.declared).length) callsBetweenTurns = true := by
    decide +kernel
  rcases exists_promise holds with
    ⟨program, env, module, body, returns, start, finish, accepted, emits, promised, free, passes⟩
  rw [Bool.and_eq_true, decide_eq_true_eq, decide_eq_true_eq] at passes
  rcases passes with ⟨rfl, many⟩
  refine ⟨program, env, module, body, .number, start, finish, accepted, emits, promised, free, rfl,
    many, ?_⟩
  exact body_balanced accepted emits promised free fun none => by cases none

/-- A property without a type has a value. -/
def valueWithoutType : List String :=
  ["contract test \x7b global g:none; property gap:none = g; \x7d"]

/-- A body without a type may come to its exit with a value on the stack. -/
theorem body_unbalanced_valueWithoutType :
    ∃ program env module body returns start finish,
      Program.read (fun _ => none) (String.join valueWithoutType) = .ok program ∧
      program.Emits env module body start finish ∧ (body, returns) ∈ module.promises ∧
      Node.AssemblyFree body.block.nodes ∧ returns = .none ∧
      body.Arrives env start finish [] 1 := by
  have holds : hasPromise (fun _ returns block => returns = .none &&
      (block.nodes.all fun node => node.Answers true) && block.alwaysReturns &&
      (block.flow.perform []).last = .returned) valueWithoutType = true := by
    decide +kernel
  rcases exists_promise holds with
    ⟨program, env, module, body, returns, start, finish, accepted, emits, promised, free, passes⟩
  simp only [Bool.and_eq_true, List.all_eq_true, decide_eq_true_eq] at passes
  rcases passes with ⟨⟨⟨none, answers⟩, complete⟩, returned⟩
  rcases emits.exists_settled accepted with ⟨emitted, settled⟩
  have balanced := settled.balanced free emits.ends answers fun _ => complete
  rcases balanced.arrives [] (.inl returned) with ⟨height, arrives⟩
  refine ⟨program, env, module, body, returns, start, finish, accepted, emits, promised, free, none,
    ?_⟩
  rwa [balanced.result [] height arrives] at arrives

end Emission

end Covenant
