import Covenant.Proofs.StatementRegisters

/-!
# Flows with their code

When a flow has been emitted, each of its simple statements and values has a
place in the code, and so have its loops and its scopes.  An `EmittedFlow`
keeps, beside the flow itself, the generator before and after each of these.

`EmittedFlow.steps` tells what the generator does for such a flow, one thing
after the other, and `Path` says that it has done so between two moments.
`Flow.trace` finds the emitted flow, and by `exists_trace` it does so for every
run that succeeds.  From there on, what holds of emitted code is proved along
paths, step by step.
-/

namespace Covenant

variable {before after : Generator}

open Emission

/-- The generator before and after a piece of code was emitted. -/
structure Span where
  before : Generator
  after : Generator

namespace Span

/-- The lines of the piece. -/
def lines (span : Span) : List Line :=
  span.after.lines.drop span.before.lines.length

end Span

/-- A value, the code that computes it and the register it is left in. -/
structure Figure where
  expr : Expr
  span : Span
  register : Register

/-- A flow that has been emitted. -/
abbrev EmittedFlow := Flow Span Figure

/-- Replace what a flow knows of its parts. -/
def Flow.map {Note Value OtherNote OtherValue : Type} (note : Note → OtherNote)
    (value : Value → OtherValue) : Flow Note Value → Flow OtherNote OtherValue
  | .skip => .skip
  | .simple span deed => .simple (note span) deed
  | .seq first second => .seq (first.map note value) (second.map note value)
  | .within span scope line body => .within (note span) scope line (body.map note value)
  | .expect mark condition message => .expect mark (value condition) (value message)
  | .branch mark condition body other =>
    .branch mark (value condition) (body.map note value) (other.map note value)
  | .whileLoop span mark condition body =>
    .whileLoop (note span) mark (value condition) (body.map note value)
  | .doLoop span mark body condition =>
    .doLoop (note span) mark (body.map note value) (value condition)
  | .forLoop span mark condition body step =>
    .forLoop (note span) mark (value condition) (body.map note value) (step.map note value)
  | .switch mark subject arms => .switch mark (value subject) (arms.map note value)
  | .arm mark index compared body others =>
    .arm mark index (value compared) (body.map note value) (others.map note value)
  | .giveBack span deed => .giveBack (note span) deed
  | .throw line thrown => .throw line (value thrown)
  | .leave line => .leave line
  | .next line => .next line

theorem Flow.map_id {Note Value : Type} (flow : Flow Note Value) : flow.map id id = flow := by
  induction flow <;> simp [Flow.map, *]

theorem Flow.map_map {First Second Third One Two Three : Type} (note : First → Second)
    (later : Second → Third) (value : One → Two) (next : Two → Three) (flow : Flow First One) :
    (flow.map note value).map later next = flow.map (later ∘ note) (next ∘ value) := by
  induction flow <;> simp [Flow.map, *]

/-- What is known of the parts of a flow does not show in its code. -/
theorem Flow.code_map {Note OtherNote : Type} (note : Note → OtherNote) (flow : Flow Note Expr)
    (env : Env) (exit : Label) (loops : LoopStack) (subject : Register) :
    (flow.map note id).code env exit loops subject = flow.code env exit loops subject := by
  induction flow generalizing loops subject <;> simp [Flow.map, Flow.code, *]

/-- The flow as it was written. -/
def EmittedFlow.plan : EmittedFlow → Plan :=
  Flow.map (fun _ => ()) Figure.expr

namespace Emission

/-- A line between simple statements and values. -/
inductive Turn where
  | place (label : Label)
  | jump (target : Label)
  /-- Jump if the register says so. -/
  | test (holds : Bool) (register : Register) (target : Label)
  | throw (register : Register)

/-- The line itself. -/
def Turn.line : Turn → Line
  | .place label => .label label
  | .jump target => .instruction .jmp [.label target]
  | .test true register target => .instruction .jmpIf [.register register, .label target]
  | .test false register target => .instruction .jmpNot [.register register, .label target]
  | .throw register => .instruction .throw [.register register]

/-- Labels, jumps and throws write to no register. -/
theorem Turn.destinations_line (turn : Turn) : turn.line.destinations = [] := by
  cases turn with
  | test holds register target => cases holds <;> rfl
  | place label => rfl
  | jump target => rfl
  | throw register => rfl

/-- One thing that the generator does for a flow. -/
inductive Step where
  /-- Write a label or a jump. -/
  | turn (turn : Turn)
  | deed (span : Span) (deed : Deed)
  /-- Compute a value and, in a case, compare it with the subject. -/
  | figure (subject : Option Register) (figure : Figure)
  | free (register : Register) (line : Nat)
  | enter (scope : ScopeId)
  | leave (scope : ScopeId) (line : Nat)
  /-- The code of a scope or a loop starts here. -/
  | opens (span : Span)
  /-- The code of a scope or a loop ends here. -/
  | closes (span : Span)

/-- The code of a value, compared with a subject if there is one. -/
def valueCode (env : Env) (subject : Option Register) (expr : Expr) : Emission Register :=
  match subject with
  | none => expression env expr
  | some subject => comparison env subject expr

/-- The step has been taken between two moments. -/
def Step.Happens (env : Env) (before after : Generator) : Step → Prop
  | .turn written => (line written.line).Ends before () after
  | .deed span task => span = ⟨before, after⟩ ∧ (task.code env).Ends before () after
  | .figure subject value =>
    value.span = ⟨before, after⟩ ∧
      (valueCode env subject value.expr).Ends before value.register after
  | .free register number => (dealloc register number).Ends before () after
  | .enter _ => after = before
  | .leave scope number => (leaveScope env scope number).Ends before () after
  | .opens span => span.before = before ∧ after = before
  | .closes span => span.after = before ∧ after = before

/-- The steps have been taken between two moments, one after the other. -/
def Path (env : Env) : List Step → Generator → Generator → Prop
  | [], before, after => after = before
  | step :: rest, before, after =>
    ∃ between, step.Happens env before between ∧ Path env rest between after

/-- A value decides about a jump. -/
def tested (subject : Option Register) (holds : Bool) (target : Label) (line : Nat)
    (figure : Figure) : List Step :=
  [.figure subject figure, .turn (.test holds figure.register target),
    .free figure.register line]

/-- A jump out of a loop or to its next round; there is none outside of loops. -/
def jumpSteps : Option Label → List Step
  | some target => [.turn (.jump target)]
  | none => []

@[simp]
theorem mem_jumpSteps {step : Step} {target? : Option Label} :
    step ∈ jumpSteps target? ↔ ∃ target ∈ target?, step = .turn (.jump target) := by
  cases target? <;> simp [jumpSteps]

end Emission

/-- What the generator does for a flow, one thing after the other. -/
def Flow.steps (exit : Label) (loops : LoopStack) (subject : Register) :
    Flow Span Figure → List Step
  | .skip => []
  | .simple span deed => [.deed span deed]
  | .seq first second =>
    first.steps exit loops subject ++ second.steps exit loops subject
  | .within span scope line body =>
    [.opens span, .enter scope] ++ body.steps exit loops subject ++
      [.leave scope line, .closes span]
  | .expect mark condition message =>
    [.figure none condition,
      .turn (.test true condition.register (.expectation mark.id)),
      .figure none message,
      .turn (.throw message.register),
      .free message.register mark.line,
      .turn (.place (.expectation mark.id)),
      .free condition.register mark.line]
  | .branch mark condition body other =>
    tested none false (.otherwise mark.id) mark.line condition ++
      body.steps exit loops subject ++
      [.turn (.jump (.joined mark.id)),
        .turn (.place (.otherwise mark.id))] ++
      other.steps exit loops subject ++
      [.turn (.place (.joined mark.id))]
  | .whileLoop span mark condition body =>
    [.opens span, .turn (.place (.loopStart mark.id))] ++
      tested none false (.loopEnd mark.id) mark.line condition ++
      body.steps exit (loops.enter (.loopEnd mark.id) (.loopStart mark.id)) subject ++
      [.turn (.jump (.loopStart mark.id)),
        .turn (.place (.loopEnd mark.id)), .closes span]
  | .doLoop span mark body condition =>
    [.opens span, .turn (.place (.loopStart mark.id))] ++
      body.steps exit (loops.enter (.loopEnd mark.id) (.loopContinue mark.id)) subject ++
      [.turn (.place (.loopContinue mark.id))] ++
      tested none true (.loopStart mark.id) mark.line condition ++
      [.turn (.place (.loopEnd mark.id)), .closes span]
  | .forLoop span mark condition body step =>
    [.opens span, .turn (.place (.loopStart mark.id))] ++
      tested none false (.loopEnd mark.id) mark.line condition ++
      body.steps exit (loops.enter (.loopEnd mark.id) (.loopContinue mark.id)) subject ++
      [.turn (.place (.loopContinue mark.id))] ++
      step.steps exit loops subject ++
      [.turn (.jump (.loopStart mark.id)),
        .turn (.place (.loopEnd mark.id)), .closes span]
  | .switch mark scrutinee arms =>
    [.figure none scrutinee] ++ arms.steps exit loops scrutinee.register ++
      [.turn (.place (.caseEnd mark.id)), .free scrutinee.register mark.line]
  | .arm mark index value body others =>
    tested (some subject) false (.caseSkip mark.id index) mark.line value ++
      body.steps exit loops subject ++
      [.turn (.jump (.caseEnd mark.id)),
        .turn (.place (.caseSkip mark.id index))] ++
      others.steps exit loops subject
  | .giveBack span deed =>
    [.deed span deed, .turn (.jump exit)]
  | .throw line value =>
    [.figure none value, .turn (.throw value.register),
      .free value.register line]
  | .leave _ => jumpSteps loops.breakLabel?
  | .next _ => jumpSteps loops.continueLabel?

/-- Jumps out of a loop or to its next round have a loop around them. -/
def Flow.Enclosed {Note Value : Type} (inLoop : Bool) : Flow Note Value → Prop
  | .seq first second => first.Enclosed inLoop ∧ second.Enclosed inLoop
  | .within _ _ _ body => body.Enclosed inLoop
  | .branch _ _ body other => body.Enclosed inLoop ∧ other.Enclosed inLoop
  | .whileLoop _ _ _ body => body.Enclosed true
  | .doLoop _ _ body _ => body.Enclosed true
  | .forLoop _ _ _ body step => body.Enclosed true ∧ step.Enclosed inLoop
  | .switch _ _ arms => arms.Enclosed inLoop
  | .arm _ _ _ body others => body.Enclosed inLoop ∧ others.Enclosed inLoop
  | .leave _ => inLoop = true
  | .next _ => inLoop = true
  | _ => True

namespace Emission

variable {env : Env}

namespace Path

theorem append {first second : List Step} {between : Generator}
    (left : Path env first before between) (right : Path env second between after) :
    Path env (first ++ second) before after := by
  induction first generalizing before with
  | nil =>
    cases left
    exact right
  | cons step rest ih =>
    rcases left with ⟨later, happens, further⟩
    exact ⟨later, happens, ih further⟩

/-- A path can be cut in two anywhere. -/
theorem split {first second : List Step} (path : Path env (first ++ second) before after) :
    ∃ between, Path env first before between ∧ Path env second between after := by
  induction first generalizing before with
  | nil => exact ⟨before, rfl, path⟩
  | cons step rest ih =>
    rcases path with ⟨later, happens, further⟩
    rcases ih further with ⟨between, left, right⟩
    exact ⟨between, ⟨later, happens, left⟩, right⟩

theorem single {step : Step} (happens : step.Happens env before after) :
    Path env [step] before after :=
  ⟨after, happens, rfl⟩

theorem opening {label : Label} {started : Generator} (after : Generator)
    (start : (Emission.line (Turn.place label).line).Ends before () started) :
    Path env [.opens ⟨before, after⟩, .turn (.place label)] before started :=
  ⟨before, ⟨rfl, rfl⟩, started, start, rfl⟩

end Path

end Emission

/-! ## Tracing the code of a flow -/

/-- A note, the variables that can be named at a place, and the code of the place. -/
structure Occasion (Note : Type) where
  note : Note
  visible : List VarId
  span : Span

/-- A flow that has been emitted, with its notes and with what can be named in it. -/
abbrev TracedFlow (Note : Type) := Flow (Occasion Note) (List VarId × Figure)

def TracedFlow.emitted {Note : Type} : TracedFlow Note → EmittedFlow :=
  Flow.map Occasion.span Prod.snd

/-- The flow that was emitted. -/
def TracedFlow.written {Note : Type} : TracedFlow Note → Flow Note Expr :=
  Flow.map Occasion.note fun value => value.2.expr

theorem TracedFlow.plan_emitted {Note : Type} (traced : TracedFlow Note) :
    traced.emitted.plan = traced.written.map (fun _ => ()) id := by
  simp only [emitted, EmittedFlow.plan, written, Flow.map_map]
  rfl

namespace Emission

/-- The generator, and the variables that can be named. -/
abbrev Tracing := StateT (Generator × List VarId) Option

namespace Tracing

variable {Outcome Note : Type} {visible : List VarId} {outcome : Outcome} {env : Env}

def observe (code : Emission Outcome) : Tracing Outcome := fun (before, visible) =>
  match code.run before with
  | .ok (outcome, after) => some (outcome, after, visible)
  | .error _ => none

def name (visible : List VarId) : Tracing Unit :=
  modify fun (generator, _) => (generator, visible)

def turn (written : Turn) : Tracing Unit :=
  observe (line written.line)

def figure (env : Env) (subject : Option Register) (expr : Expr) :
    Tracing (List VarId × Figure) := do
  let (before, visible) ← get
  let register ← observe (valueCode env subject expr)
  let (after, _) ← get
  return (visible, ⟨expr, ⟨before, after⟩, register⟩)

/-- A value that decides about a jump. -/
def decision (env : Env) (subject : Option Register) (holds : Bool) (target : Label) (line : Nat)
    (expr : Expr) : Tracing (List VarId × Figure) := do
  let value ← figure env subject expr
  turn (.test holds value.2.register target)
  observe (dealloc value.2.register line)
  return value

/-- The code has been traced between two states. -/
def Gives (code : Tracing Outcome) (before : Generator × List VarId) (outcome : Outcome)
    (after : Generator × List VarId) : Prop :=
  code.run before = some (outcome, after)

namespace Gives

theorem bind {Next : Type} {code : Tracing Outcome} {next : Outcome → Tracing Next}
    {first between last : Generator × List VarId} {final : Next}
    (one : Gives code first outcome between) (two : Gives (next outcome) between final last) :
    Gives (code >>= next) first final last := by
  rw [Gives, StateT.run_bind, show code.run first = _ from one]
  exact two

theorem observe {code : Emission Outcome} (ends : code.Ends before outcome after) :
    Gives (observe code) (before, visible) outcome (after, visible) := by
  rw [Gives, StateT.run, Tracing.observe, show code.run before = _ from ends]

theorem figure {subject : Option Register} {expr : Expr} {register : Register}
    (ends : (valueCode env subject expr).Ends before register after) :
    Gives (figure env subject expr) (before, visible)
      (visible, ⟨expr, ⟨before, after⟩, register⟩) (after, visible) :=
  .bind rfl ((observe ends).bind rfl)

end Gives

end Tracing

end Emission

open Tracing in
/-- Emit a flow, and note the code of its parts and what can be named in them. -/
def Flow.trace {Note : Type} (declares : Note → Option VarId) (env : Env) (exit : Label)
    (loops : LoopStack) (subject : Register) : Flow Note Expr → Tracing (TracedFlow Note)
  | .skip => return .skip
  | .simple note deed => do
      let (before, visible) ← get
      observe (deed.code env)
      let (after, _) ← get
      name ((declares note).toList ++ visible)
      return .simple ⟨note, visible, before, after⟩ deed
  | .seq first second => do
      let first ← first.trace declares env exit loops subject
      let second ← second.trace declares env exit loops subject
      return .seq first second
  | .within note scope line body => do
      let (before, visible) ← get
      let body ← body.trace declares env exit loops subject
      observe (leaveScope env scope line)
      let (after, _) ← get
      name visible
      return .within ⟨note, visible, before, after⟩ scope line body
  | .expect mark condition message => do
      let condition ← figure env none condition
      turn (.test true condition.2.register (.expectation mark.id))
      let message ← figure env none message
      turn (.throw message.2.register)
      observe (dealloc message.2.register mark.line)
      turn (.place (.expectation mark.id))
      observe (dealloc condition.2.register mark.line)
      return .expect mark condition message
  | .branch mark condition body other => do
      let condition ← decision env none false (.otherwise mark.id) mark.line condition
      let body ← body.trace declares env exit loops subject
      turn (.jump (.joined mark.id))
      turn (.place (.otherwise mark.id))
      let other ← other.trace declares env exit loops subject
      turn (.place (.joined mark.id))
      return .branch mark condition body other
  | .whileLoop note mark condition body => do
      let (before, visible) ← get
      turn (.place (.loopStart mark.id))
      let condition ← decision env none false (.loopEnd mark.id) mark.line condition
      let body ← body.trace declares env exit
        (loops.enter (.loopEnd mark.id) (.loopStart mark.id)) subject
      turn (.jump (.loopStart mark.id))
      turn (.place (.loopEnd mark.id))
      let (after, _) ← get
      return .whileLoop ⟨note, visible, before, after⟩ mark condition body
  | .doLoop note mark body condition => do
      let (before, visible) ← get
      turn (.place (.loopStart mark.id))
      let body ← body.trace declares env exit
        (loops.enter (.loopEnd mark.id) (.loopContinue mark.id)) subject
      turn (.place (.loopContinue mark.id))
      let condition ← decision env none true (.loopStart mark.id) mark.line condition
      turn (.place (.loopEnd mark.id))
      let (after, _) ← get
      return .doLoop ⟨note, visible, before, after⟩ mark body condition
  | .forLoop note mark condition body step => do
      let (before, visible) ← get
      turn (.place (.loopStart mark.id))
      let condition ← decision env none false (.loopEnd mark.id) mark.line condition
      let body ← body.trace declares env exit
        (loops.enter (.loopEnd mark.id) (.loopContinue mark.id)) subject
      turn (.place (.loopContinue mark.id))
      let step ← step.trace declares env exit loops subject
      turn (.jump (.loopStart mark.id))
      turn (.place (.loopEnd mark.id))
      let (after, _) ← get
      return .forLoop ⟨note, visible, before, after⟩ mark condition body step
  | .switch mark value arms => do
      let value ← figure env none value
      let arms ← arms.trace declares env exit loops value.2.register
      turn (.place (.caseEnd mark.id))
      observe (dealloc value.2.register mark.line)
      return .switch mark value arms
  | .arm mark index value body others => do
      let value ← decision env (some subject) false (.caseSkip mark.id index) mark.line value
      let body ← body.trace declares env exit loops subject
      turn (.jump (.caseEnd mark.id))
      turn (.place (.caseSkip mark.id index))
      let others ← others.trace declares env exit loops subject
      return .arm mark index value body others
  | .giveBack note deed => do
      let (before, visible) ← get
      observe (deed.code env)
      let (after, _) ← get
      turn (.jump exit)
      return .giveBack ⟨note, visible, before, after⟩ deed
  | .throw line value => do
      let value ← figure env none value
      turn (.throw value.2.register)
      observe (dealloc value.2.register line)
      return .throw line value
  | .leave line => do
      observe (jumpTo loops.breakLabel? (.outsideLoop line "break"))
      return .leave line
  | .next line => do
      observe (jumpTo loops.continueLabel? (.outsideLoop line "continue"))
      return .next line

namespace Emission

variable {env : Env}

open Tracing

theorem exists_decision (holds : Bool) {target : Label} {line : Nat} (subject : Option Register)
    (expr : Expr) (visible : List VarId)
    (ends : (do
      let register ← valueCode env subject expr
      Emission.line (Turn.test holds register target).line
      dealloc register line).Ends before () after) :
    ∃ figure : Figure, Gives (decision env subject holds target line expr) (before, visible)
        (visible, figure) (after, visible) ∧ figure.expr = expr ∧
      Path env (tested subject holds target line figure) before after := by
  rcases bind_ok ends with ⟨register, computed, value, rest⟩
  rcases bind_ok rest with ⟨_, jumped, jump, free⟩
  refine ⟨⟨expr, ⟨before, computed⟩, register⟩, ?_, rfl, computed, ⟨rfl, value⟩, jumped, jump,
    after, free, rfl⟩
  exact (Gives.figure value).bind ((Gives.observe jump).bind ((Gives.observe free).bind rfl))

/-- A run that succeeds can be traced, and jumps out of loops stand in loops. -/
theorem exists_trace {Note : Type} (declares : Note → Option VarId) {exit : Label}
    (flow : Flow Note Expr) {loops : LoopStack} {subject : Register} (visible : List VarId)
    (ends : (flow.code env exit loops subject).Ends before () after) :
    ∃ (traced : TracedFlow Note) (seen : List VarId),
      Gives (flow.trace declares env exit loops subject) (before, visible) traced (after, seen) ∧
      traced.written = flow ∧ Path env (traced.emitted.steps exit loops subject) before after ∧
      flow.Enclosed (!loops.isEmpty) := by
  induction flow generalizing loops subject before after visible with
  | skip =>
    cases ends
    exact ⟨.skip, visible, rfl, rfl, rfl, trivial⟩
  | simple note deed =>
    exact ⟨.simple ⟨note, visible, before, after⟩ deed, _,
      .bind rfl (.bind (.observe ends) rfl), rfl, .single ⟨rfl, ends⟩, trivial⟩
  | seq first second firstTrace secondTrace =>
    rcases bind_ok ends with ⟨_, between, left, right⟩
    rcases firstTrace visible left with ⟨one, seen, firstRun, rfl, first, inner⟩
    rcases secondTrace seen right with ⟨two, last, secondRun, rfl, second, outer⟩
    exact ⟨.seq one two, last, firstRun.bind (secondRun.bind rfl), rfl, first.append second, inner,
      outer⟩
  | within note scope line body bodyTrace =>
    rcases bind_ok ends with ⟨_, inside, inner, left⟩
    rcases bodyTrace visible inner with ⟨traced, seen, run, rfl, path, one⟩
    have opening : Path env [.opens ⟨before, after⟩, .enter scope] before before :=
      ⟨before, ⟨rfl, rfl⟩, before, rfl, rfl⟩
    refine ⟨.within ⟨note, visible, before, after⟩ scope line traced, visible, ?_, rfl,
      (opening.append path).append ⟨after, left, after, ⟨rfl, rfl⟩, rfl⟩, one⟩
    exact .bind rfl (run.bind (.bind (.observe left) rfl))
  | expect mark condition message =>
    rcases bind_ok ends with ⟨tested, computed, first, rest⟩
    rcases bind_ok rest with ⟨_, jumped, jump, rest⟩
    rcases bind_ok rest with ⟨thrown, messaged, second, rest⟩
    rcases bind_ok rest with ⟨_, raised, throwing, rest⟩
    rcases bind_ok rest with ⟨_, freed, free, rest⟩
    rcases bind_ok rest with ⟨_, placed, place, last⟩
    refine ⟨.expect mark (visible, ⟨condition, ⟨before, computed⟩, tested⟩)
      (visible, ⟨message, ⟨jumped, messaged⟩, thrown⟩), visible, ?_, rfl, ⟨computed, ⟨rfl, first⟩,
      jumped, jump, messaged, ⟨rfl, second⟩, raised, throwing, freed, free, placed, place, after,
      last, rfl⟩, trivial⟩
    exact .bind (.figure first) (.bind (.observe jump) (.bind (.figure second)
      (.bind (.observe throwing) (.bind (.observe free) (.bind (.observe place)
        (.bind (.observe last) rfl))))))
  | branch mark condition body other bodyTrace otherTrace =>
    rcases bind_ok ends with ⟨_, decided, test, rest⟩
    rcases bind_ok rest with ⟨_, inside, inner, rest⟩
    rcases bind_ok rest with ⟨_, jumped, jump, rest⟩
    rcases bind_ok rest with ⟨_, otherwise, place, rest⟩
    rcases bind_ok rest with ⟨_, others, outer, last⟩
    rcases exists_decision false none condition visible test with ⟨figure, asks, rfl, testPath⟩
    rcases bodyTrace visible inner with ⟨one, seen, bodyRun, rfl, innerPath, enclosed⟩
    rcases otherTrace seen outer with ⟨two, final, otherRun, rfl, outerPath, others⟩
    refine ⟨.branch mark (visible, figure) one two, final, ?_, rfl, ?_, enclosed, others⟩
    · exact asks.bind (bodyRun.bind (.bind (.observe jump) (.bind (.observe place)
        (otherRun.bind (.bind (.observe last) rfl)))))
    · refine (((testPath.append innerPath).append ?_).append outerPath).append (Path.single last)
      exact ⟨jumped, jump, otherwise, place, rfl⟩
  | whileLoop note mark condition body bodyTrace =>
    rcases bind_ok ends with ⟨_, started, start, rest⟩
    rcases bind_ok rest with ⟨_, decided, test, rest⟩
    rcases bind_ok rest with ⟨_, inside, inner, rest⟩
    rcases bind_ok rest with ⟨_, jumped, jump, last⟩
    rcases exists_decision false none condition visible test with ⟨figure, asks, rfl, testPath⟩
    rcases bodyTrace visible inner with ⟨traced, seen, run, rfl, innerPath, enclosed⟩
    refine ⟨.whileLoop ⟨note, visible, before, after⟩ mark (visible, figure) traced, seen, ?_, rfl,
      ?_, enclosed⟩
    · exact .bind rfl (.bind (.observe start) (asks.bind (run.bind (.bind (.observe jump)
        (.bind (.observe last) rfl)))))
    · refine (((Path.opening after start).append testPath).append innerPath).append ?_
      exact ⟨jumped, jump, after, last, after, ⟨rfl, rfl⟩, rfl⟩
  | doLoop note mark body condition bodyTrace =>
    rcases bind_ok ends with ⟨_, started, start, rest⟩
    rcases bind_ok rest with ⟨_, inside, inner, rest⟩
    rcases bind_ok rest with ⟨_, continued, place, rest⟩
    rcases bind_ok rest with ⟨_, decided, test, last⟩
    rcases bodyTrace visible inner with ⟨traced, seen, run, rfl, innerPath, enclosed⟩
    rcases exists_decision true none condition seen test with ⟨figure, asks, rfl, testPath⟩
    refine ⟨.doLoop ⟨note, visible, before, after⟩ mark traced (seen, figure), seen, ?_, rfl, ?_,
      enclosed⟩
    · exact .bind rfl (.bind (.observe start) (run.bind (.bind (.observe place)
        (asks.bind (.bind (.observe last) rfl)))))
    · have placing : Path env [.turn (.place (.loopContinue mark.id))] inside continued :=
        Path.single place
      refine ((((Path.opening after start).append innerPath).append placing).append
        testPath).append ?_
      exact ⟨after, last, after, ⟨rfl, rfl⟩, rfl⟩
  | forLoop note mark condition body step bodyTrace stepTrace =>
    rcases bind_ok ends with ⟨_, started, start, rest⟩
    rcases bind_ok rest with ⟨_, decided, test, rest⟩
    rcases bind_ok rest with ⟨_, inside, inner, rest⟩
    rcases bind_ok rest with ⟨_, continued, place, rest⟩
    rcases bind_ok rest with ⟨_, stepped, outer, rest⟩
    rcases bind_ok rest with ⟨_, jumped, jump, last⟩
    rcases exists_decision false none condition visible test with ⟨figure, asks, rfl, testPath⟩
    rcases bodyTrace visible inner with ⟨one, seen, bodyRun, rfl, innerPath, enclosed⟩
    rcases stepTrace seen outer with ⟨two, final, stepRun, rfl, outerPath, others⟩
    refine ⟨.forLoop ⟨note, visible, before, after⟩ mark (visible, figure) one two, final, ?_, rfl,
      ?_, enclosed, others⟩
    · exact .bind rfl (.bind (.observe start) (asks.bind (bodyRun.bind (.bind (.observe place)
        (stepRun.bind (.bind (.observe jump) (.bind (.observe last) rfl)))))))
    · have placing : Path env [.turn (.place (.loopContinue mark.id))] inside continued :=
        Path.single place
      refine (((((Path.opening after start).append testPath).append innerPath).append
        placing).append outerPath).append ?_
      exact ⟨jumped, jump, after, last, after, ⟨rfl, rfl⟩, rfl⟩
  | switch mark value arms armsTrace =>
    rcases bind_ok ends with ⟨scrutinee, computed, first, rest⟩
    rcases bind_ok rest with ⟨_, compared, inner, rest⟩
    rcases bind_ok rest with ⟨_, placed, place, free⟩
    rcases armsTrace visible inner with ⟨traced, seen, run, rfl, innerPath, enclosed⟩
    have opening : Path env [.figure none ⟨value, ⟨before, computed⟩, scrutinee⟩] before
        computed := Path.single ⟨rfl, first⟩
    refine ⟨.switch mark (visible, ⟨value, ⟨before, computed⟩, scrutinee⟩) traced, seen, ?_, rfl,
      (opening.append innerPath).append ?_, enclosed⟩
    · exact .bind (.figure first) (run.bind (.bind (.observe place) (.bind (.observe free) rfl)))
    · exact ⟨placed, place, after, free, rfl⟩
  | arm mark index value body others bodyTrace othersTrace =>
    rcases bind_ok ends with ⟨register, computed, first, rest⟩
    rcases bind_ok rest with ⟨_, jumped, jump, rest⟩
    rcases bind_ok rest with ⟨_, decided, free, rest⟩
    rcases bind_ok rest with ⟨_, inside, inner, rest⟩
    rcases bind_ok rest with ⟨_, left, leaving, rest⟩
    rcases bind_ok rest with ⟨_, skipped, place, outer⟩
    rcases bodyTrace visible inner with ⟨one, seen, bodyRun, rfl, innerPath, enclosed⟩
    rcases othersTrace seen outer with ⟨two, final, othersRun, rfl, outerPath, others⟩
    have testPath : Path env (tested (some subject) false (.caseSkip mark.id index) mark.line
        ⟨value, ⟨before, computed⟩, register⟩) before decided :=
      ⟨computed, ⟨rfl, first⟩, jumped, jump, decided, free, rfl⟩
    refine ⟨.arm mark index (visible, ⟨value, ⟨before, computed⟩, register⟩) one two, final, ?_,
      rfl, ?_, enclosed, others⟩
    · exact .bind (.bind (.figure first) (.bind (.observe jump) (.bind (.observe free) rfl)))
        (bodyRun.bind (.bind (.observe leaving) (.bind (.observe place) (othersRun.bind rfl))))
    · refine ((testPath.append innerPath).append ?_).append outerPath
      exact ⟨left, leaving, skipped, place, rfl⟩
  | giveBack note deed =>
    rcases bind_ok ends with ⟨_, pushed, done, jump⟩
    exact ⟨.giveBack ⟨note, visible, before, pushed⟩ deed, visible,
      .bind rfl (.bind (.observe done) (.bind rfl (.bind (.observe jump) rfl))), rfl,
      ⟨pushed, ⟨rfl, done⟩, after, jump, rfl⟩, trivial⟩
  | throw line value =>
    rcases bind_ok ends with ⟨register, computed, first, rest⟩
    rcases bind_ok rest with ⟨_, thrown, throwing, free⟩
    exact ⟨.throw line (visible, ⟨value, ⟨before, computed⟩, register⟩), visible,
      .bind (.figure first) (.bind (.observe throwing) (.bind (.observe free) rfl)), rfl,
      ⟨computed, ⟨rfl, first⟩, thrown, throwing, after, free, rfl⟩, trivial⟩
  | leave line =>
    cases loops with
    | nil => cases ends
    | cons inner outer =>
      exact ⟨.leave line, visible, (Gives.observe ends).bind rfl, rfl, .single ends, rfl⟩
  | next line =>
    cases loops with
    | nil => cases ends
    | cons inner outer =>
      exact ⟨.next line, visible, (Gives.observe ends).bind rfl, rfl, .single ends, rfl⟩

end Emission

end Covenant
