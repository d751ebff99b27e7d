import Covenant.Proofs.EmittedFlow

/-!
# Along the code

What is known of the steps of an emitted flow one by one, and what follows for
all of them together.  A `Walk` is a path that starts from an owned state and
tells which registers nodes hold at its end; it can be cut anywhere, so a step
in the middle of a walk has a walk before it and a walk behind it.

A variable that no scope of the walk declares keeps its register once it has
one, and has one at the end exactly if it had one before or was assigned.
-/

namespace Covenant.Emission

variable {env : Env}

/-! ## Lines -/

variable {before after : Generator} {step : Step} {id : VarId}

/-- A run only ever adds lines. -/
theorem lines_added {Outcome : Type} (code : Emission Outcome) {outcome : Outcome}
    (ends : code.Ends before outcome after) : ∃ added, after.lines = before.lines ++ added := by
  unfold Ends at ends
  induction code generalizing before with
  | done value =>
    cases ends
    exact ⟨[], by simp⟩
  | fail error => cases ends
  | look next ih => exact ih before ends
  | take mark aliasName next ih =>
    simp only [run] at ends
    cases taking : before.take mark aliasName with
    | error error => simp [taking] at ends
    | ok pair =>
      rw [taking] at ends
      rcases ih pair.1 ends with ⟨added, lines⟩
      exact ⟨added, by rw [lines, (take_cases taking).2.2]⟩
  | act action next ih =>
    simp only [run] at ends
    cases performed : action.perform before with
    | error error => simp [performed] at ends
    | ok changed =>
      rw [performed] at ends
      rcases ih () ends with ⟨added, lines⟩
      have more : ∃ first, changed.lines = before.lines ++ first := by
        cases action with
        | write line =>
          cases performed
          exact ⟨[line], by simp [Generator.lines]⟩
        | give register line => exact ⟨[], by simp [(give_cases performed).2]⟩
        | _ =>
          cases performed
          exact ⟨[], by simp [Generator.lines]⟩
      rcases more with ⟨first, appended⟩
      exact ⟨first ++ added, by rw [lines, appended, List.append_assoc]⟩

/-- The lines of a span are what the run has added. -/
theorem lines_span {Outcome : Type} {code : Emission Outcome} {outcome : Outcome}
    (ends : code.Ends before outcome after) :
    after.lines = before.lines ++ Span.lines ⟨before, after⟩ := by
  rcases lines_added code ends with ⟨added, lines⟩
  rw [Span.lines, lines, List.drop_left]

/-! ## Single steps -/

namespace Step

/-- The lines that a step adds. -/
def lines : Step → List Line
  | .turn written => [written.line]
  | .deed span _ => span.lines
  | .figure _ value => value.span.lines
  | _ => []

/-- The variable that a step assigns. -/
def target? : Step → Option VarId
  | .deed _ task => task.target?
  | _ => none

/-- The code of the step may not run from its first line to its last. -/
def turns : Step → Bool
  | .turn _ => true
  | .deed _ task => task.turns
  | _ => false

/-- The registers that nodes hold after a step, if it can be taken. -/
def held : Step → List Register → Option (List Register)
  | .figure _ value, registers => some (value.register :: registers)
  | .free register _, top :: rest => if top = register then some rest else none
  | .free _ _, [] => none
  | _, registers => some registers

/-- What a step does to the bindings of variables. -/
def Changes (env : Env) (before after : Generator) : Step → Prop
  | .deed _ task => Rebinds task.target? before after
  | .leave scope _ =>
    after.bindings = without (locals (env.scopes.declaredIn scope)) before.bindings
  | _ => after.bindings = before.bindings

end Step

theorem valueCode_computes (env : Env) (subject : Option Register) (expr : Expr) :
    Computes (valueCode env subject expr) := by
  cases subject with
  | none => exact expression_computes env expr
  | some subject => exact comparison_computes env subject expr

/-- One step: what is held, which lines are added and what happens to the bindings. -/
theorem Step.effect {registers later : List Register} (owned : Owned before registers)
    (holding : step.held registers = some later) (happens : step.Happens env before after) :
    Owned after later ∧ after.lines = before.lines ++ step.lines ∧
      step.Changes env before after := by
  cases step with
  | turn written =>
    cases holding
    rcases owned.written happens with ⟨ownedLater, same, lines⟩
    exact ⟨ownedLater, lines, same⟩
  | deed span task =>
    cases holding
    rcases happens with ⟨rfl, ends⟩
    have covers : Covers before registers [] := by simp [Covers]
    rcases deed_ends owned covers (by simp) ends with ⟨ownedLater, done⟩
    exact ⟨ownedLater, lines_span ends, done.rebinds⟩
  | figure subject value =>
    cases holding
    rcases happens with ⟨placed, ends⟩
    have covers : Covers before registers [] := by simp [Covers]
    rcases valueCode_computes env subject value.expr owned covers ends with ⟨ownedLater, added⟩
    refine ⟨ownedLater, ?_, added.bindings⟩
    show _ = _ ++ value.span.lines
    rw [placed]
    exact lines_span ends
  | free register number =>
    cases registers with
    | nil => cases holding
    | cons top rest =>
      simp only [Step.held] at holding
      split at holding
      · rename_i same
        cases holding
        cases same
        rcases owned.returned happens with ⟨ownedLater, same, lines⟩
        exact ⟨ownedLater, by simpa [Step.lines] using lines, same⟩
      · cases holding
  | enter scope =>
    cases holding
    cases happens
    exact ⟨owned, by simp [Step.lines], rfl⟩
  | leave scope number =>
    cases holding
    rcases releaseLocals_ends owned happens with ⟨ownedLater, lines, bindings⟩
    exact ⟨ownedLater, by simpa [Step.lines] using lines, bindings⟩
  | opens span | closes span =>
    cases holding
    rcases happens with ⟨_, rfl⟩
    exact ⟨owned, by simp [Step.lines], rfl⟩

/-! ## Many steps -/

/-- Something that changes from step to step, as long as the steps can be taken. -/
def follow {State : Type} (move : Step → State → Option State) :
    List Step → State → Option State
  | [], state => some state
  | step :: rest, state => (move step state).bind (follow move rest)

@[simp]
theorem follow_append {State : Type} (move : Step → State → Option State)
    (first second : List Step) (state : State) :
    follow move (first ++ second) state = (follow move first state).bind (follow move second) := by
  induction first generalizing state with
  | nil => rfl
  | cons step rest ih =>
    simp only [List.cons_append, follow, Option.bind_assoc]
    congr
    funext middle
    exact ih middle

theorem follow_jumpSteps {State : Type} {move : Step → State → Option State}
    (stays : ∀ target state, move (.turn (.jump target)) state = some state)
    (target? : Option Label) (state : State) :
    follow move (jumpSteps target?) state = some state := by
  cases target? <;> simp [jumpSteps, follow, stays]

/-- The steps of a flow leave what nodes hold alone. -/
theorem steps_settle (emitted : EmittedFlow) (exit : Label) (loops : LoopStack)
    (subject : Register) (held : List Register) :
    follow Step.held (emitted.steps exit loops subject) held = some held := by
  induction emitted generalizing loops subject held with
  | leave line | next line => exact follow_jumpSteps (fun _ _ => rfl) _ _
  | _ => simp_all [Flow.steps, follow, tested, Step.held]

/-- A path from an owned state, with what nodes hold at its ends. -/
structure Walk (env : Env) (steps : List Step) (before : Generator) (held : List Register)
    (after : Generator) (later : List Register) : Prop where
  path : Path env steps before after
  owned : Owned before held
  settles : follow Step.held steps held = some later

namespace Walk

variable {step : Step} {steps first second : List Step} {before after : Generator}
  {held later : List Register}

/-- A walk takes its first step and then goes on. -/
theorem cons (walk : Walk env (step :: steps) before held after later) :
    ∃ between middle, step.Happens env before between ∧
      between.lines = before.lines ++ step.lines ∧ step.Changes env before between ∧
      Walk env steps between middle after later := by
  rcases walk with ⟨⟨between, happens, further⟩, owned, settles⟩
  simp only [follow] at settles
  rcases Option.bind_eq_some_iff.mp settles with ⟨middle, holding, rest⟩
  rcases Step.effect owned holding happens with ⟨ownedLater, lines, changes⟩
  exact ⟨between, middle, happens, lines, changes, further, ownedLater, rest⟩

/-- Behind a walk the state is owned. -/
theorem ownedLater (walk : Walk env steps before held after later) : Owned after later := by
  induction steps generalizing before held with
  | nil =>
    rcases walk with ⟨path, owned, settles⟩
    cases path
    cases settles
    exact owned
  | cons step rest ih =>
    rcases walk.cons with ⟨between, middle, -, -, -, further⟩
    exact ih further

/-- A walk can be cut in two anywhere. -/
theorem split (walk : Walk env (first ++ second) before held after later) :
    ∃ between middle, Walk env first before held between middle ∧
      Walk env second between middle after later := by
  rcases walk with ⟨path, owned, settles⟩
  rcases path.split with ⟨between, left, right⟩
  rw [follow_append] at settles
  rcases Option.bind_eq_some_iff.mp settles with ⟨middle, holding, rest⟩
  have start : Walk env first before held between middle := ⟨left, owned, holding⟩
  exact ⟨between, middle, start, right, start.ownedLater, rest⟩

/-- The lines of a walk are the lines of its steps. -/
theorem lines (walk : Walk env steps before held after later) :
    after.lines = before.lines ++ steps.flatMap Step.lines := by
  induction steps generalizing before held with
  | nil =>
    cases walk.path
    simp
  | cons step rest ih =>
    rcases walk.cons with ⟨between, middle, -, added, -, further⟩
    rw [ih further, added, List.flatMap_cons, List.append_assoc]

end Walk

/-- None of the scopes that the steps leave declares the variable. -/
def Outer (env : Env) (steps : List Step) (id : VarId) : Prop :=
  ∀ scope line, Step.leave scope line ∈ steps →
    id ∉ locals (env.scopes.declaredIn scope)

theorem Outer.mono {steps fewer : List Step} (outer : Outer env steps id)
    (subset : ∀ step ∈ fewer, step ∈ steps) : Outer env fewer id := by
  intro scope line member
  exact outer scope line (subset _ member)

/-- A step does not take the register of a variable from outside away. -/
theorem Step.Changes.keeps {register : Register} (changes : step.Changes env before after)
    (outer : Outer env [step] id) (bound : before.bindings.lookup id = some register) :
    after.bindings.lookup id = some register := by
  cases step with
  | deed span task => exact Rebinds.keeps changes bound
  | leave scope line =>
    have outside := outer scope line (by simp)
    rw [show after.bindings = _ from changes, lookup_without, if_neg outside]
    exact bound
  | turn written | figure subject value | free freed line | enter scope | opens span
  | closes span => rwa [show after.bindings = _ from changes]

/-- After a step a variable from outside has a register if it had one or was assigned. -/
theorem Step.Changes.binds_iff (changes : step.Changes env before after)
    (outer : Outer env [step] id) : after.Binds id ↔ before.Binds id ∨ step.target? = some id := by
  have still : after.bindings = before.bindings → step.target? = none →
      (after.Binds id ↔ before.Binds id ∨ step.target? = some id) := by
    intro same untargeted
    simp [Generator.Binds, same, untargeted]
  cases step with
  | deed span task => exact Rebinds.binds_iff changes id
  | leave scope line =>
    have outside := outer scope line (by simp)
    simp [Generator.Binds, show after.bindings = _ from changes, lookup_without, outside,
      Step.target?]
  | turn written | figure subject value | free freed line | enter scope | opens span
  | closes span => exact still changes rfl

namespace Walk

variable {steps : List Step} {before after : Generator} {held later : List Register}
  {id : VarId}

/-- A variable from outside keeps the register it has. -/
theorem keeps (walk : Walk env steps before held after later) (outer : Outer env steps id)
    {register : Register} (bound : before.bindings.lookup id = some register) :
    after.bindings.lookup id = some register := by
  induction steps generalizing before held with
  | nil =>
    cases walk.path
    exact bound
  | cons step rest ih =>
    rcases walk.cons with ⟨between, middle, -, -, changes, further⟩
    refine ih further (outer.mono fun step member => List.mem_cons_of_mem _ member) ?_
    exact changes.keeps (outer.mono (by simp)) bound

/-- At the end a variable from outside has a register if it had one or was assigned. -/
theorem binds_iff (walk : Walk env steps before held after later)
    (outer : Outer env steps id) :
    after.Binds id ↔ before.Binds id ∨ ∃ step ∈ steps, step.target? = some id := by
  induction steps generalizing before held with
  | nil =>
    cases walk.path
    simp
  | cons step rest ih =>
    rcases walk.cons with ⟨between, middle, -, -, changes, further⟩
    rw [ih further (outer.mono fun step member => List.mem_cons_of_mem _ member),
      changes.binds_iff (outer.mono (by simp))]
    simp [or_assoc]

end Walk

end Covenant.Emission
