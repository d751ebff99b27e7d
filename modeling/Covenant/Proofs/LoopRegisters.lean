import Covenant.Proofs.Scoping

/-!
# Registers of variables in loops

A variable gets its register at the assignment that comes first in the text,
but the code of a loop runs again and again.  What is emitted for a loop while
the variable has its register keeps the register; what was emitted earlier may
have used it as a temporary.  So the value of a variable survives the rounds
of a loop if the variable has its register when the loop starts, and in
general exactly if no part of the loop that was emitted before its first
assignment writes to that register.
-/

namespace Covenant

open Emission

/-- A simple statement or a value in emitted code. -/
structure Leaf where
  /-- The variable that it assigns. -/
  target : Option VarId
  span : Span

/-- No line of the span writes to the register. -/
def Span.Spares (span : Span) (register : Register) : Prop :=
  ∀ line ∈ span.lines, register.index ∉ line.destinations

/-- What a value contributes. -/
def Figure.leaf (figure : Figure) : Leaf :=
  ⟨none, figure.span⟩

namespace Flow

/-- The simple statements and the values of an emitted flow, in the order of their code. -/
def leaves : Flow Span Figure → List Leaf
  | .simple span deed => [⟨deed.target?, span⟩]
  | .seq first second => first.leaves ++ second.leaves
  | .within _ _ _ body => body.leaves
  | .expect _ condition message => [condition.leaf, message.leaf]
  | .branch _ condition body other => condition.leaf :: (body.leaves ++ other.leaves)
  | .whileLoop _ _ condition body => condition.leaf :: body.leaves
  | .doLoop _ _ body condition => body.leaves ++ [condition.leaf]
  | .forLoop _ _ condition body step => condition.leaf :: (body.leaves ++ step.leaves)
  | .switch _ subject arms => subject.leaf :: arms.leaves
  | .arm _ _ value body others => value.leaf :: (body.leaves ++ others.leaves)
  | .giveBack span deed => [⟨deed.target?, span⟩]
  | .throw _ value => [value.leaf]
  | _ => []

def loopNote? {Note Value : Type} : Flow Note Value → Option Note
  | .whileLoop note _ _ _ => some note
  | .doLoop note _ _ _ => some note
  | .forLoop note _ _ _ _ => some note
  | _ => none

/-- The simple statements of a flow. -/
def deeds {Note Value : Type} : Flow Note Value → List Deed
  | .simple _ deed => [deed]
  | .seq first second => first.deeds ++ second.deeds
  | .within _ _ _ body => body.deeds
  | .branch _ _ body other => body.deeds ++ other.deeds
  | .whileLoop _ _ _ body => body.deeds
  | .doLoop _ _ body _ => body.deeds
  | .forLoop _ _ _ body step => body.deeds ++ step.deeds
  | .switch _ _ arms => arms.deeds
  | .arm _ _ _ body others => body.deeds ++ others.deeds
  | .giveBack _ deed => [deed]
  | _ => []

/-- The leaves of a flow that stand before its first assignment to a variable. -/
def leavesBefore (id : VarId) (flow : Flow Span Figure) : List Leaf :=
  flow.leaves.takeWhile fun leaf => leaf.target ≠ some id

/-- Only assignments to the variable write to the register. -/
def Keeps (flow : Flow Span Figure) (id : VarId) (register : Register) : Prop :=
  ∀ leaf ∈ flow.leaves, leaf.target ≠ some id → leaf.span.Spares register

/-- Every simple statement runs from its first line to its last. -/
def Straight {Note Value : Type} (flow : Flow Note Value) : Prop :=
  ∀ deed ∈ flow.deeds, deed.turns = false

/-- The simple statements of a part are simple statements of the flow. -/
theorem deeds_of_mem_parts {Note Value : Type} {flow part : Flow Note Value}
    {around inner : Surroundings} (member : (inner, part) ∈ flow.parts around)
    {deed : Deed} (listed : deed ∈ part.deeds) :
    deed ∈ flow.deeds := by
  induction flow generalizing around with
  | _ => grind [Flow.parts, Flow.deeds]

end Flow

namespace Emission

variable {env : Env}

/-- The simple statement or the value of a step. -/
def Step.leaf? : Step → Option Leaf
  | .deed span task => some ⟨task.target?, span⟩
  | .figure _ value => some value.leaf
  | _ => none

/-- The leaves of a flow are the leaves of its steps. -/
theorem leaves_of_steps (emitted : EmittedFlow) (exit : Label) (loops : LoopStack)
    (subject : Register) :
    (emitted.steps exit loops subject).filterMap Step.leaf? = emitted.leaves := by
  induction emitted generalizing loops subject with
  | _ => simp_all [Flow.steps, Flow.leaves, Step.leaf?, tested, List.filterMap_cons]

/-- The simple statement of a step. -/
def Step.deed? : Step → Option Deed
  | .deed _ task => some task
  | _ => none

/-- The simple statements of a flow are those of its steps. -/
theorem deeds_of_steps (emitted : EmittedFlow) (exit : Label) (loops : LoopStack)
    (subject : Register) :
    (emitted.steps exit loops subject).filterMap Step.deed? = emitted.deeds := by
  induction emitted generalizing loops subject with
  | _ => simp_all [Flow.steps, Flow.deeds, Step.deed?, tested, List.filterMap_cons]

variable {before after : Generator} {step : Step} {leaf : Leaf} {held : List Register} {span : Span}

/-- A leaf knows when it was emitted. -/
theorem Step.Happens.leaf_span (happens : step.Happens env before after)
    (isLeaf : step.leaf? = some leaf) : leaf.span = ⟨before, after⟩ := by
  cases step with
  | deed span task | figure subject value =>
    cases isLeaf
    exact happens.1
  | _ => cases isLeaf

/-- A leaf runs through if it is not a simple statement that turns. -/
theorem Step.turnless (runs : ∀ task, step.deed? = some task → task.turns = false)
    (isLeaf : step.leaf? = some leaf) : step.turns = false := by
  cases step with
  | deed span task => exact runs task rfl
  | turn turn => cases isLeaf
  | _ => rfl

/-- What a leaf adds are straight lines that keep the registers in use, apart from its target's. -/
theorem Step.appends {kept : List Nat} (owned : Owned before held)
    (happens : step.Happens env before after) (isLeaf : step.leaf? = some leaf)
    (straight : step.turns = false) (covers : Covers before held kept)
    (apart : ∀ id register, leaf.target = some id →
      before.bindings.lookup id = some register → register.index ∉ kept) :
    Appends kept before after := by
  cases step with
  | deed span task =>
    cases isLeaf
    exact (deed_ends owned covers apart happens.2).2.appends straight
  | figure subject value =>
    exact (valueCode_computes env subject value.expr owned covers happens.2).2.appends
  | _ => cases isLeaf

/-- The lines of a leaf keep the register of every variable that it does not assign. -/
theorem Step.spares {id : VarId} {register : Register} (owned : Owned before held)
    (happens : step.Happens env before after) (isLeaf : step.leaf? = some leaf)
    (straight : step.turns = false) (different : leaf.target ≠ some id)
    (bound : before.bindings.lookup id = some register) : leaf.span.Spares register := by
  have covers : Covers before held [register.index] := by
    intro index member
    rw [List.mem_singleton.mp member]
    exact Generator.mem_indices_bound bound held
  have apart : ∀ other taken, leaf.target = some other →
      before.bindings.lookup other = some taken → taken.index ∉ [register.index] := by
    intro other taken assigned found same
    have distinct : other ≠ id := by
      rintro rfl
      exact different assigned
    exact owned.bindings_apart found bound distinct (List.mem_singleton.mp same)
  rcases Step.appends owned happens isLeaf straight covers apart with ⟨added, lines, spare⟩
  rw [happens.leaf_span isLeaf]
  intro line member writes
  simp only [Span.lines, lines, List.drop_left] at member
  exact ((spare line member).writes _ writes).1 (by simp)

namespace Walk

variable {emitted : EmittedFlow} {exit : Label} {loops : LoopStack} {subject : Register}
  {before after : Generator} {held later : List Register} {id : VarId} {register : Register}

/-- A walk along a flow comes by each of its leaves. -/
theorem reaches_leaf (walk : Walk env (emitted.steps exit loops subject) before held after later)
    {leaf : Leaf} (member : leaf ∈ emitted.leaves) :
    ∃ earlier step rest heldThere, emitted.steps exit loops subject = earlier ++ step :: rest ∧
      step.leaf? = some leaf ∧ Walk env earlier before held leaf.span.before heldThere ∧
      Walk env (step :: rest) leaf.span.before heldThere after later := by
  rw [← leaves_of_steps emitted exit loops subject] at member
  rcases List.mem_filterMap.mp member with ⟨step, listed, isLeaf⟩
  rcases List.append_of_mem listed with ⟨earlier, rest, steps⟩
  rw [steps] at walk
  rcases walk.split with ⟨first, heldThere, start, further⟩
  rcases further.cons with ⟨between, middle, happens, -, -, -⟩
  have located : leaf.span.before = first := by rw [happens.leaf_span isLeaf]
  exact ⟨earlier, step, rest, heldThere, steps, isLeaf, located ▸ start, located ▸ further⟩

/-- Only the leaves of a flow write to registers. -/
theorem written_by_leaf
    (walk : Walk env (emitted.steps exit loops subject) before held after later) {line : Line}
    (member : line ∈ Span.lines ⟨before, after⟩) (writes : line.destinations ≠ []) :
    ∃ leaf ∈ emitted.leaves, line ∈ leaf.span.lines := by
  simp only [Span.lines, walk.lines, List.drop_left, List.mem_flatMap] at member
  rcases member with ⟨step, listed, written⟩
  have placed : ∃ leaf, step.leaf? = some leaf ∧ leaf.span.lines = step.lines := by
    cases step with
    | deed span task | figure subject value => exact ⟨_, rfl, rfl⟩
    | turn turn =>
      rw [List.mem_singleton.mp written, turn.destinations_line] at writes
      exact absurd rfl writes
    | _ => cases written
  rcases placed with ⟨leaf, isLeaf, lines⟩
  refine ⟨leaf, ?_, by rw [lines]; exact written⟩
  rw [← leaves_of_steps emitted exit loops subject]
  exact List.mem_filterMap.mpr ⟨step, listed, isLeaf⟩

/--
A leaf that does not assign a variable from outside leaves the register of the
variable alone, if the variable had it when the leaf was emitted.
-/
theorem leaf_spares (walk : Walk env (emitted.steps exit loops subject) before held after later)
    (straight : emitted.Straight) (outer : Outer env (emitted.steps exit loops subject) id)
    (bound : after.bindings.lookup id = some register) {leaf : Leaf}
    (member : leaf ∈ emitted.leaves) (different : leaf.target ≠ some id)
    (binds : leaf.span.before.Binds id) :
    leaf.span.Spares register := by
  rcases walk.reaches_leaf member with ⟨earlier, step, rest, heldThere, steps, isLeaf, -, further⟩
  have listed : step ∈ emitted.steps exit loops subject := by simp [steps]
  have turnless : step.turns = false := by
    refine Step.turnless (fun task isDeed => straight task ?_) isLeaf
    rw [← deeds_of_steps emitted exit loops subject]
    exact List.mem_filterMap.mpr ⟨_, listed, isDeed⟩
  rw [steps] at outer
  rcases Option.isSome_iff_exists.mp binds with ⟨found, present⟩
  have kept := further.keeps (outer.mono fun step member => List.mem_append_right _ member)
    present
  rw [bound] at kept
  cases kept
  rcases further.cons with ⟨between, middle, happens, -, -, -⟩
  exact Step.spares further.owned happens isLeaf turnless different present

/--
At a leaf a variable from outside has its register if it had one before the
flow, and otherwise once the flow has assigned it.
-/
theorem binds_or_mem_leavesBefore
    (walk : Walk env (emitted.steps exit loops subject) before held after later)
    (outer : Outer env (emitted.steps exit loops subject) id) {leaf : Leaf}
    (member : leaf ∈ emitted.leaves) (different : leaf.target ≠ some id) :
    leaf.span.before.Binds id ∨ ¬ before.Binds id ∧ leaf ∈ emitted.leavesBefore id := by
  rcases walk.reaches_leaf member with ⟨earlier, step, rest, heldThere, steps, isLeaf, start, -⟩
  rw [steps] at outer
  rw [start.binds_iff (outer.mono fun step member => List.mem_append_left _ member)]
  by_cases bound : before.Binds id
  · exact Or.inl (Or.inl bound)
  by_cases assigned : ∃ step ∈ earlier, step.target? = some id
  · exact Or.inl (Or.inr assigned)
  refine Or.inr ⟨bound, ?_⟩
  have untouched : ∀ other ∈ earlier.filterMap Step.leaf?, other.target ≠ some id := by
    intro other among target
    rcases List.mem_filterMap.mp among with ⟨assigning, listed, isOther⟩
    refine assigned ⟨assigning, listed, ?_⟩
    cases assigning with
    | deed span task =>
      cases isOther
      exact target
    | figure subject value =>
      cases isOther
      cases target
    | _ => cases isOther
  rw [Flow.leavesBefore, ← leaves_of_steps emitted exit loops subject, steps,
    List.filterMap_append, List.filterMap_cons_some isLeaf,
    List.takeWhile_append_of_pos (by simpa using untouched),
    List.takeWhile_cons_of_pos (by simpa using different)]
  simp

/--
The register of a variable from outside survives a flow exactly if the
variable has the register before the flow, or nothing in the flow before the
first assignment to the variable writes to it.
-/
theorem keeps_iff (walk : Walk env (emitted.steps exit loops subject) before held after later)
    (straight : emitted.Straight) (outer : Outer env (emitted.steps exit loops subject) id)
    (bound : after.bindings.lookup id = some register) :
    emitted.Keeps id register ↔ before.Binds id ∨
      ∀ leaf ∈ emitted.leavesBefore id, leaf.span.Spares register := by
  constructor
  · intro keeps
    refine Or.inr fun leaf among => ?_
    have different := List.all_eq_true.mp List.all_takeWhile leaf among
    exact keeps leaf (List.takeWhile_subset _ among) (by simpa using different)
  · intro spares leaf member different
    rcases walk.binds_or_mem_leavesBefore outer member different with binds | ⟨late, among⟩
    · exact walk.leaf_spares straight outer bound member different binds
    · exact spares.resolve_left late leaf among

end Walk

/-! ## Loops -/

/-- A path that opens and closes a span has it between its ends. -/
theorem span_of_path {steps : List Step} (path : Path env steps before after) (front : List Step)
    (shape : steps = .opens span :: front ++ [.closes span]) : span = ⟨before, after⟩ := by
  rw [shape] at path
  rcases path with ⟨_, ⟨start, rfl⟩, path⟩
  rcases Path.split path with ⟨last, -, closing⟩
  rcases closing with ⟨_, ⟨finish, rfl⟩, rfl⟩
  cases span
  simp_all

/-- The steps of a loop open and close its span. -/
theorem loop_steps {loop : EmittedFlow} (isLoop : loop.loopNote? = some span) (exit : Label)
    (loops : LoopStack) (subject : Register) :
    ∃ front, loop.steps exit loops subject = .opens span :: front ++ [.closes span] := by
  have ends : (loop.steps exit loops subject).head? = some (.opens span) ∧
      (loop.steps exit loops subject).tail.getLast? = some (.closes span) := by
    cases loop <;> cases isLoop <;> simp [Flow.steps, List.getLast?_cons]
  rcases List.head?_eq_some_iff.mp ends.1 with ⟨rest, shape⟩
  rw [shape] at ends ⊢
  rcases List.getLast?_eq_some_iff.mp ends.2 with ⟨front, rfl⟩
  exact ⟨front, rfl⟩

/-- The span of a loop lies between the ends of the walk through it. -/
theorem Walk.loop_span {loop : EmittedFlow} {exit : Label} {loops : LoopStack} {subject : Register}
    {later : List Register}
    (walk : Walk env (loop.steps exit loops subject) before held after later)
    (isLoop : loop.loopNote? = some span) : span = ⟨before, after⟩ := by
  rcases loop_steps isLoop exit loops subject with ⟨front, shape⟩
  exact span_of_path walk.path front shape

end Emission

end Covenant
