import Covenant.Proofs.Bodies

/-!
# The register discipline of a module

While a module is emitted, the registers in use are those of variables and
those that nodes hold, at every moment.  A value takes one register, a block
gives registers to variables from outside only, and when all bodies have been
emitted no register is in use, so the code can be handed over.

A loop is entered before the code of its body and left behind it.  So a value
and a block leave the stack of loops as it was, and what follows a block is
emitted with the loops that stood before it.
-/

namespace Covenant.Emission

variable {env : Env}

/-- One more register is in use, and no variable has got or lost one. -/
structure TakesOne (before : Generator) (register : Register) (after : Generator) : Prop where
  bindings : after.bindings = before.bindings
  free : ¬ before.registers.Holds register.index
  taken : ∀ index, after.registers.Holds index ↔
    index = register.index ∨ before.registers.Holds index

/-- A value is left in a register that was free. -/
theorem expression_takes {expr : Expr} {before after : Generator} {held : List Register}
    {register : Register} (owned : Owned before held)
    (ends : (expression env expr).Ends before register after) :
    Owned after (register :: held) ∧ TakesOne before register after := by
  rcases expression_computes env expr owned (covers_indices before held) ends with
    ⟨ownedAfter, adds⟩
  have indices : after.indices (register :: held) = register.index :: before.indices held := by
    simp [Generator.indices, adds.bindings]
  refine ⟨ownedAfter, adds.bindings, ?_, ?_⟩
  · have distinct := ownedAfter.distinct
    simp only [List.singleton_append, indices, List.nodup_cons] at distinct
    rw [owned.taken]
    exact distinct.1
  · intro index
    rw [ownedAfter.taken, List.singleton_append, indices, List.mem_cons, owned.taken]

/-- Code that knows of no loops leaves them alone. -/
theorem lift_keeps {Outcome : Type} {code : Emission Outcome} {frame later : Frame}
    {before after : Generator} {outcome : Outcome}
    (ends : ((code : Framed Outcome).run frame).Ends before (outcome, later) after) :
    later = frame := by
  rcases bind_ok ends with ⟨_, _, -, same⟩
  cases same
  rfl

/-- A block in a method leaves every loop that it enters. -/
theorem block_keeps {body : Block} {loops : LoopStack} {exit : Label} {later : Frame}
    {before after : Generator}
    (ends : ((block env body).run ⟨loops, some exit⟩).Ends before ((), later) after) :
    later = ⟨loops, some exit⟩ := by
  rw [block_keeping env exit loops body noSubject] at ends
  rcases bind_ok ends with ⟨_, _, -, same⟩
  cases same
  rfl

/-- The steps of a block open and close its span. -/
theorem Walk.within_span {span : Span} {scope : ScopeId} {line : Nat} {body : EmittedFlow}
    {exit : Label} {loops : LoopStack} {subject : Register} {before after : Generator}
    {held later : List Register}
    (walk : Walk env ((Flow.within span scope line body).steps exit loops subject)
      before held after later) :
    span = ⟨before, after⟩ := by
  refine span_of_path walk.path
    (.enter scope :: body.steps exit loops subject ++ [.leave scope line]) ?_
  simp [Flow.steps]

/-- What the emission of a module does with registers. -/
structure Disciplined (program : Program) (env : Env) (module : Module) : Prop where
  /-- Every moment is owned, whether emission succeeds in the end or not. -/
  moments : ∀ rest later held,
    Reaches (content env module.scope module.content) {} [] rest later held → Owned later held
  /-- A value takes a register that was free, and leaves it in use. -/
  values : ∀ expr before held register after, Owned before held →
    (expression env expr).Ends before register after →
      Owned after (register :: held) ∧ TakesOne before register after
  /-- A value leaves the loops around it as they were. -/
  valueLoops : ∀ expr frame before register later after,
    ((expression env expr : Framed Register).run frame).Ends before (register, later) after →
      later = frame
  /-- So does a block, whatever loops it has in it. -/
  blockLoops : ∀ body loops exit before later after,
    ((block env body).run ⟨loops, some exit⟩).Ends before ((), later) after →
      later = ⟨loops, some exit⟩
  /-- After a block, variables have a register as before, or are assigned in it and not its own. -/
  blocks : ∀ last, (content env module.scope module.content).Ends {} () last →
    ∀ body ∈ module.routines, ∃ start finish emitted,
      program.Emits env module body start finish ∧ body.Realized env start finish emitted ∧
      ∀ around span scope line inner,
        (around, .within span scope line inner) ∈
            emitted.parts ⟨[body.scope, module.scope], []⟩ →
          ∀ id, span.after.Binds id ↔ span.before.Binds id ∨
            id ∈ inner.assigned ∧ ¬ program.scopes.Declares (scope :: inner.scopes) id
  /-- If all bodies can be emitted, the code is handed over. -/
  handed : ∀ last, (content env module.scope module.content).Ends {} () last →
    ∃ code, moduleCode env module = .ok code ∧
      code.stats.allocations = code.stats.deallocations ∧ code.stats.peak ≤ 31

/-- Every module of a program that has been read is emitted with discipline. -/
theorem module_disciplined {interface? : String → Option Interface} {source : String}
    {program : Program} {module : Module} (env : Env)
    (accepted : Program.read interface? source = .ok program)
    (listed : ∃ top ∈ program.modules, module ∈ top.inOrder)
    (scopes : env.scopes = program.scopes) (named : env.moduleName = module.name) :
    Disciplined program env module := by
  refine ⟨?_, fun _ _ _ _ _ => expression_takes, fun _ _ _ _ _ _ => lift_keeps,
    fun _ _ _ _ _ _ => block_keeps, ?_, ?_⟩
  · intro rest later held reached
    have readable (line : Nat) (body : Block) : ReadableBody .lax line body :=
      ⟨False.elim, BlockOf.readable_flow False.elim⟩
    have dropped (scope : ScopeId) : Dropped .lax (env.scopes.declaredIn scope) :=
      fun _ _ _ => ⟨id, False.elim⟩
    have steady : Steady env .lax [] (content env module.scope module.content) :=
      content_steady dropped (fun _ => id) id False.elim (fun _ _ _ _ => readable _ _)
        fun _ _ => readable _ _
    exact ((steady {} [] (.lax Owned.start) False.elim).reaches reached).start.owned
  · intro last ends body member
    rcases exists_starts named ends member with ⟨start, finish, starts, inside⟩
    have emits : program.Emits env module body start finish := ⟨listed, scopes, starts, inside⟩
    rcases emits.exists_settled accepted with ⟨emitted, settled⟩
    refine ⟨start, finish, emitted, emits, settled.toRealized, ?_⟩
    intro around span scope line inner part id
    have coherent := settled.formed.coherent
    rcases settled.walk.part coherent settled.resolved settled.bound part with
      ⟨subject, first, heldFirst, final, heldFinal, walk, resolved, bound⟩
    cases walk.within_span
    rw [← scopes]
    exact walk.binds_after coherent resolved bound id
  · intro last ends
    rcases listed with ⟨top, among, inOrder⟩
    rcases read_sited accepted with ⟨formed, sited⟩
    rw [← scopes] at formed sited
    rcases content_clears formed (sited top among module inOrder) ends with ⟨owned, clear⟩
    have finished : ∃ code, last.finish env module.line = .ok code ∧
        code.stats.allocations = code.stats.deallocations ∧
        code.stats.peak ≤ registerCount - 1 :=
      finish_ok owned clear module.line
    rcases finished with ⟨code, handed, balance, peak⟩
    refine ⟨code, ?_, balance, peak⟩
    rw [moduleCode, show (content env module.scope module.content).run {} = .ok ((), last)
      from ends]
    exact handed

/-- A global and a local variable that are first assigned in blocks inside each other. -/
def innerAssignments : List String :=
  ["contract test \x7b global total:number; ", "constructor(owner:address) \x7b total = 0; \x7d ",
    "public f(n:number):number \x7b local s:number; ",
    "if (n > 2) \x7b while (total < n) \x7b local d:number = n - total; ",
    "s = d * 2; total += s; \x7d \x7d else \x7b s = 1; \x7d return s; \x7d \x7d"]

theorem module_disciplined_innerAssignments :
    ∃ program module last,
      Program.read (fun _ => none) (String.join innerAssignments) = .ok program ∧
      (∃ top ∈ program.modules, module ∈ top.inOrder) ∧
      (content (program.plainEnv module) module.scope module.content).Ends {} () last ∧
      module.routines ≠ [] ∧ Disciplined program (program.plainEnv module) module := by
  have holds : emitsModule (fun _ module => !module.routines.isEmpty) innerAssignments = true := by
    decide +kernel
  rcases exists_module holds with ⟨program, module, last, accepted, listed, ends, some⟩
  exact ⟨program, module, last, accepted, listed, ends, by simpa using some,
    module_disciplined _ accepted listed rfl rfl⟩

end Covenant.Emission
