import Covenant.Proofs.Bodies

/-!
# Which variables a loop keeps

The code of a loop runs again and again, while registers are handed out in the
order of the text.  A variable that is declared outside the loop and first
assigned inside it takes a register that was free until then, and the code
before that assignment may use this register for something else; from the
second round on it overwrites the variable.

`loop_keeps_iff` tells exactly when this cannot happen.
-/

namespace Covenant.Emission

/--
A loop keeps the register of a variable from outside, except where it assigns
the variable, exactly if the variable has its register when the loop starts,
or no part of the loop before the first assignment to the variable writes to
the register.
-/
theorem loop_keeps_iff {interface? : String → Option Interface} {source : String}
    {program : Program} {env : Env} {module : Module} {body : Body} {start finish : Generator}
    (accepted : Program.read interface? source = .ok program)
    (emits : program.Emits env module body start finish)
    (free : Node.AssemblyFree body.block.nodes) :
    ∃ emitted, body.Realized env start finish emitted ∧
      ∀ around loop span, (around, loop) ∈ emitted.parts ⟨[body.scope, module.scope], []⟩ →
        loop.loopNote? = some span →
        (∀ line ∈ span.lines, line.destinations ≠ [] →
          ∃ leaf ∈ loop.leaves, line ∈ leaf.span.lines) ∧
        ∀ id register, program.scopes.Declares around.scopes id →
          span.after.bindings.lookup id = some register →
          (loop.Keeps id register ↔ span.before.Binds id ∨
            ∀ leaf ∈ loop.leavesBefore id, leaf.span.Spares register) := by
  rcases emits.exists_settled accepted with ⟨emitted, settled⟩
  refine ⟨emitted, settled.toRealized, ?_⟩
  intro around loop span member isLoop
  have coherent := settled.formed.coherent
  rcases settled.walk.part coherent settled.resolved settled.bound member with
    ⟨subject, first, heldFirst, last, heldLast, walk, resolved, -⟩
  have straight : loop.Straight := fun deed listed =>
    settled.straight free deed (Flow.deeds_of_mem_parts member listed)
  cases walk.loop_span isLoop
  refine ⟨fun line among writes => walk.written_by_leaf among writes, ?_⟩
  intro id register declared bound
  rw [← emits.scopes] at declared
  exact walk.keeps_iff straight
    (outer_of_not_declares coherent (not_declares_scopes coherent resolved declared)) bound

/-- A method whose result is first assigned inside its loop. -/
def lateResult : List String :=
  ["contract test \x7b public f(n:number):number \x7b ", "local i:number = 0; local v:number; ",
    "while (i < n) \x7b if (i == 0) \x7b v = 5; \x7d ", "i = i + 1; \x7d return v; \x7d \x7d"]

/-- The loop keeps the variables that have their registers before it. -/
theorem loop_keeps_iff_lateResult :
    ∃ program env module body start finish emitted around loop span,
      Program.read (fun _ => none) (String.join lateResult) = .ok program ∧
      program.Emits env module body start finish ∧ body.Realized env start finish emitted ∧
      (around, loop) ∈ emitted.parts ⟨[body.scope, module.scope], []⟩ ∧
      loop.loopNote? = some span ∧
      ∀ id register, program.scopes.Declares around.scopes id → span.before.Binds id →
        span.after.bindings.lookup id = some register → loop.Keeps id register := by
  have holds : hasBody (fun _ module body => (body.block.flow.parts
      ⟨[body.scope, module.scope], []⟩).any fun part => part.2.loopNote?.isSome)
      lateResult = true := by
    decide +kernel
  rcases exists_body holds with
    ⟨program, env, module, body, start, finish, accepted, emits, free, loops⟩
  rcases loop_keeps_iff accepted emits free with ⟨emitted, realized, known⟩
  rw [← realized.plan, EmittedFlow.plan, Flow.parts_map, List.any_map] at loops
  rcases List.any_eq_true.mp loops with ⟨⟨around, loop⟩, member, isLoop⟩
  have noted : loop.loopNote?.isSome = true := by
    cases loop <;> first | rfl | cases isLoop
  rcases Option.isSome_iff_exists.mp noted with ⟨span, isNote⟩
  exact ⟨program, env, module, body, start, finish, emitted, around, loop, span, accepted, emits,
    realized, member, isNote, fun id register declared binds bound =>
      ((known around loop span member isNote).2 id register declared bound).mpr (.inl binds)⟩

end Covenant.Emission
