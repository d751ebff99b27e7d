import Covenant.Proofs.Bodies
import Covenant.Proofs.JumpCode

/-!
# The code of a body and its structure

A body is written with conditions, loops and cases, and emitted as lines with
labels and jumps.  `body_runs_iff` says that stepping through the lines is the
same as performing the structure: for all outcomes of the tests, what is run,
what is asked and what is thrown agree, one after the other, and so does the
way in which the body ends.
-/

namespace Covenant

open Emission

namespace Body.Settled

variable {env : Env} {module : Module} {body : Body} {start finish : Generator}
  {emitted : EmittedFlow}

/-- The lines of a body are those of its steps. -/
theorem lines (settled : body.Settled env module start finish emitted) :
    (Span.region ⟨start, finish⟩).lines =
      (emitted.steps (.exit body.name) [] noSubject).flatMap Step.lines := by
  show Span.lines ⟨start, finish⟩ = _
  rw [Span.lines, settled.walk.lines, List.drop_left]

theorem turnless (settled : body.Settled env module start finish emitted)
    (free : Node.AssemblyFree body.block.nodes) :
    ∀ step ∈ emitted.steps (.exit body.name) [] noSubject, ∀ task, step.deed? = some task →
      task.turns = false := by
  intro step member task isDeed
  refine settled.straight free task ?_
  rw [← deeds_of_steps emitted (.exit body.name) [] noSubject]
  exact List.mem_filterMap.mpr ⟨step, member, isDeed⟩

theorem even (settled : body.Settled env module start finish emitted)
    (free : Node.AssemblyFree body.block.nodes) :
    ∀ step ∈ emitted.steps (.exit body.name) [] noSubject, step.Even :=
  settled.walk.even (settled.turnless free)

/-- The labels in the lines of a body are those of its flow. -/
theorem labels (settled : body.Settled env module start finish emitted)
    (free : Node.AssemblyFree body.block.nodes) :
    (Span.region ⟨start, finish⟩).lines.filterMap Line.label? = body.block.flow.labels := by
  rw [settled.lines, labels_of_lines (settled.even free), labels_of_steps, ← settled.plan,
    EmittedFlow.plan, Flow.labels_map]

theorem labelled (settled : body.Settled env module start finish emitted)
    (free : Node.AssemblyFree body.block.nodes) : (Span.region ⟨start, finish⟩).Labelled := by
  refine Region.labelled_of_nodup ?_
  rw [settled.labels free]
  exact settled.sited.distinct

/-- The exit of a body is not among its lines. -/
theorem outside (settled : body.Settled env module start finish emitted)
    (free : Node.AssemblyFree body.block.nodes) :
    (Span.region ⟨start, finish⟩).place? (.exit body.name) = none := by
  rw [Region.place?, List.idxOf?_eq_none_iff.mpr, Option.map_none]
  intro member
  have listed : .exit body.name ∈ body.block.flow.labels := by
    rw [← settled.labels free]
    exact List.mem_filterMap.mpr ⟨_, member, rfl⟩
  exact absurd (settled.sited.numbered _ listed) (Nat.lt_irrefl 0)

theorem laid (settled : body.Settled env module start finish emitted)
    (free : Node.AssemblyFree body.block.nodes) :
    Laid (Span.region ⟨start, finish⟩) (emitted.steps (.exit body.name) [] noSubject)
      start.lines.length finish.lines.length := by
  refine settled.walk.laid (settled.even free) ?_
  rw [← settled.lines]
  exact Region.Holds.whole (Span.region ⟨start, finish⟩)

/-- A body ends where its region ends. -/
theorem region_finish (settled : body.Settled env module start finish emitted) :
    (Span.region ⟨start, finish⟩).finish = finish.lines.length := by
  rw [Region.finish, settled.lines, settled.walk.lines, List.length_append]
  rfl

/-- The machine does what a body performs, up to the end of the body. -/
theorem runs (settled : body.Settled env module start finish emitted)
    (free : Node.AssemblyFree body.block.nodes)
    (ends : (Emission.inMethod env (.exit body.name) body.block).Ends start () finish)
    (outcomes : List Bool) :
    (Span.region ⟨start, finish⟩).Runs (.exit body.name) start.lines.length outcomes
      (emitted.perform outcomes).sights (emitted.perform outcomes).last
      (emitted.perform outcomes).rest := by
  rw [inMethod_eq env (.exit body.name) body.block noSubject] at ends
  have enclosed : emitted.plan.Enclosed false := by
    rw [settled.plan]
    exact Flow.enclosed_of_ends body.block.flow ends
  have wired : emitted.plan.Wired none := by
    rw [settled.plan]
    exact Stmt.wired_flow.2.2 body.block.statements
  have follows := emitted.follows (settled.labelled free) (settled.outside free)
    (settled.laid free) ((emitted.enclosed_map _ _ _).mp enclosed)
    ((emitted.wired_map _ _ _).mp wired) nofun outcomes
  unfold Region.Follows at follows
  cases ending : (emitted.perform outcomes).last with
  | through =>
    rw [ending] at follows
    have arrived := follows _ _ _ (settled.region_finish ▸ Region.runs_finish _)
    rwa [List.append_nil] at arrived
  | left | again =>
    rw [ending] at follows
    rcases follows with ⟨target, there, found, -⟩
    cases found
  | _ =>
    rw [ending] at follows
    exact follows

/-- What holds on all runs of a body holds of all that it performs. -/
theorem onRuns_iff (settled : body.Settled env module start finish emitted)
    (free : Node.AssemblyFree body.block.nodes)
    (ends : (Emission.inMethod env (.exit body.name) body.block).Ends start () finish)
    {right : List Bool → Ending → Prop} :
    (∀ outcomes sights ending rest,
      (Span.region ⟨start, finish⟩).Runs (.exit body.name) start.lines.length outcomes sights
        ending rest → right outcomes ending) ↔
      ∀ outcomes, right outcomes (emitted.perform outcomes).last := by
  constructor
  · intro holds outcomes
    exact holds outcomes _ _ _ (settled.runs free ends outcomes)
  · intro holds outcomes sights ending rest ran
    rcases (settled.runs free ends outcomes).unique ran with ⟨-, rfl, -⟩
    exact holds outcomes

end Body.Settled

namespace Emission

/--
Stepping through the lines of a body is performing the body as it is written.
What is run for a part of the performance is the code that was emitted for it.
-/
theorem body_runs_iff {interface? : String → Option Interface} {source : String}
    {program : Program} {env : Env} {module : Module} {body : Body} {start finish : Generator}
    (accepted : Program.read interface? source = .ok program)
    (emits : program.Emits env module body start finish)
    (free : Node.AssemblyFree body.block.nodes) :
    ∃ emitted, body.Realized env start finish emitted ∧ ∀ outcomes,
      (emitted.perform outcomes).map (fun _ => ()) Figure.expr =
          body.block.flow.perform outcomes ∧
        ∀ sights ending rest,
          (Span.region ⟨start, finish⟩).Runs (.exit body.name) start.lines.length outcomes
              sights ending rest ↔
            sights = (emitted.perform outcomes).sights ∧
              ending = (body.block.flow.perform outcomes).last ∧
              rest = (body.block.flow.perform outcomes).rest := by
  rcases emits.exists_settled accepted with ⟨emitted, settled⟩
  refine ⟨emitted, settled.toRealized, fun outcomes => ?_⟩
  have same : (emitted.perform outcomes).map (fun _ => ()) Figure.expr =
      body.block.flow.perform outcomes := by
    rw [← settled.plan, EmittedFlow.plan, Flow.perform_map]
  refine ⟨same, fun sights ending rest => ?_⟩
  rw [← same]
  have runs := settled.runs free emits.ends outcomes
  constructor
  · exact fun other => runs.unique other
  · rintro ⟨rfl, rfl, rfl⟩
    exact runs

/-- A method with every kind of construct, and jumps out of a case to the loop around it. -/
def everyTurn : List String :=
  ["contract test \x7b import Runtime; ", "public f(n:number):number \x7b ",
    "Runtime.expect(n > 0, \"none\"); ", "local s:number = 0; ",
    "for (local i:number = 0; i < n; i += 1) \x7b ", "switch (i) \x7b case 3: continue; ",
    "case 5: break; default: s += i; \x7d ", "while (s < i) \x7b s += 1; \x7d ",
    "do \x7b if (s == 7) \x7b throw \"seven\"; \x7d ",
    "else \x7b s += 2; \x7d \x7d while (s < n); \x7d ",
    "return s; \x7d \x7d"]

/-- Its lines throw if the first test fails, and give back a value if the loop has no rounds. -/
theorem body_runs_iff_everyTurn :
    ∃ program env module body start finish,
      Program.read (fun _ => none) (String.join everyTurn) = .ok program ∧
      program.Emits env module body start finish ∧ Node.AssemblyFree body.block.nodes ∧
      ∀ outcomes ending,
        (outcomes, ending) ∈ [([false], Ending.threw), ([true, false], .returned)] →
        ∃ sights, (Span.region ⟨start, finish⟩).Runs (.exit body.name) start.lines.length outcomes
          sights ending [] := by
  have holds : hasBody (fun _ _ body => decide (∀ entry ∈ [([false], Ending.threw),
      ([true, false], .returned)], (body.block.flow.perform entry.1).last = entry.2 ∧
        (body.block.flow.perform entry.1).rest = [])) everyTurn = true := by
    decide +kernel
  rcases exists_body holds with
    ⟨program, env, module, body, start, finish, accepted, emits, free, ends⟩
  rcases body_runs_iff accepted emits free with ⟨emitted, -, known⟩
  refine ⟨program, env, module, body, start, finish, accepted, emits, free, ?_⟩
  intro outcomes ending listed
  rcases of_decide_eq_true ends _ listed with ⟨last, rest⟩
  exact ⟨_, ((known outcomes).2 _ _ _).mpr ⟨rfl, last.symm, rest.symm⟩⟩

end Emission

end Covenant
