import Covenant.Proofs.ControlFlow
import Covenant.Proofs.GlobalStorage
import Covenant.Proofs.Watching

/-!
# Constructors and the globals they assign

A constructor must assign each global of its module once.  What is counted are
the statements of its body that do this, wherever they stand, and not how often
they are run.  So one statement may be run many times, or not at all.

Whether a variable is assigned once on every way through a body can be told
from the body: a watcher that counts up to two has three states, and
`BlockOf.fillsOnce` looks at all ways at once.
-/

namespace Covenant

variable {decl : MethodDecl} {module : Module} {env : Env}

open Emission

/-! ## Counting assignments -/

/-- The variable that a simple statement replaces as a whole. -/
def Deed.filled? : Deed → Option VarId
  | .assign _ target .whole _ => some target
  | _ => none

/-- A variable is replaced as a whole. -/
def Happening.fills {Note Value : Type} (id : VarId) : Happening Note Value → Bool
  | .deed _ task => task.filled? == some id
  | _ => false

/-- A count that knows no difference between two and more. -/
inductive Tally where
  | never
  | once
  | often
deriving DecidableEq

namespace Tally

instance : Fintype Tally where
  elems := {never, once, often}
  complete tally := by cases tally <;> decide

/-- The count of a number of times. -/
def times : Nat → Tally
  | 0 => never
  | 1 => once
  | _ => often

/-- One more time. -/
def more : Tally → Tally
  | never => once
  | _ => often

/-- Count how often a variable is replaced as a whole. -/
def see {Note Value : Type} (id : VarId) (tally : Tally) (happening : Happening Note Value) :
    Tally :=
  if happening.fills id then tally.more else tally

theorem more_times (count : Nat) : (times count).more = times (count + 1) := by
  match count with
  | 0 | 1 | _ + 2 => rfl

theorem times_eq_once {count : Nat} : times count = once ↔ count = 1 := by
  match count with
  | 0 | 1 | _ + 2 => simp [times]

theorem foldl_see {Note Value : Type} (id : VarId) (happenings : List (Happening Note Value))
    (count : Nat) :
    happenings.foldl (see id) (times count) =
      times (count + happenings.countP (Happening.fills id)) := by
  induction happenings generalizing count with
  | nil => rfl
  | cons happening rest ih =>
    rw [List.foldl_cons, List.countP_cons, see]
    by_cases fills : happening.fills id = true
    · rw [if_pos fills, if_pos fills, more_times, ih]
      congr 1
      omega
    · rw [if_neg fills, if_neg fills, ih]
      rfl

end Tally

/-- The end of a body that comes to its exit. -/
def Ending.arrives : Ending → Bool
  | .through | .returned => true
  | _ => false

/-- On all ways through the block that come to its exit, the variable is replaced once. -/
def BlockOf.fillsOnce (block : Block) (id : VarId) : Bool :=
  decide (∀ way ∈ block.flow.ways (Tally.see id) .never,
    way.1.arrives = true → way.2 = .once)

/-- What can be told from a block holds for all outcomes. -/
theorem BlockOf.fillsOnce_iff {block : Block} {id : VarId} :
    block.fillsOnce id = true ↔ ∀ outcomes, (block.flow.perform outcomes).last.arrives = true →
      (block.flow.perform outcomes).happenings.countP (Happening.fills id) = 1 := by
  have counted : ∀ outcomes, (block.flow.perform outcomes).happenings.foldl (Tally.see id) .never =
      .once ↔ (block.flow.perform outcomes).happenings.countP (Happening.fills id) = 1 := by
    intro outcomes
    rw [show Tally.never = Tally.times 0 from rfl, Tally.foldl_see, Tally.times_eq_once,
      Nat.zero_add]
  rw [fillsOnce, decide_eq_true_iff]
  constructor
  · intro all outcomes arrives
    rw [← counted]
    exact all _ ((block.flow.ways_exact _ _ _).mpr ⟨outcomes, rfl, rfl⟩) arrives
  · rintro once ⟨ending, tally⟩ listed arrives
    rcases (block.flow.ways_exact _ _ _).mp listed with ⟨outcomes, rfl, rfl⟩
    exact (counted outcomes).mpr (once outcomes arrives)

/-! ## Constructors -/

theorem Happening.fills_map {Note Value OtherNote OtherValue : Type} (note : Note → OtherNote)
    (value : Value → OtherValue) (id : VarId) (happening : Happening Note Value) :
    (happening.map note value).fills id = happening.fills id := by
  cases happening <;> rfl

/-- The count does not depend on what is known of the code. -/
theorem Performance.countP_fills_map {Note Value OtherNote OtherValue Last : Type}
    (note : Note → OtherNote) (value : Value → OtherValue) (id : VarId)
    (performance : Performance Note Value Last) :
    (performance.map note value).happenings.countP (Happening.fills id) =
      performance.happenings.countP (Happening.fills id) := by
  rw [Performance.map, List.countP_map]
  exact List.countP_congr fun happening _ => by simp [Happening.fills_map]

namespace Emission

/-- A constructor is not emitted unless one statement assigns each global. -/
theorem initializations_of_prologue {root : ScopeId} {token : Option String}
    {before start : Generator} {implicit : List VarId} (role : decl.method.role = .constructor)
    (enters : (prologue env root token decl).Ends before implicit start) :
    ∀ global ∈ globals env root, decl.body.initializations global.id = 1 := by
  rcases bind_ok enters with ⟨_, _, -, rest⟩
  rcases bind_ok rest with ⟨_, _, -, rest⟩
  rcases bind_ok rest with ⟨_, _, -, rest⟩
  rcases bind_ok rest with ⟨_, _, -, rest⟩
  rcases bind_ok rest with ⟨_, _, preparing, -⟩
  rw [prepareGlobals, if_pos role] at preparing
  exact initializations_of_checked (result_ok preparing).1

/-- Every run of a body that comes to its exit has replaced the variable once. -/
def FillsOnRuns (body : Body) (start finish : Generator) (emitted : EmittedFlow) (id : VarId) :
    Prop :=
  ∀ outcomes sights ending rest,
    (Span.region ⟨start, finish⟩).Runs (.exit body.name) start.lines.length outcomes sights ending
      rest →
    ending.arrives = true →
      (emitted.perform outcomes).happenings.countP (Happening.fills id) = 1

/-- What is true of all runs of a body can be told from the body. -/
theorem fillsOnRuns_iff {body : Body} {start finish : Generator} {emitted : EmittedFlow}
    {id : VarId} (settled : body.Settled env module start finish emitted)
    (free : Node.AssemblyFree body.block.nodes)
    (ends : (inMethod env (.exit body.name) body.block).Ends start () finish) :
    FillsOnRuns body start finish emitted id ↔ body.block.fillsOnce id = true := by
  have same : ∀ outcomes, body.block.flow.perform outcomes =
      (emitted.perform outcomes).map (fun _ => ()) Figure.expr := by
    intro outcomes
    rw [← settled.plan, EmittedFlow.plan, Flow.perform_map]
  simp only [BlockOf.fillsOnce_iff, same, Performance.last_map, Performance.countP_fills_map]
  exact settled.onRuns_iff free ends

/-- The code of a method holds the code of its body. -/
theorem emits_of_method {program : Program} {contract : Contract} {earlier rest : List MethodDecl}
    {before after : Generator} (listed : ∃ top ∈ program.modules, module ∈ top.inOrder)
    (scopes : env.scopes = program.scopes) (holds : module.content.contract? = some contract)
    (order : contract.methods = earlier ++ decl :: rest)
    (upTo : (methods env module.scope module.owner? earlier).Ends {} () before)
    (emits : (method env module.scope module.owner? decl).Ends before () after) :
    ∃ implicit start finish, (prologue env module.scope module.owner? decl).Ends before implicit
        start ∧ program.Emits env module decl.asBody start finish := by
  rcases bind_ok emits with ⟨implicit, start, entering, running⟩
  rcases bind_ok running with ⟨_, _, inside, -⟩
  rcases bind_ok inside with ⟨_, finish, emission, -⟩
  exact ⟨implicit, start, finish, entering, listed, scopes, .method holds order upTo entering,
    emission⟩

/--
A constructor that is emitted has one statement that assigns each global.  It
is run once on every run to the exit, if and only if this can be told from the
body.
-/
theorem constructor_fills_iff {interface? : String → Option Interface} {source : String}
    {program : Program} {module : Module} {contract : Contract}
    {earlier rest : List MethodDecl} {decl : MethodDecl} {env : Env} {before after : Generator}
    (accepted : Program.read interface? source = .ok program)
    (listed : ∃ top ∈ program.modules, module ∈ top.inOrder)
    (scopes : env.scopes = program.scopes)
    (holds : module.content.contract? = some contract)
    (order : contract.methods = earlier ++ decl :: rest)
    (role : decl.method.role = .constructor)
    (upTo : (methods env module.scope module.owner? earlier).Ends {} () before)
    (emits : (method env module.scope module.owner? decl).Ends before () after)
    (free : Node.AssemblyFree decl.body.nodes) :
    ∃ start finish emitted, program.Emits env module decl.asBody start finish ∧
      decl.asBody.Realized env start finish emitted ∧
      (∀ outcomes, (Span.region ⟨start, finish⟩).Runs (.exit decl.name) start.lines.length
        outcomes (emitted.perform outcomes).sights (emitted.perform outcomes).last
        (emitted.perform outcomes).rest) ∧
      ∀ global ∈ globals env module.scope, decl.body.initializations global.id = 1 ∧
        (FillsOnRuns decl.asBody start finish emitted global.id ↔
          decl.body.fillsOnce global.id = true) := by
  rcases emits_of_method listed scopes holds order upTo emits with
    ⟨implicit, start, finish, entering, body⟩
  rcases body.exists_settled accepted with ⟨emitted, settled⟩
  refine ⟨start, finish, emitted, body, settled.toRealized, settled.runs free body.ends, ?_⟩
  intro global member
  exact ⟨initializations_of_prologue role entering global member,
    fillsOnRuns_iff settled free body.ends⟩

/-! ## Sources with constructors -/

/-- A constructor without assembly whose body passes a test with the globals of its module. -/
def constructs (test : List Variable → Block → Bool) (env : Env) (module : Module)
    (decl : MethodDecl) : Bool :=
  decl.method.role = .constructor && Node.AssemblyFree decl.body.nodes &&
    test (globals env module.scope) decl.body

/-- One global is assigned before a loop, and one where the loop has been left. -/
def assignedOnAllWays : List String :=
  ["contract test \x7b global total:number; global limit:number; ",
    "constructor(owner:address) \x7b limit = 9; local n:number = 0; ",
    "while (n < 20) \x7b n += 7; if (n == 14) \x7b break; \x7d ",
    "if (n == 8) \x7b throw \"eight\"; \x7d \x7d total = n; \x7d \x7d"]

theorem constructor_fills_iff_assignedOnAllWays :
    ∃ program module contract earlier decl rest before after,
      Program.read (fun _ => none) (String.join assignedOnAllWays) = .ok program ∧
      (∃ top ∈ program.modules, module ∈ top.inOrder) ∧
      module.content.contract? = some contract ∧
      contract.methods = earlier ++ decl :: rest ∧ decl.method.role = .constructor ∧
      (methods (program.plainEnv module) module.scope module.owner? earlier).Ends {} () before ∧
      (method (program.plainEnv module) module.scope module.owner? decl).Ends before () after ∧
      ∃ start finish emitted,
        program.Emits (program.plainEnv module) module decl.asBody start finish ∧
        decl.asBody.Realized (program.plainEnv module) start finish emitted ∧
        (globals (program.plainEnv module) module.scope).length = 2 ∧
        ∀ global ∈ globals (program.plainEnv module) module.scope,
          decl.body.initializations global.id = 1 ∧
            FillsOnRuns decl.asBody start finish emitted global.id := by
  have holds : hasMethod (constructs fun globals body => globals.length == 2 &&
      globals.all fun global => body.fillsOnce global.id) assignedOnAllWays = true := by
    decide +kernel
  rcases exists_method holds with
    ⟨program, module, contract, earlier, decl, rest, before, after, accepted, listed, held, order,
      upTo, own, fits⟩
  simp only [constructs, Bool.and_eq_true, decide_eq_true_eq] at fits
  rcases fits with ⟨⟨role, free⟩, passes⟩
  rw [beq_iff_eq, List.all_eq_true] at passes
  rcases constructor_fills_iff accepted listed rfl held order role upTo own free with
    ⟨start, finish, emitted, emits, realized, -, known⟩
  refine ⟨program, module, contract, earlier, decl, rest, before, after, accepted, listed, held,
    order, role, upTo, own, start, finish, emitted, emits, realized, passes.1, ?_⟩
  intro global member
  exact ⟨(known global member).1, (known global member).2.mpr (passes.2 global member)⟩

/-- The only assignment of a global stands in a branch. -/
def assignedInBranch : List String :=
  ["contract test \x7b global g:number; ",
    "constructor(owner:address) \x7b local n:number = 2; if (n > 3) \x7b g = 1; \x7d \x7d \x7d"]

/-- A constructor that is accepted may come to its exit without a value for a global. -/
theorem constructor_misses_assignedInBranch :
    ∃ program module contract earlier decl rest before after,
      Program.read (fun _ => none) (String.join assignedInBranch) = .ok program ∧
      (∃ top ∈ program.modules, module ∈ top.inOrder) ∧
      module.content.contract? = some contract ∧
      contract.methods = earlier ++ decl :: rest ∧ decl.method.role = .constructor ∧
      (methods (program.plainEnv module) module.scope module.owner? earlier).Ends {} () before ∧
      (method (program.plainEnv module) module.scope module.owner? decl).Ends before () after ∧
      ∃ start finish emitted,
        program.Emits (program.plainEnv module) module decl.asBody start finish ∧
        decl.asBody.Realized (program.plainEnv module) start finish emitted ∧
        ∃ global ∈ globals (program.plainEnv module) module.scope,
          ¬ FillsOnRuns decl.asBody start finish emitted global.id := by
  have holds : hasMethod (constructs fun globals body =>
      globals.any fun global => !body.fillsOnce global.id) assignedInBranch = true := by
    decide +kernel
  rcases exists_method holds with
    ⟨program, module, contract, earlier, decl, rest, before, after, accepted, listed, held, order,
      upTo, own, fits⟩
  simp only [constructs, Bool.and_eq_true, decide_eq_true_eq] at fits
  rcases fits with ⟨⟨role, free⟩, passes⟩
  rcases List.any_eq_true.mp passes with ⟨global, member, misses⟩
  rcases emits_of_method listed rfl held order upTo own with ⟨-, start, finish, -, body⟩
  rcases body.exists_settled accepted with ⟨emitted, settled⟩
  refine ⟨program, module, contract, earlier, decl, rest, before, after, accepted, listed, held,
    order, role, upTo, own, start, finish, emitted, body, settled.toRealized, global, member, ?_⟩
  rw [fillsOnRuns_iff settled free body.ends]
  show ¬ decl.body.fillsOnce global.id = true
  simpa using misses

end Emission

end Covenant
