import Covenant.Proofs.ModuleRegisters

/-!
# Bodies of a program

The setting of all theorems about emitted bodies: a program has been read, the
code of a module has been emitted up to one of its bodies, and the code of
that body is emitted without an error.  A body without assembly consists of
simple statements that run from their first line to their last.
-/

namespace Covenant

variable {pieces : List String}

open Emission

/-! ## Assembly -/

def Node.isAssembly : Node → Bool
  | .statement (.assembly _ _) => true
  | _ => false

/-- None of the nodes is a statement in assembly. -/
def Node.AssemblyFree (nodes : List Node) : Prop :=
  ∀ node ∈ nodes, node.isAssembly = false

instance : DecidablePred Node.AssemblyFree := fun nodes =>
  inferInstanceAs (Decidable (∀ node ∈ nodes, node.isAssembly = false))

namespace Plan

theorem straight_deed {task : Deed} (runs : task.turns = false) : (deed task).Straight := by
  intro other member
  cases List.mem_singleton.mp member
  exact runs

theorem straight_skip : (Flow.skip : Plan).Straight := by
  intro other member
  cases member

theorem straight_commented {line : Nat} {rest : Plan} (straight : rest.Straight) :
    (commented line rest).Straight :=
  List.forall_mem_append.mpr ⟨straight_deed rfl, straight⟩

/-- A discarded expression is an expectation, or it runs through. -/
theorem straight_discard (line : Nat) (expr : Expr) : (discard line expr).Straight := by
  unfold discard
  cases turning : Deed.expectation? expr with
  | none => exact straight_deed (by simp [Deed.turns, turning])
  | some parts =>
    intro deed member
    cases member

end Plan

namespace Stmt

open Plan

/-- Without assembly every simple statement runs from its first line to its last. -/
theorem straight_flow :
    (∀ stmt : Stmt, Node.AssemblyFree stmt.nodes → stmt.flow.Straight) ∧
    (∀ (mark : Mark) (index : Nat) (last : Plan) (cases : List Case), last.Straight →
      Node.AssemblyFree (caseNodes cases) → (caseFlow mark index last cases).Straight) ∧
    ∀ body : List Stmt, Node.AssemblyFree (allNodes body) → (allFlow body).Straight := by
  unfold Node.AssemblyFree
  apply Stmt.flow.mutual_induct
  case case1 =>
    rintro mark target (_ | value) -
    · exact straight_commented straight_skip
    · exact straight_commented (straight_deed rfl)
  case case3 => exact fun mark expr _ => straight_commented (straight_discard mark.line expr)
  case case4 =>
    intro mark condition scope body inner free
    simp only [nodes, List.forall_mem_cons, List.forall_mem_append] at free
    exact straight_commented (List.forall_mem_append.mpr ⟨inner free.2.2, straight_skip⟩)
  case case5 =>
    intro mark condition scope body otherScope other one two free
    simp only [nodes, List.forall_mem_cons, List.forall_mem_append] at free
    exact straight_commented (List.forall_mem_append.mpr ⟨one free.2.1.2, two free.2.2⟩)
  case case6 | case7 =>
    intro mark _ _ _ inner free
    simp only [nodes, List.forall_mem_cons, List.forall_mem_append] at free
    exact straight_commented (inner free.2.2)
  case case8 =>
    intro mark outer init condition step scope body first inner last free
    simp only [nodes, List.forall_mem_cons, List.forall_mem_append] at free
    have loop := List.forall_mem_append.mpr ⟨inner free.2.2, last free.2.1.2⟩
    exact straight_commented (List.forall_mem_append.mpr ⟨first free.2.1.1.1, loop⟩)
  case case9 =>
    intro mark value cases arms free
    simp only [nodes, List.forall_mem_cons, List.forall_mem_append] at free
    exact straight_commented (arms straight_skip free.2.2)
  case case10 =>
    intro mark value cases scope body inner arms free
    simp only [nodes, List.forall_mem_cons, List.forall_mem_append] at free
    exact straight_commented (arms (inner free.2.2) free.2.1.2)
  case case16 =>
    intro mark lines free
    simp [nodes, Node.isAssembly] at free
  case case17 => exact fun mark index last straight _ => straight
  case case18 =>
    intro mark index last value scope body rest inner later straight free
    simp only [caseNodes, List.forall_mem_append] at free
    exact List.forall_mem_append.mpr ⟨inner free.1.2, later straight free.2⟩
  case case20 =>
    intro first rest one later free
    simp only [allNodes, List.forall_mem_append] at free
    exact List.forall_mem_append.mpr ⟨one free.1, later free.2⟩
  all_goals
    intros
    first
    | exact straight_skip
    | exact straight_commented (straight_deed rfl)
    | exact straight_commented straight_skip

end Stmt

/-! ## Emitted bodies -/

/--
A body of a program, and the moments between which its code is emitted: those
before it in the module have been emitted, and its parameters are in place.
-/
structure Program.Emits (program : Program) (env : Env) (module : Module) (body : Body)
    (start finish : Generator) : Prop where
  listed : ∃ top ∈ program.modules, module ∈ top.inOrder
  scopes : env.scopes = program.scopes
  starts : Starts env module body start
  ends : (inMethod env (.exit body.name) body.block).Ends start () finish

/-- The flow of a body with its code. -/
structure Body.Realized (env : Env) (body : Body) (start finish : Generator)
    (emitted : EmittedFlow) : Prop where
  plan : emitted.plan = body.block.flow
  path : Path env (emitted.steps (.exit body.name) [] noSubject) start finish

/-- What is known of a body that has been emitted. -/
structure Body.Settled (env : Env) (module : Module) (body : Body) (start finish : Generator)
    (emitted : EmittedFlow) : Prop extends body.Realized env start finish emitted where
  formed : env.scopes.WellFormed
  sited : body.Sited env.scopes module.scope
  owned : Owned start []
  bound : BoundWithin env.scopes [body.scope, module.scope] start

namespace Body.Settled

variable {env : Env} {module : Module} {body : Body} {start finish : Generator}
  {emitted : EmittedFlow}

theorem walk (settled : body.Settled env module start finish emitted) :
    Walk env (emitted.steps (.exit body.name) [] noSubject) start [] finish [] :=
  ⟨settled.path, settled.owned, steps_settle emitted (.exit body.name) [] noSubject []⟩

theorem resolved (settled : body.Settled env module start finish emitted) :
    emitted.Scoped env.scopes [body.scope, module.scope] :=
  scoped_of_plan settled.plan settled.sited.resolved.names

theorem straight (settled : body.Settled env module start finish emitted)
    (free : Node.AssemblyFree body.block.nodes) : emitted.Straight := by
  have runs : body.block.flow.Straight := Stmt.straight_flow.2.2 body.block.statements free
  unfold Flow.Straight at *
  rwa [← settled.plan, EmittedFlow.plan, Flow.deeds_map] at runs

end Body.Settled

/-- The code of a body is that of an emitted flow. -/
theorem Program.Emits.exists_settled {interface? : String → Option Interface} {source : String}
    {program : Program} {env : Env} {module : Module} {body : Body} {start finish : Generator}
    (accepted : Program.read interface? source = .ok program)
    (emits : program.Emits env module body start finish) :
    ∃ emitted, body.Settled env module start finish emitted := by
  rcases emits with ⟨⟨top, among, listed⟩, scopes, starts, ends⟩
  rcases read_sited accepted with ⟨formed, sited⟩
  rw [← scopes] at formed sited
  rcases starts.ready formed (sited top among module listed) with ⟨fits, owned, bound⟩
  rcases exists_walk owned ends with ⟨emitted, plan, walk⟩
  exact ⟨emitted, ⟨plan, walk.path⟩, formed, fits, owned, bound⟩

/-! ## Sources whose bodies are emitted -/

/-- What the emission of a module of a program sees if no other module is compiled yet. -/
def Program.plainEnv (program : Program) (module : Module) : Env :=
  { moduleName := module.name, declared := program.declared, scopes := program.scopes
    routines := Routine.standard, annotated := false }

/-- The tokens of a source that is given piece by piece. -/
def Token.scanPieces (pieces : List String) : List Token :=
  let text := pieces.flatMap String.toList
  scanFrom text.length .start text

theorem Token.scan_join (pieces : List String) : scan (String.join pieces) = scanPieces pieces := by
  rw [scan, String.toList_join, scanPieces]

/-- The source is read into a program that passes a test. -/
def Program.reads (pieces : List String) (test : Program → Bool)
    (interface? : String → Option Interface := fun _ => none) : Bool :=
  match Program.ofTokens interface? (Token.scanPieces pieces) with
  | .error _ => false
  | .ok program => test program

theorem exists_read {test : Program → Bool} {interface? : String → Option Interface}
    (holds : Program.reads pieces test interface? = true) :
    ∃ program, Program.read interface? (String.join pieces) = .ok program ∧
      test program = true := by
  rw [Program.read, Token.scan_join]
  unfold Program.reads at holds
  cases accepted : Program.ofTokens interface? (Token.scanPieces pieces) with
  | error failure => simp [accepted] at holds
  | ok program =>
    rw [accepted] at holds
    exact ⟨program, rfl, holds⟩

/-- Code that succeeds ends somewhere. -/
theorem exists_ends {code : Emission Unit} {before : Generator}
    (succeeds : (code.run before).isOk = true) : ∃ after, code.Ends before () after := by
  cases ran : code.run before with
  | error error => simp [ran, Except.isOk, Except.toBool] at succeeds
  | ok pair => exact ⟨pair.2, ran⟩

/-- The source is read, and one of its modules is emitted and passes a test. -/
def emitsModule (test : Env → Module → Bool) (pieces : List String) : Bool :=
  Program.reads pieces fun program => program.modules.any fun top => top.inOrder.any fun module =>
    ((content (program.plainEnv module) module.scope module.content).run {}).isOk &&
      test (program.plainEnv module) module

/-- A module of such a source, with the generator at the end of its code. -/
theorem exists_module {test : Env → Module → Bool} (holds : emitsModule test pieces = true) :
    ∃ program module after, Program.read (fun _ => none) (String.join pieces) = .ok program ∧
      (∃ top ∈ program.modules, module ∈ top.inOrder) ∧
      (content (program.plainEnv module) module.scope module.content).Ends {} () after ∧
      test (program.plainEnv module) module = true := by
  rcases exists_read holds with ⟨program, accepted, found⟩
  rcases List.any_eq_true.mp found with ⟨top, listed, found⟩
  rcases List.any_eq_true.mp found with ⟨module, member, kind⟩
  rw [Bool.and_eq_true] at kind
  rcases exists_ends kind.1 with ⟨after, ends⟩
  exact ⟨program, module, after, accepted, ⟨top, listed, member⟩, ends, kind.2⟩

/-- The source is read, and one of its modules is emitted and has a body like this. -/
def hasBody (test : Env → Module → Body → Bool) : List String → Bool :=
  emitsModule fun env module => module.routines.any fun body =>
    Node.AssemblyFree body.block.nodes && test env module body

/-- A body of such a source, with the generator before and after it. -/
theorem exists_body {test : Env → Module → Body → Bool} (holds : hasBody test pieces = true) :
    ∃ program env module body start finish,
      Program.read (fun _ => none) (String.join pieces) = .ok program ∧
      program.Emits env module body start finish ∧ Node.AssemblyFree body.block.nodes ∧
      test env module body = true := by
  rcases exists_module holds with ⟨program, module, after, accepted, listed, ends, found⟩
  rcases List.any_eq_true.mp found with ⟨body, member, fits⟩
  rw [Bool.and_eq_true, decide_eq_true_eq] at fits
  rcases exists_starts rfl ends member with ⟨start, finish, starts, inside⟩
  exact ⟨program, program.plainEnv module, module, body, start, finish, accepted,
    ⟨listed, rfl, starts, inside⟩, fits⟩

end Covenant
