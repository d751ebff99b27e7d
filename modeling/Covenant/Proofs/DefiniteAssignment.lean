import Covenant.Proofs.ControlFlow
import Covenant.Proofs.Watching

/-!
# Locals that are read before they are assigned

A local has no value before the first assignment that follows its declaration.
What is refused is a read for which no assignment has been emitted yet.  This
asks for an assignment in the lines above the read, and not for one on every
way to it: the assignment may stand in a branch that is not taken, in a loop
that has no rounds, or in an earlier round.

Whether every read of a variable comes after an assignment can be told from the
body: `BlockOf.assignsFirst` looks at all ways at once.
-/

namespace Covenant

variable {body : Body} {env : Env}

open Emission

/-! ## What is read -/

mutual

/-- The variables whose registers are read to compute an expression. -/
def Expr.consulted : Expr → List VarId
  | .variable _ _ id => [id]
  | .binary _ _ _ left right => left.consulted ++ right.consulted
  | .not _ _ inner => inner.consulted
  | .negate _ _ inner => inner.consulted
  | .cast _ _ inner => inner.consulted
  -- The places of a decimal are known from its type, and nothing is computed.
  | .call _ _ method _ arguments =>
    if method.means = .inline .decimalPlaces then [] else Expr.consultedAll arguments
  | .field _ _ target _ => target.consulted
  | .element _ _ array index => array.consulted ++ index.consulted
  | _ => []

/-- The variables whose registers are read to compute expressions. -/
def Expr.consultedAll : List Expr → List VarId
  | [] => []
  | first :: rest => first.consulted ++ consultedAll rest

end

/-- The variables whose registers are read to find a part of a variable. -/
def Selector.consulted : Selector → List VarId
  | .index position => position.consulted
  | _ => []

/-- The variables whose registers are read by a simple statement. -/
def Deed.consulted : Deed → List VarId
  | .comment _ => []
  | .assign _ _ selector value => value.consulted ++ selector.consulted
  | .discard _ expr => expr.consulted
  | .emit _ _ address value => value.consulted ++ address.consulted
  | .result _ (some value) => value.consulted
  | .result _ none => []
  | .raw _ => []

namespace Happening

variable {Note : Type}

/-- The variable is read. -/
def reads (id : VarId) : Happening Note Expr → Bool
  | .deed _ task => id ∈ task.consulted
  | .value expr => id ∈ expr.consulted
  | .compared expr => id ∈ expr.consulted
  | .tested _ _ => false
  | .raised _ => false

/-- The variable is assigned, as a whole or in part. -/
def assigns {Value : Type} (id : VarId) : Happening Note Value → Bool
  | .deed _ task => task.target? == some id
  | _ => false

/-- The declaration of the variable is passed. -/
def declares {Value : Type} (id : VarId) : Happening (Option VarId) Value → Bool
  | .deed (some other) _ => other == id
  | _ => false

end Happening

/-! ## Flows that know of declarations -/

/-- A flow in which something is known of declarations only. -/
abbrev DeclaringFlow := Flow (Option VarId) Expr

/-- A flow without declarations. -/
def Plan.quiet (plan : Plan) : DeclaringFlow :=
  plan.map (fun _ => none) id

/-- The flow as it was written. -/
def DeclaringFlow.plan (flow : DeclaringFlow) : Plan :=
  flow.map (fun _ => ()) id

@[simp]
theorem Plan.plan_quiet (plan : Plan) : plan.quiet.plan = plan := by
  rw [DeclaringFlow.plan, quiet, Flow.map_map]
  exact plan.map_id

/-- A statement whose source line is written first. -/
def DeclaringFlow.announced (declared : Option VarId) (line : Nat) (rest : DeclaringFlow) :
    DeclaringFlow :=
  .seq (.simple declared (.comment line)) rest

@[simp]
theorem DeclaringFlow.plan_announced (declared : Option VarId) (line : Nat)
    (rest : DeclaringFlow) : (announced declared line rest).plan = .commented line rest.plan :=
  rfl

namespace Stmt

open DeclaringFlow

mutual

/-- The flow of a statement, in which the line of a declaration tells its variable. -/
def declaring : Stmt → DeclaringFlow
  | .declare mark target value =>
    announced (some target) mark.line (Plan.assignment mark target value).quiet
  | .branch mark condition ⟨scope, body⟩ none =>
    announced none mark.line (.branch mark condition
      (.within none scope (lastLine body) (allDeclaring body)) .skip)
  | .branch mark condition ⟨scope, body⟩ (some ⟨otherScope, other⟩) =>
    announced none mark.line (.branch mark condition
      (.within none scope (lastLine body) (allDeclaring body))
      (.within none otherScope (lastLine other) (allDeclaring other)))
  | .whileLoop mark condition ⟨scope, body⟩ =>
    announced none mark.line (.whileLoop none mark condition
      (.within none scope (lastLine body) (allDeclaring body)))
  | .doLoop mark ⟨scope, body⟩ condition =>
    announced none mark.line (.doLoop none mark
      (.within none scope (lastLine body) (allDeclaring body)) condition)
  | .forLoop mark outer init condition step ⟨scope, body⟩ =>
    announced none mark.line (.within none outer mark.line (.seq init.declaring
      (.forLoop none mark condition
        (.within none scope (lastLine body) (allDeclaring body)) step.declaring)))
  | .switch mark value cases none =>
    announced none mark.line (.switch mark value (caseDeclaring mark 0 .skip cases))
  | .switch mark value cases (some ⟨scope, body⟩) =>
    announced none mark.line (.switch mark value (caseDeclaring mark 0
      (.within none scope (lastLine body) (allDeclaring body)) cases))
  | stmt => stmt.flow.quiet

/-- The flow of statements, one after the other. -/
def allDeclaring : List Stmt → DeclaringFlow
  | [] => .skip
  | first :: rest => .seq first.declaring (allDeclaring rest)

/-- The flow of the cases of a switch, counted from `index`, and then of `last`. -/
def caseDeclaring (mark : Mark) (index : Nat) (last : DeclaringFlow) : List Case → DeclaringFlow
  | [] => last
  | ⟨value, ⟨scope, body⟩⟩ :: rest =>
    .arm mark index value (.within none scope (lastLine body) (allDeclaring body))
      (caseDeclaring mark (index + 1) last rest)

end

/-- Apart from declarations, the flow is the one that is emitted. -/
theorem plan_declaring :
    (∀ stmt : Stmt, stmt.declaring.plan = stmt.flow) ∧
    (∀ (mark : Mark) (index : Nat) (last : Plan) (cases : List Case) (other : DeclaringFlow),
      other.plan = last →
      (caseDeclaring mark index other cases).plan = caseFlow mark index last cases) ∧
    ∀ body : List Stmt, (allDeclaring body).plan = allFlow body := by
  apply Stmt.flow.mutual_induct
  case case1 =>
    intro mark target value
    simp [declaring, flow]
  case case4 =>
    intro mark condition scope body inner
    rw [declaring, flow, plan_announced, ← inner]
    rfl
  case case5 =>
    intro mark condition scope body otherScope other one two
    rw [declaring, flow, plan_announced, ← one, ← two]
    rfl
  case case6 | case7 =>
    intro mark _ _ _ inner
    rw [declaring, flow, plan_announced, ← inner]
    rfl
  case case8 =>
    intro mark outer init condition step scope body first inner last
    rw [declaring, flow, plan_announced, ← first, ← inner, ← last]
    rfl
  case case9 =>
    intro mark value cases arms
    rw [declaring, flow, plan_announced, ← arms .skip rfl]
    rfl
  case case10 =>
    intro mark value cases scope body inner arms
    have last : plan (.within none scope (lastLine body) (allDeclaring body)) =
        .within () scope (lastLine body) (allFlow body) := by
      rw [← inner]
      rfl
    rw [declaring, flow, plan_announced, ← arms _ last]
    rfl
  case case17 => exact fun mark index last other same => same
  case case18 =>
    intro mark index last value scope body rest inner later other same
    rw [caseDeclaring, caseFlow, ← inner, ← later other same]
    rfl
  case case19 => rfl
  case case20 =>
    intro first rest one later
    rw [allDeclaring, allFlow, ← one, ← later]
    rfl
  all_goals
    intros
    exact Plan.plan_quiet _

end Stmt

/-- The flow of a block, in which the line of a declaration tells its variable. -/
def BlockOf.declaring (block : Block) : DeclaringFlow :=
  .within none block.scope (lastLine block.statements) (Stmt.allDeclaring block.statements)

theorem BlockOf.plan_declaring (block : Block) : block.declaring.plan = block.flow := by
  rw [flow, ← Stmt.plan_declaring.2.2]
  rfl

/-! ## Values of a variable -/

section Values

variable {id : VarId} {happenings : List (Happening (Option VarId) Expr)}
  {happening : Happening (Option VarId) Expr}

/-- The variable has been assigned since its declaration was last passed. -/
def Assigned (id : VarId) (happenings : List (Happening (Option VarId) Expr)) : Prop :=
  ∃ far assignment near, happenings = far ++ assignment :: near ∧
    assignment.assigns id = true ∧ ∀ other ∈ near, other.declares id = false

/-- Before each read of the variable, it has been assigned since its declaration was passed. -/
def AssignedFirst (id : VarId) (happenings : List (Happening (Option VarId) Expr)) : Prop :=
  ∀ earlier happening later, happenings = earlier ++ happening :: later →
    happening.reads id = true → Assigned id earlier

theorem not_assigned_nil : ¬ Assigned id [] := by
  rintro ⟨far, assignment, near, split, -⟩
  cases far <;> cases split

theorem assigned_concat_iff :
    Assigned id (happenings ++ [happening]) ↔
      happening.assigns id = true ∨ happening.declares id = false ∧ Assigned id happenings := by
  constructor
  · rintro ⟨far, assignment, near, split, assigns, kept⟩
    rcases List.eq_nil_or_concat near with rfl | ⟨front, last, rfl⟩
    · cases (List.append_inj' split rfl).2
      exact .inl assigns
    · rw [List.concat_eq_append] at split kept
      rw [← List.cons_append, ← List.append_assoc] at split
      rcases List.append_inj' split rfl with ⟨rfl, same⟩
      cases same
      exact .inr ⟨kept happening (by simp), far, assignment, front, rfl, assigns,
        fun other member => kept other (by simp [member])⟩
  · rintro (assigns | ⟨kept, far, assignment, near, rfl, assigns, keptBefore⟩)
    · exact ⟨happenings, happening, [], rfl, assigns, nofun⟩
    · refine ⟨far, assignment, near ++ [happening], by simp, assigns, fun other member => ?_⟩
      rcases List.mem_append.mp member with old | new
      · exact keptBefore other old
      · rwa [List.mem_singleton.mp new]

/-- Look for a read of the variable that comes before an assignment. -/
def reading (id : VarId) : Watcher Bool (Happening (Option VarId) Expr) where
  entry := false
  move assigned happening := happening.assigns id || !happening.declares id && assigned
  wrong assigned happening := happening.reads id && !assigned

theorem known_reading_iff : (reading id).known happenings = true ↔ Assigned id happenings := by
  induction happenings using List.reverseRecOn with
  | nil => exact iff_of_false Bool.false_ne_true not_assigned_nil
  | append_singleton happenings happening ih =>
    rw [assigned_concat_iff, ← ih, Watcher.known_concat]
    simp [reading]

theorem right_reading_iff : (reading id).Right happenings ↔ AssignedFirst id happenings := by
  refine forall_congr' fun earlier => forall₃_congr fun happening later _ => ?_
  rw [← known_reading_iff]
  cases known : (reading id).known earlier <;> simp [reading]

end Values

/-- On all ways through the block, the variable is assigned before it is read. -/
def BlockOf.assignsFirst (block : Block) (id : VarId) : Bool :=
  block.declaring.passes (reading id)

theorem BlockOf.assignsFirst_iff {block : Block} {id : VarId} :
    block.assignsFirst id = true ↔
      ∀ outcomes, AssignedFirst id (block.declaring.perform outcomes).happenings :=
  Flow.passes_iff.trans (forall_congr' fun _ => right_reading_iff)

namespace Emission

/-- On every run of a body, the variable is assigned before it is read. -/
def AssignsFirstOnRuns (body : Body) (start finish : Generator) (id : VarId) : Prop :=
  ∀ outcomes sights ending rest,
    (Span.region ⟨start, finish⟩).Runs (.exit body.name) start.lines.length outcomes sights ending
      rest →
    AssignedFirst id (body.block.declaring.perform outcomes).happenings

/-- Runs of a body are performances of its flow, whatever is known of declarations. -/
theorem map_declaring_perform {start finish : Generator} {emitted : EmittedFlow}
    (realized : body.Realized env start finish emitted) (outcomes : List Bool) :
    (body.block.declaring.perform outcomes).map (fun _ => ()) (fun expr => expr) =
      (emitted.perform outcomes).map (fun _ => ()) Figure.expr := by
  have same : body.block.declaring.plan = emitted.plan := by
    rw [realized.plan, BlockOf.plan_declaring]
  rw [← Flow.perform_map, ← Flow.perform_map]
  exact congrArg (fun plan => Flow.perform plan outcomes) same

/-- What is true of all runs of a body can be told from the body. -/
theorem assignsFirstOnRuns_iff {module : Module} {start finish : Generator}
    {emitted : EmittedFlow} {id : VarId} (settled : body.Settled env module start finish emitted)
    (free : Node.AssemblyFree body.block.nodes)
    (ends : (inMethod env (.exit body.name) body.block).Ends start () finish) :
    AssignsFirstOnRuns body start finish id ↔ body.block.assignsFirst id = true :=
  (settled.onRuns_iff free ends).trans BlockOf.assignsFirst_iff.symm

/--
The runs of a body read no variable before it is assigned, if and only if this
can be told from the body.
-/
theorem reads_assigned_iff {interface? : String → Option Interface} {source : String}
    {program : Program} {env : Env} {module : Module} {body : Body} {start finish : Generator}
    (accepted : Program.read interface? source = .ok program)
    (emits : program.Emits env module body start finish)
    (free : Node.AssemblyFree body.block.nodes) :
    ∃ emitted, body.Realized env start finish emitted ∧
      (∀ outcomes, (Span.region ⟨start, finish⟩).Runs (.exit body.name) start.lines.length
          outcomes (emitted.perform outcomes).sights (emitted.perform outcomes).last
          (emitted.perform outcomes).rest ∧
        (body.block.declaring.perform outcomes).map (fun _ => ()) (fun expr => expr) =
          (emitted.perform outcomes).map (fun _ => ()) Figure.expr) ∧
      ∀ id, AssignsFirstOnRuns body start finish id ↔ body.block.assignsFirst id = true := by
  rcases emits.exists_settled accepted with ⟨emitted, settled⟩
  refine ⟨emitted, settled.toRealized, fun outcomes => ?_, fun id => ?_⟩
  · exact ⟨settled.runs free emits.ends outcomes, map_declaring_perform settled.toRealized outcomes⟩
  · exact assignsFirstOnRuns_iff settled free emits.ends

/-! ## Sources with one body -/

/-- The local variables of a program. -/
def localIds (env : Env) : List VarId :=
  (env.scopes.declarations.filter fun declaration => declaration.storage = .local).map Variable.id

/-- Locals that are assigned in both branches, in each round, and behind a loop. -/
def assignedOnEachWay : List String :=
  ["contract test \x7b public f(n:number):number \x7b local v:number; local s:number = 0; ",
    "if (n > 0) \x7b v = 5; \x7d else \x7b v = n; \x7d ",
    "while (s < v) \x7b local w:number; w = s + v; ",
    "if (w > 9) \x7b break; \x7d s = w; \x7d ",
    "local x:number; x = s; return x + v; \x7d \x7d"]

theorem reads_assigned_iff_assignedOnEachWay :
    ∃ program env module body start finish,
      Program.read (fun _ => none) (String.join assignedOnEachWay) = .ok program ∧
      program.Emits env module body start finish ∧ Node.AssemblyFree body.block.nodes ∧
      (localIds env).length = 4 ∧
      ∀ id ∈ localIds env, AssignsFirstOnRuns body start finish id := by
  have holds : hasBody (fun env _ body => (localIds env).length == 4 &&
      (localIds env).all body.block.assignsFirst) assignedOnEachWay = true := by
    decide +kernel
  rcases exists_body holds with
    ⟨program, env, module, body, start, finish, accepted, emits, free, passes⟩
  rw [Bool.and_eq_true, beq_iff_eq, List.all_eq_true] at passes
  rcases reads_assigned_iff accepted emits free with ⟨-, -, -, known⟩
  exact ⟨program, env, module, body, start, finish, accepted, emits, free, passes.1,
    fun id member => (known id).mpr (passes.2 id member)⟩

/-- The only assignment of a local stands in a branch, and the local is read behind it. -/
def assignedInOneBranch : List String :=
  ["contract test \x7b public f(n:number):number \x7b local v:number; ",
    "if (n > 0) \x7b v = 5; \x7d return v; \x7d \x7d"]

/-- A body that is emitted may read a local before it is assigned. -/
theorem reads_unassigned_assignedInOneBranch :
    ∃ program env module body start finish,
      Program.read (fun _ => none) (String.join assignedInOneBranch) = .ok program ∧
      program.Emits env module body start finish ∧ Node.AssemblyFree body.block.nodes ∧
      ∃ id ∈ localIds env, ¬ AssignsFirstOnRuns body start finish id := by
  have holds : hasBody (fun env _ body => (localIds env).any fun id =>
      !body.block.assignsFirst id) assignedInOneBranch = true := by
    decide +kernel
  rcases exists_body holds with
    ⟨program, env, module, body, start, finish, accepted, emits, free, passes⟩
  rcases List.any_eq_true.mp passes with ⟨id, member, misses⟩
  rcases emits.exists_settled accepted with ⟨emitted, settled⟩
  refine ⟨program, env, module, body, start, finish, accepted, emits, free, id, member, ?_⟩
  rw [assignsFirstOnRuns_iff settled free emits.ends]
  simpa using misses

end Emission

end Covenant
