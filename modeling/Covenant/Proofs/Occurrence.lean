import Covenant.Proofs.Labels
import Covenant.Proofs.StatementRegisters

/-!
# What occurs in a statement

The expressions and the statements that a statement is made of, one level
down, and what follows for all levels: where a variable is read or written,
which expressions occur, and that the flow of a statement asks of the source
what they ask.  The flow of every statement inside is a part of the flow of the whole.
-/

namespace Covenant

variable {stmt : Stmt} {statements : List Stmt} {expr : Expr} {block : Block} {id : VarId}

namespace Stmt

/-- The expressions of the statement itself, those of the statements inside left out. -/
def exprs : Stmt → List Expr
  | .declare _ _ value => value.toList
  | .assign _ _ selector value => selector.exprs ++ [value]
  | .call _ invoked => [invoked]
  | .branch _ condition _ _ => [condition]
  | .whileLoop _ condition _ => [condition]
  | .doLoop _ _ condition => [condition]
  | .forLoop _ _ _ condition _ _ => [condition]
  | .switch _ value cases _ => value :: cases.map CaseOf.value
  | .giveBack _ value => value.toList
  | .throw _ value => [value]
  | .emit _ _ _ address value => [address, value]
  | .leave _ | .next _ | .assembly _ _ => []

/-- The statements directly inside the statement. -/
def children : Stmt → List Stmt
  | .branch _ _ body other =>
    body.statements ++ (other.map BlockOf.statements).getD []
  | .whileLoop _ _ body => body.statements
  | .doLoop _ body _ => body.statements
  | .forLoop _ _ init _ step body => init :: step :: body.statements
  | .switch _ _ cases default =>
    cases.flatMap (fun arm => arm.body.statements) ++
      (default.map BlockOf.statements).getD []
  | _ => []

variable {node : Node}

theorem mem_allNodes : node ∈ allNodes statements ↔ ∃ stmt ∈ statements, node ∈ stmt.nodes := by
  induction statements with
  | nil => simp [allNodes]
  | cons first rest ih => simp [allNodes, ih]

theorem mem_caseNodes {cases : List Case} :
    node ∈ caseNodes cases ↔
      ∃ arm ∈ cases, node ∈ arm.value.nodes ∨ ∃ stmt ∈ arm.body.statements, node ∈ stmt.nodes := by
  induction cases with
  | nil => simp [caseNodes]
  | cons first rest ih =>
    rcases first with ⟨value, ⟨scope, body⟩⟩
    simp [caseNodes, ih, mem_allNodes, or_assoc]

/-- A walk meets the statement, its expressions, and what the walks over its children meet. -/
theorem mem_nodes :
    node ∈ stmt.nodes ↔ node = .statement stmt ∨ (∃ expr ∈ stmt.exprs, node ∈ expr.nodes) ∨
      ∃ child ∈ stmt.children, node ∈ child.nodes := by
  cases stmt with
  | declare mark target value | giveBack mark value =>
    cases value <;> simp [nodes, exprs, children, optionalNodes]
  | assign mark target selector value =>
    cases selector <;> simp [nodes, exprs, children, Selector.exprs, Selector.nodes]
  | branch mark condition body other =>
    cases other <;> simp [nodes, exprs, children, mem_allNodes, or_and_right, exists_or]
  | forLoop mark outer init condition step body =>
    rcases body with ⟨scope, body⟩
    simp only [nodes, exprs, children, List.mem_cons, List.mem_append, mem_allNodes]
    grind
  | switch mark value cases default =>
    rcases default with _ | ⟨scope, body⟩
    · simp only [nodes, exprs, children, List.mem_cons, List.mem_append, mem_caseNodes,
        Option.map_none, Option.getD_none, List.mem_map, List.mem_flatMap]
      grind
    · simp only [nodes, exprs, children, List.mem_cons, List.mem_append, mem_allNodes,
        mem_caseNodes, Option.map_some, Option.getD_some, List.mem_map, List.mem_flatMap]
      grind
  | _ => simp [nodes, exprs, children, mem_allNodes]

theorem sizeOf_child {child : Stmt} (member : child ∈ stmt.children) :
    sizeOf child < sizeOf stmt := by
  have inBlock : ∀ {block : Block}, child ∈ block.statements → sizeOf child < sizeOf block := by
    rintro ⟨scope, statements⟩ listed
    have smaller : sizeOf child < sizeOf statements := List.sizeOf_lt_of_mem listed
    simp only [BlockOf.mk.sizeOf_spec]
    omega
  have inOther : ∀ {other : Option Block},
      child ∈ (other.map BlockOf.statements).getD [] → sizeOf child < sizeOf other := by
    rintro (_ | block) listed
    · cases listed
    · have smaller := inBlock listed
      simp only [Option.some.sizeOf_spec]
      omega
  cases stmt with
  | branch mark condition body other =>
    simp only [branch.sizeOf_spec]
    rcases List.mem_append.mp member with first | second
    · have smaller := inBlock first
      omega
    · have smaller := inOther second
      omega
  | whileLoop mark condition body =>
    have smaller := inBlock member
    simp only [whileLoop.sizeOf_spec]
    omega
  | doLoop mark body condition =>
    have smaller := inBlock member
    simp only [doLoop.sizeOf_spec]
    omega
  | forLoop mark outer init condition step body =>
    simp only [forLoop.sizeOf_spec]
    rcases List.mem_cons.mp member with rfl | listed
    · omega
    rcases List.mem_cons.mp listed with rfl | inner
    · omega
    · have smaller := inBlock inner
      omega
  | switch mark value cases default =>
    simp only [switch.sizeOf_spec]
    rcases List.mem_append.mp member with first | second
    · rcases List.mem_flatMap.mp first with ⟨⟨tested, body⟩, among, listed⟩
      have smaller := inBlock listed
      have within := List.sizeOf_lt_of_mem among
      simp only [CaseOf.mk.sizeOf_spec] at within smaller
      omega
    · have smaller := inOther second
      omega
  | _ => cases member

/-- What holds of a statement if it holds of its children holds of every statement. -/
theorem byChildren {motive : Stmt → Prop}
    (step : ∀ stmt : Stmt, (∀ child ∈ stmt.children, motive child) → motive stmt)
    (stmt : Stmt) : motive stmt :=
  step stmt fun child _ => byChildren step child
termination_by sizeOf stmt
decreasing_by exact sizeOf_child ‹_›

end Stmt

/-! ## Readable flows -/

open Emission (Watch Readable ReadableFlow)

variable {watch : Watch}

/-- What a node asks of the source, taken by itself. -/
def Node.Suits (watch : Watch) : Node → Prop
  | .expression part => Emission.Suits watch part
  | .statement stmt => watch.lines stmt.line

namespace Stmt

theorem readable_allFlow (readable : ∀ stmt ∈ statements, ReadableFlow watch stmt.flow) :
    ReadableFlow watch (allFlow statements) := by
  induction statements with
  | nil => trivial
  | cons first rest ih =>
    rw [List.forall_mem_cons] at readable
    exact ⟨readable.1, ih readable.2⟩

theorem readable_caseFlow {mark : Mark} {index : Nat} {last : Plan} {cases : List Case}
    (tested : ∀ arm ∈ cases, Readable watch arm.value)
    (bodies : ∀ arm ∈ cases, ∀ stmt ∈ arm.body.statements, ReadableFlow watch stmt.flow)
    (final : ReadableFlow watch last) : ReadableFlow watch (caseFlow mark index last cases) := by
  induction cases generalizing index with
  | nil => exact final
  | cons first rest ih =>
    rw [List.forall_mem_cons] at tested bodies
    exact ⟨tested.1, readable_allFlow bodies.1, ih tested.2 bodies.2⟩

theorem readable_discard {line : Nat} (readable : Readable watch expr) :
    ReadableFlow watch (Plan.discard line expr) := by
  unfold Plan.discard
  split
  · rename_i found
    unfold Deed.expectation? at found
    split at found
    · split at found
      · cases found
        exact ⟨readable.child (by simp [Expr.children]), readable.child (by simp [Expr.children])⟩
      · cases found
    · cases found
  · exact ⟨List.forall_mem_singleton.mpr readable, fun _ member => absurd member List.not_mem_nil⟩

/-- The flow of a statement asks for what its nodes ask for. -/
theorem readable_flow (suits : watch.strict → ∀ node ∈ stmt.nodes, node.Suits watch) :
    ReadableFlow watch stmt.flow := by
  induction stmt using byChildren with
  | _ stmt ih =>
    have inside (child) (member : child ∈ stmt.children) : ReadableFlow watch child.flow :=
      ih child member fun strict node among =>
        suits strict node (mem_nodes.mpr (.inr (.inr ⟨child, member, among⟩)))
    have own (expr) (member : expr ∈ stmt.exprs) : Readable watch expr :=
      fun strict part within => suits strict _
        (mem_nodes.mpr (.inr (.inl ⟨expr, member, List.mem_map_of_mem within⟩)))
    have shown : watch.Shows stmt.line := fun strict => suits strict _ (mem_nodes.mpr (.inl rfl))
    clear ih suits
    cases stmt with
    | declare mark target value =>
      refine ⟨⟨nofun, nofun⟩, ?_⟩
      cases value with
      | none => trivial
      | some value => exact ⟨own, List.forall_mem_singleton.mpr shown⟩
    | assign mark target selector value =>
      exact ⟨⟨nofun, nofun⟩, own, List.forall_mem_singleton.mpr shown⟩
    | call mark invoked => exact ⟨⟨nofun, nofun⟩, readable_discard (own _ List.mem_cons_self)⟩
    | branch mark condition body other =>
      have bodies := List.forall_mem_append.mp inside
      rcases other with _ | other
      · exact ⟨⟨nofun, nofun⟩, own _ List.mem_cons_self, readable_allFlow bodies.1, trivial⟩
      · exact ⟨⟨nofun, nofun⟩, own _ List.mem_cons_self, readable_allFlow bodies.1,
          readable_allFlow bodies.2⟩
    | whileLoop mark condition body | doLoop mark body condition =>
      exact ⟨⟨nofun, nofun⟩, own _ List.mem_cons_self, readable_allFlow inside⟩
    | forLoop mark outer init condition step body =>
      simp only [children, List.forall_mem_cons] at inside
      exact ⟨⟨nofun, nofun⟩, inside.1, own _ List.mem_cons_self, readable_allFlow inside.2.2,
        inside.2.1⟩
    | switch mark value cases default =>
      rw [exprs, List.forall_mem_cons, List.forall_mem_map] at own
      have bodies := List.forall_mem_append.mp inside
      have arms (arm) (among : arm ∈ cases) (stmt) (member : stmt ∈ arm.body.statements) :=
        bodies.1 stmt (List.mem_flatMap.mpr ⟨arm, among, member⟩)
      rcases default with _ | default
      · exact ⟨⟨nofun, nofun⟩, own.1, readable_caseFlow own.2 arms trivial⟩
      · exact ⟨⟨nofun, nofun⟩, own.1, readable_caseFlow own.2 arms (readable_allFlow bodies.2)⟩
    | giveBack mark value | emit mark event number address value =>
      exact ⟨⟨nofun, nofun⟩, own, nofun⟩
    | throw mark value => exact ⟨⟨nofun, nofun⟩, own _ List.mem_cons_self⟩
    | leave mark | next mark => exact ⟨⟨nofun, nofun⟩, shown⟩
    | assembly mark lines => exact ⟨⟨nofun, nofun⟩, nofun, nofun⟩

end Stmt

/-- The flow of a block asks for what its nodes ask for. -/
theorem BlockOf.readable_flow (suits : watch.strict → ∀ node ∈ block.nodes, node.Suits watch) :
    ReadableFlow watch block.flow :=
  Stmt.readable_allFlow fun stmt member => Stmt.readable_flow fun strict node among =>
    suits strict node (Stmt.mem_allNodes.mpr ⟨stmt, member, among⟩)

/-! ## Arguments -/

/-- The calls of a block have the arguments that they read. -/
def BlockOf.Supplied (block : Block) : Prop :=
  ∀ expr, .expression expr ∈ block.nodes → expr.hasArguments = true

/-! ## Variables -/

/-- The variable is read somewhere in the expression. -/
inductive Expr.Mentions (id : VarId) : Expr → Prop
  | itself {mark : Mark} {ty : Ty} : Mentions id (.variable mark ty id)
  | inside {child expr : Expr} (member : child ∈ expr.children) (deeper : child.Mentions id) :
      Mentions id expr

/-- The variable is written somewhere in the statement, as a whole or in part. -/
inductive Stmt.Writes (id : VarId) : Stmt → Prop
  | itself {stmt : Stmt} (target : stmt.assigned? = some id) : Writes id stmt
  | inside {child stmt : Stmt} (member : child ∈ stmt.children) (deeper : child.Writes id) :
      Writes id stmt

/-- The variable is read somewhere in the statement. -/
inductive Stmt.Mentions (id : VarId) : Stmt → Prop
  | itself {expr : Expr} {stmt : Stmt} (member : expr ∈ stmt.exprs)
      (deeper : expr.Mentions id) : Mentions id stmt
  | inside {child stmt : Stmt} (member : child ∈ stmt.children) (deeper : child.Mentions id) :
      Mentions id stmt

/-- A statement of the block writes the variable. -/
def BlockOf.Writes (block : Block) (id : VarId) : Prop :=
  ∃ stmt ∈ block.statements, stmt.Writes id

/-- A statement of the block reads the variable. -/
def BlockOf.Mentions (block : Block) (id : VarId) : Prop :=
  ∃ stmt ∈ block.statements, stmt.Mentions id

theorem Expr.mentions_iff : expr.Mentions id ↔ expr.Reads id := by
  constructor
  · intro mentions
    induction mentions with
    | itself => exact ⟨_, Expr.self_mem_walk _, by simp [Expr.reads]⟩
    | inside member _ ih => exact .of_child member ih
  · rintro ⟨part, among, reads⟩
    induction expr using Expr.byChildren with
    | _ expr ih =>
      rcases Expr.mem_walk.mp among with rfl | ⟨child, member, inner⟩
      · cases part with
        | «variable» mark ty other =>
          simp only [Expr.reads, beq_iff_eq] at reads
          subst reads
          exact .itself
        | _ => simp [Expr.reads] at reads
      · exact .inside member (ih child member inner)

theorem Stmt.writes_iff : stmt.Writes id ↔ ∃ node ∈ stmt.nodes, node.assigns id = true := by
  constructor
  · intro writes
    induction writes with
    | itself target =>
      exact ⟨_, mem_nodes.mpr (.inl rfl), by simp [Node.assigns, target]⟩
    | inside member _ ih =>
      rcases ih with ⟨node, among, assigns⟩
      exact ⟨node, mem_nodes.mpr (.inr (.inr ⟨_, member, among⟩)), assigns⟩
  · rintro ⟨node, among, assigns⟩
    induction stmt using Stmt.byChildren with
    | _ stmt ih =>
      rcases mem_nodes.mp among with rfl | ⟨expr, -, inner⟩ | ⟨child, member, inner⟩
      · exact .itself (by simpa [Node.assigns] using assigns)
      · rcases List.mem_map.mp inner with ⟨part, -, rfl⟩
        simp [Node.assigns] at assigns
      · exact .inside member (ih child member inner)

theorem Stmt.mentions_iff :
    stmt.Mentions id ↔ ∃ expr, .expression expr ∈ stmt.nodes ∧ expr.reads id = true := by
  constructor
  · intro mentions
    induction mentions with
    | itself member deeper =>
      rcases Expr.mentions_iff.mp deeper with ⟨part, among, reads⟩
      exact ⟨part, mem_nodes.mpr (.inr (.inl ⟨_, member, List.mem_map_of_mem among⟩)), reads⟩
    | inside member _ ih =>
      rcases ih with ⟨expr, among, reads⟩
      exact ⟨expr, mem_nodes.mpr (.inr (.inr ⟨_, member, among⟩)), reads⟩
  · rintro ⟨part, among, reads⟩
    induction stmt using Stmt.byChildren with
    | _ stmt ih =>
      rcases mem_nodes.mp among with same | ⟨expr, member, inner⟩ | ⟨child, member, inner⟩
      · cases same
      · rcases List.mem_map.mp inner with ⟨other, within, same⟩
        cases same
        exact .itself member (Expr.mentions_iff.mpr ⟨part, within, reads⟩)
      · exact .inside member (ih child member inner)

/-- The scan for assignments finds the variables that are written. -/
theorem BlockOf.assigns_iff : block.assigns id = true ↔ block.Writes id := by
  simp only [BlockOf.assigns, BlockOf.nodes, BlockOf.Writes, List.any_eq_true,
    Stmt.mem_allNodes, Stmt.writes_iff]
  grind

/-- The scan for uses finds the variables that are read or written. -/
theorem BlockOf.uses_iff : block.uses id = true ↔ block.Mentions id ∨ block.Writes id := by
  have split : ∀ node : Node, node.uses id = true ↔
      (∃ expr, node = .expression expr ∧ expr.reads id = true) ∨ node.assigns id = true := by
    rintro (stmt | expr)
    · simp [Node.uses]
    · simp [Node.uses, Node.assigns]
  simp only [BlockOf.uses, BlockOf.nodes, BlockOf.Mentions, BlockOf.Writes, List.any_eq_true,
    Stmt.mem_allNodes, Stmt.writes_iff, Stmt.mentions_iff, split]
  grind

/-! ## Statements as parts of a flow -/

namespace Flow

variable {Note Value : Type} {flow part deeper : Flow Note Value}
  {around inner innermost : Surroundings}

theorem self_mem_parts (flow : Flow Note Value) (around : Surroundings) :
    (around, flow) ∈ flow.parts around := by
  unfold parts
  exact List.mem_cons_self

/-- The parts of a part are parts. -/
theorem parts_trans (outer : (inner, part) ∈ flow.parts around)
    (nested : (innermost, deeper) ∈ part.parts inner) :
    (innermost, deeper) ∈ flow.parts around := by
  induction flow generalizing around with
  | _ => grind [Flow.parts]

/-- What a part assigns is assigned. -/
theorem assigned_of_mem_parts (member : (inner, part) ∈ flow.parts around)
    (assigned : id ∈ part.assigned) : id ∈ flow.assigned := by
  induction flow generalizing around with
  | _ => grind [Flow.parts, Flow.assigned]

@[simp]
theorem parts_map {OtherNote OtherValue : Type} (note : Note → OtherNote)
    (value : Value → OtherValue) (flow : Flow Note Value) (around : Surroundings) :
    (flow.map note value).parts around =
      (flow.parts around).map fun entry => (entry.1, entry.2.map note value) := by
  induction flow generalizing around with
  | _ => simp_all [Flow.map, Flow.parts]

end Flow

namespace Stmt

theorem mem_parts_allFlow (member : stmt ∈ statements) (around : Surroundings) :
    (around, stmt.flow) ∈ (allFlow statements).parts around := by
  induction statements with
  | nil => cases member
  | cons first rest ih =>
    rcases List.mem_cons.mp member with rfl | later
    · exact List.mem_cons_of_mem _ (List.mem_append_left _ (Flow.self_mem_parts _ _))
    · exact List.mem_cons_of_mem _ (List.mem_append_right _ (ih later))

theorem mem_parts_caseFlow {arm : Case} {cases : List Case} (among : arm ∈ cases)
    (member : stmt ∈ arm.body.statements) (mark : Mark) (index : Nat) (last : Plan)
    (around : Surroundings) :
    (around.within arm.body.scope, stmt.flow) ∈
      (caseFlow mark index last cases).parts around := by
  induction cases generalizing index with
  | nil => cases among
  | cons first rest ih =>
    rcases first with ⟨value, ⟨scope, body⟩⟩
    rcases List.mem_cons.mp among with rfl | later
    · have inside := mem_parts_allFlow member (around.within scope)
      simp only [caseFlow, Flow.parts, List.mem_cons, List.mem_append]
      exact .inr (.inl (.inr inside))
    · exact List.mem_cons_of_mem _ (List.mem_append_right _ (ih later (index + 1)))

theorem last_mem_parts_caseFlow (mark : Mark) (index : Nat) (last : Plan) (cases : List Case)
    (around : Surroundings) : (around, last) ∈ (caseFlow mark index last cases).parts around := by
  induction cases generalizing index with
  | nil => exact Flow.self_mem_parts last around
  | cons first rest ih =>
    rcases first with ⟨value, ⟨scope, body⟩⟩
    exact List.mem_cons_of_mem _ (List.mem_append_right _ (ih (index + 1)))

/-- The statements of a block stand in the scope of the block. -/
theorem mem_parts_within (member : stmt ∈ statements) (scope : ScopeId) (line : Nat)
    (around : Surroundings) :
    (around.within scope, stmt.flow) ∈
      (Flow.within () scope line (allFlow statements) : Plan).parts around :=
  List.mem_cons_of_mem _ (mem_parts_allFlow member (around.within scope))

/-- The flow of a child is a part of the flow of the statement. -/
theorem exists_part_of_child {child : Stmt} (member : child ∈ stmt.children)
    (around : Surroundings) : ∃ inner, (inner, child.flow) ∈ stmt.flow.parts around := by
  have behind : ∀ {line : Nat} {rest : Plan} {inner : Surroundings},
      (inner, child.flow) ∈ rest.parts around →
        ∃ inner, (inner, child.flow) ∈ (Plan.commented line rest).parts around :=
    fun listed => ⟨_, List.mem_cons_of_mem _ (List.mem_append_right _ listed)⟩
  cases stmt with
  | branch mark condition body other =>
    rcases body with ⟨scope, body⟩
    rcases List.mem_append.mp member with first | second
    · have inside := mem_parts_within first scope (Emission.lastLine body) around
      rcases other with _ | ⟨otherScope, other⟩ <;>
        exact behind (List.mem_cons_of_mem _ (List.mem_append_left _ inside))
    · rcases other with _ | ⟨otherScope, other⟩
      · cases second
      · have inside := mem_parts_within second otherScope (Emission.lastLine other) around
        exact behind (List.mem_cons_of_mem _ (List.mem_append_right _ inside))
  | whileLoop mark condition body | doLoop mark body condition =>
    rcases body with ⟨scope, body⟩
    exact behind (List.mem_cons_of_mem _ (mem_parts_within member scope _ _))
  | forLoop mark outer init condition step body =>
    rcases body with ⟨scope, body⟩
    rcases List.mem_cons.mp member with rfl | later
    · exact behind (List.mem_cons_of_mem _ (List.mem_cons_of_mem _
        (List.mem_append_left _ (Flow.self_mem_parts _ _))))
    rcases List.mem_cons.mp later with rfl | listed
    · exact behind (List.mem_cons_of_mem _ (List.mem_cons_of_mem _ (List.mem_append_right _
        (List.mem_cons_of_mem _ (List.mem_append_right _ (Flow.self_mem_parts _ _))))))
    · exact behind (List.mem_cons_of_mem _ (List.mem_cons_of_mem _ (List.mem_append_right _
        (List.mem_cons_of_mem _ (List.mem_append_left _ (mem_parts_within listed scope _ _))))))
  | switch mark value cases default =>
    rcases List.mem_append.mp member with first | second
    · rcases List.mem_flatMap.mp first with ⟨arm, among, listed⟩
      rcases default with _ | ⟨scope, body⟩ <;>
        exact behind (List.mem_cons_of_mem _ (mem_parts_caseFlow among listed mark 0 _ around))
    · rcases default with _ | ⟨scope, body⟩
      · cases second
      · have inside := mem_parts_within second scope (Emission.lastLine body) around
        exact behind (List.mem_cons_of_mem _
          (Flow.parts_trans (last_mem_parts_caseFlow mark 0 _ cases around) inside))
  | _ => cases member

/-- The flow of a statement that a walk meets is a part of the flow of the whole. -/
theorem exists_part_of_node {inner : Stmt} (met : .statement inner ∈ stmt.nodes)
    (around : Surroundings) : ∃ within, (within, inner.flow) ∈ stmt.flow.parts around := by
  induction stmt using byChildren generalizing around with
  | _ stmt ih =>
    rcases mem_nodes.mp met with same | ⟨expr, -, inside⟩ | ⟨child, listed, inside⟩
    · cases same
      exact ⟨around, Flow.self_mem_parts _ _⟩
    · rcases List.mem_map.mp inside with ⟨part, -, same⟩
      cases same
    · rcases exists_part_of_child listed around with ⟨between, outer⟩
      rcases ih child listed inside between with ⟨innermost, nested⟩
      exact ⟨innermost, Flow.parts_trans outer nested⟩

end Stmt

/-- The flow of a statement that a walk meets is a part of the flow of the block. -/
theorem BlockOf.exists_part_of_node {inner : Stmt} (met : .statement inner ∈ block.nodes)
    (around : Surroundings) : ∃ within, (within, inner.flow) ∈ block.flow.parts around := by
  rcases Stmt.mem_allNodes.mp met with ⟨stmt, listed, inside⟩
  have outer := Stmt.mem_parts_within listed block.scope
    (Emission.lastLine block.statements) around
  rcases Stmt.exists_part_of_node inside (around.within block.scope) with ⟨within, nested⟩
  exact ⟨within, Flow.parts_trans outer nested⟩

/-- What a block writes is assigned in its flow. -/
theorem BlockOf.mem_assigned_flow (writes : block.Writes id) : id ∈ block.flow.assigned := by
  rcases List.any_eq_true.mp (BlockOf.assigns_iff.mpr writes) with ⟨node, met, assigns⟩
  cases node with
  | expression expr => cases assigns
  | statement stmt =>
    have assigned : id ∈ stmt.flow.assigned := by
      simp only [Node.assigns, beq_iff_eq] at assigns
      cases stmt with
      | assign mark target selector value =>
        cases assigns
        simp [Stmt.flow, Plan.commented, Plan.deed, Flow.assigned, Deed.target?]
      | declare mark target value =>
        cases value with
        | none => cases assigns
        | some value =>
          cases assigns
          simp [Stmt.flow, Plan.commented, Plan.assignment, Plan.deed, Flow.assigned,
            Deed.target?]
      | _ => cases assigns
    rcases BlockOf.exists_part_of_node met ⟨[], []⟩ with ⟨within, part⟩
    exact Flow.assigned_of_mem_parts part assigned

end Covenant
