import Covenant.Proofs.Labels
import Covenant.Proofs.ReadingExpressions
import Covenant.Reading.Statement

/-!
# Reading blocks

The statements that are read have what the theory of emitted code asks for:
names are resolved to variables of the scopes around them, scopes are nested
as they are written, and every construct has a number of its own.  Each node
fits what it refers to and stands on a line of the source.

`Settled` collects this for the flows and the nodes that have been read between
two places, in whatever order they are going to be emitted.  It speaks about
all trees that the scopes can grow into, so it stays true when reading goes on.
-/

namespace Covenant

variable {scope : ScopeId}

/-! ## Nodes -/

/-- What a reader makes sure of when it makes a node of a body. -/
def Node.Made (ground : Reading.Ground) (known : Vocabulary) (returns : Ty) : Node → Prop
  | .expression expr => expr.Made ground known
  | .statement stmt => stmt.Fits known returns ∧ Reading.Shown ground stmt.line

theorem Node.Made.fits {ground : Reading.Ground} {known : Vocabulary} {returns : Ty} {node : Node}
    (made : node.Made ground known returns) : node.Fits known returns := by
  cases node with
  | expression expr => exact Expr.Made.fits made
  | statement stmt => exact And.left made

/-- The line that a node stands on. -/
def Node.line : Node → Nat
  | .expression expr => expr.line
  | .statement stmt => stmt.line

theorem Node.Made.shown {ground : Reading.Ground} {known : Vocabulary} {returns : Ty} {node : Node}
    (made : node.Made ground known returns) : Reading.Shown ground node.line := by
  cases node with
  | expression expr => exact Expr.Made.shown made
  | statement stmt => exact And.right made

/-- The number of a node. -/
def Node.id : Node → Nat
  | .expression expr => expr.mark.id
  | .statement stmt => stmt.mark.id

open Classical in
/--
The nodes that an assignment has twice: where a value is computed from an
element and goes back into it, the index is a part of both.
-/
noncomputable def Stmt.repeated : Stmt → List Node
  | .assign _ _ (.index position) (.binary _ _ _ (.element _ _ _ index) _) =>
    if position = index then position.nodes else []
  | _ => []

/-- The nodes that are there twice because of the node. -/
noncomputable def Node.repeated : Node → List Node
  | .expression _ => []
  | .statement stmt => stmt.repeated

/-- How many of the nodes have the number. -/
def Node.count (nodes : List Node) (id : Nat) : Nat :=
  (nodes.map Node.id).count id

/-- A source can assign to the variable. -/
def ScopeTree.Assignable (tree : ScopeTree) (id : VarId) : Prop :=
  (tree.declaration id).storage ≠ .nft ∧ (tree.declaration id).collection = none

/-- Names are resolved, the scopes exist, and only variables are assigned that may be. -/
structure Flow.Resolved {Note Value : Type} (tree : ScopeTree) (enclosing : List ScopeId)
    (flow : Flow Note Value) : Prop where
  names : flow.Scoped tree enclosing
  assignable : ∀ id ∈ flow.assigned, tree.Assignable id
  present : ∀ scope ∈ flow.scopes, scope < tree.scopes.length

namespace Flow

variable {Note Value : Type} {tree : ScopeTree} {enclosing : List ScopeId}

@[simp]
theorem resolved_seq (first second : Flow Note Value) :
    (Flow.seq first second).Resolved tree enclosing ↔
      first.Resolved tree enclosing ∧ second.Resolved tree enclosing := by
  grind [Resolved, Scoped, assigned, scopes]

@[simp]
theorem resolved_branch (mark : Mark) (condition : Value) (body other : Flow Note Value) :
    (Flow.branch mark condition body other).Resolved tree enclosing ↔
      body.Resolved tree enclosing ∧ other.Resolved tree enclosing := by
  grind [Resolved, Scoped, assigned, scopes]

@[simp]
theorem resolved_whileLoop (note : Note) (mark : Mark) (condition : Value)
    (body : Flow Note Value) :
    (Flow.whileLoop note mark condition body).Resolved tree enclosing ↔
      body.Resolved tree enclosing := by
  grind [Resolved, Scoped, assigned, scopes]

@[simp]
theorem resolved_doLoop (note : Note) (mark : Mark) (condition : Value)
    (body : Flow Note Value) :
    (Flow.doLoop note mark body condition).Resolved tree enclosing ↔
      body.Resolved tree enclosing := by
  grind [Resolved, Scoped, assigned, scopes]

@[simp]
theorem resolved_forLoop (note : Note) (mark : Mark) (condition : Value)
    (body step : Flow Note Value) :
    (Flow.forLoop note mark condition body step).Resolved tree enclosing ↔
      body.Resolved tree enclosing ∧ step.Resolved tree enclosing := by
  grind [Resolved, Scoped, assigned, scopes]

@[simp]
theorem resolved_switch (mark : Mark) (value : Value) (arms : Flow Note Value) :
    (Flow.switch mark value arms).Resolved tree enclosing ↔ arms.Resolved tree enclosing := by
  grind [Resolved, Scoped, assigned, scopes]

@[simp]
theorem resolved_arm (mark : Mark) (index : Nat) (value : Value)
    (body others : Flow Note Value) :
    (Flow.arm mark index value body others).Resolved tree enclosing ↔
      body.Resolved tree enclosing ∧ others.Resolved tree enclosing := by
  grind [Resolved, Scoped, assigned, scopes]

/-- Where nothing is assigned and no scope is opened, only the names have to be resolved. -/
theorem resolved_of_bare {flow : Flow Note Value} (names : flow.Scoped tree enclosing)
    (unassigned : flow.assigned = []) (unopened : flow.scopes = []) :
    flow.Resolved tree enclosing := by
  constructor
  · exact names
  · simp [unassigned]
  · simp [unopened]

@[simp]
theorem resolved_skip : (Flow.skip : Flow Note Value).Resolved tree enclosing :=
  ⟨trivial, nofun, nofun⟩

/-- A comment assigns nothing. -/
@[simp]
theorem resolved_commented (line : Nat) (rest : Plan) :
    (Plan.commented line rest).Resolved tree enclosing ↔ rest.Resolved tree enclosing := by
  have comment : (Plan.deed (.comment line)).Resolved tree enclosing :=
    ⟨nofun, nofun, nofun⟩
  simp [Plan.commented, comment]

end Flow

namespace Reading

variable {ground : Ground} {context : Context}

/-- The numbers from one on to another stand for one node each, but for nodes that are repeated. -/
def Numbered (nodes : List Node) (start last : Nat) : Prop :=
  ∀ id, Node.count nodes id ≤ Node.count (nodes.flatMap Node.repeated) id + fresh start last id

namespace Numbered

variable {nodes more : List Node} {start last later : Nat}

theorem perm (numbered : Numbered nodes start last) (alike : nodes.Perm more) :
    Numbered more start last := by
  intro id
  have few := numbered id
  unfold Node.count at few ⊢
  rwa [(alike.map _).count_eq, ((alike.flatMap_right _).map _).count_eq] at few

theorem append (first : Numbered nodes start last) (second : Numbered more last later)
    (le : start ≤ last) (less : last ≤ later) : Numbered (nodes ++ more) start later := by
  intro id
  have one := first id
  have two := second id
  simp only [Node.count, List.flatMap_append, List.map_append, List.count_append] at one two ⊢
  rw [← fresh_add le less]
  omega

theorem onward (numbered : Numbered nodes start last) (le : start ≤ last) (less : last ≤ later) :
    Numbered nodes start later := by
  intro id
  have few := numbered id
  rw [← fresh_add le less]
  omega

end Numbered

/-- Some flows and nodes have been read in a scope, from one place to another. -/
structure Settled (ground : Ground) (context : Context) (scope : ScopeId) (plans : List Plan)
    (nodes : List Node) (start now : Place) : Prop where
  extended : start.scopes.Extends [scope] now.scopes
  le : start.nodes ≤ now.nodes
  owners : ∀ label ∈ plans.flatMap Flow.labels,
    start.nodes < label.owner ∧ label.owner ≤ now.nodes
  distinct : (plans.flatMap Flow.labels).Nodup
  resolved : ∀ opened tree, now.scopes.Extends opened tree → tree.WellFormed →
    ∀ plan ∈ plans, plan.Resolved tree (tree.chain scope)
  made : ∀ node ∈ nodes, node.Made ground (context.vocabulary now.scopes) context.returns
  uses : Numbered nodes start.nodes now.nodes

theorem vocabulary_grows (context : Context) {before after : ScopeTree}
    (grows : before.Grows after) :
    (context.vocabulary before).Grows (context.vocabulary after) :=
  ⟨grows.declarations, List.prefix_rfl, List.prefix_rfl, List.prefix_rfl⟩

theorem node_made_grows {known later : Vocabulary} (grows : known.Grows later) {returns : Ty}
    {node : Node} (made : node.Made ground known returns) : node.Made ground later returns := by
  cases node with
  | expression expr => exact ⟨grows.exprFits made.fits, made.complete, made.shown⟩
  | statement statement => exact ⟨grows.stmtFits made.1, made.2⟩

section Made

variable {exprs : List Expr} {start now : Place}

theorem Makes.nodes_made (makes : Makes ground context [] start exprs now) {tree : ScopeTree}
    (grows : start.scopes.Grows tree) :
    ∀ node ∈ (Expr.walkAll exprs).map Node.expression,
      node.Made ground (context.vocabulary tree) context.returns := by
  rw [List.forall_mem_map]
  intro part member
  rcases Expr.mem_walkAll.mp member with ⟨expr, listed, inside⟩
  exact node_made_grows (vocabulary_grows context grows)
    (makes.proper nofun expr listed part inside)

theorem count_walkAll (exprs : List Expr) (id : Nat) :
    Node.count ((Expr.walkAll exprs).map Node.expression) id = Expr.uses exprs id := by
  simp [Node.count, Expr.uses, Node.id, Function.comp_def]

theorem Makes.nodes_count (makes : Makes ground context [] start exprs now) (id : Nat) :
    Node.count ((Expr.walkAll exprs).map Node.expression) id ≤
      fresh start.nodes now.nodes id := by
  rw [count_walkAll]
  exact Nat.le_trans (makes.uses id) (by simp [Expr.uses, Expr.walkAll])

end Made

namespace Settled

variable {scope : ScopeId} {plans : List Plan} {nodes : List Node} {start now later : Place}

theorem initial (scope : ScopeId) (now : Place) : Settled ground context scope [] [] now now where
  extended := .refl _ _
  le := Nat.le_refl _
  owners := by simp
  distinct := by simp
  resolved := by simp
  made := by simp
  uses := by simp [Numbered, Node.count]

/-- What has been read stays read. -/
theorem onward (settled : Settled ground context scope plans nodes start now)
    {opened : List ScopeId} (extended : now.scopes.Extends opened later.scopes)
    (among : ∀ other ∈ opened, other ∈ [scope] ∨ start.scopes.scopes.length ≤ other)
    (le : now.nodes ≤ later.nodes) :
    Settled ground context scope plans nodes start later where
  extended := settled.extended.trans extended among
  le := Nat.le_trans settled.le le
  owners label member := by
    have owner := settled.owners label member
    exact ⟨owner.1, Nat.le_trans owner.2 le⟩
  distinct := settled.distinct
  resolved inner tree further treeFormed := by
    have joined : now.scopes.Extends (opened ++ inner) tree := by
      refine (extended.widen ?_).trans further ?_
      · exact fun other member => Or.inl (List.mem_append_left _ member)
      · exact fun other member => Or.inl (List.mem_append_right _ member)
    exact settled.resolved _ tree joined treeFormed
  made node member :=
    node_made_grows (vocabulary_grows context extended.toGrows) (settled.made node member)
  uses := settled.uses.onward settled.le le

theorem still (settled : Settled ground context scope plans nodes start now)
    (same : later.scopes = now.scopes) (le : now.nodes ≤ later.nodes) :
    Settled ground context scope plans nodes start later := by
  have extended : now.scopes.Extends [] later.scopes := by
    rw [same]
    exact .refl _ _
  exact settled.onward extended (by simp) le

/-- The order in which flows and nodes were read does not matter. -/
theorem perm {others : List Plan} {more : List Node}
    (settled : Settled ground context scope plans nodes start now) (same : plans.Perm others)
    (alike : nodes.Perm more) :
    Settled ground context scope others more start now where
  extended := settled.extended
  le := settled.le
  owners label member := settled.owners label ((same.flatMap_right _).mem_iff.mpr member)
  distinct := (same.flatMap_right _).nodup_iff.mp settled.distinct
  resolved opened tree further formed plan member :=
    settled.resolved opened tree further formed plan (same.mem_iff.mpr member)
  made node member := settled.made node (alike.mem_iff.mpr member)
  uses := settled.uses.perm alike

/-- What is read one after the other shares no labels. -/
theorem append {others : List Plan} {more : List Node}
    (first : Settled ground context scope plans nodes start now)
    (second : Settled ground context scope others more now later) :
    Settled ground context scope (plans ++ others) (nodes ++ more) start later := by
  have kept := first.onward second.extended (fun _ member => Or.inl member) second.le
  refine ⟨kept.extended, kept.le, ?_, ?_, ?_, ?_,
    first.uses.append second.uses first.le second.le⟩
  · intro label member
    rw [List.flatMap_append, List.mem_append] at member
    rcases member with left | right
    · exact kept.owners label left
    · have owner := second.owners label right
      exact ⟨Nat.lt_of_le_of_lt first.le owner.1, owner.2⟩
  · rw [List.flatMap_append, List.nodup_append]
    refine ⟨first.distinct, second.distinct, ?_⟩
    rintro one left other right rfl
    have early := (first.owners one left).2
    have late := (second.owners one right).1
    omega
  · intro opened tree further formed plan member
    rcases List.mem_append.mp member with left | right
    · exact kept.resolved opened tree further formed plan left
    · exact second.resolved opened tree further formed plan right
  · exact List.forall_mem_append.mpr ⟨kept.made, second.made⟩

/-- Expressions are read between statements. -/
theorem make {exprs : List Expr} (settled : Settled ground context scope plans nodes start now)
    (makes : Makes ground context [] now exprs later) :
    Settled ground context scope plans (nodes ++ (Expr.walkAll exprs).map .expression) start
      later := by
  have kept : Settled ground context scope [] [] now later :=
    (initial scope now).still makes.same makes.le
  have alone : Settled ground context scope [] ((Expr.walkAll exprs).map .expression) now later :=
    { kept with
      made := makes.nodes_made kept.extended.toGrows
      uses := fun id => Nat.le_trans (makes.nodes_count id) (Nat.le_add_left _ _) }
  simpa using settled.append alone

/-- A construct is built of what has been read, with the next number. -/
theorem compound (settled : Settled ground context scope plans nodes start now) {new : Plan}
    {statement : Stmt} (own : List Label)
    (labels : ∀ label, new.labels.count label =
      own.count label + (plans.flatMap Flow.labels).count label)
    (distinct : own.Nodup) (owners : ∀ label ∈ own, label.owner = now.nodes + 1)
    (resolved : ∀ tree enclosing, (∀ plan ∈ plans, plan.Resolved tree enclosing) →
      new.Resolved tree enclosing)
    (fits : statement.Fits (context.vocabulary now.scopes) context.returns)
    (shown : Shown ground statement.line) (marked : statement.mark.id = now.nodes + 1) :
    Settled ground context scope [new] (.statement statement :: nodes) start
      ⟨now.scopes, now.nodes + 1⟩ := by
  have labels : new.labels.Perm (own ++ plans.flatMap Flow.labels) := by
    rw [List.perm_iff_count]
    simpa using labels
  refine ⟨settled.extended, Nat.le_succ_of_le settled.le, ?_, ?_, ?_, ?_, ?_⟩
  · intro label member
    rw [List.flatMap_singleton, labels.mem_iff, List.mem_append] at member
    have more := settled.le
    rcases member with mine | read
    · have owner := owners label mine
      simp only
      omega
    · have owner := settled.owners label read
      simp only
      omega
  · rw [List.flatMap_singleton, labels.nodup_iff, List.nodup_append]
    refine ⟨distinct, settled.distinct, ?_⟩
    rintro one mine other read rfl
    have first := owners one mine
    have second := (settled.owners one read).2
    omega
  · intro opened tree further formed plan member
    rw [List.mem_singleton.mp member]
    exact resolved tree _ (settled.resolved opened tree further formed)
  · exact List.forall_mem_cons.mpr ⟨⟨fits, shown⟩, settled.made⟩
  · intro id
    have few := settled.uses id
    have mine : Node.id (.statement statement) = now.nodes + 1 := marked
    simp only [Node.count, List.flatMap_cons, List.map_append, List.map_cons, List.count_append,
      List.count_cons, mine, beq_iff_eq] at few ⊢
    rw [← fresh_add settled.le (Nat.le_succ _), fresh_succ]
    omega

/-- Flows can be put together where this takes no label. -/
theorem regroup (settled : Settled ground context scope plans nodes start now) {new : Plan}
    (labels : new.labels = plans.flatMap Flow.labels)
    (resolved : ∀ tree enclosing, (∀ plan ∈ plans, plan.Resolved tree enclosing) →
      new.Resolved tree enclosing) :
    Settled ground context scope [new] nodes start now where
  __ := settled
  owners label member := by
    rw [List.flatMap_singleton, labels] at member
    exact settled.owners label member
  distinct := by
    rw [List.flatMap_singleton, labels]
    exact settled.distinct
  resolved opened tree further formed plan member := by
    rw [List.mem_singleton.mp member]
    exact resolved tree _ (settled.resolved opened tree further formed)

/-- A statement without blocks, whose labels are its own. -/
theorem leaf {statement : Stmt} {parts : List Node}
    (settled : Settled ground context scope [] [] start now)
    (spelled : statement.nodes = .statement statement :: parts)
    (owners : ∀ label ∈ statement.flow.labels,
      start.nodes < label.owner ∧ label.owner ≤ now.nodes)
    (distinct : statement.flow.labels.Nodup)
    (resolved : ∀ opened tree, now.scopes.Extends opened tree → tree.WellFormed →
      statement.flow.Resolved tree (tree.chain scope))
    (made : ∀ node ∈ parts, node.Made ground (context.vocabulary now.scopes) context.returns)
    (uses : ∀ id, Node.count parts id ≤
      Node.count statement.repeated id + fresh start.nodes now.nodes id)
    (fits : statement.Fits (context.vocabulary now.scopes) context.returns)
    (shown : Shown ground statement.line) (marked : statement.mark.id = now.nodes + 1) :
    Settled ground context scope [statement.flow] statement.nodes start
      ⟨now.scopes, now.nodes + 1⟩ where
  extended := settled.extended
  le := Nat.le_succ_of_le settled.le
  owners label member := by
    rw [List.flatMap_singleton] at member
    have owner := owners label member
    exact ⟨owner.1, Nat.le_succ_of_le owner.2⟩
  distinct := by
    rw [List.flatMap_singleton]
    exact distinct
  resolved opened tree further formed plan member := by
    rw [List.mem_singleton.mp member]
    exact resolved opened tree further formed
  made := by
    rw [spelled]
    exact List.forall_mem_cons.mpr ⟨⟨fits, shown⟩, made⟩
  uses id := by
    have few := uses id
    have mine : Node.id (.statement statement) = now.nodes + 1 := marked
    rw [spelled]
    simp only [Node.count, List.flatMap_cons, List.map_append, List.map_cons, List.count_append,
      List.count_cons, mine, beq_iff_eq, Node.repeated] at few ⊢
    rw [← fresh_add settled.le (Nat.le_succ _), fresh_succ]
    omega

end Settled

/-! ## Scopes inside scopes -/

/-- Statements can be read in the scope: it is inside the scope of a method. -/
def Place.Hosts (place : Place) (scope : ScopeId) : Prop :=
  place.scopes.IsInner scope

theorem Place.Hosts.around {place : Place} (hosts : place.Hosts scope) :
    (place.scopes.scope scope).parent.isSome := by
  rcases hosts with ⟨outer, above, -⟩
  simp [above]

theorem Place.Hosts.present {place : Place} (hosts : place.Hosts scope) :
    scope < place.scopes.scopes.length := by
  rcases hosts with ⟨outer, above, -⟩
  exact ScopeTree.lt_of_parent above

theorem Place.Hosts.admits {place : Place} (hosts : place.Hosts scope) :
    place.scopes.Admits scope .local := by
  rcases hosts with ⟨outer, above, further⟩
  rcases Option.isSome_iff_exists.mp further with ⟨root, top⟩
  simp [ScopeTree.Admits, above, top]

theorem Settled.hosts {plans : List Plan} {nodes : List Node} {start now : Place}
    (settled : Settled ground context scope plans nodes start now) (hosts : start.Hosts scope) :
    now.Hosts scope :=
  settled.extended.isInner hosts

/-- A new scope has the scope around it as its parent and changes no other. -/
structure Enters (parent inner : ScopeId) (before after : Place) : Prop where
  new : before.scopes.scopes.length = inner
  nodes : after.nodes = before.nodes
  extended : before.scopes.Extends [] after.scopes
  parented : (after.scopes.scope inner).parent = some parent
  empty : (after.scopes.scope inner).variableIds = []

section Blocks

variable {bound : Nat} {place : Place} {parent inner scope : ScopeId}

theorem childScope_enters (present : parent < place.scopes.scopes.length) :
    Reads ground bound place false (childScope parent) fun inner => Enters parent inner place := by
  have new : (place.scopes.child parent).2.scope place.scopes.scopes.length =
      { parent := some parent, moduleName := (place.scopes.scope parent).moduleName } := by
    rw [ScopeTree.child, ScopeTree.scope_push, if_pos rfl]
  have opened : Reads ground bound place false (setScopes (place.scopes.child parent).2)
      fun _ => Enters parent place.scopes.scopes.length place :=
    .setScopes (.child parent) rfl (.of_scope rfl present) trivial nofun fun made =>
      ⟨rfl, rfl, made.extends, congrArg Scope.parent new, congrArg Scope.variableIds new⟩
  exact .scopes (opened.keep fun _ _ enters => .pure enters)

/-- A scope inside one that has a parent is inside the scope of a method. -/
theorem Enters.hosts {before after : Place} (enters : Enters parent inner before after)
    (around : (before.scopes.scope parent).parent.isSome) : after.Hosts inner := by
  rcases Option.isSome_iff_exists.mp around with ⟨outer, above⟩
  refine ⟨parent, enters.parented, ?_⟩
  rw [enters.extended.parent parent (ScopeTree.lt_of_parent above)]
  exact around

/-- What is read in a new scope ends with it. -/
theorem Enters.within {before entered last : Place} {plan : Plan} {nodes : List Node}
    (enters : Enters parent inner before entered)
    (around : (before.scopes.scope parent).parent.isSome) (line : Nat)
    (inside : Settled ground context inner [plan] nodes entered last) :
    Settled ground context parent [.within () inner line plan] nodes before last ∧
      before.scopes.Extends [] last.scopes := by
  rcases Option.isSome_iff_exists.mp around with ⟨outer, above⟩
  have present := ScopeTree.lt_of_parent above
  have isInner := enters.hosts around
  rcases enters with ⟨rfl, nodes, extended, parented, -⟩
  have outside : before.scopes.Extends [] last.scopes := by
    refine extended.trans inside.extended fun scope member => Or.inr ?_
    exact Nat.le_of_eq (List.mem_singleton.mp member).symm
  refine ⟨⟨outside.widen (by simp), nodes ▸ inside.le, ?_, ?_, ?_, inside.made, ?_⟩,
    outside⟩
  · rw [← nodes]
    exact inside.owners
  · exact inside.distinct
  · intro opened tree further treeFormed new member
    rw [List.mem_singleton.mp member]
    have parentLater : (tree.scope before.scopes.scopes.length).parent = some parent := by
      have first := inside.extended.parent _ (ScopeTree.lt_of_parent parented)
      rw [parented] at first
      rw [further.parent _ (ScopeTree.lt_of_parent first), first]
    have body := inside.resolved opened tree further treeFormed plan (by simp)
    rw [treeFormed.parents.chain_of_parent parentLater] at body
    refine ⟨⟨?_, ?_, body.names⟩, body.assignable, ?_⟩
    · intro listed
      exact Nat.not_le_of_lt present (treeFormed.parents.le_of_mem_chain listed)
    · exact treeFormed.isLocal (further.isInner (inside.extended.isInner isInner))
    · exact List.forall_mem_cons.mpr ⟨ScopeTree.lt_of_parent parentLater, body.present⟩
  · rw [← nodes]
    exact inside.uses

/-! ## Blocks -/

/-- A list of flows, one after the other, has the labels of all of them. -/
theorem labels_allFlow (body : List Stmt) :
    (Stmt.allFlow body).labels = (body.map Stmt.flow).flatMap Flow.labels := by
  induction body with
  | nil => rfl
  | cons first rest ih => simp [Stmt.allFlow, Flow.labels, ih]

theorem resolved_allFlow {tree : ScopeTree} {enclosing : List ScopeId} {body : List Stmt}
    (resolved : ∀ plan ∈ body.map Stmt.flow, plan.Resolved tree enclosing) :
    (Stmt.allFlow body).Resolved tree enclosing := by
  induction body with
  | nil => exact Flow.resolved_skip
  | cons first rest ih =>
    have head := resolved first.flow (by simp)
    have tail := ih fun plan member => resolved plan (List.mem_cons_of_mem _ member)
    exact (Flow.resolved_seq _ _).mpr ⟨head, tail⟩

/-- A statement is settled with all that stands in it. -/
abbrev Settles (ground : Ground) (context : Context) (scope : ScopeId) (start : Place)
    (statement : Stmt) : Place → Prop :=
  Settled ground context scope [statement.flow] statement.nodes start

/-- The reader reads a statement of the scope. -/
abbrev States (ground : Ground) (context : Context) (bound : Nat) (scope : ScopeId) (place : Place)
    (eats : Bool) (code : Reading Stmt) : Prop :=
  Reads ground bound place eats code (Settles ground context scope place)

/-- A reader of statements can be used with some weight. -/
def Nests (ground : Ground) (context : Context) (bound : Nat) (nested : StatementReader) :
    Prop :=
  ∀ (scope : ScopeId) (place : Place), place.Hosts scope →
    States ground context bound scope place true (nested scope)

variable {nested : StatementReader}

theorem collect_settles {done : Reading Bool} (asking : Passes ground false done fun _ => True)
    (nests : Nests ground context bound nested) (hosts : place.Hosts scope) :
    Reads ground bound place false (collect done (nested scope)) fun statements =>
      Settled ground context scope [Stmt.allFlow statements] (Stmt.allNodes statements) place := by
  have each : Reads ground bound place false (collect done (nested scope)) fun statements =>
      Settled ground context scope (statements.map Stmt.flow) (Stmt.allNodes statements) place := by
    refine .collect asking (fun items later settled => ?_) (.initial scope place)
    refine (nests scope later (settled.hosts hosts)).mono fun statement last more => ?_
    rw [Stmt.allNodes_append, List.map_append]
    refine settled.append (more.perm (.refl _) ?_)
    simp [Stmt.allNodes]
  exact each.mono fun statements later settled =>
    settled.regroup (labels_allFlow statements) fun tree enclosing => resolved_allFlow

/-- A block in the scope of a method, or further inside; it leaves the scopes around it alone. -/
theorem block_settles (nests : Nests ground context bound nested)
    (around : (place.scopes.scope parent).parent.isSome) :
    Reads ground bound place true (block nested parent) fun body later =>
      Settled ground context parent [body.flow] body.nodes place later ∧
        place.scopes.Extends [] later.scopes := by
  rcases Option.isSome_iff_exists.mp around with ⟨outer, above⟩
  refine .take (.separator _) fun _ _ => ?_
  refine .keep (childScope_enters (ScopeTree.lt_of_parent above)) fun inner entered enters => ?_
  refine .keep (collect_settles (.eat _ _) nests (enters.hosts around))
    fun statements last inside => ?_
  exact .pure (enters.within around _ inside)

theorem caseBody_settles (nests : Nests ground context bound nested) (hosts : place.Hosts scope) :
    Reads ground bound place false (caseBody nested scope) fun body =>
      Settled ground context scope [body.flow] body.nodes place := by
  have ends : Passes ground false caseEnds fun _ => True :=
    .of_reads fun _ _ => .pass (.check _ _) fun _ _ => .pass (.check _ _) fun _ _ =>
      .pass (.check _ _) fun _ _ => .pure ⟨rfl, trivial⟩
  refine .keep (childScope_enters hosts.present) fun inner entered enters => ?_
  refine .keep (collect_settles ends nests (enters.hosts hosts.around))
    fun statements last inside => ?_
  exact .pure (enters.within hosts.around _ inside).1

theorem otherwise_settles (nests : Nests ground context bound nested) (hosts : place.Hosts scope) :
    Reads ground bound place false (otherwise nested scope) fun other =>
      Settled ground context scope (other.toList.map BlockOf.flow)
        (other.toList.flatMap BlockOf.nodes) place := by
  refine .pass (.eat _ _) fun found _ => ?_
  split
  · refine .pass (.check _ _) fun chained _ => ?_
    split
    · refine .keep (childScope_enters hosts.present) fun inner entered enters => ?_
      refine .spend (nests inner entered (enters.hosts hosts.around))
        fun statement last inside => ?_
      refine .pure ?_
      have alone : Settled ground context inner [Stmt.allFlow [statement]]
          (Stmt.allNodes [statement]) entered last := by
        refine (inside.regroup ?_ ?_).perm (.refl _) (by simp [Stmt.allNodes])
        · simp [Stmt.allFlow, Flow.labels]
        · exact fun tree enclosing resolved => resolved_allFlow (by simpa using resolved)
      refine (enters.within hosts.around _ alone).1.perm (.refl _) ?_
      simp [BlockOf.nodes]
    · refine .spend (block_settles nests hosts.around) fun body last settled => ?_
      exact .pure (by simpa using settled.1)
  · exact .pure (.initial scope place)

end Blocks

end Reading

end Covenant
