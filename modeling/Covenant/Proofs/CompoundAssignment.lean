import Covenant.Proofs.StackCode
import Covenant.Proofs.StackHeights

/-!
# Assignments that update an element

`x[i] += v` is read as an assignment of `x[i] + v` to `x[i]`, with the same
index in both places.  So the nodes of the index are there twice, and they are
the only ones; the code of the index is emitted twice, with all its calls.
-/

namespace Covenant

/-- The nodes of all bodies of a program. -/
def Program.nodes (program : Program) : List Node :=
  program.modules.flatMap fun top => top.inOrder.flatMap Module.nodes

/-- The statement computes a value from an element and puts it back into the same place. -/
inductive Stmt.Updates (array index operand : Expr) : Stmt → Prop
  | element (mark : Mark) (target : VarId) (opMark : Mark) (ty : Ty) (op : BinaryOp)
      (elementMark : Mark) (elementTy : Ty) : Updates array index operand
        (.assign mark target (.index index)
          (.binary opMark ty op (.element elementMark elementTy array index) operand))

/-! ## Nodes that are there twice -/

namespace Stmt

variable {stmt inner : Stmt} {statements : List Stmt} {node : Node}

theorem updates_of_repeated (member : node ∈ stmt.repeated) :
    ∃ array index operand, stmt.Updates array index operand ∧ node ∈ index.nodes := by
  unfold repeated at member
  split at member
  · split at member
    · rename_i same
      subst same
      exact ⟨_, _, _, .element .., member⟩
    · cases member
  · cases member

theorem nodes_sublist_allNodes (member : stmt ∈ statements) :
    stmt.nodes.Sublist (allNodes statements) := by
  rcases List.append_of_mem member with ⟨before, after, rfl⟩
  rw [allNodes_append, allNodes]
  exact (List.sublist_append_left _ _).trans (List.sublist_append_right _ _)

theorem bodies_sublist (cases : List Case) :
    (allNodes (cases.flatMap fun arm => arm.body.statements)).Sublist (caseNodes cases) := by
  induction cases with
  | nil => exact .refl _
  | cons first rest ih =>
    rw [List.flatMap_cons, allNodes_append, caseNodes]
    exact (List.sublist_append_right _ _).append ih

/-- The nodes of the statements inside a statement are nodes of it, each as often. -/
theorem children_sublist (stmt : Stmt) : (allNodes stmt.children).Sublist stmt.nodes := by
  cases stmt with
  | branch mark condition body other =>
    cases other with
    | none =>
      simp only [children, Option.map_none, Option.getD_none, List.append_nil]
      exact .cons _ (List.sublist_append_right _ _)
    | some block =>
      simp only [children, allNodes_append]
      exact .cons _ ((List.sublist_append_right _ _).append (.refl _))
  | whileLoop mark condition body | doLoop mark body condition =>
    exact .cons _ (List.sublist_append_right _ _)
  | forLoop mark outer init condition step body =>
    simp only [children, allNodes, ← List.append_assoc]
    exact .cons _ (((List.sublist_append_left _ _).append (.refl _)).append (.refl _))
  | switch mark value cases default =>
    have bodies := (bodies_sublist cases).trans (List.sublist_append_right value.nodes _)
    cases default with
    | none =>
      simp only [children, Option.map_none, Option.getD_none, List.append_nil]
      exact .cons _ bodies
    | some block =>
      simp only [children, allNodes_append]
      exact .cons _ (bodies.append (.refl _))
  | _ => exact List.nil_sublist _

theorem nodes_sublist (met : .statement inner ∈ stmt.nodes) : inner.nodes.Sublist stmt.nodes := by
  induction stmt using byChildren with
  | step stmt ih =>
    rcases mem_nodes.mp met with same | ⟨expr, -, among⟩ | ⟨child, member, among⟩
    · cases same
      exact List.Sublist.refl _
    · simp [Expr.nodes] at among
    · exact (ih child member among).trans
        ((nodes_sublist_allNodes member).trans stmt.children_sublist)

end Stmt

variable {interface? : String → Option Interface} {source : String} {program : Program}

theorem Program.nodes_sublist {stmt : Stmt} (met : .statement stmt ∈ program.nodes) :
    stmt.nodes.Sublist program.nodes := by
  rcases List.mem_flatMap.mp met with ⟨top, among, inTop⟩
  rcases List.mem_flatMap.mp inTop with ⟨module, listed, inModule⟩
  rcases List.mem_flatMap.mp inModule with ⟨body, member, inBody⟩
  rcases Stmt.mem_allNodes.mp inBody with ⟨root, first, inside⟩
  calc stmt.nodes.Sublist root.nodes := Stmt.nodes_sublist inside
    _ |>.Sublist body.block.nodes := Stmt.nodes_sublist_allNodes first
    _ |>.Sublist module.nodes := List.sublist_flatten_of_mem (List.mem_map_of_mem member)
    _ |>.Sublist (top.inOrder.flatMap Module.nodes) :=
      List.sublist_flatten_of_mem (List.mem_map_of_mem listed)
    _ |>.Sublist program.nodes := List.sublist_flatten_of_mem (List.mem_map_of_mem among)

/-- A number stands on two nodes if and only if an update repeats them. -/
theorem one_lt_count_iff (accepted : Program.read interface? source = .ok program) (id : Nat) :
    1 < Node.count program.nodes id ↔ ∃ stmt array index operand,
      .statement stmt ∈ program.nodes ∧ stmt.Updates array index operand ∧
        id ∈ index.nodes.map Node.id := by
  constructor
  · intro twice
    rcases (read_complete accepted).uses with ⟨last, numbered⟩
    have few : Node.count program.nodes id ≤
        Node.count (program.nodes.flatMap Node.repeated) id + Reading.fresh 0 last id := numbered id
    have once : Reading.fresh 0 last id ≤ 1 := by
      unfold Reading.fresh
      split <;> simp
    have some : 0 < Node.count (program.nodes.flatMap Node.repeated) id := by omega
    rcases List.mem_map.mp (List.count_pos_iff.mp some) with ⟨node, repeated, rfl⟩
    rcases List.mem_flatMap.mp repeated with ⟨origin, met, among⟩
    cases origin with
    | expression expr => cases among
    | statement stmt =>
      rcases Stmt.updates_of_repeated among with ⟨array, index, operand, updates, inside⟩
      exact ⟨stmt, array, index, operand, met, updates, List.mem_map_of_mem inside⟩
  · rintro ⟨stmt, array, index, operand, met, updates, numbered⟩
    have once : 0 < Node.count index.nodes id := List.count_pos_iff.mpr numbered
    have whole : Node.count stmt.nodes id ≤ Node.count program.nodes id :=
      ((Program.nodes_sublist met).map Node.id).count_le id
    cases updates
    simp only [Node.count, Stmt.nodes, Selector.nodes, Expr.nodes, Expr.walk, List.map_cons,
      List.map_append, List.count_cons, List.count_append] at once whole ⊢
    omega

/-! ## Code that is there twice -/

namespace Emission

variable {env : Env} {before after : Generator} {array index operand : Expr} {stmt : Stmt}

/-- The number of calls in the code of an expression. -/
def calls (env : Env) (expr : Expr) : Nat :=
  (expr.effects env.declared).length

/--
The code between two generators has the code of the index in it twice, and the
calls of the index as often.
-/
structure Repeats (env : Env) (array index operand : Expr) (before after : Generator) : Prop where
  code : ∃ first key second third other fourth, before.lines <+: first.lines ∧
    (expression env index).Ends first key second ∧ second.lines <+: third.lines ∧
    (expression env index).Ends third other fourth ∧ fourth.lines <+: after.lines
  calls : ∃ lines, after.lines = before.lines ++ lines ∧
    lines.countP (·.stackUse = .call) =
      calls env array + 2 * calls env index + calls env operand

theorem lines_grow {Outcome : Type} {code : Emission Outcome} {outcome : Outcome}
    (ends : code.Ends before outcome after) : before.lines <+: after.lines := by
  rcases lines_added code ends with ⟨added, lines⟩
  exact ⟨added, lines.symm⟩

theorem update_repeats (updates : stmt.Updates array index operand) {frame later : Frame}
    (ends : ((statement env stmt).run frame).Ends before ((), later) after) :
    Repeats env array index operand before after := by
  rcases updates with ⟨mark, target, opMark, ty, op, elementMark, elementTy⟩
  have framed : (statement env (.assign mark target (.index index)
      (.binary opMark ty op (.element elementMark elementTy array index) operand))).run frame =
      keeping frame (do
        annotate env mark.line
        assign env mark target (.index index)
          (.binary opMark ty op (.element elementMark elementTy array index) operand)) := by
    simp [statement, keeping]
  rw [framed] at ends
  rcases bind_ok ends with ⟨_, _, ends, same⟩
  cases same
  have shifts : Shifts (.exit "") 0 _ 0 0 _ := (annotate_shifts env mark.line).quietly fun _ =>
    assign_shifts env mark target (.index index)
      (.binary opMark ty op (.element elementMark elementTy array index) operand)
  rcases shifts _ _ _ ends with ⟨lines, added, rises⟩
  refine ⟨?_, lines, added, ?_⟩
  · rcases bind_ok ends with ⟨_, start, annotates, assigns⟩
    rcases bind_ok assigns with ⟨register, valued, values, rest⟩
    rcases bind_ok values with ⟨result, allocated, allocates, computes⟩
    rcases bind_ok computes with ⟨taken, fetched, fetches, operates⟩
    rcases bind_ok fetches with ⟨held, first, reads, indexes⟩
    rcases bind_ok indexes with ⟨key, second, keys, gets⟩
    rcases bind_ok rest with ⟨fresh, bound, binds, refers⟩
    rcases bind_ok refers with ⟨place, referred, refer, storing⟩
    rcases bind_ok storing with ⟨_, stored, stores, frees⟩
    rcases bind_ok stores with ⟨_, third, clears, repeats⟩
    rcases bind_ok repeats with ⟨other, fourth, again, puts⟩
    refine ⟨first, key, second, third, other, fourth, ?_, keys, ?_, again, ?_⟩
    · exact ((lines_grow annotates).trans (lines_grow allocates)).trans (lines_grow reads)
    · have computed := (lines_grow gets).trans (lines_grow operates)
      have prepared := ((lines_grow binds).trans (lines_grow refer)).trans (lines_grow clears)
      exact computed.trans prepared
    · exact (lines_grow puts).trans (lines_grow frees)
  · rw [← rises.length_eq]
    simp only [Deed.effects, Expr.effects, List.length_append, calls]
    omega

end Emission

/-- Which nodes and which code a program has twice. -/
structure Program.RepeatsIndices (program : Program) : Prop where
  /-- A number stands on two nodes if and only if they are repeated by an update. -/
  nodes (id : Nat) : 1 < Node.count program.nodes id ↔ ∃ stmt array index operand,
    .statement stmt ∈ program.nodes ∧ stmt.Updates array index operand ∧
      id ∈ index.nodes.map Node.id
  /-- The code of an update has the code of the index twice. -/
  code {stmt : Stmt} {array index operand : Expr} (met : .statement stmt ∈ program.nodes)
    (updates : stmt.Updates array index operand) {env : Emission.Env}
    {frame later : Emission.Frame} {before after : Generator}
    (ends : ((Emission.statement env stmt).run frame).Ends before ((), later) after) :
    Emission.Repeats env array index operand before after

/-- What a program has twice are the indices of the elements that it updates. -/
theorem updates_repeat_indices (accepted : Program.read interface? source = .ok program) :
    program.RepeatsIndices :=
  ⟨one_lt_count_iff accepted, fun _ updates _ _ _ _ _ ends => Emission.update_repeats updates ends⟩

/-- An update of an element whose index is found by a call. -/
def calledIndex : List String :=
  ["contract test \x7b private next():number \x7b return 1; \x7d ",
    "private f(a:number[]):number \x7b a[next()] += 2; return a[0]; \x7d \x7d"]

theorem updates_repeat_indices_calledIndex :
    ∃ program id, Program.read (fun _ => none) (String.join calledIndex) = .ok program ∧
      1 < Node.count program.nodes id ∧ program.RepeatsIndices := by
  have holds : Program.reads calledIndex (fun program =>
      program.nodes.any fun node => 1 < Node.count program.nodes node.id) = true := by
    decide +kernel
  rcases exists_read holds with ⟨program, accepted, found⟩
  rcases List.any_eq_true.mp found with ⟨node, -, twice⟩
  exact ⟨program, node.id, accepted, by simpa using twice, updates_repeat_indices accepted⟩

/-- The number of a call. -/
def Node.call? : Node → Option Nat
  | .expression (.call mark _ _ _ _) => some mark.id
  | _ => none

/-- The call is written once; it stands on two nodes, and is emitted twice. -/
theorem call_emitted_twice_calledIndex :
    ∃ program module after id,
      Program.read (fun _ => none) (String.join calledIndex) = .ok program ∧
      (∃ top ∈ program.modules, module ∈ top.inOrder) ∧
      (Emission.content (program.plainEnv module) module.scope module.content).Ends {} () after ∧
      module.nodes.filterMap Node.call? = [id, id] ∧
      after.lines.countP (·.stackUse = .call) = 2 := by
  have holds : emitsModule (fun env module => module.nodes.filterMap Node.call? = [4, 4] &&
      match (Emission.content env module.scope module.content).run {} with
      | .ok pair => pair.2.lines.countP (·.stackUse = .call) = 2
      | .error _ => false) calledIndex = true := by
    decide +kernel
  rcases exists_module holds with ⟨program, module, after, accepted, listed, ends, found⟩
  rw [ends] at found
  simp only [Bool.and_eq_true, decide_eq_true_eq] at found
  exact ⟨program, module, after, _, accepted, listed, ends, found.1, found.2⟩

end Covenant
