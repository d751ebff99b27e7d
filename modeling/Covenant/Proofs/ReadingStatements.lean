import Covenant.Proofs.ReadingBlocks

/-!
# Reading statements

Every reader of statements fails fairly, and what it reads is settled, whatever
is read in the statements inside.  Each statement starts with a token of its
own, so the statements inside are read with less weight.
-/

namespace Covenant

variable {declaration : Variable} {ty : Ty} {tree : ScopeTree} {part : Selector} {name : String}

theorem Selector.nodes_eq (selector : Selector) :
    selector.nodes = (Expr.walkAll selector.exprs).map .expression := by
  cases selector <;> simp [nodes, exprs, Expr.walkAll, Expr.nodes]

namespace Reading

variable {ground : Ground} {context : Context} {bound : Nat} {start place : Place}
  {scope : ScopeId} {line : Nat}

/-! ## Rules -/

section Rules

variable {build : Mark → Stmt}

/-- The last step makes a construct of what was read. -/
theorem Reads.construct {plans : List Plan} {nodes : List Node}
    (settled : Settled ground context scope plans nodes start place) (own : Nat → List Label)
    (labels : ∀ mark label, (build mark).flow.labels.count label =
      (own mark.id).count label + (plans.flatMap Flow.labels).count label)
    (distinct : ∀ node, (own node).Nodup) (owners : ∀ node, ∀ label ∈ own node, label.owner = node)
    (resolved : ∀ mark tree enclosing, (∀ plan ∈ plans, plan.Resolved tree enclosing) →
      (build mark).flow.Resolved tree enclosing)
    (parts : ∀ mark, (.statement (build mark) :: nodes).Perm (build mark).nodes)
    (fits : ∀ mark, (build mark).Fits (context.vocabulary place.scopes) context.returns)
    (shown : Shown ground line) (marked : ∀ mark, (build mark).mark = mark) :
    Reads ground bound place false (Reading.node line build)
      (Settles ground context scope start) := by
  refine .node ((settled.compound (own (place.nodes + 1)) (labels ⟨_, line⟩) (distinct _)
    (owners _) (resolved _) (fits _) ?_ ?_).perm (.refl _) (parts _))
  · rw [Stmt.line, marked]
    exact shown
  · rw [marked]

/-- A statement that places no label and assigns no variable. -/
theorem Reads.plain {exprs : List Expr}
    (makes : Makes ground context [] start exprs place)
    (labels : ∀ mark, (build mark).flow.labels = [])
    (resolved : ∀ mark tree enclosing, (build mark).flow.Resolved tree enclosing)
    (parts : ∀ mark, (build mark).nodes =
      .statement (build mark) :: (Expr.walkAll exprs).map .expression)
    (fits : ∀ mark, (build mark).Fits (context.vocabulary start.scopes) context.returns)
    (shown : Shown ground line) (marked : ∀ mark, (build mark).mark = mark) :
    Reads ground bound place false (Reading.node line build)
      (Settles ground context scope start) := by
  refine .construct ((Settled.initial scope start).make makes) (fun _ => []) ?_ (by simp)
    (by simp) (fun mark tree enclosing _ => resolved mark tree enclosing) ?_ ?_ shown marked
  · simp [labels]
  · simp [parts]
  · rw [makes.same]
    exact fits

end Rules

/-! ## Variables -/

/-- The variable has been declared. -/
structure Introduces (declaration : Variable) (before after : Place) : Prop where
  nodes : after.nodes = before.nodes
  extended : before.scopes.Extends [declaration.scope] after.scopes
  numbered : declaration.id = before.scopes.declarations.length
  declarations : after.scopes.declarations = before.scopes.declarations ++ [declaration]
  listed : (after.scopes.scope declaration.scope).variableIds =
    (before.scopes.scope declaration.scope).variableIds ++ [declaration.id]

theorem Introduces.known {before after : Place} (introduces : Introduces declaration before after) :
    declaration.id < after.scopes.declarations.length ∧
      after.scopes.declaration declaration.id = declaration := by
  simp [ScopeTree.declaration, introduces.numbered, introduces.declarations]

/-- A variable with a declaration as it should be gets the next number. -/
theorem declare_reads {storage : Storage} {collection : Option CollectionTypes}
    (shown : Shown ground line) (present : scope < place.scopes.scopes.length)
    (admitted : place.scopes.Admits scope storage)
    (proper : ∀ id, Variable.Proper { id, name, ty, storage, scope, line, collection }) :
    Reads ground bound place false (declare scope name ty storage collection line) fun id =>
      Introduces { id, name, ty, storage, scope, line, collection } place := by
  refine .alter (.declare scope name ty storage collection line) (fun error tree run => ?_)
    (fun id tree run => ?_) (.of_scope rfl present) ⟨admitted, proper⟩ (fun _ same => ?_)
    fun id tree run made => ?_
  · rcases (ScopeTree.declareVariable_failed run).2 with rfl | rfl
    · exact ⟨rfl, shown⟩
    · exact ⟨rfl, shown⟩
  · rw [ScopeTree.perform, Change.bind_run, run]
    rfl
  · cases same
    exact shown
  · rcases ScopeTree.declareVariable_cases run with ⟨-, -, numbered, rfl⟩
    refine ⟨rfl, made.extends, numbered, rfl, ?_⟩
    rw [ScopeTree.scope_update, if_pos ⟨rfl, present⟩]
    rfl

theorem truth_passes (expr : Expr) (shown : Shown ground line) :
    Passes ground false (truth line expr) fun _ => expr.ty = .bool := by
  refine .of_reads fun _ _ => ?_
  unfold truth
  split
  · exact .pure ⟨rfl, ‹_›⟩
  · exact .fail ⟨rfl, shown⟩

theorem localType_passes (name : String) (declared : Option Ty) (value : Option Expr)
    (shown : Shown ground line) :
    Passes ground false (localType name declared value line) fun ty =>
      (declared <|> value.map Expr.ty) = some ty := by
  refine .of_reads fun _ _ => .pass (.require ⟨rfl, shown⟩) fun ty typed => ?_
  split
  · exact .fail ⟨rfl, shown⟩
  · exact .pure ⟨rfl, typed⟩

/-- An assignment to a variable that is in scope and may be assigned. -/
theorem resolved_assignment {enclosing : List ScopeId} {id : VarId}
    (declared : tree.Declares enclosing id) (assignable : tree.Assignable id) (mark : Mark)
    (selector : Selector) (value : Expr) :
    (Stmt.assign mark id selector value).flow.Resolved tree enclosing := by
  constructor
  · refine ⟨?_, ?_⟩
    · intro other found
      cases found
    · intro other found
      cases found
      exact declared
  · intro other member
    simp only [Stmt.flow, Plan.commented, Plan.deed, Flow.assigned, Deed.target?, Option.toList,
      List.nil_append, List.mem_singleton] at member
    rw [member]
    exact assignable
  · simp [Stmt.flow, Plan.commented, Plan.deed, Flow.scopes]

/-- A variable that may be assigned is in scope, is no collection and belongs to no token. -/
theorem assignable_reads {token : Token}
    (shown : Shown ground token.line) :
    Reads ground bound place false (assignable scope token) fun declaration later =>
      later = place ∧ place.scopes.declarations[declaration.id]? = some declaration ∧
        place.scopes.Declares (place.scopes.chain scope) declaration.id ∧
          place.scopes.Assignable declaration.id := by
  refine .knowing fun recorded => .scopes ?_
  split
  · exact .failFirst ⟨rfl, shown⟩
  · refine .keep (declaredVariable_reads scope shown) ?_
    rintro id _ ⟨rfl, lookup⟩
    have known := recorded.known lookup
    have same := recorded.numbered id _ known
    simp only
    split
    · exact .failFirst ⟨rfl, shown⟩
    · rename_i single
      split
      · exact .failFirst ⟨rfl, shown⟩
      · rename_i writable
        refine .pure ⟨rfl, ?_, ?_, ?_⟩
        · rwa [same]
        · rw [same]
          exact recorded.agreeing.declares lookup
        · rw [same]
          exact ⟨writable, by simpa using single⟩

/-- The operators of assignments do not compare. -/
theorem assignmentOperator_passes :
    Passes ground true assignmentOperator fun spelling =>
      ∀ base ∈ BinaryOp.compoundSpelling? spelling, ∀ op ∈ BinaryOp.ofSpelling? base,
        op.isComparison = false := by
  have calculates : ∀ spelling ∈ Word.assignmentOperators,
      ∀ base ∈ BinaryOp.compoundSpelling? spelling, ∀ op ∈ BinaryOp.ofSpelling? base,
        op.isComparison = false := by
    decide
  refine .of_reads fun _ _ => .take .fetch fun token shown => ?_
  split
  · rename_i spelled
    simp only [Bool.and_eq_true, Word.isAssignmentOperator, List.contains_iff_mem] at spelled
    exact .pure ⟨rfl, calculates _ spelled.2⟩
  · exact .fail ⟨rfl, shown⟩

theorem coerce_of_accepts {expr : Expr} (accepted : ty.accepts expr.ty = true) (line : Nat) :
    coerce expr ty line = pure expr := by
  unfold coerce
  rw [if_pos accepted]

/--
The value before a compound assignment; where an element is assigned, it holds
the index of the selector.
-/
theorem assignedValue_makes
    (known : place.scopes.declarations[declaration.id]? = some declaration) (fits : part.Fits)
    (holds : (context.vocabulary place.scopes).partType? declaration.id part = some ty)
    (shown : Shown ground line) :
    Reads ground bound place false (assignedValue declaration.id part ty line)
      fun before later => Makes ground context part.exprs place [before] later ∧
        ∀ index, part = .index index → ∃ mark target, before = .element mark ty target index := by
  have same : place.scopes.declaration declaration.id = declaration := by
    simp [ScopeTree.declaration, known]
  rw [Vocabulary.partType?_eq known] at holds
  refine .keep (variableValue_makes context (known.trans (by rw [same])) shown) ?_
  intro target later valued
  rw [same] at valued
  cases part with
  | whole => exact .pure ⟨valued.2, by rintro index ⟨⟩⟩
  | field name =>
    refine .make valued.2 (fun _ => ⟨?_, rfl, shown⟩) rfl fun makes => ⟨makes, by rintro index ⟨⟩⟩
    rw [← valued.1] at holds
    exact holds
  | index position =>
    refine .make (valued.2.append (.refl _ _ [position] _)) (fun _ => ⟨⟨?_, fits⟩, rfl, shown⟩)
      rfl fun makes => ⟨makes, ?_⟩
    · rw [valued.1]
      exact holds
    · rintro index same
      cases same
      exact ⟨_, target, rfl⟩

/-- A local variable that has been declared, with its value. -/
theorem declaration_settled {declared : Option Ty} {value : Option Expr} {id : VarId}
    {valued later : Place} (hosts : place.Hosts scope)
    (makes : Makes ground context [] place value.toList valued)
    (suits : ∀ expr ∈ value, ∀ ty ∈ declared, ty.accepts expr.ty)
    (typed : (declared <|> value.map Expr.ty) = some ty)
    (introduces : Introduces ⟨id, name, ty, .local, scope, line, none⟩ valued later)
    (shown : Shown ground line) :
    Settled ground context scope [(Stmt.declare ⟨later.nodes + 1, line⟩ id value).flow]
      (Stmt.declare ⟨later.nodes + 1, line⟩ id value).nodes place
      ⟨later.scopes, later.nodes + 1⟩ := by
  rcases introduces.known with ⟨known, declaration⟩
  rcases introduces with ⟨nodes, extended, numbered, declarations, names⟩
  rw [makes.same] at extended
  rcases hosts with ⟨outer, above, further⟩
  have le : place.nodes ≤ later.nodes := nodes ▸ makes.le
  have member : id ∈ (later.scopes.scope scope).variableIds := by simp [names]
  have parts : optionalNodes value = (Expr.walkAll value.toList).map .expression := by
    cases value <;> simp [optionalNodes, Expr.walkAll, Expr.nodes]
  refine ((Settled.initial scope place).onward extended (fun _ member => Or.inl member) le).leaf
    rfl ?_ ?_ ?_ ?_ ?_ ⟨⟨id, name, ty, .local, scope, line, none⟩, ?_, ?_⟩ shown rfl
  · cases value <;> simp [Stmt.flow, Plan.commented, Plan.assignment, Plan.deed, Flow.labels]
  · cases value <;> simp [Stmt.flow, Plan.commented, Plan.assignment, Plan.deed, Flow.labels]
  · intro opened tree more treeFormed
    cases value with
    | none =>
      refine ⟨?_, ?_, ?_⟩
      · simp [Stmt.flow, Plan.commented, Plan.assignment, Plan.deed, Flow.Scoped, Deed.target?]
      · intro other listed
        cases listed
      · simp [Stmt.flow, Plan.commented, Plan.assignment, Plan.deed, Flow.scopes]
    | some expr =>
      have parented := more.parent scope (ScopeTree.lt_of_mem member)
      have around : scope ∈ tree.chain scope := by
        rw [extended.parent scope (ScopeTree.lt_of_parent above), above] at parented
        rw [treeFormed.parents.chain_of_parent parented]
        exact List.mem_cons_self
      refine resolved_assignment ⟨scope, around, more.mem member⟩ ?_ _ .whole expr
      unfold ScopeTree.Assignable
      rw [more.declaration known, declaration]
      exact ⟨by simp, rfl⟩
  · rw [parts]
    exact makes.nodes_made extended.toGrows
  · intro number
    rw [parts, nodes]
    exact Nat.le_trans (makes.nodes_count number) (Nat.le_add_left _ _)
  · simp only at numbered
    simp [Context.vocabulary, numbered, declarations]
  · intro expr given
    cases declared with
    | none =>
      rw [Option.mem_def.mp given] at typed
      cases typed
      simp
    | some wanted =>
      cases typed
      exact suits expr given ty rfl

theorem assignedResult_makes {value : Expr} {spelling : String}
    (known : place.scopes.declarations[declaration.id]? = some declaration) (fits : part.Fits)
    (holds : (context.vocabulary place.scopes).partType? declaration.id part = some ty)
    (calculates : ∀ base ∈ BinaryOp.compoundSpelling? spelling,
      ∀ op ∈ BinaryOp.ofSpelling? base, op.isComparison = false) (shown : Shown ground line) :
    Reads ground bound place false
      (assignedResult spelling declaration.id part ty value line) fun combined later =>
        Makes ground context [value] place [combined] later ∨
          ∃ index, part = .index index ∧
            Makes ground context [index, value] place [combined] later ∧
            ∃ mark op element target other,
              combined = .binary mark ty op (.element element ty target index) other := by
  unfold assignedResult
  split
  · exact .pure (.inl (.refl ..))
  · rename_i base compound
    refine .keep (assignedValue_makes known fits holds shown) ?_
    rintro before later ⟨makes, shape⟩
    refine (binary_makes context base before value shown).mono ?_
    rintro combined last ⟨joined, applied⟩
    have all := (makes.append (.refl _ _ [value] _)).trans joined
    cases part with
    | whole | field name => exact .inl all
    | index position =>
      rcases shape position rfl with ⟨element, target, rfl⟩
      rcases applied rfl (calculates base compound) with ⟨mark, op, other, rfl⟩
      exact .inr ⟨position, rfl, all, mark, op, element, target, other, rfl⟩

/-- The value of an assignment may repeat the index of the element that it goes into. -/
theorem assigned_settled {fitted : Expr} {now : Place}
    (known : place.scopes.declarations[declaration.id]? = some declaration)
    (hosts : place.Hosts scope)
    (declared : place.scopes.Declares (place.scopes.chain scope) declaration.id)
    (writable : place.scopes.Assignable declaration.id) (fits : part.Fits)
    (holds : (context.vocabulary place.scopes).partType? declaration.id part = some ty)
    (shown : Shown ground line)
    (indexed : ∀ expr ∈ part.exprs, expr.Proper ground (context.vocabulary place.scopes))
    (accepted : ty.accepts fitted.ty) (le : place.nodes ≤ now.nodes)
    (proper : fitted.Proper ground (context.vocabulary place.scopes))
    (uses : ∀ id, Expr.uses part.exprs id + Expr.uses [fitted] id ≤ Node.count
      (Stmt.assign ⟨now.nodes + 1, line⟩ declaration.id part fitted).repeated id +
        fresh place.nodes now.nodes id) :
    Settled ground context scope
      [(Stmt.assign ⟨now.nodes + 1, line⟩ declaration.id part fitted).flow]
      (Stmt.assign ⟨now.nodes + 1, line⟩ declaration.id part fitted).nodes place
      ⟨place.scopes, now.nodes + 1⟩ := by
  have settled : Settled ground context scope [] [] place ⟨place.scopes, now.nodes⟩ :=
    (Settled.initial scope place).still rfl le
  refine settled.leaf rfl ?_ ?_ ?_ ?_ ?_ ⟨fits, ty, holds, accepted⟩ shown rfl
  · simp [Stmt.flow, Plan.commented, Plan.deed, Flow.labels]
  · simp [Stmt.flow, Plan.commented, Plan.deed, Flow.labels]
  · intro opened tree more formed
    rcases declared with ⟨declaring, around, member⟩
    refine resolved_assignment ?_ ?_ _ part fitted
    · rw [more.chain formed.parents hosts.present]
      exact ⟨declaring, around, more.mem member⟩
    · unfold ScopeTree.Assignable
      rw [more.declaration (List.getElem?_eq_some_iff.mp known).1]
      exact writable
  · rw [part.nodes_eq]
    refine List.forall_mem_append.mpr ⟨?_, List.forall_mem_map.mpr proper⟩
    rw [List.forall_mem_map]
    intro expr member
    rcases Expr.mem_walkAll.mp member with ⟨root, listed, inside⟩
    exact indexed root listed expr inside
  · intro id
    refine Nat.le_trans (Nat.le_of_eq ?_) (uses id)
    rw [part.nodes_eq, ← count_walkAll, ← count_walkAll]
    simp [Node.count, Expr.walkAll, Expr.nodes]

/-! ## The cases of a switch -/

/-- The flows of the bodies of a switch. -/
def Cases.plans (arms : Cases) : List Plan :=
  arms.cases.map (fun arm => arm.body.flow) ++ arms.default.toList.map BlockOf.flow

/-- The nodes of the arms of a switch. -/
def Cases.nodes (arms : Cases) : List Node :=
  Stmt.caseNodes arms.cases ++ arms.default.toList.flatMap BlockOf.nodes

theorem caseNodes_append (cases : List Case) (value : Expr) (body : Block) :
    Stmt.caseNodes (cases ++ [⟨value, body⟩]) =
      Stmt.caseNodes cases ++ (value.nodes ++ body.nodes) := by
  induction cases with
  | nil => simp [Stmt.caseNodes, BlockOf.nodes]
  | cons first rest ih =>
    rw [List.cons_append, Stmt.caseNodes, ih, Stmt.caseNodes, List.append_assoc,
      List.append_assoc, List.append_assoc]

/-- The labels behind the cases of a switch, counted from an index. -/
def skipLabels (node index count : Nat) : List Label :=
  (List.range' index count).map (Label.caseSkip node)

theorem nodup_skipLabels (node index count : Nat) : (skipLabels node index count).Nodup := by
  refine List.Pairwise.map _ ?_ (List.nodup_range' 1)
  intro first second different same
  cases same
  exact different rfl

theorem count_caseFlow (mark : Mark) (cases : List Case) (index : Nat) (last : Plan)
    (label : Label) :
    (Stmt.caseFlow mark index last cases).labels.count label =
      (skipLabels mark.id index cases.length).count label +
        (((cases.map fun arm => arm.body.flow).flatMap Flow.labels).count label +
          last.labels.count label) := by
  induction cases generalizing index with
  | nil => simp [Stmt.caseFlow, skipLabels]
  | cons first rest ih =>
    rcases first with ⟨value, scope, body⟩
    have counted := ih (index + 1)
    simp only [skipLabels] at counted
    simp [Stmt.caseFlow, BlockOf.flow, Flow.labels, skipLabels, List.range'_succ,
      List.count_cons, List.count_append, counted]
    omega

theorem resolved_caseFlow {enclosing : List ScopeId} (mark : Mark) (cases : List Case)
    (index : Nat) {last : Plan} (resolvedLast : last.Resolved tree enclosing)
    (resolved : ∀ arm ∈ cases, arm.body.flow.Resolved tree enclosing) :
    (Stmt.caseFlow mark index last cases).Resolved tree enclosing := by
  induction cases generalizing index with
  | nil => exact resolvedLast
  | cons first rest ih =>
    have body := resolved first (by simp)
    have others := ih (index + 1) fun arm member => resolved arm (List.mem_cons_of_mem _ member)
    rcases first with ⟨value, scope, statements⟩
    exact (Flow.resolved_arm mark index value _ _).mpr ⟨body, others⟩

section Furnished

variable (furnished : context.Furnished)
include furnished

theorem condition_makes (scope : ScopeId) :
    Reads ground bound place true (condition context scope) fun value later =>
      value.ty = .bool ∧ Makes ground context [] place [value] later := by
  refine .take (.separator _) fun _ _ => .pass .line fun line shown => ?_
  refine .spend (expression_makes furnished scope) fun value later makes => ?_
  refine .take (.separator _) fun _ _ => .pass (truth_passes value shown) fun _ isBool => ?_
  exact .pure ⟨isBool, makes⟩

/-- The value of a local variable suits the type that the variable gets. -/
theorem localValue_makes (scope : ScopeId) (declared : Option Ty) (shown : Shown ground line) :
    Reads ground bound place false (localValue context scope declared line) fun value later =>
      (∀ expr ∈ value, ∀ ty ∈ declared, ty.accepts expr.ty) ∧
        Makes ground context [] place value.toList later := by
  refine .pass (.eat _ _) fun given _ => ?_
  split
  · refine .spend (expression_makes furnished scope) fun value later makes => ?_
    split
    · refine .keep (coerce_makes context _ shown) fun fitted last fits => .pure ⟨?_, ?_⟩
      · simpa using fits.1
      · exact makes.trans fits.2
    · exact .pure ⟨by simp, makes⟩
  · exact .pure ⟨by simp, .refl ..⟩

theorem localVariable_settles (hosts : place.Hosts scope) (shown : Shown ground line) :
    States ground context bound scope place true (localVariable context scope line) := by
  have rest (name : String) (declared : Option Ty) : States ground context bound scope place
      false (do
      let value ← localValue context scope declared line
      separator ";"
      let ty ← localType name declared value line
      let id ← declare scope name ty .local none line
      node line fun mark => Stmt.declare mark id value) := by
    refine .keep (localValue_makes furnished scope declared shown) ?_
    rintro value valued ⟨suits, makes⟩
    refine .take (.separator _) fun _ _ => ?_
    refine .pass (localType_passes name declared value shown) fun ty typed => ?_
    refine .keep (declare_reads shown (makes.same ▸ hosts.present) (makes.same ▸ hosts.admits)
      fun _ => Variable.proper_of_plain rfl nofun) fun id later introduces => ?_
    exact .node (declaration_settled hosts makes suits typed introduces shown)
  refine .take .identifier fun name _ => .pass (.eat _ _) fun typed _ => ?_
  cases typed with
  | true => exact .take (writtenType_passes _) fun ty _ => rest _ (some ty)
  | false => exact rest _ none

theorem selector_makes (scope : ScopeId)
    (known : place.scopes.declarations[declaration.id]? = some declaration)
    (shown : Shown ground line) :
    Reads ground bound place false (selector context scope declaration line) fun pair later =>
      pair.1.Fits ∧
        (context.vocabulary place.scopes).partType? declaration.id pair.1 = some pair.2 ∧
          Makes ground context [] place pair.1.exprs later := by
  have found : (context.vocabulary place.scopes).declarations[declaration.id]? =
      some declaration := known
  have part := Vocabulary.partType?_eq found
  refine .pass (.eat _ _) fun selected _ => ?_
  split
  · refine .take .member fun field _ => .pass (.require ⟨rfl, shown⟩) fun ty holds => ?_
    exact .pure ⟨trivial, (part _).trans holds, .refl ..⟩
  · refine .pass (.eat _ _) fun indexed _ => ?_
    split
    · refine .pass (.require ⟨rfl, shown⟩) fun ty holds => ?_
      refine .spend (expression_makes furnished scope) fun written later makes => ?_
      refine .keep (coerce_makes context _ shown) fun position last fits => ?_
      refine .take (.separator _) fun _ _ => ?_
      exact .pure ⟨fits.1, (part _).trans holds, makes.trans fits.2⟩
    · exact .pure ⟨trivial, part _, .refl ..⟩

theorem assignment_settles (hosts : place.Hosts scope) (terminated : Bool) :
    States ground context bound scope place true (assignment context scope terminated) := by
  refine .take .identifier fun token shown => ?_
  refine .keep (assignable_reads shown) ?_
  rintro declaration later ⟨same, known, declared, writable⟩
  rw [same]
  refine .keep (selector_makes furnished scope known shown) ?_
  rintro ⟨part, ty⟩ selected ⟨fits, holds, makes⟩
  refine .take assignmentOperator_passes fun spelling calculates => ?_
  refine .spend (expression_makes furnished scope) fun value valued given => ?_
  have unmoved := given.same.trans makes.same
  have last {fitted : Expr} {now : Place} (later : now.scopes = place.scopes)
      (settled : Settled ground context scope
        [(Stmt.assign ⟨now.nodes + 1, token.line⟩ declaration.id part fitted).flow]
        (Stmt.assign ⟨now.nodes + 1, token.line⟩ declaration.id part fitted).nodes place
        ⟨place.scopes, now.nodes + 1⟩) :
      Reads ground bound now false (do
        if terminated then
          separator ";"
        node token.line fun mark => Stmt.assign mark declaration.id part fitted)
          (Settles ground context scope place) := by
    rw [← later] at settled
    cases terminated with
    | true => exact .take (.separator _) fun _ _ => .node settled
    | false => exact .node settled
  refine .keep (assignedResult_makes (unmoved ▸ known) fits (unmoved ▸ holds) calculates shown) ?_
  rintro combined joined (once | ⟨index, rfl, twice, mark, op, element, target, other, rfl⟩)
  · refine .keep (coerce_makes context ty shown) fun fitted now coerced => ?_
    have all := makes.append (given.trans (once.trans coerced.2))
    refine last all.same (assigned_settled known hosts declared writable fits holds shown
      (makes.proper nofun) coerced.1 all.le ?_ fun id => ?_)
    · exact all.proper nofun fitted (List.mem_append_right _ List.mem_cons_self)
    · rw [← Expr.uses_append]
      exact Nat.le_trans (all.uses id) (by simp [Expr.uses, Expr.walkAll])
  · rw [coerce_of_accepts ty.accepts_self]
    have all := makes.append given
    have both := all.trans twice
    refine last both.same (assigned_settled known hosts declared writable fits holds shown
      (makes.proper nofun) ty.accepts_self both.le both.single fun id => ?_)
    have few := both.uses id
    have copied : Node.count index.nodes id = Expr.uses [index] id := by
      simp [← count_walkAll, Expr.walkAll, Expr.nodes]
    rw [Stmt.repeated, if_pos rfl, copied]
    refine Nat.add_le_add (Nat.le_refl _) (Nat.le_trans few ?_)
    simp [Expr.uses, Expr.walkAll]

/-! ## Statements without blocks -/

omit furnished in
theorem gives_settles {value : Option Expr}
    (makes : Makes ground context [] start value.toList place)
    (fits : ∀ mark, (Stmt.giveBack mark value).Fits (context.vocabulary start.scopes)
      context.returns) (shown : Shown ground line) :
    Reads ground bound place false (node line fun mark => Stmt.giveBack mark value)
      (Settles ground context scope start) := by
  refine .plain makes (fun _ => rfl) (fun mark tree enclosing => ?_) (fun mark => ?_) fits
    shown fun _ => rfl
  · have nameless : ∀ id, none = some id → tree.Declares enclosing id := by simp
    rw [Stmt.flow, Flow.resolved_commented]
    exact Flow.resolved_of_bare nameless rfl rfl
  · cases value <;> simp [Stmt.nodes, optionalNodes, Expr.walkAll, Expr.nodes]

theorem giveBack_settles (scope : ScopeId) (shown : Shown ground line) :
    States ground context bound scope place false (giveBack context scope line) := by
  refine .pass (.eat _ _) fun bare _ => ?_
  split
  · split
    · exact gives_settles (.refl _ _ [] _) (fun _ => ‹_›) shown
    · exact .fail ⟨rfl, shown⟩
  · refine .spend (expression_makes furnished scope) fun value later makes => ?_
    refine .take (.separator _) fun _ _ => ?_
    split
    · exact .fail ⟨rfl, shown⟩
    · refine .keep (coerce_makes context _ shown) fun fitted last fits => ?_
      exact gives_settles (makes.trans fits.2) (fun _ => fits.1) shown

theorem throwing_settles (scope : ScopeId) (shown : Shown ground line) :
    States ground context bound scope place true (throwing context scope line) := by
  refine .spend (expression_makes furnished scope) fun value later makes => ?_
  refine .keep (coerce_makes context _ shown) fun fitted last fits => ?_
  refine .take (.separator _) fun _ _ => ?_
  refine .plain (makes.trans fits.2) (fun _ => rfl) (fun mark tree enclosing => ?_)
    (fun mark => ?_) (fun _ => fits.1) shown fun _ => rfl
  · rw [Stmt.flow, Flow.resolved_commented]
    exact Flow.resolved_of_bare trivial rfl rfl
  · simp [Stmt.nodes, Expr.walkAll, Expr.nodes]

theorem emission_settles (scope : ScopeId) (shown : Shown ground line) :
    States ground context bound scope place true (emission context scope line) := by
  refine .take .identifier fun name _ => .pass (.require ⟨rfl, shown⟩) fun event found => ?_
  refine .take (.separator _) fun _ _ => ?_
  refine .spend (expression_makes furnished scope) fun written first one => ?_
  refine .keep (coerce_makes context _ shown) fun address second addressed => ?_
  refine .take (.separator _) fun _ _ => ?_
  refine .spend (expression_makes furnished scope) fun written third two => ?_
  refine .keep (coerce_makes context _ shown) fun value fourth valued => ?_
  refine .take (.separator _) fun _ _ => .take (.separator _) fun _ _ => ?_
  refine .plain ((one.trans addressed.2).append (two.trans valued.2)) (fun _ => rfl)
    (fun mark tree enclosing => ?_) (fun mark => ?_)
    (fun _ => ⟨addressed.1, event, found, rfl, valued.1⟩) shown fun _ => rfl
  · have nameless : ∀ id, none = some id → tree.Declares enclosing id := by simp
    rw [Stmt.flow, Flow.resolved_commented]
    exact Flow.resolved_of_bare nameless rfl rfl
  · simp [Stmt.nodes, Expr.walkAll, Expr.nodes]

omit furnished in
/-- The label of an expectation carries the number of its call. -/
theorem labels_discard (line : Nat) (expr : Expr) :
    ∀ label ∈ (Plan.discard line expr).labels, label.owner = expr.mark.id := by
  intro label member
  unfold Plan.discard at member
  split at member
  · rename_i mark condition message found
    unfold Deed.expectation? at found
    split at found
    · split at found
      · cases found
        simp only [Flow.labels, List.mem_singleton] at member
        rw [member]
        rfl
      · cases found
    · cases found
  · cases member

theorem callStatement_settles (scope : ScopeId) (shown : Shown ground line) :
    States ground context bound scope place true (callStatement context scope line) := by
  refine .spend (expression_makes furnished scope) fun expr later makes => ?_
  refine .take (.separator _) fun _ _ => ?_
  split
  · have labels : ∀ mark, (Stmt.call ⟨mark, line⟩ expr).flow.labels =
        (Plan.discard line expr).labels := by
      simp [Stmt.flow, Plan.commented, Plan.deed, Flow.labels]
    have settled : Settled ground context scope [] [] place later :=
      (Settled.initial scope place).still makes.same makes.le
    have parts : expr.nodes = (Expr.walkAll [expr]).map .expression := by
      simp [Expr.walkAll, Expr.nodes]
    refine .node (settled.leaf rfl ?_ ?_ ?_ ?_ ?_ trivial shown rfl)
    · intro label member
      have owner := labels_discard line expr label (labels _ ▸ member)
      have few := makes.uses expr.mark.id
      rw [Expr.uses_singleton, if_pos rfl] at few
      rw [owner]
      unfold fresh at few
      split at few
      · assumption
      · simp [Expr.uses, Expr.walkAll] at few
    · rw [labels]
      unfold Plan.discard
      split
      · simp [Flow.labels]
      · exact List.nodup_nil
    · intro opened tree more treeFormed
      have discarded : (Plan.discard line expr).Resolved tree (tree.chain scope) := by
        unfold Plan.discard
        split
        · exact ⟨trivial, by simp [Flow.assigned], by simp [Flow.scopes]⟩
        · constructor
          · simp [Plan.deed, Flow.Scoped, Deed.target?]
          · simp [Plan.deed, Flow.assigned, Deed.target?]
          · simp [Plan.deed, Flow.scopes]
      simpa [Stmt.flow] using discarded
    · rw [parts]
      exact makes.nodes_made settled.extended.toGrows
    · intro id
      rw [parts]
      exact Nat.le_trans (makes.nodes_count id) (Nat.le_add_left _ _)
  · exact .fail ⟨rfl, shown⟩

/-! ## Statements with blocks -/

variable {nested : StatementReader} (nests : Nests ground context bound nested)
include nests

theorem branch_settles (hosts : place.Hosts scope) (shown : Shown ground line) :
    States ground context bound scope place true (branch context nested scope line) := by
  refine .spend (condition_makes furnished scope) fun value tested makes => ?_
  have first := (Settled.initial scope place).make makes.2
  have inside := first.hosts hosts
  refine .keep (block_settles nests inside.around).loosen fun body later second => ?_
  have both := first.append second.1
  refine .keep (otherwise_settles nests (both.hosts hosts)) fun other last third => ?_
  refine .construct (both.append third) (fun node => [.otherwise node, .joined node]) ?_ (by simp)
    (by simp [Label.owner]) ?_ ?_ (fun _ => makes.1) shown fun _ => rfl
  · intro mark label
    cases other <;>
      simp [Stmt.flow, BlockOf.flow, Plan.commented, Plan.deed, Flow.labels, List.count_cons,
        List.count_append] <;> omega
  · intro mark tree enclosing resolved
    cases other <;> simpa [Stmt.flow, BlockOf.flow] using resolved
  · intro mark
    cases other <;> simp [Stmt.nodes, BlockOf.nodes, Expr.walkAll, Expr.nodes]

theorem whileLoop_settles (hosts : place.Hosts scope) (shown : Shown ground line) :
    States ground context bound scope place true (whileLoop context nested scope line) := by
  refine .spend (condition_makes furnished scope) fun value tested makes => ?_
  have first := (Settled.initial scope place).make makes.2
  have inside := first.hosts hosts
  refine .keep (block_settles nests inside.around).loosen fun body later second => ?_
  refine .construct (first.append second.1) (fun node => [.loopStart node, .loopEnd node]) ?_
    (by simp) (by simp [Label.owner]) ?_ ?_ (fun _ => makes.1) shown fun _ => rfl
  · intro mark label
    simp [Stmt.flow, BlockOf.flow, Plan.commented, Plan.deed, Flow.labels, List.count_cons,
      List.count_append]
    omega
  · intro mark tree enclosing resolved
    simpa [Stmt.flow, BlockOf.flow] using resolved
  · simp [Stmt.nodes, BlockOf.nodes, Expr.walkAll, Expr.nodes]

theorem doLoop_settles (hosts : place.Hosts scope) (shown : Shown ground line) :
    States ground context bound scope place true (doLoop context nested scope line) := by
  refine .spend (block_settles nests hosts.around) fun body later first => ?_
  refine .take (.discard (.expect _ _)) fun _ _ => ?_
  refine .keep (condition_makes furnished scope).loosen fun value tested makes => ?_
  refine .take (.separator _) fun _ _ => ?_
  refine .construct (first.1.make makes.2)
    (fun node => [.loopStart node, .loopContinue node, .loopEnd node]) ?_
    (by simp) (by simp [Label.owner]) ?_ ?_ (fun _ => makes.1) shown fun _ => rfl
  · intro mark label
    simp [Stmt.flow, BlockOf.flow, Plan.commented, Plan.deed, Flow.labels, List.count_cons,
      List.count_append]
    omega
  · intro mark tree enclosing resolved
    simpa [Stmt.flow, BlockOf.flow] using resolved
  · intro mark
    simpa [Stmt.nodes, BlockOf.nodes, Expr.walkAll, Expr.nodes] using List.perm_append_comm

/-- Rounds of a `for` statement, in the scope of its variable. -/
theorem rounds_settles {outer own : ScopeId} {init : Stmt} {entered begun : Place}
    (enters : Enters outer own place entered)
    (around : (place.scopes.scope outer).parent.isSome) (shown : Shown ground line)
    (first : Settled ground context own [init.flow] init.nodes entered begun) :
    Reads ground bound begun true (do
      let value ← expression context own
      truth line value
      separator ";"
      let step ← assignment context own false
      separator ")"
      let body ← block nested own
      node line fun mark => Stmt.forLoop mark own init value step body)
        (Settles ground context outer place) := by
  have hosts := enters.hosts around
  refine .spend (expression_makes furnished own) fun value tested makes => ?_
  refine .pass (truth_passes value shown) fun _ isBool => .take (.separator _) fun _ _ => ?_
  have second := first.make makes
  refine .keep (assignment_settles furnished (second.hosts hosts) false).loosen ?_
  intro step stepped third
  refine .take (.separator _) fun _ _ => ?_
  have inside := (second.append third).hosts hosts
  refine .keep (block_settles nests inside.around).loosen fun body later fourth => ?_
  have all := (second.append third).append fourth.1
  refine .node ?_
  let made := Stmt.forLoop ⟨later.nodes + 1, line⟩ own init value step body
  have rounds : Settled ground context own
      [.seq init.flow (.forLoop () ⟨later.nodes + 1, line⟩ value body.flow step.flow)]
      made.nodes entered ⟨later.scopes, later.nodes + 1⟩ := by
    refine (all.compound [.loopStart (later.nodes + 1), .loopContinue (later.nodes + 1),
      .loopEnd (later.nodes + 1)] ?_ (by simp) (by simp [Label.owner]) ?_ isBool shown rfl :
        Settled ground context own _ (.statement made :: _) entered _).perm (.refl _) ?_
    · intro label
      simp [Flow.labels, List.count_cons, List.count_append]
      omega
    · intro tree enclosing resolved
      have parts : init.flow.Resolved tree enclosing ∧ step.flow.Resolved tree enclosing ∧
          body.flow.Resolved tree enclosing := by
        simpa using resolved
      simpa using ⟨parts.1, parts.2.2, parts.2.1⟩
    · simp [made, Stmt.nodes, BlockOf.nodes, Expr.walkAll, Expr.nodes]
  refine (enters.within around line rounds).1.regroup ?_ ?_
  · simp [Stmt.flow, BlockOf.flow, Plan.commented, Plan.deed, Flow.labels]
  · intro tree enclosing resolved
    simpa [Stmt.flow, BlockOf.flow] using resolved

theorem forLoop_settles (hosts : place.Hosts scope) (shown : Shown ground line) :
    States ground context bound scope place true (forLoop context nested scope line) := by
  refine .keep (childScope_enters hosts.present) fun own entered enters => ?_
  have inside := enters.hosts hosts.around
  refine .take (.separator _) fun _ _ => .pass (.eat _ _) fun declares _ => ?_
  cases declares with
  | true =>
    refine .spend (localVariable_settles furnished inside shown) fun init begun first => ?_
    exact (rounds_settles furnished nests enters hosts.around shown first).loosen
  | false =>
    refine .spend (assignment_settles furnished inside true) fun init begun first => ?_
    exact (rounds_settles furnished nests enters hosts.around shown first).loosen

theorem switchArm_settles {arms : Cases} (hosts : start.Hosts scope)
    (accepted : ∀ arm ∈ arms.cases, ty.accepts arm.value.ty)
    (settled : Settled ground context scope arms.plans arms.nodes start place) :
    Reads ground bound place true (switchArm context nested scope ty arms) fun arms later =>
      (∀ arm ∈ arms.cases, ty.accepts arm.value.ty) ∧
        Settled ground context scope arms.plans arms.nodes start later := by
  refine .take .fetch fun token shown => ?_
  split
  · refine .spend (operand_makes furnished scope false fun _ _ _ _ =>
      expression_makes furnished scope) fun value valued makes => ?_
    have rest : Reads ground bound valued false (do
        let value ← coerce value ty token.line
        separator ":"
        let body ← caseBody nested scope
        return { arms with cases := arms.cases ++ [{ value, body }] } : Reading Cases)
        fun arms later => (∀ arm ∈ arms.cases, ty.accepts arm.value.ty) ∧
            Settled ground context scope arms.plans arms.nodes start later := by
      refine .keep (coerce_makes context ty shown) fun fitted later fits => ?_
      refine .take (.separator _) fun _ _ => ?_
      have read := settled.make (makes.trans fits.2)
      refine .keep (caseBody_settles nests (read.hosts hosts)) fun body last inside =>
        .pure ⟨?_, ?_⟩
      · simpa [or_imp, forall_and] using ⟨accepted, fits.1⟩
      · refine (read.append inside).perm ?_ ?_
        · simp only [Cases.plans, List.map_append, List.append_assoc]
          exact List.Perm.append_left _ List.perm_append_comm
        · simp only [Cases.nodes, caseNodes_append, List.append_assoc]
          refine List.Perm.append_left _ (List.perm_append_comm.trans ?_)
          simp [Expr.walkAll, Expr.nodes]
    split
    · exact .failFirst ⟨rfl, shown⟩
    · exact rest
  · split
    · rename_i first
      refine .take (.separator _) fun _ _ => ?_
      refine .keep (caseBody_settles nests (settled.hosts hosts)) fun body last inside => ?_
      simp only [Bool.and_eq_true, Option.isNone_iff_eq_none] at first
      refine .pure ⟨accepted, (settled.append inside).perm ?_ ?_⟩
      · simp [Cases.plans, first.2]
      · simp [Cases.nodes, first.2]
    · exact .fail ⟨rfl, shown⟩

theorem switch_settles (hosts : place.Hosts scope) (shown : Shown ground line) :
    States ground context bound scope place true (switch context nested scope line) := by
  refine .take (.separator _) fun _ _ => ?_
  refine .spend (expression_makes furnished scope) fun value valued makes => ?_
  refine .take (.separator _) fun _ _ => .take (.separator _) fun _ _ => ?_
  have first := (Settled.initial scope place).make makes
  have inside := first.hosts hosts
  have read : Reads ground bound valued false (iterate (eat .separator "\x7d")
      (switchArm context nested scope value.ty) ({} : Cases)) fun arms later =>
        (∀ arm ∈ arms.cases, value.ty.accepts arm.value.ty) ∧
          Settled ground context scope arms.plans arms.nodes valued later := by
    refine .iterate (.eat _ _) (fun arms later holds => ?_) ⟨nofun, .initial scope valued⟩
    exact switchArm_settles furnished nests inside holds.1 holds.2
  refine read.keep ?_
  rintro ⟨cases, default⟩ last ⟨accepted, second⟩
  refine .construct (first.append second)
    (fun node => .caseEnd node :: skipLabels node 0 cases.length) ?_ ?_ ?_ ?_ ?_ (fun _ => accepted)
    shown fun _ => rfl
  · intro mark label
    cases default with
    | none =>
      have counted := count_caseFlow mark cases 0 .skip label
      simp [Stmt.flow, Plan.commented, Plan.deed, Flow.labels, Cases.plans, List.count_cons,
        List.count_append] at counted ⊢
      omega
    | some block =>
      have counted := count_caseFlow mark cases 0 block.flow label
      simp [Stmt.flow, BlockOf.flow, Plan.commented, Plan.deed, Flow.labels, Cases.plans,
        List.count_cons, List.count_append] at counted ⊢
      omega
  · intro node
    refine List.nodup_cons.mpr ⟨?_, nodup_skipLabels node 0 cases.length⟩
    simp [skipLabels]
  · simp [Label.owner, skipLabels]
  · intro mark tree enclosing resolved
    rw [List.nil_append] at resolved
    have bodies : ∀ arm ∈ cases, arm.body.flow.Resolved tree enclosing := by
      intro arm member
      exact resolved _ (List.mem_append_left _ (List.mem_map_of_mem member))
    cases default with
    | none => simpa [Stmt.flow] using resolved_caseFlow mark cases 0 Flow.resolved_skip bodies
    | some block =>
      have last := resolved block.flow (List.mem_append_right _ (by simp))
      simpa [Stmt.flow, BlockOf.flow] using resolved_caseFlow mark cases 0 last bodies
  · intro mark
    cases default <;> simp [Stmt.nodes, BlockOf.nodes, Cases.nodes, Expr.walkAll, Expr.nodes]

end Furnished

/-! ## All statements -/

theorem assignmentAhead_passes : Passes ground false assignmentAhead fun _ => True := by
  refine .of_reads fun _ _ => .pass (.peek 1) fun next _ => ?_
  split
  · split
    · exact .pass (.peek 3) fun _ _ => .pure ⟨rfl, trivial⟩
    · split
      · exact .pure ⟨rfl, trivial⟩
      · exact .pure ⟨rfl, trivial⟩
  · exact .pure ⟨rfl, trivial⟩

theorem keywordStatement_settles (furnished : context.Furnished) {nested : StatementReader}
    (nests : Nests ground context bound nested) (hosts : place.Hosts scope) {token : Token}
    (shown : Shown ground token.line) :
    States ground context bound scope place false
      (keywordStatement context nested scope token) := by
  unfold keywordStatement
  split
  · exact (localVariable_settles furnished hosts shown).loosen
  · exact (branch_settles furnished nests hosts shown).loosen
  · exact (whileLoop_settles furnished nests hosts shown).loosen
  · exact (doLoop_settles furnished nests hosts shown).loosen
  · exact (forLoop_settles furnished nests hosts shown).loosen
  · exact (switch_settles furnished nests hosts shown).loosen
  iterate 2
    · refine .take (.separator _) fun _ _ => .plain (.refl _ _ [] _) (fun _ => rfl)
        (fun mark tree enclosing => ?_) (fun _ => rfl) (fun _ => trivial) shown fun _ => rfl
      rw [Stmt.flow, Flow.resolved_commented]
      exact Flow.resolved_of_bare trivial rfl rfl
  · exact giveBack_settles furnished scope shown
  · exact (throwing_settles furnished scope shown).loosen
  · exact (emission_settles furnished scope shown).loosen
  · exact .fail ⟨rfl, shown⟩

theorem statementWith_settles (furnished : context.Furnished) {nested : StatementReader}
    (nests : ∀ less < bound, Nests ground context less nested) (hosts : place.Hosts scope) :
    States ground context bound scope place true (statementWith context nested scope) := by
  refine .current fun token before shown present here light => ?_
  have called : States ground context bound scope place true
      (callStatement context scope token.line) :=
    callStatement_settles furnished scope shown
  split
  · split
    · exact called before here light
    · exact Reads.skip present here light fun less lighter =>
        keywordStatement_settles furnished (nests less lighter) hosts shown
  · refine Reads.skip present here light fun less lighter => ?_
    refine .plain (.refl _ _ [] _) (fun _ => rfl) (fun mark tree enclosing => ?_)
      (fun _ => rfl) (fun _ => trivial) shown fun _ => rfl
    have nameless : ∀ id, none = some id → tree.Declares enclosing id := by simp
    rw [Stmt.flow, Flow.resolved_commented]
    exact Flow.resolved_of_bare nameless rfl rfl
  · have goal : States ground context bound scope place true (do
        if ← assignmentAhead then
          assignment context scope true
        else
          callStatement context scope token.line) := by
      refine .pass assignmentAhead_passes fun ahead _ => ?_
      split
      · exact assignment_settles furnished hosts true
      · exact called
    exact goal before here light
  · exact .fail ⟨rfl, shown⟩

theorem statementWithin_nests (furnished : context.Furnished) {rounds : Nat}
    (few : bound < rounds) : Nests ground context bound (statementWithin context rounds) := by
  induction rounds generalizing bound with
  | zero => exact absurd few (Nat.not_lt_zero _)
  | succ rounds ih =>
    refine fun scope place hosts => .get fun origin light => ?_
    refine statementWith_settles furnished (fun less lighter inner deeper inside => ?_) hosts
    exact .below lighter (ih (by omega) inner deeper inside)

/-- Every statement is read with its names resolved and with labels of its own. -/
theorem statement_nests (furnished : context.Furnished) :
    Nests ground context bound (statement context) :=
  fun scope place hosts => .bounded fun weight =>
    statementWithin_nests furnished (Nat.lt_succ_self weight) scope place hosts

end Reading

end Covenant
