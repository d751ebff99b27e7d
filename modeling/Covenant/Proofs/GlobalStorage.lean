import Covenant.Proofs.Bodies
import Covenant.Proofs.MethodFailures
import Covenant.Proofs.MethodLayout

/-!
# Globals in storage

A method works on copies of the globals of its module.  It loads those that its
body reads or writes before the body starts, and stores those that its body
writes after the body has ended, wherever the body was left.  A constructor
finds nothing in storage: it loads no global, and stores all of them.

So a method never misses a global or a variable of its token: what its body
uses has a register from the start, and keeps it up to the end of the body.
-/

namespace Covenant

variable {before : Generator}

/-- The block reads the variable or writes it, as a whole or in part. -/
def BlockOf.Touches (block : Block) (id : VarId) : Prop :=
  block.Mentions id ∨ block.Writes id

instance (block : Block) (id : VarId) : Decidable (block.Writes id) :=
  decidable_of_iff _ BlockOf.assigns_iff

instance (block : Block) (id : VarId) : Decidable (block.Touches id) :=
  decidable_of_iff _ BlockOf.uses_iff

namespace Emission

variable {env : Env} {root : ScopeId} {token : Option String} {decl : MethodDecl}

/-! ## Variables that are declared apart -/

/-- The variables of a method are different from those of its module, and from each other. -/
theorem apart_of_sited (formed : env.scopes.WellFormed) (sane : env.scopes.Sane)
    (sited : decl.asBody.Sited env.scopes root) : Apart env root decl := by
  have parameters : (env.scopes.scope decl.scope).variableIds = decl.parameters :=
    sited.parameters
  constructor
  · have same : (env.scopes.declaredIn root).map Variable.id =
        (env.scopes.scope root).variableIds := by
      rw [ScopeTree.declaredIn, List.map_map]
      exact (List.map_congr_left fun id member => (formed.coherent root id member).1).trans
        (List.map_id _)
    rw [same]
    exact sane.distinct root
  · rw [← parameters]
    exact sane.distinct decl.scope
  · intro id parameter declared
    rw [← parameters] at parameter
    have same := formed.coherent.scope_unique parameter (mem_of_declaredIn formed declared)
    have inner := formed.parents decl.scope root sited.parent
    exact Nat.lt_irrefl root (same ▸ inner)

/-! ## Bodies -/

/-- The lines of a body, all of whose returns lead to its exit. -/
structure BodyLines (env : Env) (decl : MethodDecl) (start : Generator) (lines : List Line) :
    Prop where
  emitted : ∃ inside, (inMethod env (.exit decl.name) decl.body).Ends start () inside ∧
    inside.lines = start.lines ++ lines
  /-- A return pushes its value, if it has one, and jumps. -/
  returns : ∀ mark value, .statement (.giveBack mark value) ∈ decl.body.nodes →
    ∃ front back entered left, (pushResult env mark.line value).Ends entered () left ∧
      lines = front ++ Span.lines ⟨entered, left⟩ ++
        [.instruction .jmp [.label (.exit decl.name)]] ++ back

/-- The emitted flow of a return is its comment, its value and its jump. -/
theorem exists_return_steps (exit : Label) {body : Block} {emitted : EmittedFlow}
    {enclosing : List ScopeId} (plan : emitted.plan = body.flow)
    (resolved : emitted.Scoped env.scopes enclosing) {mark : Mark} {value : Option Expr}
    (met : .statement (.giveBack mark value) ∈ body.nodes) :
    ∃ span front back, emitted.steps exit [] noSubject =
      front ++ [.deed span (.result mark.line value), .turn (.jump exit)] ++ back := by
  rcases BlockOf.exists_part_of_node met ⟨enclosing, []⟩ with ⟨within, part⟩
  rw [← plan, EmittedFlow.plan, Flow.parts_map] at part
  rcases List.mem_map.mp part with ⟨⟨inner, piece⟩, among, same⟩
  rcases inside_of_mem_parts among resolved exit noSubject with
    ⟨subject, first, last, steps, -, -⟩
  -- Only a comment before a return is written as the flow of a return.
  cases piece with
  | seq comment back =>
    cases back with
    | giveBack span deed =>
      simp only [Flow.map, Stmt.flow, Plan.commented, Prod.mk.injEq, Flow.seq.injEq,
        Flow.giveBack.injEq] at same
      rcases same with ⟨-, -, -, rfl⟩
      refine ⟨span, first ++ comment.steps exit inner.loops subject, last, ?_⟩
      rw [steps]
      simp [Flow.steps]
    | _ => simp [Flow.map, Stmt.flow, Plan.commented] at same
  | _ => simp [Flow.map, Stmt.flow, Plan.commented] at same

/-- A body adds its lines and its exit, and takes no register from a variable of the module. -/
theorem bodyCode_ends {start finish : Generator} (formed : env.scopes.WellFormed)
    (sited : decl.asBody.Sited env.scopes root) (owned : Owned start [])
    (bound : BoundWithin env.scopes [decl.scope, root] start)
    (ends : (bodyCode env decl.name decl.scope decl.line decl.body).Ends start () finish) :
    (∃ lines, BodyLines env decl start lines ∧
      finish.lines = start.lines ++ lines ++ [.label (.exit decl.name)]) ∧
    ∀ id ∈ (env.scopes.scope root).variableIds,
      (∀ register, start.bindings.lookup id = some register →
        finish.bindings.lookup id = some register) ∧
      (decl.body.Writes id → finish.Binds id) := by
  rcases bind_ok ends with ⟨_, inside, emission, rest⟩
  rcases bind_ok rest with ⟨_, left, leaving, placing⟩
  rcases exists_walk owned emission with ⟨emitted, plan, walk⟩
  have resolved := scoped_of_plan plan sited.resolved.names
  rcases releaseLocals_ends walk.ownedLater leaving with ⟨ownedLeft, sameLines, bindings⟩
  rcases line_ends placing with ⟨placedLines, placedBindings⟩
  constructor
  · refine ⟨(emitted.steps (.exit decl.name) [] noSubject).flatMap Step.lines, ?_, ?_⟩
    · refine ⟨⟨inside, emission, walk.lines⟩, ?_⟩
      intro mark value met
      rcases exists_return_steps (.exit decl.name) plan resolved met with
        ⟨span, front, back, steps⟩
      rw [steps] at walk
      rcases walk.split with ⟨_, _, upTo, -⟩
      rcases upTo.split with ⟨entered, _, -, returning⟩
      rcases returning.cons with ⟨pushed, _, ⟨rfl, pushing⟩, -, -, -⟩
      refine ⟨front.flatMap Step.lines, back.flatMap Step.lines, entered, pushed, pushing, ?_⟩
      simp [steps, Step.lines, Turn.line]
    · rw [placedLines, sameLines, walk.lines]
  · intro id member
    have outside : id ∉ locals (env.scopes.declaredIn decl.scope) := by
      intro released
      have same := formed.coherent.scope_unique
        (formed.coherent.mem_of_mem_locals released) member
      have inner := formed.parents decl.scope root sited.parent
      exact Nat.lt_irrefl root (same ▸ inner)
    have kept : finish.bindings.lookup id = inside.bindings.lookup id := by
      rw [placedBindings, bindings, lookup_without, if_neg outside]
    constructor
    · intro register found
      rw [kept]
      exact walk.keeps_bound formed.coherent resolved bound found
    · intro writes
      rw [Generator.Binds, kept]
      refine (walk.binds_after formed.coherent resolved bound id).mpr (.inr ⟨?_, ?_⟩)
      · have assigned := BlockOf.mem_assigned_flow writes
        rw [← plan] at assigned
        simpa [EmittedFlow.plan] using assigned
      · exact not_declares_scopes formed.coherent resolved ⟨root, by simp, member⟩

/-! ## Whole methods -/

/-- The lines of a method that loads some globals before its body and stores some behind it. -/
def MethodLines (env : Env) (root : ScopeId) (token : Option String) (decl : MethodDecl)
    (loads stores : List Variable) (before after : Generator) : Prop :=
  ∃ (implicit : List VarId) (tokenPart body : List Line) (start finish : Generator),
    TokenPart env root decl.body start.place token implicit tokenPart ∧
    BodyLines env decl start body ∧
    (∀ declaration ∈ loads, finish.place declaration.id = start.place declaration.id) ∧
    after.lines = before.lines ++ commentLines env before.lastLine decl.line ++
      [.label (.entry decl.name)] ++ tokenPart ++ popLines start.place decl.parameters ++
      loads.flatMap (fun declaration =>
        loadLines env.moduleName declaration (start.place declaration.id)) ++
      body ++ [.label (.exit decl.name)] ++
      stores.flatMap (fun declaration =>
        storeLines declaration (finish.place declaration.id)) ++
      [.instruction .ret []]

/-- What is written is stored, since it has a register where the body ends. -/
theorem method_lines {after : Generator} (formed : env.scopes.WellFormed) (sane : env.scopes.Sane)
    (sited : decl.asBody.Sited env.scopes root) (owned : Owned before []) (clear : before.Clear)
    (ends : (method env root token decl).Ends before () after) :
    MethodLines env root token decl (loadedGlobals env root decl)
      ((globals env root).filter fun declaration => decl.body.Writes declaration.id)
      before after := by
  rcases bind_ok ends with ⟨implicit, start, entering, rest⟩
  rcases bind_ok rest with ⟨_, finish, inside, leaving⟩
  have apart := apart_of_sited formed sane sited
  rcases prologue_ends apart owned clear entering with ⟨⟨tokenPart, part, startLines⟩, places, -⟩
  rcases prologue_bound formed sited owned clear entering with ⟨ownedStart, bound, -⟩
  rcases bodyCode_ends formed sited ownedStart bound inside with ⟨⟨body, lines, bodyLines⟩, known⟩
  have leftLines := epilogue_ends ((globals_sublist env root).nodup apart.declared) leaving
  have among : ∀ declaration ∈ globals env root,
      declaration.id ∈ (env.scopes.scope root).variableIds := fun declaration member =>
    mem_of_globals formed (List.mem_map_of_mem member)
  refine ⟨implicit, tokenPart, body, start, finish, part, lines, ?_, ?_⟩
  · intro declaration member
    have listed : declaration ∈ globals env root := by
      unfold loadedGlobals at member
      split at member
      · cases member
      · exact (List.mem_filter.mp member).1
    have binds : start.Binds declaration.id := (places.binds declaration.id).mpr
      (.inr (List.mem_append_right _ (List.mem_map_of_mem member)))
    rcases Option.isSome_iff_exists.mp binds with ⟨register, found⟩
    have kept := (known declaration.id (among declaration listed)).1 register found
    rw [Generator.place_of_lookup kept, Generator.place_of_lookup found]
  · have stored : storedGlobals decl.body finish (globals env root) =
        (globals env root).filter fun declaration => decl.body.Writes declaration.id := by
      refine List.filter_congr fun declaration member => ?_
      have writes : decl.body.assigns declaration.id = decide (decl.body.Writes declaration.id) :=
        Bool.eq_iff_iff.mpr (by simp [BlockOf.assigns_iff])
      rw [writes]
      by_cases written : decl.body.Writes declaration.id
      · have binds := (known declaration.id (among declaration member)).2 written
        rw [show (finish.bindings.lookup declaration.id).isSome = true from binds]
        simp [written]
      · simp [written]
    rw [leftLines, bodyLines, startLines, stored]

/-- What a method that is no constructor loads is what its body reads or writes. -/
theorem loadedGlobals_of_method (role : decl.method.role ≠ .constructor) :
    loadedGlobals env root decl =
      (globals env root).filter fun declaration => decl.body.Touches declaration.id := by
  unfold loadedGlobals
  rw [if_neg role]
  refine List.filter_congr fun declaration _ => Bool.eq_iff_iff.mpr ?_
  rw [decide_eq_true_iff]
  exact BlockOf.uses_iff

theorem assigns_of_initializes {node : Node} {id : VarId}
    (initializes : node.initializes id = true) : node.assigns id = true := by
  cases node with
  | expression expr => cases initializes
  | statement stmt =>
    simp only [Node.initializes, Node.assigns, beq_iff_eq] at initializes ⊢
    cases stmt with
    | assign mark target selector value =>
      cases selector with
      | whole => exact initializes
      | _ => cases initializes
    | declare mark target value =>
      cases value with
      | none => cases initializes
      | some value => exact initializes
    | _ => cases initializes

theorem initializations_of_checked {body : Block} {line : Nat} {declarations : List Variable}
    (checked : checkInitialized body line declarations = .ok ()) :
    ∀ declaration ∈ declarations, body.initializations declaration.id = 1 := by
  induction declarations with
  | nil => simp
  | cons first rest ih =>
    unfold checkInitialized at checked
    split at checked
    · cases checked
    · rename_i once
      intro declaration member
      rcases List.mem_cons.mp member with rfl | later
      · exact once
      · exact ih checked declaration later
    · cases checked

/-- A constructor that is accepted writes every global. -/
theorem writes_of_initialized {body : Block} {line : Nat} {declarations : List Variable}
    (checked : checkInitialized body line declarations = .ok ()) :
    ∀ declaration ∈ declarations, body.Writes declaration.id := by
  intro declaration member
  have found : 0 < body.initializations declaration.id := by
    rw [initializations_of_checked checked declaration member]
    exact Nat.one_pos
  rcases List.countP_pos_iff.mp found with ⟨node, met, initializes⟩
  exact BlockOf.assigns_iff.mp
    (List.any_eq_true.mpr ⟨node, met, assigns_of_initializes initializes⟩)

/-! ## Variables without a value -/

/-- The variables of a token that a body uses have a register when it starts. -/
theorem TokenPart.mem_of_touches {place : VarId → Register} {ids : List VarId}
    {lines : List Line} (sane : env.scopes.Sane)
    (part : TokenPart env root decl.body place token ids lines) (owned : token.isSome = true)
    {declaration : Variable} (listed : declaration ∈ implicitOf env root)
    (touches : decl.body.Touches declaration.id) : declaration.id ∈ ids := by
  cases part with
  | absent => cases owned
  | @present token number data numberListed named =>
    rcases List.mem_filter.mp listed with ⟨declared, stored⟩
    have proper : declaration.Proper := by
      rcases List.mem_map.mp declared with ⟨id, -, rfl⟩
      exact sane.recorded.declaration id
    rcases proper.implicit (by simpa using stored) with isNumber | isField
    · have same := sane.eq_of_name_eq declared (List.mem_filter.mp numberListed).1
        (isNumber.trans named.symm)
      rw [same]
      exact List.mem_cons_self
    · rcases Option.isSome_iff_exists.mp isField with ⟨field, found⟩
      have used : (declaration, field) ∈ usedFields decl.body (implicitOf env root) :=
        mem_usedFields.mpr ⟨listed, BlockOf.uses_iff.mpr touches, found⟩
      exact List.mem_cons_of_mem _ (List.mem_map_of_mem (f := fun field => field.1.id) used)

theorem declaration_of_declaredIn (formed : env.scopes.WellFormed) {scope : ScopeId}
    {declaration : Variable} (listed : declaration ∈ env.scopes.declaredIn scope) :
    env.scopes.declaration declaration.id = declaration := by
  rcases List.mem_map.mp listed with ⟨id, member, rfl⟩
  rw [(formed.coherent scope id member).1]

/-- Where a method finds a variable without a register, globals and the token have theirs. -/
theorem binds_of_unassigned {later : Generator} {line : Nat} {name : String}
    (formed : env.scopes.WellFormed) (sane : env.scopes.Sane)
    (identified : token.isSome = true → env.scopes.Identifies root)
    (sited : decl.asBody.Sited env.scopes root) (supplied : decl.body.Supplied)
    (owned : Owned before []) (clear : before.Clear) (role : decl.method.role ≠ .constructor)
    (stops : Stops (method env root token decl) before
      (.semantic line (.unassignedVariable name)) later) :
    (∃ id, decl.body.Touches id ∧ ¬ later.Binds id ∧ (env.scopes.declaration id).name = name) ∧
      ∀ declaration, decl.body.Touches declaration.id →
        declaration ∈ globals env root ∨
          token.isSome = true ∧ declaration ∈ implicitOf env root →
        later.Binds declaration.id := by
  rcases method_stops formed identified sited supplied owned clear stops with
    blames | ⟨implicit, start, entering, keeps, blames⟩
  · rcases (blames trivial).2 with ⟨_, never, -⟩
    exact never.elim
  rcases (blames trivial).2 with ⟨id, used, unbound, named⟩
  refine ⟨⟨id, BlockOf.uses_iff.mp used, by simp [Generator.Binds, unbound], named⟩, ?_⟩
  intro declaration touches kind
  have apart := apart_of_sited formed sane sited
  rcases prologue_ends apart owned clear entering with ⟨⟨tokenPart, part, -⟩, places, -⟩
  have started : start.Binds declaration.id ∧ declaration ∈ env.scopes.declaredIn root ∧
      declaration.storage ≠ .local := by
    rw [places.binds]
    rcases kind with global | ⟨isToken, among⟩
    · have loaded : declaration ∈ loadedGlobals env root decl := by
        rw [loadedGlobals_of_method role]
        exact List.mem_filter.mpr ⟨global, by simpa using touches⟩
      rcases List.mem_filter.mp global with ⟨declared, stored⟩
      refine ⟨.inr (List.mem_append_right _ (List.mem_map_of_mem loaded)), declared, ?_⟩
      intro isLocal
      simp [isLocal] at stored
    · rcases List.mem_filter.mp among with ⟨declared, stored⟩
      have member := part.mem_of_touches sane isToken among touches
      refine ⟨.inr (List.mem_append_left _ (List.mem_append_left _ member)), declared, ?_⟩
      intro isLocal
      simp [isLocal] at stored
  rcases started with ⟨binds, declared, notLocal⟩
  refine keeps declaration.id ?_ binds
  show (env.scopes.declaration declaration.id).storage ≠ .local
  rw [declaration_of_declaredIn formed declared]
  exact notLocal

/-! ## Methods of programs -/

/-- A method moves globals between registers and storage as its body needs it. -/
structure MovesGlobals (env : Env) (module : Module) (decl : MethodDecl) (before : Generator) :
    Prop where
  /-- Globals that are read or written are loaded; those that are written are stored. -/
  method : decl.method.role ≠ .constructor → ∀ after,
    (method env module.scope module.owner? decl).Ends before () after →
      MethodLines env module.scope module.owner? decl
        ((globals env module.scope).filter fun declaration => decl.body.Touches declaration.id)
        ((globals env module.scope).filter fun declaration => decl.body.Writes declaration.id)
        before after
  /-- No global is loaded, and all globals are stored. -/
  constructed : decl.method.role = .constructor → ∀ after,
    (Emission.method env module.scope module.owner? decl).Ends before () after →
      MethodLines env module.scope module.owner? decl [] (globals env module.scope) before after
  /-- A variable without a value is neither a global nor a variable of the token. -/
  assigned : decl.method.role ≠ .constructor → ∀ line name,
    (Emission.method env module.scope module.owner? decl).run before =
        .error (.semantic line (.unassignedVariable name)) →
      ∃ later, Stops (Emission.method env module.scope module.owner? decl) before
          (.semantic line (.unassignedVariable name)) later ∧
        (∃ id, decl.body.Touches id ∧ ¬ later.Binds id ∧
          (env.scopes.declaration id).name = name) ∧
        ∀ declaration, decl.body.Touches declaration.id →
          declaration ∈ globals env module.scope ∨
            module.owner?.isSome = true ∧ declaration ∈ implicitOf env module.scope →
          later.Binds declaration.id

/-- Every method of a program that has been read moves globals as its body needs it. -/
theorem method_movesGlobals {interface? : String → Option Interface} {source : String}
    {program : Program} {module : Module} {contract : Contract}
    {earlier rest : List MethodDecl} {decl : MethodDecl} {env : Env} {before : Generator}
    (accepted : Program.read interface? source = .ok program)
    (listed : ∃ top ∈ program.modules, module ∈ top.inOrder)
    (scopes : env.scopes = program.scopes)
    (holds : module.content.contract? = some contract)
    (order : contract.methods = earlier ++ decl :: rest)
    (emitted : (methods env module.scope module.owner? earlier).Ends {} () before) :
    MovesGlobals env module decl before := by
  rcases listed with ⟨top, among, inOrder⟩
  have known := read_complete accepted
  have finished := known.modules top among module inOrder
  have sane := known.sane
  have formed := known.formed
  have sited := finished.sited
  have complete := finished.complete
  have identified := complete.owned
  rw [← scopes] at formed sited sane identified
  have suppliedOwn : decl.body.Supplied := by
    apply complete.supplied decl.asBody
    rw [routines_of_contract holds, order]
    exact List.mem_map_of_mem (by simp)
  rcases clear_before formed sited holds order emitted with ⟨own, ownedBefore, clearBefore⟩
  constructor
  · intro role after ends
    rw [← loadedGlobals_of_method role]
    exact method_lines formed sane own ownedBefore clearBefore ends
  · intro role after ends
    have lines := method_lines formed sane own ownedBefore clearBefore ends
    rcases bind_ok ends with ⟨implicit, start, entering, -⟩
    have entered := prologue_ends (apart_of_sited formed sane own) ownedBefore clearBefore entering
    have none : loadedGlobals env module.scope decl = [] := if_pos role
    have all : (globals env module.scope).filter
        (fun declaration => decl.body.Writes declaration.id) = globals env module.scope := by
      refine List.filter_eq_self.mpr fun declaration member => ?_
      simpa using writes_of_initialized (entered.initialized role) declaration member
    rwa [none, all] at lines
  · intro role line name failed
    rcases run_error_iff.mp failed with ⟨later, stops⟩
    exact ⟨later, stops, binds_of_unassigned formed sane identified own suppliedOwn ownedBefore
      clearBefore role stops⟩

/-- The source is read, and one of its modules is emitted and has a method like this. -/
def hasMethod (test : Env → Module → MethodDecl → Bool) : List String → Bool :=
  emitsModule fun env module => module.content.contract?.any fun contract =>
    contract.methods.any (test env module)

/-- A method of such a source, with the generator before and after it. -/
theorem exists_method {test : Env → Module → MethodDecl → Bool} {pieces : List String}
    (holds : hasMethod test pieces = true) :
    ∃ program module contract earlier decl rest before after,
      Program.read (fun _ => none) (String.join pieces) = .ok program ∧
      (∃ top ∈ program.modules, module ∈ top.inOrder) ∧
      module.content.contract? = some contract ∧ contract.methods = earlier ++ decl :: rest ∧
      (methods (program.plainEnv module) module.scope module.owner? earlier).Ends {} () before ∧
      (method (program.plainEnv module) module.scope module.owner? decl).Ends before () after ∧
      test (program.plainEnv module) module decl = true := by
  rcases exists_module holds with ⟨program, module, _, accepted, listed, ends, found⟩
  rcases (Option.any_eq_true ..).mp found with ⟨contract, held, found⟩
  rcases List.any_eq_true.mp found with ⟨decl, member, passes⟩
  rcases List.append_of_mem member with ⟨earlier, rest, order⟩
  rw [content_of_contract held, order, methods_append] at ends
  rcases bind_ok ends with ⟨_, before, emitted, later⟩
  rcases bind_ok later with ⟨_, after, own, -⟩
  exact ⟨program, module, contract, earlier, decl, rest, before, after, accepted, listed, held,
    order, emitted, own, passes⟩

/-- A global that is only compared, one that is written in a loop, and one that is not used. -/
def threeGlobals : List String :=
  ["contract test \x7b global total:number; global limit:number; global note:string; ",
    "constructor(owner:address) \x7b total = 0; limit = 9; note = \"n\"; \x7d ",
    "public f(n:number):number \x7b while (n < limit) \x7b n += 2; ",
    "if (n > 4) \x7b total += n; return total; \x7d \x7d return n; \x7d \x7d"]

theorem method_movesGlobals_threeGlobals :
    ∃ program module contract earlier decl rest before after,
      Program.read (fun _ => none) (String.join threeGlobals) = .ok program ∧
      (∃ top ∈ program.modules, module ∈ top.inOrder) ∧
      module.content.contract? = some contract ∧
      contract.methods = earlier ++ decl :: rest ∧ decl.method.role ≠ .constructor ∧
      (methods (program.plainEnv module) module.scope module.owner? earlier).Ends {} () before ∧
      (method (program.plainEnv module) module.scope module.owner? decl).Ends before () after ∧
      MovesGlobals (program.plainEnv module) module decl before := by
  have holds : hasMethod (fun _ _ decl => decl.method.role ≠ .constructor) threeGlobals = true := by
    decide +kernel
  rcases exists_method holds with
    ⟨program, module, contract, earlier, decl, rest, before, after, accepted, listed, held, order,
      emitted, own, role⟩
  exact ⟨program, module, contract, earlier, decl, rest, before, after, accepted, listed, held,
    order, of_decide_eq_true role, emitted, own,
    method_movesGlobals accepted listed rfl held order emitted⟩

end Emission

end Covenant
