import Covenant.Proofs.MethodRegisters
import Covenant.Proofs.ReadingModules

/-!
# The registers of modules

A module that has been read emits its bodies one after the other, and none of
them leaves a register behind.  `Starts` tells in which state the body of a
method or a script is emitted; only variables of the scopes around the body
have a register there.  A method takes care of all variables that its body can
have given a register, so after it no variable has one.
-/

namespace Covenant

/-- No variable has a register. -/
def Generator.Clear (generator : Generator) : Prop :=
  ∀ id, ¬ generator.Binds id

theorem Generator.Clear.bindings {generator : Generator} (clear : generator.Clear) :
    generator.bindings = [] := by
  cases bindings : generator.bindings with
  | nil => rfl
  | cons first rest =>
    refine absurd ?_ (clear first.1)
    simp [Generator.Binds, bindings]

/-- The token that an NFT belongs to. -/
def Module.owner? (module : Module) : Option String :=
  module.content.nftTypes?.map NftTypes.token

theorem Module.Complete.owned {tree : ScopeTree} {module : Module} (complete : module.Complete tree)
    (owned : module.owner?.isSome = true) : tree.Identifies module.scope :=
  complete.identified (by simpa [Module.owner?] using owned)

namespace Emission

variable {env : Env}

/-! ## Bodies -/

variable {before after start : Generator} {root : ScopeId} {module : Module} {body : Body}
  {held : List Register} {id : VarId} {token : Option String}

/-- The code of a block is a walk along its flow. -/
theorem exists_walk {exit : Label} {body : Block} (owned : Owned before held)
    (ends : (inMethod env exit body).Ends before () after) :
    ∃ emitted : EmittedFlow, emitted.plan = body.flow ∧
      Walk env (emitted.steps exit [] noSubject) before held after held := by
  rw [inMethod_eq env exit body noSubject] at ends
  rcases exists_trace (fun _ => none) body.flow [] ends with ⟨traced, -, -, written, path, -⟩
  refine ⟨traced.emitted, ?_, path, owned, steps_settle traced.emitted exit [] noSubject held⟩
  rw [traced.plan_emitted, written]
  exact Flow.map_id _

/-- An emitted flow is resolved as it was written. -/
theorem scoped_of_plan {tree : ScopeTree} {enclosing : List ScopeId} {emitted : EmittedFlow}
    {plan : Plan} (same : emitted.plan = plan) (resolved : plan.Scoped tree enclosing) :
    emitted.Scoped tree enclosing := by
  subst same
  exact (Flow.scoped_map _ _ emitted enclosing).mp resolved

/-- The variables that may have a register when a body starts. -/
theorem mem_of_declaredIn (formed : env.scopes.WellFormed) {scope : ScopeId}
    (listed : id ∈ (env.scopes.declaredIn scope).map Variable.id) :
    id ∈ (env.scopes.scope scope).variableIds := by
  simp only [ScopeTree.declaredIn, List.map_map, List.mem_map] at listed
  rcases listed with ⟨other, member, rfl⟩
  rwa [Function.comp, (formed.coherent scope other member).1]

theorem mem_of_globals (formed : env.scopes.WellFormed) {scope : ScopeId}
    (listed : id ∈ (globals env scope).map Variable.id) :
    id ∈ (env.scopes.scope scope).variableIds := by
  rcases List.mem_map.mp listed with ⟨declaration, among, rfl⟩
  exact mem_of_declaredIn formed (List.mem_map_of_mem (List.mem_filter.mp among).1)

/-- A variable of the outermost scope that a body may assign is a global of the module. -/
theorem mem_globals (formed : env.scopes.WellFormed)
    (outermost : (env.scopes.scope root).parent = none)
    (member : id ∈ (env.scopes.scope root).variableIds) (assignable : env.scopes.Assignable id) :
    id ∈ (globals env root).map Variable.id := by
  have admitted := formed.admitted root id member
  simp only [ScopeTree.Admits, outermost] at admitted
  have stored : (env.scopes.declaration id).storage = .global :=
    admitted.resolve_right assignable.1
  refine List.mem_map.mpr ⟨env.scopes.declaration id, ?_, (formed.coherent root id member).1⟩
  refine List.mem_filter.mpr ⟨List.mem_map_of_mem member, ?_⟩
  simp [stored, assignable.2]

/-- What a body leaves bound is of the scopes around it: bound before, or assigned. -/
theorem body_binds {exit : Label} (formed : env.scopes.WellFormed)
    (sited : body.Sited env.scopes root) (owned : Owned before held)
    (bound : BoundWithin env.scopes [body.scope, root] before)
    (ends : (inMethod env exit body.block).Ends before () after) :
    Owned after held ∧ BoundWithin env.scopes [body.scope, root] after ∧
      ∀ id, after.Binds id → before.Binds id ∨ env.scopes.Assignable id := by
  rcases exists_walk owned ends with ⟨emitted, plan, walk⟩
  have resolved := scoped_of_plan plan sited.resolved.names
  refine ⟨walk.ownedLater, ?_, ?_⟩
  · exact walk.boundWithin formed.coherent (steps_confined resolved exit [] noSubject) bound
  · intro id binds
    rw [walk.binds_after formed.coherent resolved bound] at binds
    rcases binds with earlier | ⟨assigned, -⟩
    · exact Or.inl earlier
    · refine Or.inr (sited.resolved.assignable id ?_)
      rw [← plan]
      simpa [EmittedFlow.plan] using assigned

/-- The end of the scope of the parameters and the exit label bind nothing. -/
theorem bodyCode_binds {line : Nat} (formed : env.scopes.WellFormed)
    (sited : body.Sited env.scopes root) (owned : Owned before held)
    (bound : BoundWithin env.scopes [body.scope, root] before)
    (ends : (bodyCode env body.name body.scope line body.block).Ends before () after) :
    Owned after held ∧ BoundWithin env.scopes [body.scope, root] after ∧
      ∀ id, after.Binds id → before.Binds id ∨ env.scopes.Assignable id := by
  rcases bind_ok ends with ⟨_, inside, emitted, rest⟩
  rcases bind_ok rest with ⟨_, left, leaving, placing⟩
  rcases body_binds formed sited owned bound emitted with ⟨ownedInside, boundInside, binds⟩
  rcases releaseLocals_ends ownedInside leaving with ⟨ownedLeft, -, bindings⟩
  rcases ownedLeft.written placing with ⟨ownedAfter, same, -⟩
  have fewer : ∀ id, after.Binds id → inside.Binds id := by
    intro id found
    refine ((Frees.of_without bindings) id ?_).1
    unfold Generator.Binds at *
    rwa [same] at found
  exact ⟨ownedAfter, fun id found => boundInside id (fewer id found),
    fun id found => binds id (fewer id found)⟩

/-! ## Methods -/

/-- When the body of a method starts, only variables around it have a register. -/
theorem prologue_bound {decl : MethodDecl} {implicit : List VarId} (formed : env.scopes.WellFormed)
    (sited : decl.asBody.Sited env.scopes root) (owned : Owned before held) (clear : before.Clear)
    (ends : (prologue env root token decl).Ends before implicit start) :
    Owned start held ∧ BoundWithin env.scopes [decl.scope, root] start ∧
      ∀ id, start.Binds id →
        id ∈ implicit ++ decl.parameters ++ (globals env root).map Variable.id := by
  rcases Effects.ends (prologue_effects False.elim False.elim False.elim) owned ends with
    ⟨ownedStart, placed, listed⟩
  have known : ∀ id, start.Binds id →
      id ∈ implicit ++ decl.parameters ++ (globals env root).map Variable.id := by
    intro id binds
    have member := ((placed.binds id).mp binds).resolve_left (clear id)
    rw [List.mem_append] at member ⊢
    exact member.imp_right fun loaded => List.map_subset _ (loadedGlobals_subset root decl) loaded
  refine ⟨ownedStart, ?_, known⟩
  intro id binds
  have member := known id binds
  rw [List.mem_append, List.mem_append] at member
  rcases member with (first | second) | third
  · exact ⟨root, by simp, mem_of_declaredIn formed (listed id first)⟩
  · refine ⟨decl.scope, by simp, ?_⟩
    rw [show (env.scopes.scope decl.scope).variableIds = decl.parameters from sited.parameters]
    exact second
  · exact ⟨root, by simp, mem_of_globals formed third⟩

/-- After a method no variable has a register. -/
theorem method_clears {decl : MethodDecl} (formed : env.scopes.WellFormed)
    (outermost : (env.scopes.scope root).parent = none) (sited : decl.asBody.Sited env.scopes root)
    (owned : Owned before held) (clear : before.Clear)
    (ends : (method env root token decl).Ends before () after) :
    Owned after held ∧ after.Clear := by
  rcases bind_ok ends with ⟨implicit, start, first, rest⟩
  rcases bind_ok rest with ⟨_, finish, second, third⟩
  rcases prologue_bound formed sited owned clear first with ⟨ownedStart, bound, known⟩
  rcases bodyCode_binds formed sited ownedStart bound second with
    ⟨ownedFinish, boundFinish, binds⟩
  rcases Effects.ends (epilogue_loses (fun _ => id) root decl implicit) ownedFinish third with
    ⟨ownedAfter, frees⟩
  refine ⟨ownedAfter, ?_⟩
  intro id found
  rcases frees id found with ⟨left, released⟩
  rw [List.mem_append, List.mem_append] at released
  -- What is left is a parameter, a variable of the token or a global, so it was released.
  rcases binds id left with earlier | assignable
  · have member := known id earlier
    rw [List.mem_append, List.mem_append] at member
    rcases member with (implicit | parameter) | global
    · exact released (Or.inr (Or.inl implicit))
    · exact released (Or.inr (Or.inr parameter))
    · exact released (Or.inl global)
  · rcases boundFinish id left with ⟨scope, around, member⟩
    rcases List.mem_cons.mp around with rfl | outer
    · rw [sited.parameters] at member
      exact released (Or.inr (Or.inr member))
    · rw [List.mem_singleton.mp outer] at member
      exact released (Or.inl (mem_globals formed outermost member assignable))

theorem methods_clear {decls : List MethodDecl} (formed : env.scopes.WellFormed)
    (outermost : (env.scopes.scope root).parent = none)
    (sited : ∀ decl ∈ decls, decl.asBody.Sited env.scopes root) (owned : Owned before [])
    (clear : before.Clear) (ends : (methods env root token decls).Ends before () after) :
    Owned after [] ∧ after.Clear := by
  induction decls generalizing before with
  | nil =>
    cases ends
    exact ⟨owned, clear⟩
  | cons first rest ih =>
    rcases bind_ok ends with ⟨_, between, one, others⟩
    rcases method_clears formed outermost (sited first (by simp)) owned clear one with
      ⟨ownedBetween, clearBetween⟩
    exact ih (fun decl member => sited decl (List.mem_cons_of_mem _ member)) ownedBetween
      clearBetween others

/-! ## Scripts -/

/-- When the body of a script starts, only its parameters have a register. -/
theorem scriptPrologue_bound {script : Script} (owned : Owned before []) (clear : before.Clear)
    (ends : (scriptPrologue env script).Ends before () start) :
    Owned start [] ∧ ∀ id, start.Binds id → id ∈ script.parameters := by
  rcases bind_ok ends with ⟨_, annotated, first, second⟩
  have quiet : Still env .lax [] (annotate env script.mark.line) :=
    .of_handles fun _ => annotate_handles env _
  rcases quiet.ends owned first with ⟨ownedFirst, same⟩
  rcases (@popVariables_gains _ .lax _ _ _ False.elim False.elim).ends ownedFirst second with
    ⟨ownedStart, placed⟩
  refine ⟨ownedStart, fun id binds => ((placed.binds id).mp binds).resolve_left ?_⟩
  simpa [Generator.Binds, same] using clear id

/-- After a script no variable has a register. -/
theorem script_clears {body : Script} (formed : env.scopes.WellFormed)
    (empty : (env.scopes.scope root).variableIds = [])
    (sited : (body.asBody env.moduleName).Sited env.scopes root) (owned : Owned before [])
    (clear : before.Clear) (ends : (script env body).Ends before () after) :
    Owned after [] ∧ after.Clear := by
  rcases bind_ok ends with ⟨_, start, first, rest⟩
  rcases bind_ok rest with ⟨_, finish, second, rest⟩
  rcases bind_ok rest with ⟨_, released, third, fourth⟩
  rcases scriptPrologue_bound owned clear first with ⟨ownedStart, known⟩
  have parameters : (env.scopes.scope body.scope).variableIds = body.parameters :=
    sited.parameters
  have bound : BoundWithin env.scopes [body.scope, root] start := by
    intro id binds
    exact ⟨body.scope, by simp, parameters ▸ known id binds⟩
  rcases bodyCode_binds formed sited ownedStart bound second with
    ⟨ownedFinish, boundFinish, -⟩
  rcases (@releaseAll_loses .lax [] env (fun _ => id) body.mark.line body.parameters).ends
    ownedFinish third with ⟨ownedReleased, frees⟩
  rcases ownedReleased.written fourth with ⟨ownedAfter, same, -⟩
  refine ⟨ownedAfter, ?_⟩
  intro id found
  rcases frees.followed (.of_bindings same) id found with ⟨left, freed⟩
  rcases boundFinish id left with ⟨scope, around, member⟩
  rcases List.mem_cons.mp around with rfl | outer
  · exact freed (parameters ▸ member)
  · rw [List.mem_singleton.mp outer, empty] at member
    cases member

/-! ## Modules -/

/-- The code of a module with methods. -/
theorem content_of_contract {contract : Contract}
    (holds : module.content.contract? = some contract) :
    content env module.scope module.content =
      methods env module.scope module.owner? contract.methods := by
  cases held : module.content with
  | contract body | token body | organization body | nft body types =>
    rw [held] at holds
    cases holds
    simp [content, Module.owner?, held, Module.Content.nftTypes?]
  | script body | description body =>
    rw [held] at holds
    cases holds

/-- The code of a module with a single body. -/
theorem content_of_script {body : Script} (holds : module.content.script? = some body) :
    content env module.scope module.content = script env body := by
  cases held : module.content with
  | contract _ | token _ | organization _ | nft _ _ =>
    rw [held] at holds
    cases holds
  | script _ | description _ =>
    rw [held] at holds
    cases holds
    rfl

/-- The bodies of a module with methods. -/
theorem routines_of_contract {contract : Contract}
    (holds : module.content.contract? = some contract) :
    module.routines = contract.methods.map MethodDecl.asBody := by
  cases held : module.content with
  | contract body | token body | organization body | nft body types =>
    rw [held] at holds
    cases holds
    simp [Module.routines, held, Module.Content.script?, Module.Content.contract?]
  | script body | description body =>
    rw [held] at holds
    cases holds

theorem routines_of_script {body : Script} (holds : module.content.script? = some body) :
    module.routines = [body.asBody module.name] := by
  simp [Module.routines, holds]

/-- A module has methods or a single body. -/
theorem contract_or_script (module : Module) :
    (∃ contract, module.content.contract? = some contract) ∨
      ∃ body, module.content.script? = some body := by
  cases held : module.content with
  | contract body | token body | organization body | nft body types => exact Or.inl ⟨body, rfl⟩
  | script body | description body => exact Or.inr ⟨body, rfl⟩

theorem sited_methods {contract : Contract} (sited : module.Sited env.scopes)
    (holds : module.content.contract? = some contract) :
    ∀ decl ∈ contract.methods, decl.asBody.Sited env.scopes module.scope := by
  intro decl member
  refine sited.bodies _ ?_
  rw [routines_of_contract holds]
  exact List.mem_map_of_mem member

/-- Before a method of a module no variable has a register. -/
theorem clear_before {contract : Contract} {earlier later : List MethodDecl} {decl : MethodDecl}
    (formed : env.scopes.WellFormed) (sited : module.Sited env.scopes)
    (holds : module.content.contract? = some contract)
    (order : contract.methods = earlier ++ decl :: later)
    (emitted : (methods env module.scope module.owner? earlier).Ends {} () before) :
    decl.asBody.Sited env.scopes module.scope ∧ Owned before [] ∧ before.Clear := by
  have fits := sited_methods sited holds
  exact ⟨fits decl (by simp [order]), methods_clear formed sited.outermost
    (fun other member => fits other (by simp [order, member])) Owned.start nofun emitted⟩

/-- After the code of a module no variable has a register. -/
theorem content_clears (formed : env.scopes.WellFormed) (sited : module.Sited env.scopes)
    (ends : (content env module.scope module.content).Ends {} () after) :
    Owned after [] ∧ after.Clear := by
  have clear : Generator.Clear {} := nofun
  rcases contract_or_script module with ⟨contract, holds⟩ | ⟨body, holds⟩
  · rw [content_of_contract holds] at ends
    exact methods_clear formed sited.outermost (sited_methods sited holds) Owned.start clear ends
  · rw [content_of_script holds] at ends
    have fits := sited.bodies (body.asBody module.name) (by simp [routines_of_script holds])
    exact script_clears formed (sited.script (by simp [holds]))
      ⟨fits.parent, fits.parameters, fits.resolved, fits.numbered, fits.distinct⟩
      Owned.start clear ends

/-- The state in which the body of a method or a script of a module is emitted. -/
inductive Starts (env : Env) (module : Module) : Body → Generator → Prop
  /-- Methods are emitted in order, each with its parameters and globals first. -/
  | method {contract : Contract} {earlier later : List MethodDecl} {decl : MethodDecl}
      {between start : Generator} {implicit : List VarId}
      (holds : module.content.contract? = some contract)
      (order : contract.methods = earlier ++ decl :: later)
      (before : (methods env module.scope module.owner? earlier).Ends {} () between)
      (enters : (prologue env module.scope module.owner? decl).Ends between implicit start) :
      Starts env module decl.asBody start
  | script {body : Script} {start : Generator} (holds : module.content.script? = some body)
      (enters : (scriptPrologue env body).Ends {} () start) :
      Starts env module (body.asBody module.name) start

/-- A body starts from an owned state in which only variables around it have a register. -/
theorem Starts.ready (starts : Starts env module body start) (formed : env.scopes.WellFormed)
    (sited : module.Sited env.scopes) :
    body.Sited env.scopes module.scope ∧ Owned start [] ∧
      BoundWithin env.scopes [body.scope, module.scope] start := by
  have clear : Generator.Clear {} := nofun
  cases starts with
  | method holds order before enters =>
    rcases clear_before formed sited holds order before with ⟨own, ownedBetween, clearBetween⟩
    rcases prologue_bound formed own ownedBetween clearBetween enters with
      ⟨ownedStart, bound, -⟩
    exact ⟨own, ownedStart, bound⟩
  | script holds enters =>
    rename_i body
    have own := sited.bodies (body.asBody module.name) (by simp [routines_of_script holds])
    rcases scriptPrologue_bound Owned.start clear enters with ⟨ownedStart, known⟩
    refine ⟨own, ownedStart, ?_⟩
    intro id binds
    refine ⟨body.scope, by simp [Script.asBody], ?_⟩
    rw [show (env.scopes.scope body.scope).variableIds = body.parameters from own.parameters]
    exact known id binds

theorem methods_append (root : ScopeId) (token : Option String)
    (first second : List MethodDecl) :
    methods env root token (first ++ second) = (do
      methods env root token first
      methods env root token second) := by
  induction first with
  | nil => rfl
  | cons decl rest ih => simp [methods, ih]

/-- A module that is emitted emits all its bodies. -/
theorem exists_starts (named : env.moduleName = module.name)
    (ends : (content env module.scope module.content).Ends {} () after)
    (member : body ∈ module.routines) :
    ∃ start finish, Starts env module body start ∧
      (inMethod env (.exit body.name) body.block).Ends start () finish := by
  rcases contract_or_script module with ⟨contract, holds⟩ | ⟨script, holds⟩
  · rw [routines_of_contract holds] at member
    rcases List.mem_map.mp member with ⟨decl, listed, rfl⟩
    rcases List.append_of_mem listed with ⟨earlier, later, order⟩
    rw [content_of_contract holds, order, methods_append] at ends
    rcases bind_ok ends with ⟨_, between, before, rest⟩
    rcases bind_ok rest with ⟨_, _, whole, _⟩
    rcases bind_ok whole with ⟨implicit, start, enters, rest⟩
    rcases bind_ok rest with ⟨_, _, inside, _⟩
    rcases bind_ok inside with ⟨_, finish, emitted, _⟩
    exact ⟨start, finish, Starts.method holds order before enters, emitted⟩
  · rw [routines_of_script holds, List.mem_singleton] at member
    subst member
    rw [content_of_script holds] at ends
    rcases bind_ok ends with ⟨_, start, enters, rest⟩
    rcases bind_ok rest with ⟨_, _, inside, _⟩
    rcases bind_ok inside with ⟨_, finish, emitted, _⟩
    rw [named] at emitted
    exact ⟨start, finish, Starts.script holds enters, emitted⟩

/-- A module without registers in use can be handed over. -/
theorem finish_ok {generator : Generator} (owned : Owned generator [])
    (clear : generator.Clear) (line : Nat) :
    ∃ code, generator.finish env line = .ok code ∧
      code.stats.allocations = code.stats.deallocations ∧
      code.stats.peak ≤ registerCount - 1 := by
  have bindings := clear.bindings
  have free : ∀ index, ¬ generator.registers.Holds index := by
    intro index
    rw [owned.taken]
    simp [Generator.indices, bindings]
  have handed : generator.finish env line = .ok
      { lines := generator.output.toList, called := generator.called
        stats := generator.registers.stats } := by
    unfold Generator.finish
    rw [bindings]
    simp only [List.head?_nil, RegisterFile.verify_of_not_holds free line]
    rfl
  refine ⟨_, handed, ?_, owned.peak⟩
  have balance := owned.balance
  simpa [Generator.indices, bindings] using balance

/-- The lines of a module are those that its bodies have left. -/
theorem moduleCode_ok {module : Module} {code : EmittedCode}
    (emitted : moduleCode env module = .ok code) :
    ∃ last, (content env module.scope module.content).Ends {} () last ∧
      code.lines = last.lines := by
  unfold moduleCode at emitted
  cases ran : (content env module.scope module.content).run {} with
  | error error => simp [ran, Bind.bind, Except.bind] at emitted
  | ok pair =>
    refine ⟨pair.2, ran, ?_⟩
    rw [ran] at emitted
    simp only [Bind.bind, Except.bind, Generator.finish] at emitted
    split at emitted
    · simp [blame] at emitted
    · split at emitted
      · cases emitted
      · cases emitted
        rfl

end Emission

end Covenant
