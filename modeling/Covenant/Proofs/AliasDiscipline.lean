import Covenant.Proofs.Bodies

/-!
# The aliases of a module

Variables get their registers one by one and lose them at the end of a scope,
so at any moment the bound variables are those of a chain of scopes.  If no
name is ambiguous along any such chain, aliases never collide while a module
is emitted, and every alias in its text stands for the register it was written
for.
-/

namespace Covenant

variable {generator : Generator} {root : ScopeId} {module : Module} {body : Body}

/-- Wherever one stands in the body, no name in scope is ambiguous. -/
def Body.Unambiguous (tree : ScopeTree) (root : ScopeId) (body : Body) : Prop :=
  ∀ part ∈ body.block.flow.parts ⟨[body.scope, root], []⟩, tree.Unambiguous part.1.scopes

instance (tree : ScopeTree) (root : ScopeId) (body : Body) :
    Decidable (body.Unambiguous tree root) :=
  inferInstanceAs (Decidable (∀ part ∈ body.block.flow.parts ⟨[body.scope, root], []⟩, _))

namespace Emission

variable {Outcome : Type} {env : Env} {quiet : Prop} {code : Emission Outcome}

/-- Only names are asked about. -/
def namesOnly (quiet : Prop) : Watch :=
  { Watch.lax with named := True, quiet := quiet }

/-- Names lead to variables, none is ambiguous around any part, and `quiet` excludes assembly. -/
theorem spelledFlow {around : Surroundings} {flow : Plan}
    (resolved : flow.Scoped env.scopes around.scopes)
    (clear : ∀ part ∈ flow.parts around, env.scopes.Unambiguous part.1.scopes)
    (runs : quiet → flow.Straight) : SpelledFlow env quiet around.scopes flow := by
  induction flow generalizing around with
  | simple note deed | giveBack note deed =>
    refine ⟨clear _ (Flow.self_mem_parts _ _), by simpa [Flow.Scoped] using resolved,
      fun isQuiet => ?_⟩
    · exact runs isQuiet deed (by simp [Flow.deeds])
  | within note scope line body ih =>
    exact ⟨resolved.2.1, @ih (around.within scope) resolved.2.2
      (fun part member => clear part (by simp [Flow.parts, member])) runs⟩
  | whileLoop note mark condition body ih =>
    exact @ih (around.loop (.loopEnd mark.id) (.loopStart mark.id)) resolved
      (fun part member => clear part (by simp [Flow.parts, member])) runs
  | doLoop note mark body condition ih =>
    exact @ih (around.loop (.loopEnd mark.id) (.loopContinue mark.id)) resolved
      (fun part member => clear part (by simp [Flow.parts, member])) runs
  | switch mark value arms ih =>
    exact ih resolved (fun part member => clear part (by simp [Flow.parts, member])) runs
  | forLoop note mark condition body step bodyIh stepIh =>
    refine ⟨@bodyIh (around.loop (.loopEnd mark.id) (.loopContinue mark.id)) resolved.1 ?_ ?_,
      stepIh resolved.2 ?_ ?_⟩
    · exact fun part member => clear part (by simp [Flow.parts, member])
    · exact fun isQuiet deed member => runs isQuiet deed (by simp [Flow.deeds, member])
    · exact fun part member => clear part (by simp [Flow.parts, member])
    · exact fun isQuiet deed member => runs isQuiet deed (by simp [Flow.deeds, member])
  | seq body other bodyIh otherIh | branch _ _ body other bodyIh otherIh
  | arm _ _ _ body other bodyIh otherIh =>
    refine ⟨bodyIh resolved.1 ?_ ?_, otherIh resolved.2 ?_ ?_⟩
    · exact fun part member => clear part (by simp [Flow.parts, member])
    · exact fun isQuiet deed member => runs isQuiet deed (by simp [Flow.deeds, member])
    · exact fun part member => clear part (by simp [Flow.parts, member])
    · exact fun isQuiet deed member => runs isQuiet deed (by simp [Flow.deeds, member])
  | _ => trivial

section Modules

variable (formed : env.scopes.WellFormed)

include formed

theorem body_spelled {parameters : List VarId} (sited : body.Sited env.scopes root)
    (clear : body.Unambiguous env.scopes root) (runs : quiet → body.block.flow.Straight)
    (declared : ∀ id ∈ parameters, env.scopes.Declares [body.scope, root] id) :
    SpelledBody env quiet [body.scope, root] parameters body.block := by
  exact ⟨formed.coherent, clear _ (Flow.self_mem_parts _ _), declared,
    spelledFlow sited.resolved.names clear runs⟩

theorem method_spelled {decl : MethodDecl} (outermost : (env.scopes.scope root).parent = none)
    (sited : decl.asBody.Sited env.scopes root) (clear : decl.asBody.Unambiguous env.scopes root)
    (runs : quiet → decl.body.flow.Straight) (token : Option String) :
    SpelledMethod env quiet root token decl := by
  refine ⟨body_spelled formed sited clear runs fun id member => ?_, ?_⟩
  · rcases List.mem_append.mp member with parameter | outer
    · exact ⟨decl.scope, List.mem_cons_self, sited.parameters ▸ parameter⟩
    · exact ⟨root, by simp, mem_of_declaredIn formed outer⟩
  · intro before held after owned within ends id binds
    have empty : before.Clear := fun id binds => by
      simpa [ScopeTree.Declares] using within id binds
    exact absurd binds ((method_clears formed outermost sited owned empty ends).2 id)

/-- If no name is ambiguous, the names are in order throughout the code of a module. -/
theorem content_spelled (sited : module.Sited env.scopes) (named : env.moduleName = module.name)
    (clear : ∀ body ∈ module.routines, body.Unambiguous env.scopes module.scope)
    (runs : quiet → ∀ body ∈ module.routines, body.block.flow.Straight) :
    ∃ post, Sound env (namesOnly quiet) (Excused env (namesOnly quiet) {}) post
      (content env module.scope module.content) {} [] := by
  have stands : Stands env (namesOnly quiet) {} [] := ⟨Owned.start, fun _ => Named.start env quiet⟩
  have readable (line : Nat) (body : Block) : ReadableBody (namesOnly quiet) line body :=
    ⟨False.elim, BlockOf.readable_flow False.elim⟩
  have dropped (scope : ScopeId) : Dropped (namesOnly quiet) (env.scopes.declaredIn scope) :=
    fun _ _ _ => ⟨id, False.elim⟩
  rcases contract_or_script module with ⟨contract, holds⟩ | ⟨body, holds⟩
  · rw [content_of_contract holds]
    have spelled (asked : True) (decl) (member : decl ∈ contract.methods) :
        SpelledMethod env quiet module.scope module.owner? decl := by
      have listed : decl.asBody ∈ module.routines := by
        rw [routines_of_contract holds]
        exact List.mem_map_of_mem member
      exact method_spelled formed sited.outermost (sited.bodies _ listed) (clear _ listed)
        (fun isQuiet => runs isQuiet _ listed) _
    have steady := methods_steady dropped (fun _ => id) False.elim
      (fun decl _ => readable decl.line decl.body) spelled
    exact ⟨_, steady {} [] stands fun _ _ => nofun⟩
  · rw [content_of_script holds]
    have listed : body.asBody env.moduleName ∈ module.routines := by
      simp [routines_of_script holds, named]
    have fits := sited.bodies _ listed
    have spelled := body_spelled formed fits (clear _ listed) (fun isQuiet => runs isQuiet _ listed)
      fun id member => ⟨body.scope, List.mem_cons_self, fits.parameters ▸ member⟩
    have steady := script_steady dropped (fun _ => id) (readable _ _) fun _ : True => spelled
    exact ⟨_, steady {} [] stands fun _ _ => nofun⟩

end Modules

/-- The module is free of assembly. -/
def Quiet (module : Module) : Prop :=
  ∀ body ∈ module.routines, Node.AssemblyFree body.block.nodes

/-- What aliases are good for while a module is emitted, and in its text. -/
structure WellAliased (env : Env) (module : Module) : Prop where
  /-- At every moment bound variables have different aliases. -/
  differ : ∀ rest later held,
    Reaches (content env module.scope module.content) {} [] rest later held →
      later.AliasesDiffer
  /-- A register is written by an alias only while it is bound to a variable. -/
  bound : ∀ line next later held,
    Reaches (content env module.scope module.content) {} [] (.act (.write line) next) later
        held →
      ∀ register ∈ line.registers, ∀ name, register.aliasName = some name →
        ∃ id, later.bindings.lookup id = some register
  /-- The alias of a bound variable stands for its register. -/
  denote : Quiet module → ∀ rest later held,
    Reaches (content env module.scope module.content) {} [] rest later held →
      later.AliasesDenote
  /-- Every alias in the text stands for the register that it was written for. -/
  legible : Quiet module → ∀ code, moduleCode env module = .ok code → Legible code.lines

/-- Where no name is ambiguous, aliases never collide and always stand for their registers. -/
theorem aliases_apart {interface? : String → Option Interface} {source : String}
    {program : Program} {module : Module} (env : Env)
    (accepted : Program.read interface? source = .ok program)
    (listed : ∃ top ∈ program.modules, module ∈ top.inOrder)
    (scopes : env.scopes = program.scopes) (named : env.moduleName = module.name)
    (clear : ∀ body ∈ module.routines, body.Unambiguous program.scopes module.scope) :
    WellAliased env module := by
  rcases listed with ⟨top, among, inOrder⟩
  rcases read_sited accepted with ⟨formed, sited⟩
  rw [← scopes] at formed sited clear
  have spelled := content_spelled formed (sited top among module inOrder) named clear
    fun (free : Quiet module) body member =>
      Stmt.straight_flow.2.2 body.block.statements (free body member)
  rcases spelled with ⟨post, spells⟩
  refine ⟨?_, ?_, ?_, ?_⟩
  · intro rest later held reached
    exact ((spells.reaches reached).start.named trivial).differ
  · intro line next later held reached register member name called
    rcases (spells.reaches reached).2.1.2 trivial register member with nameless | bound
    · rw [nameless] at called
      cases called
    · exact bound
  · intro free rest later held reached
    exact ((spells.reaches reached).start.named trivial).denote free
  · intro free code emitted
    rcases moduleCode_ok emitted with ⟨last, ends, lines⟩
    rcases spells.run_ok ends with ⟨_, stands, -⟩
    rw [lines]
    exact (stands.named trivial).legible free

/-! ## Sources -/

/-- A parameter that a local variable hides, and one with another number in its name. -/
def hiddenParameter : List String :=
  ["contract test \x7b public f(x:number, x_3:number):number \x7b ",
    "local x:number = 1; return x + x_3; \x7d \x7d"]

theorem aliases_apart_hiddenParameter :
    ∃ program module last,
      Program.read (fun _ => none) (String.join hiddenParameter) = .ok program ∧
      (∃ top ∈ program.modules, module ∈ top.inOrder) ∧
      (∀ body ∈ module.routines, body.Unambiguous program.scopes module.scope) ∧
      (content (program.plainEnv module) module.scope module.content).Ends {} () last ∧
      Quiet module ∧ module.routines ≠ [] ∧ WellAliased (program.plainEnv module) module := by
  have holds : emitsModule (fun env module => !module.routines.isEmpty &&
      module.routines.all fun body => Node.AssemblyFree body.block.nodes &&
        body.Unambiguous env.scopes module.scope) hiddenParameter = true := by
    decide +kernel
  rcases exists_module holds with ⟨program, module, last, accepted, listed, ends, fits⟩
  simp only [Bool.and_eq_true, List.all_eq_true, decide_eq_true_eq] at fits
  rcases fits with ⟨some, named⟩
  have clear : ∀ body ∈ module.routines, body.Unambiguous program.scopes module.scope :=
    fun body member => (named body member).2
  exact ⟨program, module, last, accepted, listed, clear, ends,
    fun body member => (named body member).1, by simpa using some,
    aliases_apart _ accepted listed rfl rfl clear⟩

/-- The states that a program goes through. -/
def moments (code : Emission Outcome) (generator : Generator) : List Generator :=
  generator :: match code with
    | .done _ => []
    | .fail _ => []
    | .look next => (next generator).moments generator
    | .take mark aliasName next =>
      match generator.take mark aliasName with
      | .ok (register, taken) => (next register).moments taken
      | .error _ => []
    | .act action next =>
      match action.perform generator with
      | .ok changed => (next ()).moments changed
      | .error _ => []

theorem exists_reaches {later : Generator} {held : List Register}
    (member : later ∈ code.moments generator) :
    ∃ rest heldLater, Reaches code generator held rest later heldLater := by
  induction code generalizing generator held with
  | done outcome | fail error =>
    simp only [moments, List.mem_singleton] at member
    subst member
    exact ⟨_, held, .here⟩
  | look next ih =>
    rw [moments, List.mem_cons] at member
    rcases member with rfl | further
    · exact ⟨_, held, .here⟩
    · rcases ih _ further with ⟨rest, heldLater, reached⟩
      exact ⟨rest, heldLater, .look reached⟩
  | take mark aliasName next ih =>
    rw [moments, List.mem_cons] at member
    rcases member with rfl | further
    · exact ⟨_, held, .here⟩
    · cases taking : generator.take mark aliasName with
      | error error => simp [taking] at further
      | ok pair =>
        simp only [taking] at further
        rcases ih _ further with ⟨rest, heldLater, reached⟩
        exact ⟨rest, heldLater, .take taking reached⟩
  | act action next ih =>
    rw [moments, List.mem_cons] at member
    rcases member with rfl | further
    · exact ⟨_, held, .here⟩
    · cases performed : action.perform generator with
      | error error => simp [performed] at further
      | ok changed =>
        simp only [performed] at further
        rcases ih _ further with ⟨rest, heldLater, reached⟩
        exact ⟨rest, heldLater, .act performed reached⟩

/-- A parameter that a local variable hides, and one with the number of the variable. -/
def numberedParameter : List String :=
  ["contract test \x7b public f(x:number, x_2:number):number \x7b ",
    "local x:number = 1; return x + x_2; \x7d \x7d"]

theorem aliases_collide_numberedParameter :
    ∃ program module rest later held,
      Program.read (fun _ => none) (String.join numberedParameter) = .ok program ∧
      (∃ top ∈ program.modules, module ∈ top.inOrder) ∧
      Reaches (content (program.plainEnv module) module.scope module.content) {} [] rest later
        held ∧
      ¬ later.AliasesDiffer := by
  have holds : emitsModule (fun env module =>
      ((content env module.scope module.content).moments {}).any fun later =>
        !decide later.AliasesDiffer) numberedParameter = true := by
    decide +kernel
  rcases exists_module holds with ⟨program, module, -, accepted, listed, -, found⟩
  rcases List.any_eq_true.mp found with ⟨later, member, collide⟩
  have moment : ∃ rest held, Reaches (content (program.plainEnv module) module.scope
      module.content) {} [] rest later held := exists_reaches member
  rcases moment with ⟨rest, held, reached⟩
  exact ⟨program, module, rest, later, held, accepted, listed, reached, by simpa using collide⟩

end Emission

end Covenant
