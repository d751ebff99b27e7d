import Covenant.Proofs.ModuleRegisters
import Covenant.Proofs.Occurrence

/-!
# How the code of methods fails

A method fails before its body or in it; after its body nothing can fail.  The
body fails because the source breaks a rule, because it misses the value of a
variable that it uses, or because registers run out.  So does a whole module.
-/

namespace Covenant.Emission

variable {env : Env} {before later : Generator} {error : Error} {root : ScopeId}
  {token : Option String} {body : Block}

/-- No variable may be missed, and nothing is asked about their registers. -/
def unwatched : Watch where
  strict := True
  reads _ := False
  keeps _ := False
  lines _ := True

/-- A body may miss the variables that it uses, and releases only local ones. -/
def bodyWatch (env : Env) (body : Block) : Watch where
  strict := True
  reads id := body.uses id = true
  keeps id := (env.scopes.declaration id).storage ≠ .local
  lines _ := True

theorem body_dropped (coherent : env.scopes.Coherent) (body : Block) (scope : ScopeId) :
    Dropped (bodyWatch env body) (env.scopes.declaredIn scope) := by
  intro declaration listed isLocal
  rcases List.mem_map.mp listed with ⟨id, member, rfl⟩
  refine ⟨fun kept => kept ?_, fun _ => trivial⟩
  rwa [(coherent scope id member).1]

theorem body_readable (supplied : body.Supplied) : ReadableFlow (bodyWatch env body) body.flow := by
  refine BlockOf.readable_flow fun _ node among => ?_
  cases node with
  | statement stmt => trivial
  | expression part =>
    exact ⟨supplied part among, fun id read => List.any_eq_true.mpr ⟨_, among, read⟩, trivial⟩

/-- Where the code of a method stops: before its body, or in it. -/
theorem method_stops {decl : MethodDecl} (formed : env.scopes.WellFormed)
    (identified : token.isSome = true → env.scopes.Identifies root)
    (sited : decl.asBody.Sited env.scopes root) (supplied : decl.body.Supplied)
    (owned : Owned before []) (clear : before.Clear)
    (stops : Stops (method env root token decl) before error later) :
    Blames env unwatched later.bindings error ∨ ∃ implicit start,
      (prologue env root token decl).Ends before implicit start ∧
      Excused env (bodyWatch env decl.body) start error later := by
  rcases stops.bind with early | ⟨implicit, start, entering, rest⟩
  · have enters := @prologue_effects unwatched [] env root token decl (fun _ => trivial)
      (fun _ => identified) False.elim before [] ⟨owned, False.elim⟩ False.elim
    exact .inl (enters.stops early).blames
  rcases prologue_bound formed sited owned clear entering with ⟨ownedStart, bound, -⟩
  rcases rest.bind with inside | ⟨_, finish, ends, late⟩
  · have steady := @bodyCode_steady env _ [] (body_dropped formed.coherent decl.body) _
      (body_readable supplied) False.elim decl.name decl.scope decl.line start []
      ⟨ownedStart, False.elim⟩ False.elim
    exact .inr ⟨implicit, start, entering, steady.stops inside⟩
  · rcases bodyCode_binds formed sited ownedStart bound ends with ⟨ownedFinish, -, -⟩
    have leaves := @epilogue_loses unwatched [] env (fun _ => id) root decl implicit finish []
      ⟨ownedFinish, False.elim⟩ False.elim
    exact .inl (leaves.stops late).blames

/-! ## Whole modules -/

variable {ground : Reading.Ground} {module : Module}

/-- A module may miss any variable, and names lines of the source. -/
def sourceWatch (ground : Reading.Ground) : Watch where
  strict := True
  reads _ := True
  keeps _ := False
  lines := Reading.Shown ground

theorem source_dropped (formed : env.scopes.WellFormed)
    (declared : ∀ declaration ∈ env.scopes.declarations, Reading.Shown ground declaration.line)
    (scope : ScopeId) : Dropped (sourceWatch ground) (env.scopes.declaredIn scope) := by
  intro declaration listed _
  rcases List.mem_map.mp listed with ⟨id, member, rfl⟩
  refine ⟨fun kept => kept, fun _ => declared _ ?_⟩
  rw [ScopeTree.declaration, List.getElem?_eq_getElem (formed.listed scope id member)]
  exact List.getElem_mem _

theorem source_readable {tree : ScopeTree} (complete : module.Complete tree)
    (lined : module.Lined ground) {body : Body} (member : body ∈ module.routines) {line : Nat}
    (shown : Reading.Shown ground line) : ReadableBody (sourceWatch ground) line body.block := by
  refine ⟨fun _ => shown, BlockOf.readable_flow fun _ node among => ?_⟩
  have stands := lined.nodes body member node among
  cases node with
  | statement stmt => exact stands
  | expression part => exact ⟨complete.supplied body member part among, fun _ _ => trivial, stands⟩

/-- The code of a module fails because of a line of the source, or registers have run out. -/
theorem moduleCode_blames (formed : env.scopes.WellFormed) (sited : module.Sited env.scopes)
    (complete : module.Complete env.scopes) (lined : module.Lined ground)
    (declared : ∀ declaration ∈ env.scopes.declarations, Reading.Shown ground declaration.line)
    (failed : moduleCode env module = .error error) :
    ∃ bindings, Blames env (sourceWatch ground) bindings error := by
  unfold moduleCode at failed
  cases ran : (content env module.scope module.content).run {} with
  | error other =>
    rw [ran] at failed
    cases failed
    rcases run_error_iff.mp ran with ⟨later, stops⟩
    have steady : Steady env (sourceWatch ground) []
        (content env module.scope module.content) := by
      refine content_steady (source_dropped formed declared) (fun _ => id) id
        (fun _ => complete.identified) (fun contract holds decl listed => ?_) fun script holds => ?_
      · have member : decl.asBody ∈ module.routines := by
          rw [routines_of_contract holds]
          exact List.mem_map_of_mem listed
        exact source_readable complete lined member (lined.methods contract holds decl listed)
      · have member : script.asBody module.name ∈ module.routines := by
          simp [routines_of_script holds]
        exact source_readable complete lined member (lined.script script holds)
    exact ⟨later.bindings, ((steady {} [] ⟨Owned.start, False.elim⟩ False.elim).stops stops).blames⟩
  | ok pair =>
    rcases content_clears formed sited ran with ⟨owned, clear⟩
    rcases @finish_ok env _ owned clear module.line with ⟨code, handed, -⟩
    rw [ran] at failed
    replace failed : pair.2.finish env module.line = .error error := failed
    rw [handed] at failed
    cases failed

end Covenant.Emission
