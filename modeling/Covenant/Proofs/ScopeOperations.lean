import Covenant.Proofs.Requests
import Covenant.Proofs.ScopeGrowth
import Mathlib.Data.List.Nodup
import Mathlib.Logic.Relation

/-!
# Scopes under operations

The scopes of a source are changed by operations: scopes are created, and
variables, storage collections, constants and methods are declared in them.

Whatever the rule, the trees reached from the empty one are `Orderly`.  The
lists of names that the scopes hold are then a second view of the list of all
declarations, and a name is looked up in the nearest scope that declares it.
-/

namespace Covenant

/-- The names that a scope declares, those of its variables first. -/
def Scope.declaredNames (scope : Scope) : List String :=
  scope.names.map Prod.fst ++ scope.constants.map Constant.name

theorem Scope.mem_declaredNames {scope : Scope} {name : String} :
    name ∈ scope.declaredNames ↔ scope.declares name = true := by
  simp [declaredNames, declares, variableId?, constant?, List.lookup_isSome_iff, List.find?_isSome]

namespace ScopeTree

/-! ## Operations -/

/-- A change of the scopes. -/
inductive Operation where
  | root (moduleName : String)
  | child (parent : ScopeId)
  | declare (scope : ScopeId) (name : String) (ty : Ty) (storage : Storage)
      (collection : Option CollectionTypes) (line : Nat)
  | constant (scope : ScopeId) (constant : Constant)
  | method (scope : ScopeId) (name : String) (line : Nat)

/-- The scope that an operation is about. -/
def Operation.scope? : Operation → Option ScopeId
  | .root _ => none
  | .child scope | .declare scope .. | .constant scope _ | .method scope .. => some scope

/-- The scope that an operation declares a variable in. -/
def Operation.declaresIn? : Operation → Option ScopeId
  | .declare scope .. => some scope
  | _ => none

/-- The line that a variable is declared on. -/
def Operation.line? : Operation → Option Nat
  | .declare _ _ _ _ _ line => some line
  | _ => none

/-- The scope that an operation is about is there. -/
def Operation.Applies (tree : ScopeTree) (operation : Operation) : Prop :=
  ∀ scope ∈ operation.scope?, scope < tree.scopes.length

/-- What an operation does to a tree. -/
def perform : Operation → Change ScopeTree Unit
  | .root moduleName => modify fun tree => (tree.root moduleName).2
  | .child parent => modify fun tree => (tree.child parent).2
  | .declare scope name ty storage collection line => do
    let _ ← declareVariable scope name ty storage collection line
  | .constant scope constant => declareConstant scope constant
  | .method scope name line => recordMethod scope name line

/-- The tree after an operation, whether or not it fails. -/
abbrev after (tree : ScopeTree) (operation : Operation) : ScopeTree :=
  (perform operation).state tree

/-- Operations on scopes that are there, and that obey a rule, lead from one tree to the other. -/
abbrev Reached (rule : ScopeTree → Operation → Prop) (origin : ScopeTree) : ScopeTree → Prop :=
  Covenant.Reached after (fun tree operation => operation.Applies tree ∧ rule tree operation)
    origin

/--
While a source is read, constants and the implicit variables of NFTs are only
declared in the outermost scope of a module.
-/
def Operation.Customary (tree : ScopeTree) : Operation → Prop
  | .declare scope _ _ storage _ _ => storage = .nft → (tree.scope scope).parent = none
  | .constant scope _ => (tree.scope scope).parent = none
  | _ => True

variable {tree later origin : ScopeTree} {scope : ScopeId} {name : String} {id : VarId}
  {operation : Operation} {rule : ScopeTree → Operation → Prop}

theorem Operation.Applies.of_scope (target : operation.scope? = some scope)
    (present : scope < tree.scopes.length) : operation.Applies tree := by
  intro other same
  cases target.symm.trans same
  exact present

/-! ## What an operation changes -/

theorem update_update (tree : ScopeTree) (scope : ScopeId) (first second : Scope → Scope) :
    (tree.update scope first).update scope second =
      tree.update scope fun target => second (first target) := by
  simp [update, List.modify_modify_eq, Function.comp_def]

/-- The tree with one more declaration, which its scope knows by name and by number. -/
abbrev declaring (tree : ScopeTree) (declaration : Variable) : ScopeTree :=
  { tree with declarations := tree.declarations ++ [declaration] }.update declaration.scope
    fun scope =>
      { scope with
        names := scope.names ++ [(declaration.name, declaration.id)]
        variableIds := scope.variableIds ++ [declaration.id] }

section Changes

variable {ty : Ty} {storage : Storage} {collection : Option CollectionTypes} {line : Nat}
  {error : Error} {constant : Constant}

/-- All that the declaration of a variable does. -/
theorem declareVariable_cases
    (run : declareVariable scope name ty storage collection line tree = .ok id later) :
    (storage ≠ .nft → Word.isVariableName name = true) ∧
      (tree.scope scope).declares name = false ∧ id = tree.declarations.length ∧
      later = tree.declaring { id, name, ty, storage, scope, line, collection } := by
  unfold declareVariable at run
  split at run
  · cases run
  rename_i valid
  rw [Change.get_bind] at run
  split at run
  · cases run
  rename_i new
  cases run
  exact ⟨by simpa using valid, by simpa using new, rfl, update_update ..⟩

theorem declareVariable_failed
    (run : declareVariable scope name ty storage collection line tree = .error error later) :
    later = tree ∧ (error = .invalidName line "variable" name ∨ error = .duplicate line name) := by
  unfold declareVariable at run
  split at run
  · cases run
    exact ⟨rfl, .inl rfl⟩
  rw [Change.get_bind] at run
  split at run
  · cases run
    exact ⟨rfl, .inr rfl⟩
  · cases run

/-- All that the declaration of a constant does. -/
theorem declareConstant_cases (run : declareConstant scope constant tree = .ok () later) :
    Word.isConstantName constant.name = true ∧ (tree.scope scope).declares constant.name = false ∧
      later = tree.update scope fun target =>
        { target with constants := target.constants ++ [constant] } := by
  unfold declareConstant at run
  split at run
  · cases run
  rename_i valid
  rw [Change.get_bind] at run
  split at run
  · cases run
  rename_i new
  cases run
  exact ⟨by simpa using valid, by simpa using new, rfl⟩

theorem declareConstant_failed (run : declareConstant scope constant tree = .error error later) :
    later = tree ∧ (error = .invalidName constant.line "constant" constant.name ∨
      error = .duplicate constant.line constant.name) := by
  unfold declareConstant at run
  split at run
  · cases run
    exact ⟨rfl, .inl rfl⟩
  rw [Change.get_bind] at run
  split at run
  · cases run
    exact ⟨rfl, .inr rfl⟩
  · cases run

/-- All that recording a method does. -/
theorem recordMethod_cases (run : recordMethod scope name line tree = .ok () later) :
    name ∉ (tree.scope scope).methods ∧
      later = tree.update scope fun target =>
        { target with methods := target.methods ++ [name] } := by
  rw [recordMethod, Change.get_bind] at run
  split at run
  · cases run
  rename_i new
  cases run
  exact ⟨by simpa using new, rfl⟩

theorem recordMethod_failed (run : recordMethod scope name line tree = .error error later) :
    later = tree ∧ error = .duplicate line name := by
  rw [recordMethod, Change.get_bind] at run
  split at run
  · cases run
    exact ⟨rfl, rfl⟩
  · cases run

end Changes

/-- An operation that fails leaves the tree as it is. -/
theorem perform_cautious (operation : Operation) : (perform operation).Cautious := by
  intro tree error later failed
  cases operation with
  | root | child => cases failed
  | declare scope name ty storage collection line =>
    simp only [perform, Change.bind_run] at failed
    split at failed
    · cases failed
    · rename_i run
      cases failed
      exact (declareVariable_failed run).1
  | constant => exact (declareConstant_failed failed).1
  | method => exact (recordMethod_failed failed).1

/-- What an operation that succeeds makes of a tree. -/
inductive Effect (tree : ScopeTree) (operation : Operation) : ScopeTree → Prop
  /-- An empty scope is put behind all others. -/
  | opens {parent : Option ScopeId} {moduleName : String}
      (inside : ∀ outer ∈ parent, outer < tree.scopes.length)
      (silent : operation.declaresIn? = none) :
      Effect tree operation (tree.push { parent, moduleName }).2
  /-- A variable with the next number gets a new name in its scope. -/
  | declares {declaration : Variable} (present : declaration.scope < tree.scopes.length)
      (numbered : declaration.id = tree.declarations.length)
      (new : declaration.name ∉ (tree.scope declaration.scope).declaredNames)
      (valid : declaration.storage ≠ .nft → Word.isVariableName declaration.name = true)
      (requested : operation = .declare declaration.scope declaration.name declaration.ty
        declaration.storage declaration.collection declaration.line) :
      Effect tree operation (tree.declaring declaration)
  | fixes {scope : ScopeId} {constant : Constant} (present : scope < tree.scopes.length)
      (new : constant.name ∉ (tree.scope scope).declaredNames)
      (valid : Word.isConstantName constant.name = true)
      (requested : operation = .constant scope constant) :
      Effect tree operation (tree.update scope fun target =>
        { target with constants := target.constants ++ [constant] })
  | records {scope : ScopeId} {name : String} (present : scope < tree.scopes.length)
      (new : name ∉ (tree.scope scope).methods) (silent : operation.declaresIn? = none) :
      Effect tree operation (tree.update scope fun target =>
        { target with methods := target.methods ++ [name] })

theorem effect_of_perform (performed : perform operation tree = .ok () later)
    (applies : operation.Applies tree) : Effect tree operation later := by
  have new {target : ScopeId} {name : String}
      (undeclared : (tree.scope target).declares name = false) :
      name ∉ (tree.scope target).declaredNames := by
    simp [Scope.mem_declaredNames, undeclared]
  cases operation with
  | root moduleName =>
    cases performed
    exact .opens nofun rfl
  | child parent =>
    cases performed
    refine .opens (fun outer same => ?_) rfl
    cases same
    exact applies parent rfl
  | declare scope name ty storage collection line =>
    simp only [perform, Change.bind_run] at performed
    split at performed
    · rename_i run
      cases performed
      rcases declareVariable_cases run with ⟨valid, undeclared, numbered, rfl⟩
      exact .declares (applies scope rfl) numbered (new undeclared) valid rfl
    · cases performed
  | constant scope constant =>
    rcases declareConstant_cases performed with ⟨valid, undeclared, rfl⟩
    exact .fixes (applies scope rfl) (new undeclared) valid rfl
  | method scope name line =>
    rcases recordMethod_cases performed with ⟨unknown, rfl⟩
    exact .records (applies scope rfl) unknown rfl

theorem extends_update {opened : List ScopeId} {declarations : List Variable}
    (continued : tree.declarations <+: declarations) {target : ScopeId} {change : Scope → Scope}
    (grows : ∀ scope : Scope, scope.Grows (change scope))
    (closed : target ∉ opened → ∀ scope, (change scope).names = scope.names ∧
      (change scope).variableIds = scope.variableIds) :
    Extends opened tree ({ tree with declarations }.update target change) := by
  have scopes (scope : ScopeId) : (update ⟨tree.scopes, declarations⟩ target change).scope scope =
      if scope = target ∧ scope < tree.scopes.length then change (tree.scope scope)
      else tree.scope scope := scope_update _ target change scope
  refine ⟨⟨continued, by simp [update], fun scope _ => ?_⟩, fun scope _ outside => ?_⟩
  · rw [scopes]
    split
    · exact grows _
    · exact .refl _
  · rw [scopes]
    split
    · rename_i changed
      exact closed (changed.1 ▸ outside) _
    · exact ⟨rfl, rfl⟩

/-- An operation adds to a tree, and variables only to the scope that it declares one in. -/
theorem Effect.extends (made : Effect tree operation later) :
    Extends operation.declaresIn?.toList tree later := by
  cases made with
  | opens inside _ =>
    refine ⟨⟨List.prefix_rfl, by simp [push], fun scope present => ?_⟩, fun scope present _ => ?_⟩
    all_goals rw [scope_push, if_neg (Nat.ne_of_lt present)]
    · exact .refl _
    · exact ⟨rfl, rfl⟩
  | declares _ _ _ _ requested =>
    refine extends_update (List.prefix_append _ _) (fun _ => ⟨rfl, List.prefix_append _ _,
      List.prefix_append _ _, List.prefix_rfl, List.prefix_rfl⟩) fun outside => ?_
    simp [requested, Operation.declaresIn?] at outside
  | fixes _ _ _ _ =>
    exact extends_update List.prefix_rfl (fun _ => ⟨rfl, List.prefix_rfl, List.prefix_rfl,
      List.prefix_append _ _, List.prefix_rfl⟩) fun _ _ => ⟨rfl, rfl⟩
  | records _ _ _ =>
    exact extends_update List.prefix_rfl (fun _ => ⟨rfl, List.prefix_rfl, List.prefix_rfl,
      List.prefix_rfl, List.prefix_append _ _⟩) fun _ _ => ⟨rfl, rfl⟩

theorem Effect.mem_declarations {declaration : Variable} (made : Effect tree operation later)
    (member : declaration ∈ later.declarations) :
    declaration ∈ tree.declarations ∨
      operation = .declare declaration.scope declaration.name declaration.ty declaration.storage
          declaration.collection declaration.line ∧
        declaration.scope < tree.scopes.length ∧
        (declaration.storage ≠ .nft → Word.isVariableName declaration.name = true) := by
  cases made with
  | opens _ _ | fixes _ _ _ _ | records _ _ _ => exact .inl member
  | declares present _ _ valid requested =>
    rcases List.mem_append.mp member with old | new
    · exact .inl old
    · cases List.mem_singleton.mp new
      exact .inr ⟨requested, present, valid⟩

/-! ## Orderly trees -/

/-- The scopes, the names they declare and the list of all declarations fit together. -/
structure Orderly (tree : ScopeTree) : Prop where
  rising : tree.Rising
  numbered : tree.declarations.map Variable.id = List.range tree.declarations.length
  placed : ∀ declaration ∈ tree.declarations, declaration.scope < tree.scopes.length
  /-- A scope lists the declarations that name it. -/
  listed : ∀ scope, (tree.scope scope).names =
    (tree.declarations.filter fun declaration => declaration.scope = scope).map
      fun declaration => (declaration.name, declaration.id)
  agreeing : tree.Agreeing
  distinct : ∀ scope, (tree.scope scope).declaredNames.Nodup
  methods : ∀ scope, (tree.scope scope).methods.Nodup

namespace Orderly

theorem empty : Orderly {} := by
  have bare : ∀ id, ({} : ScopeTree).scope id = default := fun id =>
    scope_of_length_le (Nat.zero_le _)
  refine ⟨?_, rfl, nofun, ?_, ?_, ?_, ?_⟩
  · intro scope outer parent
    rw [bare] at parent
    cases parent
  all_goals
    intro scope
    rw [bare]
  · rfl
  · rfl
  · exact List.nodup_nil
  · exact List.nodup_nil

theorem push (orderly : tree.Orderly) {parent : Option ScopeId} {moduleName : String}
    (inside : ∀ outer ∈ parent, outer < tree.scopes.length) :
    (tree.push { parent, moduleName }).2.Orderly := by
  have scopes := scope_push tree { parent, moduleName }
  refine ⟨fun scope outer above => ?_, orderly.numbered, fun declaration member => ?_,
    fun scope => ?_, fun scope => ?_, fun scope => ?_, fun scope => ?_⟩
  · rw [scopes] at above
    split at above
    · rename_i last
      exact last ▸ inside outer above
    · exact orderly.rising scope outer above
  · simpa [ScopeTree.push] using Nat.lt_succ_of_lt (orderly.placed declaration member)
  · rw [scopes]
    split
    · rename_i last
      have none : (tree.declarations.filter fun declaration => declaration.scope = scope) = [] := by
        rw [List.filter_eq_nil_iff]
        intro declaration member
        simpa [last] using Nat.ne_of_lt (orderly.placed declaration member)
      exact (congrArg (List.map _) none).symm
    · exact orderly.listed scope
  · rw [scopes]
    split
    · rfl
    · exact orderly.agreeing scope
  · rw [scopes]
    split
    · exact List.nodup_nil
    · exact orderly.distinct scope
  · rw [scopes]
    split
    · exact List.nodup_nil
    · exact orderly.methods scope

/-- One scope is changed, and variables of that scope may be declared. -/
theorem alter (orderly : tree.Orderly) {target : ScopeId} {change : Scope → Scope}
    {added declarations : List Variable} (grown : declarations = tree.declarations ++ added)
    (present : target < tree.scopes.length)
    (numbered : added.map Variable.id = List.range' tree.declarations.length added.length)
    (placed : ∀ declaration ∈ added, declaration.scope = target)
    (parent : (change (tree.scope target)).parent = (tree.scope target).parent)
    (names : (change (tree.scope target)).names = (tree.scope target).names ++
      added.map fun declaration => (declaration.name, declaration.id))
    (variableIds : (change (tree.scope target)).variableIds = (tree.scope target).variableIds ++
      added.map Variable.id)
    (distinct : (change (tree.scope target)).declaredNames.Nodup)
    (methods : (change (tree.scope target)).methods.Nodup) :
    ({ tree with declarations }.update target change).Orderly := by
  subst grown
  have scopes : ∀ scope, (update ⟨tree.scopes, tree.declarations ++ added⟩ target change).scope
      scope = if scope = target ∧ scope < tree.scopes.length then change (tree.scope scope)
        else tree.scope scope := scope_update _ target change
  refine ⟨fun scope outer above => ?_, ?_, fun declaration member => ?_,
    fun scope => ?_, fun scope => ?_, fun scope => ?_, fun scope => ?_⟩
  · rw [scopes] at above
    split at above
    · rename_i changed
      rw [changed.1, parent] at above
      exact changed.1 ▸ orderly.rising target outer above
    · exact orderly.rising scope outer above
  · simp only [update, List.map_append, orderly.numbered, numbered, List.length_append]
    rw [List.range_eq_range', List.range_eq_range', ← List.range'_append_1, Nat.zero_add]
  · simp only [update, List.length_modify]
    rcases List.mem_append.mp member with old | new
    · exact orderly.placed declaration old
    · exact placed declaration new ▸ present
  · rw [scopes]
    have filtered : (added.filter fun declaration => declaration.scope = scope) =
        if scope = target then added else [] := by
      split
      · rename_i own
        rw [List.filter_eq_self]
        intro declaration member
        simp [own, placed declaration member]
      · rename_i other
        rw [List.filter_eq_nil_iff]
        intro declaration member
        simpa [placed declaration member] using Ne.symm other
    simp only [update, List.filter_append, List.map_append, filtered,
      ← orderly.listed scope]
    by_cases own : scope = target
    · simp [own, present, names]
    · simp [own]
  · rw [scopes]
    split
    · rename_i changed
      rw [changed.1, variableIds, names, orderly.agreeing target, List.map_append, List.map_map]
      rfl
    · exact orderly.agreeing scope
  · rw [scopes]
    split
    · rename_i changed
      exact changed.1 ▸ distinct
    · exact orderly.distinct scope
  · rw [scopes]
    split
    · rename_i changed
      exact changed.1 ▸ methods
    · exact orderly.methods scope

/-- Every operation keeps a tree orderly. -/
theorem effect (orderly : tree.Orderly) (made : Effect tree operation later) : later.Orderly := by
  cases made with
  | opens inside _ => exact orderly.push inside
  | @declares declaration present numbered new _ _ =>
    refine orderly.alter rfl present (by simp [numbered]) (by simp) rfl rfl rfl ?_
      (orderly.methods _)
    have distinct := orderly.distinct declaration.scope
    simp only [Scope.declaredNames] at new distinct ⊢
    simpa [List.nodup_middle] using And.intro (by simpa using new) distinct
  | @fixes scope constant present new _ _ =>
    refine orderly.alter (List.append_nil _).symm present rfl nofun rfl (by simp) (by simp) ?_
      (orderly.methods _)
    have distinct := orderly.distinct scope
    simp only [Scope.declaredNames] at new distinct ⊢
    rw [List.map_append, ← List.append_assoc]
    exact List.nodup_middle.mpr (by simpa using And.intro (by simpa using new) distinct)
  | @records scope name present new _ =>
    refine orderly.alter (List.append_nil _).symm present rfl nofun rfl (by simp) (by simp)
      (orderly.distinct _) ?_
    exact List.nodup_middle.mpr (by simpa using And.intro new (orderly.methods scope))

theorem id_of_declarations (orderly : tree.Orderly) {declaration : Variable}
    (found : tree.declarations[id]? = some declaration) : declaration.id = id := by
  rcases List.getElem?_eq_some_iff.mp found with ⟨known, rfl⟩
  have numbered := congrArg (fun ids : List VarId => ids[id]?) orderly.numbered
  simpa [known] using numbered

theorem declaration_of_mem (orderly : tree.Orderly) {declaration : Variable}
    (member : declaration ∈ tree.declarations) : tree.declaration declaration.id = declaration := by
  rcases List.mem_iff_getElem?.mp member with ⟨index, found⟩
  rw [orderly.id_of_declarations found]
  simp [ScopeTree.declaration, found]

/-- The variables of a scope are those whose declarations name it. -/
theorem mem_variableIds (orderly : tree.Orderly) : id ∈ (tree.scope scope).variableIds ↔
    id < tree.declarations.length ∧ (tree.declaration id).scope = scope := by
  simp only [orderly.agreeing scope, orderly.listed, List.map_map, List.mem_map, List.mem_filter,
    decide_eq_true_eq, Function.comp_apply]
  constructor
  · rintro ⟨declaration, ⟨member, rfl⟩, rfl⟩
    rcases List.mem_iff_getElem?.mp member with ⟨index, found⟩
    rw [orderly.id_of_declarations found]
    exact ⟨(List.getElem?_eq_some_iff.mp found).1, by simp [ScopeTree.declaration, found]⟩
  · rintro ⟨known, rfl⟩
    have found := List.getElem?_eq_getElem known
    refine ⟨tree.declarations[id], ⟨List.getElem_mem known, ?_⟩, orderly.id_of_declarations found⟩
    simp [ScopeTree.declaration, found]

theorem nodup_variableIds (orderly : tree.Orderly) (scope : ScopeId) :
    (tree.scope scope).variableIds.Nodup := by
  have within : (tree.scope scope).variableIds.Sublist (tree.declarations.map Variable.id) := by
    rw [orderly.agreeing scope, orderly.listed, List.map_map]
    exact List.filter_sublist.map _
  exact within.nodup (orderly.numbered ▸ List.nodup_range)

end Orderly

namespace Reached

theorem next (reached : Reached rule origin tree) (applies : operation.Applies tree)
    (obeys : rule tree operation) (performed : perform operation tree = .ok () later) :
    Reached rule origin later := by
  have further := reached.step operation ⟨applies, obeys⟩
  rwa [after, Change.state, performed] at further

/-- What holds at the start and is kept by what operations do holds wherever they lead. -/
theorem keeps (property : ScopeTree → Prop) (reached : Reached rule origin tree)
    (start : property origin)
    (kept : ∀ tree operation later, Reached rule origin tree → property tree →
      rule tree operation → Effect tree operation later → property later) : property tree := by
  induction reached with
  | start => exact start
  | step operation reached obeys ih =>
    refine (perform_cautious operation).state property ih fun _ later performed => ?_
    exact kept _ operation later reached ih obeys.2 (effect_of_perform performed obeys.1)

theorem orderly (reached : Reached rule {} tree) : tree.Orderly :=
  reached.keeps Orderly .empty fun _ _ _ _ orderly _ made => orderly.effect made

end Reached

/-! ## Looking up names -/

/-- The second scope is the first one or around it. -/
def Within (tree : ScopeTree) : ScopeId → ScopeId → Prop :=
  Relation.ReflTransGen fun inner outer => (tree.scope inner).parent = some outer

/-- What a look finds in the nearest scope where it finds anything. -/
inductive Nearest {Value : Type} (tree : ScopeTree) (look : Scope → Option Value) (value : Value) :
    ScopeId → Prop
  | here {scope : ScopeId} (found : look (tree.scope scope) = some value) :
      Nearest tree look value scope
  | outward {scope outer : ScopeId} (absent : look (tree.scope scope) = none)
      (parent : (tree.scope scope).parent = some outer)
      (further : Nearest tree look value outer) : Nearest tree look value scope

theorem Nearest.within {Value : Type} {look : Scope → Option Value} {value : Value}
    (nearest : tree.Nearest look value scope) :
    ∃ other, tree.Within scope other ∧ look (tree.scope other) = some value := by
  induction nearest with
  | here found => exact ⟨_, .refl, found⟩
  | outward _ parent _ ih =>
    rcases ih with ⟨other, within, found⟩
    exact ⟨other, .head parent within, found⟩

section Chains

variable {Value : Type} (look : Scope → Option Value)

/-- A look along a chain is one at its first scope and then one from the scope around it. -/
theorem Rising.findSome?_chain (rising : tree.Rising) (scope : ScopeId) :
    (tree.chain scope).findSome? (fun id => look (tree.scope id)) =
      (look (tree.scope scope)).or ((tree.scope scope).parent.bind fun outer =>
        (tree.chain outer).findSome? fun id => look (tree.scope id)) := by
  cases parent : (tree.scope scope).parent with
  | none => simp [chain_of_root parent]
  | some outer =>
    rw [rising.chain_of_parent parent, List.findSome?_cons]
    cases look (tree.scope scope) <;> rfl

theorem Rising.findSome?_chain_iff (rising : tree.Rising) {value : Value} :
    (tree.chain scope).findSome? (fun id => look (tree.scope id)) = some value ↔
      tree.Nearest look value scope := by
  constructor
  · intro found
    induction scope using Nat.strongRecOn with
    | _ scope ih =>
      rw [rising.findSome?_chain] at found
      cases here : look (tree.scope scope) with
      | some first =>
        rw [here] at found
        cases found
        exact .here here
      | none =>
        rw [here, Option.none_or] at found
        rcases Option.bind_eq_some_iff.mp found with ⟨outer, parent, further⟩
        exact .outward here parent (ih outer (rising scope outer parent) further)
  · intro nearest
    induction nearest with
    | here found => rw [rising.findSome?_chain, found, Option.some_or]
    | outward absent parent _ ih =>
      rw [rising.findSome?_chain, absent, parent, Option.none_or]
      exact ih

/-- A look along a chain depends on the scopes of the chain only. -/
theorem Rising.findSome?_chain_congr (rising : tree.Rising) (laterRising : later.Rising)
    (same : ∀ other, tree.Within scope other →
      (later.scope other).parent = (tree.scope other).parent ∧
        look (later.scope other) = look (tree.scope other)) :
    (later.chain scope).findSome? (fun id => look (later.scope id)) =
      (tree.chain scope).findSome? fun id => look (tree.scope id) := by
  induction scope using Nat.strongRecOn with
  | _ scope ih =>
    rcases same scope .refl with ⟨parent, found⟩
    rw [laterRising.findSome?_chain, rising.findSome?_chain, parent, found]
    congr 1
    cases above : (tree.scope scope).parent with
    | none => rfl
    | some outer =>
      exact ih outer (rising scope outer above) fun other within => same other (.head above within)

end Chains

theorem Rising.le_of_within (rising : tree.Rising) {outer : ScopeId}
    (within : tree.Within scope outer) : outer ≤ scope := by
  induction within with
  | refl => exact Nat.le_refl _
  | tail _ parent ih => exact Nat.le_trans (Nat.le_of_lt (rising _ _ parent)) ih

/-- Where a name is looked up, only declarations in the scopes around matter. -/
theorem Orderly.findVariable?_after (orderly : tree.Orderly) (applies : operation.Applies tree)
    (present : scope < tree.scopes.length)
    (elsewhere : ∀ target ∈ operation.declaresIn?, ¬ tree.Within scope target) :
    (tree.after operation).findVariable? scope name = tree.findVariable? scope name := by
  refine (perform_cautious operation).state
    (fun later => later.findVariable? scope name = tree.findVariable? scope name) rfl
    fun _ later performed => ?_
  have made := effect_of_perform performed applies
  refine orderly.rising.findSome?_chain_congr (Scope.variableId? · name)
    (orderly.effect made).rising fun other within => ?_
  have there := Nat.lt_of_le_of_lt (orderly.rising.le_of_within within) present
  have closed := made.extends.closed other there fun listed =>
    elsewhere other (Option.mem_toList.mp listed) within
  exact ⟨made.extends.parent other there, congrArg (List.lookup name) closed.1⟩

theorem Orderly.declared (orderly : tree.Orderly)
    (found : (tree.scope scope).variableId? name = some id) :
    ∃ declaration ∈ tree.declarations, declaration.scope = scope ∧ declaration.name = name ∧
      declaration.id = id := by
  rcases List.lookup_eq_some_iff.mp found with ⟨first, last, names, -⟩
  have listed : (name, id) ∈ (tree.scope scope).names := by simp [names]
  simp only [orderly.listed, List.mem_map, List.mem_filter, Prod.mk.injEq,
    decide_eq_true_eq] at listed
  rcases listed with ⟨declaration, ⟨member, placed⟩, named, numbered⟩
  exact ⟨declaration, member, placed, named, numbered⟩

/-- A scope finds by name what it lists by number. -/
theorem Orderly.variableId?_iff (orderly : tree.Orderly) :
    (tree.scope scope).variableId? name = some id ↔
      id ∈ (tree.scope scope).variableIds ∧ (tree.declaration id).name = name := by
  constructor
  · intro found
    rcases orderly.declared found with ⟨declaration, member, placed, named, rfl⟩
    have known := orderly.declaration_of_mem member
    refine ⟨orderly.mem_variableIds.mpr ⟨?_, by rw [known, placed]⟩, by rw [known, named]⟩
    rcases List.mem_iff_getElem?.mp member with ⟨index, place⟩
    rw [orderly.id_of_declarations place]
    exact (List.getElem?_eq_some_iff.mp place).1
  · rintro ⟨listed, rfl⟩
    rw [orderly.agreeing scope, List.mem_map] at listed
    rcases listed with ⟨⟨name, id⟩, among, rfl⟩
    have named : (tree.declaration id).name = name := by
      rw [orderly.listed] at among
      rcases List.mem_map.mp among with ⟨declaration, member, same⟩
      cases same
      rw [orderly.declaration_of_mem (List.mem_filter.mp member).1]
    have present : ((tree.scope scope).variableId? name).isSome = true :=
      List.lookup_isSome_iff.mpr ⟨_, among, beq_self_eq_true name⟩
    rcases Option.isSome_iff_exists.mp present with ⟨other, found⟩
    rcases List.lookup_eq_some_iff.mp found with ⟨first, last, names, -⟩
    have second : (name, other) ∈ (tree.scope scope).names := by simp [names]
    have distinct := (List.nodup_append.mp (orderly.distinct scope)).1
    cases List.inj_on_of_nodup_map distinct among second rfl
    rw [named]
    exact found

theorem Orderly.name_of_findVariable? (orderly : tree.Orderly)
    (found : tree.findVariable? scope name = some id) : (tree.declaration id).name = name := by
  rcases List.exists_of_findSome?_eq_some found with ⟨declaring, -, lookup⟩
  rcases orderly.declared lookup with ⟨declaration, member, -, rfl, rfl⟩
  rw [orderly.declaration_of_mem member]

/--
Whatever operations have led to a tree, failing ones among them: every scope has
a larger number than the scope around it, every variable is listed once, by the
scope that its declaration names, which finds it by its name and nothing else,
and no scope declares a name twice.  A name
denotes the variable of the nearest scope that declares it, and no operation
changes that but a declaration in a scope around.  What fails changes nothing.
-/
theorem operations_keepOrder (reached : Reached rule {} tree) :
    (∀ scope outer, (tree.scope scope).parent = some outer → outer < scope) ∧
    (∀ scope id, id ∈ (tree.scope scope).variableIds ↔
      id < tree.declarations.length ∧ (tree.declaration id).scope = scope) ∧
    (∀ scope name id, (tree.scope scope).variableId? name = some id ↔
      id ∈ (tree.scope scope).variableIds ∧ (tree.declaration id).name = name) ∧
    (∀ id < tree.declarations.length, (tree.declaration id).id = id) ∧
    (∀ scope, (tree.scope scope).variableIds.Nodup ∧ (tree.scope scope).declaredNames.Nodup ∧
      (tree.scope scope).methods.Nodup) ∧
    (∀ scope name id, (tree.findVariable? scope name = some id ↔
        tree.Nearest (Scope.variableId? · name) id scope) ∧
      (tree.findVariable? scope name = some id → (tree.declaration id).name = name)) ∧
    ∀ operation, operation.Applies tree →
      (∀ scope < tree.scopes.length,
        (∀ target ∈ operation.declaresIn?, ¬ tree.Within scope target) → ∀ name,
          (tree.after operation).findVariable? scope name = tree.findVariable? scope name) ∧
      ∀ error later, perform operation tree = .error error later → later = tree := by
  have orderly := reached.orderly
  refine ⟨orderly.rising, fun scope id => orderly.mem_variableIds,
    fun scope name id => orderly.variableId?_iff, fun id known => ?_,
    fun scope => ⟨orderly.nodup_variableIds scope, orderly.distinct scope, orderly.methods scope⟩,
    fun scope name id => ⟨orderly.rising.findSome?_chain_iff (Scope.variableId? · name),
      orderly.name_of_findVariable?⟩,
    fun operation applies => ⟨fun scope present elsewhere name =>
      orderly.findVariable?_after applies present elsewhere, perform_cautious operation tree⟩⟩
  have found := List.getElem?_eq_getElem known
  rw [ScopeTree.declaration, found]
  exact orderly.id_of_declarations found

/-- A variable of an inner scope hides the one of the same name outside, and is hidden by none. -/
theorem operations_keepOrder_shadowing :
    ∃ tree, Reached (fun _ _ => True) {} tree ∧ tree.findVariable? 1 "count" = some 1 ∧
      tree.Nearest (Scope.variableId? · "count") 1 1 ∧
      (∃ later, perform (.declare 1 "count" .bool .local none 4) tree =
        .error (.duplicate 4 "count") later ∧ later = tree) ∧
      (tree.after (.declare 2 "count" .bool .local none 5)).findVariable? 1 "count" = some 1 := by
  have opened := (Reached.start : Reached (fun _ _ => True) {} {}).step (.root "test")
    ⟨nofun, trivial⟩
  have declared := opened.step (.declare 0 "count" .number .global none 1)
    ⟨.of_scope rfl (by decide), trivial⟩
  have inner := declared.step (.child 0) ⟨.of_scope rfl (by decide +kernel), trivial⟩
  have shadowed := inner.step (.declare 1 "count" .string .local none 3)
    ⟨.of_scope rfl (by decide +kernel), trivial⟩
  have reached := shadowed.step (.child 1) ⟨.of_scope rfl (by decide +kernel), trivial⟩
  have order := operations_keepOrder reached
  have found := (order.2.2.2.2.2.1 1 "count" 1).1.mp (by decide +kernel)
  refine ⟨_, reached, by decide +kernel, found, ?_, ?_⟩
  · exact ⟨_, rfl, (order.2.2.2.2.2.2 (.declare 1 "count" .bool .local none 4)
      (.of_scope rfl (by decide +kernel))).2 _ _ rfl⟩
  · refine ((order.2.2.2.2.2.2 _ (.of_scope rfl (by decide +kernel))).1 1 (by decide +kernel)
      (fun target inside within => ?_) "count").trans (by decide +kernel)
    cases inside
    exact absurd (Rising.le_of_within order.1 within) (by decide)

end ScopeTree

end Covenant
