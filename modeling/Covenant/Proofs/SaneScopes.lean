import Covenant.Emission.Method
import Covenant.Proofs.ScopeOperations

/-!
# What is declared in a scope

The variables of a scope are all different and are all declared, each under a
name of its own.  A variable
that is declared as a storage collection has the types that a collection of its
kind needs, and a variable of an NFT is its number or a field of the token.
Reading a source keeps this, and never forgets a declaration.
-/

namespace Covenant

variable {scope : ScopeId} {name : String} {tree later : ScopeTree} {id : VarId} {line : Nat}
  {operation : ScopeTree.Operation}

/-- A declaration has what is needed to call methods of it, or to load it. -/
structure Variable.Proper (declaration : Variable) : Prop where
  collected : ∀ types, declaration.collection = some types →
    declaration.ty = .storageMap ∧ types.key.isSome = true ∨
      declaration.ty = .storageList ∨ declaration.ty = .storageSet
  implicit : declaration.storage = .nft →
    declaration.name = "_tokenID" ∨ (Emission.tokenField? declaration.name).isSome = true

/-- A variable of a single place that does not belong to a token. -/
theorem Variable.proper_of_plain {declaration : Variable} (plain : declaration.collection = none)
    (other : declaration.storage ≠ .nft) : declaration.Proper := by
  refine ⟨fun types found => ?_, fun stored => absurd stored other⟩
  rw [plain] at found
  cases found

namespace ScopeTree

/-- The variables of a scope are declared, different, and have what they need. -/
structure Sane (tree : ScopeTree) : Prop where
  numbered : ∀ (id : VarId) declaration, tree.declarations[id]? = some declaration →
    declaration.id = id
  listed : ∀ scope, ∀ id ∈ (tree.scope scope).variableIds, id < tree.declarations.length
  distinct : ∀ scope, (tree.scope scope).variableIds.Nodup
  proper : ∀ declaration ∈ tree.declarations, declaration.Proper
  agreeing : tree.Agreeing
  named : ∀ scope, ∀ entry ∈ (tree.scope scope).names, (tree.declaration entry.2).name = entry.1
  unique : ∀ scope, ((tree.scope scope).names.map Prod.fst).Nodup

/-- Names lead to declarations that have what they need. -/
structure Recorded (tree : ScopeTree) : Prop where
  numbered : ∀ (id : VarId) declaration, tree.declarations[id]? = some declaration →
    declaration.id = id
  listed : ∀ scope, ∀ id ∈ (tree.scope scope).variableIds, id < tree.declarations.length
  proper : ∀ declaration ∈ tree.declarations, declaration.Proper
  agreeing : tree.Agreeing

theorem Sane.recorded (sane : tree.Sane) : tree.Recorded :=
  ⟨sane.numbered, sane.listed, sane.proper, sane.agreeing⟩

/-- Two variables of a scope with one name are the same. -/
theorem Sane.eq_of_name_eq (sane : tree.Sane) {first second : Variable}
    (firstListed : first ∈ tree.declaredIn scope) (secondListed : second ∈ tree.declaredIn scope)
    (same : first.name = second.name) : first = second := by
  rcases List.mem_map.mp firstListed with ⟨firstId, firstMember, rfl⟩
  rcases List.mem_map.mp secondListed with ⟨secondId, secondMember, rfl⟩
  rw [sane.agreeing scope] at firstMember secondMember
  rcases List.mem_map.mp firstMember with ⟨firstEntry, firstAmong, rfl⟩
  rcases List.mem_map.mp secondMember with ⟨secondEntry, secondAmong, rfl⟩
  rw [sane.named scope _ firstAmong, sane.named scope _ secondAmong] at same
  rw [List.inj_on_of_nodup_map (sane.unique scope) firstAmong secondAmong same]

/-- What is declared has what it needs, whether its number is known or not. -/
theorem Recorded.declaration (recorded : tree.Recorded) (id : VarId) :
    (tree.declaration id).Proper := by
  unfold ScopeTree.declaration
  cases found : tree.declarations[id]? with
  | none => exact Variable.proper_of_plain rfl nofun
  | some declaration => exact recorded.proper declaration (List.mem_of_getElem? found)

/-- A variable that is found is declared under its number. -/
theorem Recorded.known (recorded : tree.Recorded)
    (found : tree.findVariable? scope name = some id) :
    tree.declarations[id]? = some (tree.declaration id) := by
  rcases recorded.agreeing.declares found with ⟨declaring, -, member⟩
  have known := List.getElem?_eq_getElem (recorded.listed declaring id member)
  rw [ScopeTree.declaration, known]
  rfl

/-- A name that is required has a variable. -/
theorem findVariable?_of_required {id? : Option VarId}
    (found : tree.findVariable scope name true line = .ok id?) :
    ∃ id, id? = some id ∧ tree.findVariable? scope name = some id := by
  unfold findVariable at found
  split at found
  · cases found
    exact ⟨_, rfl, by assumption⟩
  · cases found

/-- The scope of an NFT declares the number of its token. -/
def Identifies (tree : ScopeTree) (scope : ScopeId) : Prop :=
  ∃ id < tree.declarations.length, id ∈ (tree.scope scope).variableIds ∧
    (tree.declaration id).storage = .nft ∧ (tree.declaration id).name = "_tokenID"

theorem Grows.identifies (grows : Grows tree later) (identifies : tree.Identifies scope) :
    later.Identifies scope := by
  rcases identifies with ⟨id, known, member, declared⟩
  refine ⟨id, Nat.lt_of_lt_of_le known grows.declarations.length_le, grows.mem member, ?_⟩
  rw [grows.declaration known]
  exact declared

/-! ## Reading -/

/--
While a source is read, every variable is declared where its storage belongs,
with what it needs, and constants only in the outermost scope of a module.
-/
def Operation.Regular (tree : ScopeTree) : Operation → Prop
  | .declare scope name ty storage collection line => tree.Admits scope storage ∧
      ∀ id, Variable.Proper { id, name, ty, storage, scope, line, collection }
  | .constant scope _ => (tree.scope scope).parent = none
  | _ => True

theorem Operation.Regular.customary (regular : operation.Regular tree) :
    operation.Customary tree := by
  cases operation with
  | declare scope =>
    intro implicit
    have admitted := regular.1
    simp only [implicit, Admits] at admitted
    split at admitted
    · assumption
    · split at admitted <;> cases admitted
  | constant => exact regular
  | _ => trivial

theorem Reached.customary {origin : ScopeTree} (reached : Reached Operation.Regular origin tree) :
    Reached Operation.Customary origin tree := by
  induction reached with
  | start => exact .start
  | step operation _ obeys ih => exact ih.step operation ⟨obeys.1, obeys.2.customary⟩

theorem Recorded.effect (recorded : tree.Recorded) (made : Effect tree operation later)
    (regular : operation.Regular tree) : later.Recorded := by
  cases made with
  | opens inside _ =>
    refine ⟨recorded.numbered, fun scope id member => ?_, recorded.proper, fun scope => ?_⟩
    · rw [scope_push] at member
      split at member
      · cases member
      · exact recorded.listed scope id member
    · rw [scope_push]
      split
      · rfl
      · exact recorded.agreeing scope
  | fixes _ _ _ _ | records _ _ _ =>
    refine ⟨recorded.numbered, fun scope id member => ?_, recorded.proper, fun scope => ?_⟩
    · rw [scope_update] at member
      split at member <;> exact recorded.listed scope id member
    · rw [scope_update]
      split <;> exact recorded.agreeing scope
  | @declares declaration present numbered _ _ requested =>
    subst requested
    refine ⟨fun id found known => ?_, fun scope id member => ?_, List.forall_mem_append.mpr
      ⟨recorded.proper, List.forall_mem_singleton.mpr (regular.2 _)⟩, fun scope => ?_⟩
    · simp only [update, List.getElem?_append] at known
      split at known
      · exact recorded.numbered id found known
      · rename_i beyond
        rcases List.getElem?_eq_some_iff.mp known with ⟨bound, rfl⟩
        simp only [List.length_singleton] at bound
        rw [List.getElem_singleton, numbered]
        exact Nat.le_antisymm (Nat.le_of_not_lt beyond) (by omega)
    · rw [scope_update] at member
      simp only [update, List.length_append, List.length_singleton]
      split at member
      · simp only [List.mem_append, List.mem_singleton, numbered] at member
        rcases member with old | rfl
        · exact Nat.lt_succ_of_lt (recorded.listed scope id old)
        · exact Nat.lt_succ_self _
      · exact Nat.lt_succ_of_lt (recorded.listed scope id member)
    · rw [scope_update]
      split
      · rw [List.map_append]
        exact congrArg (· ++ [declaration.id]) (recorded.agreeing scope)
      · exact recorded.agreeing scope

/-- A declaration of a tree that reading has led to stands where its storage belongs. -/
theorem Reached.declared (reached : Reached Operation.Regular {} tree) :
    ∀ declaration ∈ tree.declarations,
      tree.Admits declaration.scope declaration.storage ∧ declaration.Proper := by
  refine reached.keeps (fun tree => ∀ declaration ∈ tree.declarations,
    tree.Admits declaration.scope declaration.storage ∧ declaration.Proper) nofun ?_
  intro state operation later reached declared regular made declaration member
  have orderly := reached.orderly
  rcases made.mem_declarations member with old | ⟨rfl, present, -⟩
  · rw [made.extends.admits orderly.rising (orderly.placed declaration old)]
    exact declared declaration old
  · rw [made.extends.admits orderly.rising present]
    exact ⟨regular.1, regular.2 _⟩

theorem Reached.wellFormed (reached : Reached Operation.Regular {} tree) : tree.WellFormed := by
  have orderly := reached.orderly
  refine ⟨orderly.rising, fun scope id member => (orderly.mem_variableIds.mp member).1, ?_, ?_⟩
  all_goals
    intro scope id member
    rcases orderly.mem_variableIds.mp member with ⟨known, rfl⟩
    have found := List.getElem?_eq_getElem known
  · refine ⟨?_, rfl⟩
    rw [ScopeTree.declaration, found]
    exact orderly.id_of_declarations found
  · rw [ScopeTree.declaration, found]
    exact (reached.declared _ (List.getElem_mem known)).1

theorem Orderly.sane (orderly : tree.Orderly)
    (proper : ∀ declaration ∈ tree.declarations, declaration.Proper) : tree.Sane := by
  refine ⟨fun _ _ => orderly.id_of_declarations,
    fun scope id member => (orderly.mem_variableIds.mp member).1, orderly.nodup_variableIds, proper,
    orderly.agreeing, ?_, fun scope => (List.nodup_append.mp (orderly.distinct scope)).1⟩
  intro scope entry member
  rw [orderly.listed] at member
  rcases List.mem_map.mp member with ⟨declaration, among, rfl⟩
  rw [orderly.declaration_of_mem (List.mem_filter.mp among).1]

end ScopeTree

end Covenant
