import Covenant.Proofs.OperatorTrees
import Covenant.Proofs.ReadingModules

/-!
# Variables and constants

The rules for names keep variables and constants apart, except for the implicit
variables of NFTs, whose names are those of constants.  These are declared in
the outermost scope of their module, as all constants are, and no scope declares
a name twice.  So a name never denotes a variable and a constant at once, and it
does not matter which of them is looked up first.
-/

namespace Covenant

namespace ScopeTree

variable {tree later : ScopeTree} {scope inner outer : ScopeId} {name : String} {id : VarId}
  {operation : Operation} {constant : Constant} {declaration : Variable}

/-! ## What is new after an operation -/

theorem Effect.mem_constants (made : Effect tree operation later)
    (member : constant ∈ (later.scope scope).constants) :
    constant ∈ (tree.scope scope).constants ∨
      operation = .constant scope constant ∧ scope < tree.scopes.length ∧
        Word.isConstantName constant.name = true := by
  cases made with
  | opens inside _ =>
    rw [scope_push] at member
    split at member
    · cases member
    · exact .inl member
  | declares _ _ _ _ _ | records _ _ _ =>
    rw [scope_update] at member
    split at member <;> exact .inl member
  | fixes present _ valid requested =>
    rw [scope_update] at member
    split at member
    · rename_i changed
      rcases List.mem_append.mp member with old | new
      · exact .inl old
      · rw [List.mem_singleton.mp new, changed.1]
        exact .inr ⟨requested, present, valid⟩
    · exact .inl member

/-! ## Names of variables and of constants -/

/-- Names of constants are kept to the outermost scopes. -/
structure Divided (tree : ScopeTree) : Prop where
  orderly : tree.Orderly
  fixed : ∀ scope, ∀ constant ∈ (tree.scope scope).constants,
    scope < tree.scopes.length ∧ Word.isConstantName constant.name = true ∧
      (tree.scope scope).parent = none
  named : ∀ declaration ∈ tree.declarations,
    Word.isVariableName declaration.name = true ∨ (tree.scope declaration.scope).parent = none

namespace Divided

theorem empty : Divided {} := by
  refine ⟨.empty, fun scope constant member => ?_, nofun⟩
  rw [scope_of_length_le (Nat.zero_le _)] at member
  cases member

/-- What is done while a source is read keeps the names divided. -/
theorem effect (divided : tree.Divided) (made : Effect tree operation later)
    (customary : operation.Customary tree) : later.Divided := by
  refine ⟨divided.orderly.effect made, fun scope constant member => ?_,
    fun declaration member => ?_⟩
  · have kept := made.extends.parent scope
    rcases made.mem_constants member with old | ⟨rfl, present, valid⟩
    · rcases divided.fixed scope constant old with ⟨present, valid, outermost⟩
      exact ⟨Nat.lt_of_lt_of_le present made.extends.count, valid, (kept present).trans outermost⟩
    · exact ⟨Nat.lt_of_lt_of_le present made.extends.count, valid, (kept present).trans customary⟩
  · rcases made.mem_declarations member with old | ⟨rfl, present, valid⟩
    · rw [made.extends.parent _ (divided.orderly.placed declaration old)]
      exact divided.named declaration old
    · rw [made.extends.parent _ present]
      by_cases implicit : declaration.storage = .nft
      · exact .inr (customary implicit)
      · exact .inl (valid implicit)

theorem of_reached (reached : Reached Operation.Customary {} tree) : tree.Divided :=
  reached.keeps Divided .empty fun _ _ _ _ divided customary made =>
    divided.effect made customary

/-- A scope has one outermost scope around it. -/
theorem outermost_unique (one : tree.Within scope inner) (two : tree.Within scope outer)
    (innerRoot : (tree.scope inner).parent = none)
    (outerRoot : (tree.scope outer).parent = none) : inner = outer := by
  have stays {root other : ScopeId} (outermost : (tree.scope root).parent = none)
      (within : tree.Within root other) : root = other := by
    rcases within.cases_head with same | ⟨above, parent, -⟩
    · exact same
    · rw [outermost] at parent
      cases parent
  have unique : Relator.RightUnique fun inner outer => (tree.scope inner).parent = some outer :=
    fun _ _ _ first second => Option.some.inj (first.symm.trans second)
  rcases Relation.ReflTransGen.total_of_right_unique unique one two with within | within
  · exact stays innerRoot within
  · exact (stays outerRoot within).symm

/-- A name does not denote a variable and a constant. -/
theorem apart (divided : tree.Divided) (scope : ScopeId) (name : String) :
    tree.findVariable? scope name = none ∨ tree.findConstant? scope name = none := by
  have rising := divided.orderly.rising
  cases varying : tree.findVariable? scope name with
  | none => exact .inl rfl
  | some id =>
  cases fixed : tree.findConstant? scope name with
  | none => exact .inr rfl
  | some constant =>
    exfalso
    rcases ((rising.findSome?_chain_iff (Scope.variableId? · name)).mp varying).within with
      ⟨inner, within, lookup⟩
    rcases ((rising.findSome?_chain_iff (Scope.constant? · name)).mp fixed).within with
      ⟨outer, around, search⟩
    rcases divided.orderly.declared lookup with ⟨declaration, member, rfl, rfl, -⟩
    have among := List.mem_of_find?_eq_some search
    have called : constant.name = declaration.name := by simpa using List.find?_some search
    rcases divided.fixed outer constant among with ⟨-, valid, outerRoot⟩
    rcases divided.named declaration member with spelled | innerRoot
    · simp [Word.isVariableName, Word.isConstantName, called] at spelled valid
      simp_all
    · have same := outermost_unique within around innerRoot outerRoot
      have distinct := divided.orderly.distinct outer
      rw [Scope.declaredNames, List.nodup_append] at distinct
      refine distinct.2.2 declaration.name ?_ constant.name (List.mem_map_of_mem among) called.symm
      rw [← same, divided.orderly.listed]
      simp only [List.map_map, List.mem_map, List.mem_filter]
      exact ⟨declaration, ⟨member, by simp⟩, rfl⟩

/-- What a name denotes as a constant it goes on denoting. -/
theorem constant_remains (divided : tree.Divided) (made : Effect tree operation later)
    (customary : operation.Customary tree) (present : scope < tree.scopes.length)
    (nearest : tree.Nearest (Scope.constant? · name) constant scope) :
    later.Nearest (Scope.constant? · name) constant scope := by
  have laterDivided := divided.effect made customary
  have rising := divided.orderly.rising
  induction nearest with
  | here found =>
    rcases (made.extends.scope _ present).constants with ⟨more, constants⟩
    simp only [Scope.constant?] at found
    exact .here (by simp [Scope.constant?, ← constants, List.find?_append, found])
  | @outward scope outer absent parent further ih =>
    have kept := (made.extends.parent _ present).trans parent
    refine .outward ?_ kept (ih (Nat.lt_trans (rising scope outer parent) present))
    refine List.find?_eq_none.mpr fun other member => ?_
    have := (laterDivided.fixed scope other member).2.2
    rw [kept] at this
    cases this

end Divided

end ScopeTree

/-! ## Reading a name and assigning to it -/

/-- What is assigned through the name of a variable. -/
theorem Reading.assignable_ok {state after : Reading.State} {scope : ScopeId} {token : Token}
    {id : VarId} {declaration : Variable}
    (found : state.scopes.findVariable? scope token.value = some id)
    (free : state.scopes.findConstant? scope token.value = none) :
    (assignable scope token).run state = .ok (declaration, after) ↔
      declaration = state.scopes.declaration id ∧ declaration.collection = none ∧
        declaration.storage ≠ .nft ∧ after = state := by
  have declared : (declaredVariable scope token).run state = .ok (id, state) := by
    rw [declaredVariable, bind_of_ok (scopes_run _)]
    simp only [ScopeTree.findVariable, found, Reading.result, pure_bind]
    rfl
  rw [assignable, bind_of_ok (scopes_run _)]
  simp only [free, Option.isSome_none, Bool.false_eq_true, if_false]
  rw [bind_of_ok declared]
  split
  · rename_i collects
    refine ⟨nofun, fun assigned => ?_⟩
    rw [← assigned.1, assigned.2.1] at collects
    cases collects
  · rename_i single
    split
    · rename_i implicit
      exact ⟨nofun, fun assigned => absurd (assigned.1 ▸ implicit) assigned.2.2.1⟩
    · rename_i stored
      constructor
      · intro ran
        cases ran
        exact ⟨rfl, by simpa using single, stored, rfl⟩
      · rintro ⟨rfl, -, -, rfl⟩
        rfl

open ScopeTree in
/--
In the scopes of a source that is read, and in all scopes that are made like
them step by step, a name denotes at most one thing.  What it denotes as a
constant is what a value of that name is, and cannot be assigned to; what it
denotes as a variable is what is read and what is assigned.  No later
declaration shadows or replaces a constant.
-/
theorem names_denoteOnce :
    (∀ interface? source program, Program.read interface? source = .ok program →
      ScopeTree.Reached Operation.Customary {} program.scopes) ∧
    ∀ tree, ScopeTree.Reached Operation.Customary {} tree → ∀ scope (token : Token),
      (tree.findVariable? scope token.value = none ∨
        tree.findConstant? scope token.value = none) ∧
      (∀ state context, state.scopes = tree →
        (∀ id, tree.findVariable? scope token.value = some id →
          (Reading.nameValue context scope token).run state =
            (Reading.variableValue id token.line).run state ∧
          ∀ declaration after,
            (Reading.assignable scope token).run state = .ok (declaration, after) ↔
              declaration = tree.declaration id ∧ declaration.collection = none ∧
                declaration.storage ≠ .nft ∧ after = state) ∧
        ∀ constant, tree.findConstant? scope token.value = some constant →
          (Reading.nameValue context scope token).run state =
            (Reading.node token.line fun mark =>
              .constant mark constant.ty token.value constant.value).run state ∧
          (Reading.assignable scope token).run state =
            .error (.error (.semantic token.line (.assignedConstant token.value)))) ∧
      ∀ operation constant, operation.Applies tree → operation.Customary tree →
        scope < tree.scopes.length → tree.findConstant? scope token.value = some constant →
          (tree.after operation).findConstant? scope token.value = some constant ∧
            (tree.after operation).findVariable? scope token.value = none := by
  refine ⟨fun interface? source program read => (read_complete read).reached,
    fun tree reached scope token => ?_⟩
  have divided := Divided.of_reached reached
  have apart := divided.apart scope token.value
  refine ⟨apart, fun state context same => ?_, fun operation constant applies customary present
    found => ?_⟩
  · subst same
    refine ⟨fun id found => ⟨?_, fun declaration after => ?_⟩, fun constant found => ⟨?_, ?_⟩⟩
    · rw [Reading.nameValue, Reading.bind_of_ok (Reading.scopes_run _)]
      simp only [found]
    · exact Reading.assignable_ok found (apart.resolve_left (by simp [found]))
    · rw [Reading.nameValue, Reading.bind_of_ok (Reading.scopes_run _)]
      simp only [found, apart.resolve_right (by simp [found])]
    · rw [Reading.assignable, Reading.bind_of_ok (Reading.scopes_run _)]
      simp only [found]
      rfl
  · have later := Divided.of_reached (reached.step operation ⟨applies, customary⟩)
    have fixed : (tree.after operation).findConstant? scope token.value = some constant := by
      refine (perform_cautious operation).state
        (fun later => later.findConstant? scope token.value = some constant) found
        fun _ later performed => ?_
      have made := effect_of_perform performed applies
      have look := (divided.orderly.rising.findSome?_chain_iff
        (Scope.constant? · token.value)).mp found
      exact ((divided.effect made customary).orderly.rising.findSome?_chain_iff
        (Scope.constant? · token.value)).mpr
        (divided.constant_remains made customary present look)
    refine ⟨fixed, (later.apart scope token.value).resolve_right ?_⟩
    simp [fixed]

open ScopeTree in
/-- The implicit variable of an NFT is named like a constant. -/
theorem names_denoteOnce_implicit :
    ∃ tree, ScopeTree.Reached Operation.Customary {} tree ∧
      tree.findVariable? 1 "_ROM" = some 0 ∧ tree.findConstant? 1 "_ROM" = none ∧
      (tree.after (.declare 1 "limit" .number .local none 4)).findConstant? 1 "LIMIT" =
        some ⟨"LIMIT", .number, "9", 2⟩ := by
  have opened := (.start : ScopeTree.Reached Operation.Customary {} {}).step (.root "relic")
    ⟨nofun, trivial⟩
  have implicit := opened.step (.declare 0 "_ROM" .bytes .nft none 1)
    ⟨.of_scope rfl (by decide), by exact fun _ => rfl⟩
  have fixed := implicit.step (.constant 0 ⟨"LIMIT", .number, "9", 2⟩)
    ⟨.of_scope rfl (by decide +kernel), by exact (rfl : _ = none)⟩
  have inner := fixed.step (.child 0) ⟨.of_scope rfl (by decide +kernel), by trivial⟩
  have once := fun value => names_denoteOnce.2 _ inner 1 ⟨.identifier, value, ⟨0, 1, 1⟩, 1⟩
  refine ⟨_, inner, by decide +kernel, (once "_ROM").1.resolve_left (by decide +kernel), ?_⟩
  exact ((once "LIMIT").2.2 _ _ (.of_scope rfl (by decide +kernel))
    (by simp [Operation.Customary]) (by decide +kernel) (by decide +kernel)).1

end Covenant
