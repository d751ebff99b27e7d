import Covenant.Scope.Tree

/-!
# How scopes grow

Reading a source only adds to its scopes: new scopes come with larger numbers,
new variables are put behind the old ones, and only the scopes that are open
get new names.  `Extends` says so, with the open scopes as a parameter.

A tree is `WellFormed` if names and declarations agree and if the storage of a
variable follows from the depth of its scope.  What is read at one time can be
used at any later time, since nothing that it refers to changes.
-/

namespace Covenant

/-- A scope gets more names behind those that it has. -/
structure Scope.Grows (before after : Scope) : Prop where
  parent : after.parent = before.parent
  names : before.names <+: after.names
  variableIds : before.variableIds <+: after.variableIds
  constants : before.constants <+: after.constants
  methods : before.methods <+: after.methods

theorem Scope.Grows.refl (scope : Scope) : scope.Grows scope :=
  ⟨rfl, List.prefix_rfl, List.prefix_rfl, List.prefix_rfl, List.prefix_rfl⟩

namespace ScopeTree

/-- One of the scopes declares the variable. -/
def Declares (tree : ScopeTree) (scopes : List ScopeId) (id : VarId) : Prop :=
  ∃ scope ∈ scopes, id ∈ (tree.scope scope).variableIds

instance (tree : ScopeTree) (scopes : List ScopeId) (id : VarId) :
    Decidable (tree.Declares scopes id) :=
  inferInstanceAs (Decidable (∃ scope ∈ scopes, id ∈ (tree.scope scope).variableIds))

/-- Every name leads to the declaration of a variable of its scope. -/
def Coherent (tree : ScopeTree) : Prop :=
  ∀ scope, ∀ id ∈ (tree.scope scope).variableIds,
    (tree.declaration id).id = id ∧ (tree.declaration id).scope = scope

/-- All variables of the scope are local. -/
def IsLocal (tree : ScopeTree) (scope : ScopeId) : Prop :=
  ∀ id ∈ (tree.scope scope).variableIds, (tree.declaration id).storage = .local

instance (tree : ScopeTree) (scope : ScopeId) : Decidable (tree.IsLocal scope) :=
  inferInstanceAs (Decidable (∀ id ∈ (tree.scope scope).variableIds,
    (tree.declaration id).storage = .local))

variable {tree after : ScopeTree} {scope : ScopeId} {id : VarId} {name : String} {storage : Storage}
  {line : Nat} {collection : Option CollectionTypes}

/-- A variable is declared in one scope only. -/
theorem Coherent.scope_unique (coherent : tree.Coherent) {first second : ScopeId}
    (one : id ∈ (tree.scope first).variableIds) (other : id ∈ (tree.scope second).variableIds) :
    first = second := by
  rw [← (coherent first id one).2, ← (coherent second id other).2]

/-! ## Well-formed trees -/

/--
Variables of the outermost scope of a module live in storage or belong to a
token, those of the next scope are arguments, and all others are local.
-/
def Admits (tree : ScopeTree) (scope : ScopeId) (storage : Storage) : Prop :=
  match (tree.scope scope).parent with
  | none => storage = .global ∨ storage = .nft
  | some outer =>
    match (tree.scope outer).parent with
    | none => storage = .argument
    | some _ => storage = .local

/-- Every scope has a larger number than the scope around it. -/
def Rising (tree : ScopeTree) : Prop :=
  ∀ scope outer, (tree.scope scope).parent = some outer → outer < scope

/-- Names, declarations and the nesting of the scopes fit together. -/
structure WellFormed (tree : ScopeTree) : Prop where
  parents : tree.Rising
  listed : ∀ scope, ∀ id ∈ (tree.scope scope).variableIds, id < tree.declarations.length
  coherent : tree.Coherent
  admitted : ∀ scope, ∀ id ∈ (tree.scope scope).variableIds,
    tree.Admits scope (tree.declaration id).storage

/-- The scope is inside the scope of a method. -/
def IsInner (tree : ScopeTree) (scope : ScopeId) : Prop :=
  ∃ outer, (tree.scope scope).parent = some outer ∧ ((tree.scope outer).parent).isSome

theorem WellFormed.isLocal (formed : tree.WellFormed) (inner : tree.IsInner scope) :
    tree.IsLocal scope := by
  rcases inner with ⟨outer, parent, deeper⟩
  rcases Option.isSome_iff_exists.mp deeper with ⟨further, above⟩
  intro id member
  have admitted := formed.admitted scope id member
  simpa [Admits, parent, above] using admitted

/-- There is nothing behind the last scope. -/
theorem scope_of_length_le (beyond : tree.scopes.length ≤ scope) : tree.scope scope = default := by
  simp [ScopeTree.scope, List.getElem?_eq_none beyond]

theorem lt_of_parent {outer : ScopeId} (parent : (tree.scope scope).parent = some outer) :
    scope < tree.scopes.length := by
  refine Nat.lt_of_not_le fun beyond => ?_
  rw [scope_of_length_le beyond] at parent
  cases parent

theorem lt_of_mem (member : id ∈ (tree.scope scope).variableIds) : scope < tree.scopes.length := by
  refine Nat.lt_of_not_le fun beyond => ?_
  rw [scope_of_length_le beyond] at member
  cases member

/-! ## The scopes around a scope -/

namespace Rising

/-- A bound beyond the number of the scope makes no difference. -/
theorem chainWithin_eq (rising : tree.Rising) {bound scope : Nat} (enough : scope < bound) :
    tree.chainWithin bound scope = tree.chain scope := by
  induction scope using Nat.strongRecOn generalizing bound with
  | _ scope ih =>
    rcases bound with _ | bound
    · omega
    · unfold chain chainWithin
      cases parent : (tree.scope scope).parent with
      | none => rfl
      | some outer =>
        have smaller := rising scope outer parent
        simp only [ih outer smaller (Nat.lt_of_lt_of_le smaller (Nat.le_of_lt_succ enough)),
          ih outer smaller smaller]

theorem chain_of_parent (rising : tree.Rising) {outer : ScopeId}
    (parent : (tree.scope scope).parent = some outer) :
    tree.chain scope = scope :: tree.chain outer := by
  have smaller := rising scope outer parent
  rw [chain, chainWithin, parent]
  simp only [rising.chainWithin_eq smaller]

end Rising

theorem chain_of_root (root : (tree.scope scope).parent = none) : tree.chain scope = [scope] := by
  rw [chain, chainWithin, root]

theorem Rising.le_of_mem_chain (rising : tree.Rising) {other : ScopeId}
    (member : other ∈ tree.chain scope) : other ≤ scope := by
  induction scope using Nat.strongRecOn with
  | _ scope ih =>
    cases parent : (tree.scope scope).parent with
    | none =>
      rw [chain_of_root parent, List.mem_singleton] at member
      exact Nat.le_of_eq member
    | some outer =>
      have smaller := rising scope outer parent
      rw [rising.chain_of_parent parent] at member
      rcases List.mem_cons.mp member with rfl | further
      · exact Nat.le_refl _
      · exact Nat.le_trans (ih outer smaller further) (Nat.le_of_lt smaller)

/-- Both views of the variables of a scope agree. -/
def Agreeing (tree : ScopeTree) : Prop :=
  ∀ scope, (tree.scope scope).variableIds = (tree.scope scope).names.map Prod.snd

theorem Agreeing.declares (agreeing : tree.Agreeing)
    (found : tree.findVariable? scope name = some id) : tree.Declares (tree.chain scope) id := by
  rcases List.exists_of_findSome?_eq_some found with ⟨declaring, member, lookup⟩
  refine ⟨declaring, member, ?_⟩
  rcases List.lookup_eq_some_iff.mp lookup with ⟨first, last, names, -⟩
  simp [agreeing declaring, names]

/-! ## Growing trees -/

/-- A tree is continued: nothing that can be referred to is taken back. -/
structure Grows (before after : ScopeTree) : Prop where
  declarations : before.declarations <+: after.declarations
  count : before.scopes.length ≤ after.scopes.length
  scope : ∀ scope < before.scopes.length, (before.scope scope).Grows (after.scope scope)

/-- A tree is continued; only scopes of the list get new variables. -/
structure Extends (opened : List ScopeId) (before after : ScopeTree) : Prop extends
    Grows before after where
  closed : ∀ scope < before.scopes.length, scope ∉ opened →
    (after.scope scope).names = (before.scope scope).names ∧
      (after.scope scope).variableIds = (before.scope scope).variableIds

namespace Grows

variable {before between after : ScopeTree}

theorem refl (tree : ScopeTree) : Grows tree tree :=
  ⟨List.prefix_rfl, Nat.le_refl _, fun _ _ => .refl _⟩

theorem trans (first : Grows before between) (second : Grows between after) :
    Grows before after where
  declarations := first.declarations.trans second.declarations
  count := Nat.le_trans first.count second.count
  scope scope present :=
    have one := first.scope scope present
    have two := second.scope scope (Nat.lt_of_lt_of_le present first.count)
    ⟨two.parent.trans one.parent, one.names.trans two.names,
      one.variableIds.trans two.variableIds, one.constants.trans two.constants,
      one.methods.trans two.methods⟩

theorem parent (grows : Grows before after) (scope : ScopeId)
    (present : scope < before.scopes.length) :
    (after.scope scope).parent = (before.scope scope).parent :=
  (grows.scope scope present).parent

/-- A variable that has been declared keeps its declaration. -/
theorem declaration (grows : Grows before after) (known : id < before.declarations.length) :
    after.declaration id = before.declaration id := by
  rcases grows.declarations with ⟨added, declarations⟩
  simp [ScopeTree.declaration, ← declarations, List.getElem?_append_left known]

theorem mem (grows : Grows before after) (member : id ∈ (before.scope scope).variableIds) :
    id ∈ (after.scope scope).variableIds :=
  (grows.scope scope (lt_of_mem member)).variableIds.subset member

theorem isInner (grows : Grows before after) (inner : before.IsInner scope) :
    after.IsInner scope := by
  rcases inner with ⟨outer, parent, deeper⟩
  rcases Option.isSome_iff_exists.mp deeper with ⟨further, above⟩
  refine ⟨outer, ?_, ?_⟩
  · rw [grows.parent scope (lt_of_parent parent), parent]
  · rw [grows.parent outer (lt_of_parent above), above]
    rfl

theorem rising (grows : Grows before after) (later : after.Rising) : before.Rising :=
  fun scope outer parent =>
    later scope outer ((grows.parent scope (lt_of_parent parent)).trans parent)

/-- The scopes around a scope stay the same. -/
theorem chain (grows : Grows before after) (later : after.Rising)
    (present : scope < before.scopes.length) : after.chain scope = before.chain scope := by
  have rising := grows.rising later
  induction scope using Nat.strongRecOn with
  | _ scope ih =>
    have same := grows.parent scope present
    cases parent : (before.scope scope).parent with
    | none => rw [chain_of_root parent, chain_of_root (same.trans parent)]
    | some outer =>
      have smaller := rising scope outer parent
      rw [rising.chain_of_parent parent, later.chain_of_parent (same.trans parent),
        ih outer smaller (Nat.lt_trans smaller present)]

/-- What a scope admits depends on the scopes around it only. -/
theorem admits (grows : Grows before after) (rising : before.Rising)
    (present : scope < before.scopes.length) :
    after.Admits scope storage ↔ before.Admits scope storage := by
  unfold Admits
  rw [grows.parent scope present]
  cases parent : (before.scope scope).parent with
  | none => rfl
  | some outer =>
    have smaller := rising scope outer parent
    simp only [grows.parent outer (Nat.lt_trans smaller present)]

end Grows

namespace Extends

variable {before between after : ScopeTree} {opened : List ScopeId}

theorem refl (opened : List ScopeId) (tree : ScopeTree) : Extends opened tree tree :=
  ⟨.refl tree, fun _ _ _ => ⟨rfl, rfl⟩⟩

/-- Scopes that were not there at the start need not be counted as open. -/
theorem trans {inner : List ScopeId} (first : Extends opened before between)
    (second : Extends inner between after)
    (fresh : ∀ scope ∈ inner, scope ∈ opened ∨ before.scopes.length ≤ scope) :
    Extends opened before after := by
  refine ⟨first.toGrows.trans second.toGrows, fun scope present outside => ?_⟩
  have stillOutside : scope ∉ inner := by
    intro member
    rcases fresh scope member with opened | beyond
    · exact outside opened
    · omega
  have earlier := first.closed scope present outside
  have last := second.closed scope (Nat.lt_of_lt_of_le present first.count) stillOutside
  exact ⟨last.1.trans earlier.1, last.2.trans earlier.2⟩

theorem widen {inner : List ScopeId} (extended : Extends inner before after)
    (among : ∀ scope ∈ inner, scope ∈ opened ∨ before.scopes.length ≤ scope) :
    Extends opened before after :=
  (refl opened before).trans extended among

end Extends

/-! ## New scopes and changed scopes -/

theorem scope_push (tree : ScopeTree) (new : Scope) (scope : ScopeId) :
    (tree.push new).2.scope scope =
      if scope = tree.scopes.length then new else tree.scope scope := by
  unfold ScopeTree.scope push
  rcases Nat.lt_trichotomy scope tree.scopes.length with smaller | rfl | larger
  · simp [List.getElem?_append_left smaller, Nat.ne_of_lt smaller]
  · simp
  · simp [List.getElem?_eq_none (Nat.le_of_lt larger), Nat.ne_of_gt larger]
    rw [List.getElem?_eq_none (by simp; omega)]
    rfl

theorem scope_update (tree : ScopeTree) (id : ScopeId) (change : Scope → Scope)
    (scope : ScopeId) :
    (tree.update id change).scope scope =
      if scope = id ∧ scope < tree.scopes.length then change (tree.scope scope)
      else tree.scope scope := by
  unfold ScopeTree.scope update
  simp only [List.getElem?_modify]
  by_cases present : scope < tree.scopes.length
  · by_cases same : scope = id
    · simp [same, same ▸ present]
    · simp [same, Ne.symm same]
  · simp [present]

end ScopeTree

end Covenant
