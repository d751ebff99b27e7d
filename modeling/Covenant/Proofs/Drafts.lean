import Covenant.Proofs.Occurrence
import Covenant.Proofs.ReadingStatements
import Covenant.Reading.Source

/-!
# What has been read of a module

The outermost scope of a module stays open while its declarations are read, so
facts about a body are promised for every tree in which only outermost scopes
have grown; the scopes of the program at the end are such a tree.  A body is
read with the methods and events that stand before it, and with the structs
that were declared before its module.  All of these lists only get longer, so
every body is well typed in what its module knows at the end.

`Drafted` collects what holds of a module that has been read up to some place,
and `Module.Finished` what holds of it at the end.
-/

namespace Covenant

variable {opened : List ScopeId}

/-! ## Bodies and modules -/

/-- The body of a method or of a script, with its parameters and their scope. -/
structure Body where
  name : String
  scope : ScopeId
  parameters : List VarId
  block : Block

def MethodDecl.asBody (decl : MethodDecl) : Body :=
  ⟨decl.name, decl.scope, decl.parameters, decl.body⟩

/-- A script as a body; it is called as its module. -/
def Script.asBody (script : Script) (name : String) : Body :=
  ⟨name, script.scope, script.parameters, script.body⟩

/-- The bodies of a module, in order. -/
def Module.routines (module : Module) : List Body :=
  match module.content.script? with
  | some script => [script.asBody module.name]
  | none =>
    module.content.contract?.toList.flatMap fun contract =>
      contract.methods.map MethodDecl.asBody

/-- A body fits into the scopes of its module. -/
structure Body.Sited (tree : ScopeTree) (root : ScopeId) (body : Body) : Prop where
  parent : (tree.scope body.scope).parent = some root
  parameters : (tree.scope body.scope).variableIds = body.parameters
  resolved : body.block.flow.Resolved tree [body.scope, root]
  numbered : ∀ label ∈ body.block.flow.labels, 0 < label.owner
  distinct : body.block.flow.labels.Nodup

/-- A module fits into the scopes of its program. -/
structure Module.Sited (tree : ScopeTree) (module : Module) : Prop where
  present : module.scope < tree.scopes.length
  outermost : (tree.scope module.scope).parent = none
  bodies : ∀ body ∈ module.routines, body.Sited tree module.scope
  script : module.content.script?.isSome → (tree.scope module.scope).variableIds = []

/-- A variable as a parameter. -/
def Vocabulary.parameter? (known : Vocabulary) (id : VarId) : Option Parameter :=
  known.declarations[id]?.map fun declaration => ⟨declaration.name, declaration.ty⟩

/-- The signature of a method belongs to its parameters, and its body is well typed. -/
structure MethodDecl.WellTyped (known : Vocabulary) (decl : MethodDecl) : Prop where
  own : decl.method.IsOwn
  entry : decl.method.aliasName = "@entry_" ++ decl.name
  signed : decl.parameters.map known.parameter? = decl.method.parameters.map some
  body : decl.body.WellTyped known decl.method.returns

/-- What the bodies of a module can refer to. -/
def Module.vocabulary (declared : Declared) (declarations : List Variable) (module : Module) :
    Vocabulary :=
  { declarations
    declared
    own := module.content.contract?.elim [] fun contract =>
      contract.methods.map MethodDecl.method
    events := module.content.contract?.elim [] Contract.events }

/-- The bodies of a module are well typed, and its methods have different names. -/
structure Module.WellTyped (declared : Declared) (declarations : List Variable)
    (module : Module) : Prop where
  methods : ∀ contract ∈ module.content.contract?, ∀ decl ∈ contract.methods,
    decl.WellTyped (module.vocabulary declared declarations)
  distinct : ∀ contract ∈ module.content.contract?,
    (contract.methods.map MethodDecl.name).Nodup
  script : ∀ script ∈ module.content.script?,
    script.body.WellTyped (module.vocabulary declared declarations) script.returns

/-- A parameter stays what it is. -/
theorem Vocabulary.Grows.signed {before after : Vocabulary} (grows : before.Grows after)
    {ids : List VarId} {parameters : List Parameter}
    (signed : ids.map before.parameter? = parameters.map some) :
    ids.map after.parameter? = parameters.map some := by
  rw [← signed]
  refine List.map_congr_left fun id member => ?_
  have found : before.parameter? id ∈ parameters.map some := by
    rw [← signed]
    exact List.mem_map_of_mem member
  rcases List.mem_map.mp found with ⟨parameter, -, known⟩
  rcases Option.map_eq_some_iff.mp known.symm with ⟨declaration, listed, rfl⟩
  rw [← known, Vocabulary.parameter?, grows.declaration? listed]
  rfl

theorem MethodDecl.WellTyped.grow {before after : Vocabulary} {decl : MethodDecl}
    (typed : decl.WellTyped before) (grows : before.Grows after) :
    decl.WellTyped after :=
  ⟨typed.own, typed.entry, grows.signed typed.signed, grows.wellTyped typed.body⟩

theorem Module.WellTyped.grow {declared later : Declared} {declarations others : List Variable}
    {module : Module} (typed : module.WellTyped declared declarations)
    (structs : declared.structs <+: later.structs) (continued : declarations <+: others) :
    module.WellTyped later others := by
  have grows : (module.vocabulary declared declarations).Grows (module.vocabulary later others) :=
    ⟨continued, structs, List.prefix_rfl, List.prefix_rfl⟩
  refine ⟨?_, typed.distinct, ?_⟩
  · intro contract held decl member
    exact (typed.methods contract held decl member).grow grows
  · intro script held
    exact grows.wellTyped (typed.script script held)

/-- The bodies of a module are complete. -/
structure Module.Composed (module : Module) : Prop where
  methods : ∀ contract ∈ module.content.contract?, ∀ decl ∈ contract.methods,
    decl.method.returns ≠ .none → decl.body.alwaysReturns = true
  script : ∀ script ∈ module.content.script?,
    script.returns ≠ .none → script.body.alwaysReturns = true

/-- The names of the NFTs inside a module. -/
def TopModule.nftNames (top : TopModule) : List String :=
  top.nfts.map Module.name

/-- The later module has a name of its own, and its NFTs do not have that of the earlier one. -/
def TopModule.NamedAfter (earlier later : TopModule) : Prop :=
  earlier.name ≠ later.name ∧ earlier.name ∉ later.nftNames

namespace Library

/-- A method whose name is new is put behind the others. -/
theorem insertInto_of_new {method : Method} {methods : List Method}
    (new : ∀ other ∈ methods, other.name ≠ method.name) :
    insertInto method methods = methods ++ [method] := by
  induction methods with
  | nil => rfl
  | cons first rest ih =>
    have others := ih fun other member => new other (List.mem_cons_of_mem _ member)
    rw [insertInto, if_neg (new first List.mem_cons_self), others]
    rfl

end Library

/-- The nodes of all bodies of a module. -/
def Module.nodes (module : Module) : List Node :=
  module.routines.flatMap fun body => body.block.nodes

/-- The calls of all bodies have their arguments, and an NFT has the number of its token. -/
structure Module.Complete (tree : ScopeTree) (module : Module) : Prop where
  identified : module.content.nftTypes?.isSome = true → tree.Identifies module.scope
  supplied : ∀ body ∈ module.routines, body.block.Supplied
  excused : ∀ body ∈ module.routines, ∀ expr, .expression expr ∈ body.block.nodes →
    expr.isExcused = true

/-- What the code and the interface of a module can be blamed on stands on lines of the source. -/
structure Module.Lined (ground : Reading.Ground) (module : Module) : Prop where
  nodes : ∀ body ∈ module.routines, ∀ node ∈ body.block.nodes, Reading.Shown ground node.line
  methods : ∀ contract ∈ module.content.contract?, ∀ decl ∈ contract.methods,
    Reading.Shown ground decl.line
  events : ∀ contract ∈ module.content.contract?, ∀ event ∈ contract.events,
    Reading.Shown ground event.line
  script : ∀ script ∈ module.content.script?, Reading.Shown ground script.mark.line

/-- What holds of a module that has been read, in the scopes of its program. -/
structure Module.Finished (ground : Reading.Ground) (declared : Declared) (tree : ScopeTree)
    (module : Module) : Prop where
  sited : module.Sited tree
  typed : module.WellTyped declared tree.declarations
  composed : module.Composed
  complete : module.Complete tree
  lined : module.Lined ground

namespace Reading

variable {ground : Ground} {outside : Outside}

/-- The property holds of every tree in which only outermost scopes grow. -/
def Promised (now : ScopeTree) (property : ScopeTree → Prop) : Prop :=
  ∀ opened tree, (∀ scope ∈ opened, (now.scope scope).parent = none) →
    now.Extends opened tree → tree.WellFormed → property tree

theorem Promised.onward {now later : ScopeTree} {property : ScopeTree → Prop}
    (promised : Promised now property)
    (outermost : ∀ scope ∈ opened, (now.scope scope).parent = none)
    (extended : now.Extends opened later) : Promised later property := by
  intro inner tree innermost further formed
  refine promised (opened ++ inner) tree ?_ ?_ formed
  · intro scope member
    rcases List.mem_append.mp member with first | second
    · exact outermost scope first
    · by_cases present : scope < now.scopes.length
      · rw [← extended.parent scope present]
        exact innermost scope second
      · rw [ScopeTree.scope_of_length_le (Nat.le_of_not_lt present)]
        rfl
  · refine (extended.widen ?_).trans further ?_
    · exact fun scope member => Or.inl (List.mem_append_left _ member)
    · exact fun scope member => Or.inl (List.mem_append_right _ member)

/-! ## Bodies -/

/-- A body has been read, from the place before its scope to the place behind it. -/
structure Bodied (ground : Ground) (context : Context) (root : ScopeId) (body : Body)
    (before after : Place) : Prop where
  extended : before.scopes.Extends [] after.scopes
  le : before.nodes ≤ after.nodes
  sited : Promised after.scopes fun tree => body.Sited tree root
  complete : context.returns ≠ .none → body.block.alwaysReturns = true
  made : ∀ node ∈ body.block.nodes,
    node.Made ground (context.vocabulary after.scopes) context.returns
  uses : Numbered body.block.nodes before.nodes after.nodes

/-- The scope of a body has been opened and its parameters declared. -/
structure Headed (root scope : ScopeId) (parameters : List VarId) (before now : Place) :
    Prop where
  extended : before.scopes.Extends [] now.scopes
  le : before.nodes ≤ now.nodes
  present : root < now.scopes.scopes.length
  outermost : (now.scopes.scope root).parent = none
  parented : (now.scopes.scope scope).parent = some root
  declared : (now.scopes.scope scope).variableIds = parameters

namespace Headed

variable {root scope : ScopeId} {ids : List VarId} {before now later : Place}

theorem initial (present : root < before.scopes.scopes.length)
    (outermost : (before.scopes.scope root).parent = none)
    (enters : Enters root scope before now) : Headed root scope [] before now :=
  ⟨enters.extended, Nat.le_of_eq enters.nodes.symm,
    Nat.lt_of_lt_of_le present enters.extended.count,
    (enters.extended.parent root present).trans outermost, enters.parented, enters.empty⟩

theorem onward (headed : Headed root scope ids before now)
    (extended : now.scopes.Extends opened later.scopes)
    (among : ∀ other ∈ opened, before.scopes.scopes.length ≤ other)
    (le : now.nodes ≤ later.nodes) {more : List VarId}
    (declared : (later.scopes.scope scope).variableIds = more) :
    Headed root scope more before later where
  extended := headed.extended.trans extended fun other member => .inr (among other member)
  le := Nat.le_trans headed.le le
  present := Nat.lt_of_lt_of_le headed.present extended.count
  outermost := (extended.parent root headed.present).trans headed.outermost
  parented := (extended.parent scope (ScopeTree.lt_of_parent headed.parented)).trans
    headed.parented
  declared := declared

/-- What stands before a body can be read on its own. -/
theorem here (headed : Headed root scope ids before now) : Headed root scope ids now now :=
  { headed with extended := .refl _ _, le := Nat.le_refl _ }

/-- With its block read, a body fits into the scopes. -/
theorem bodied {context : Context} {block : Block} (headed : Headed root scope ids before now)
    (settled : Settled ground context scope [block.flow] block.nodes now later)
    (closed : now.scopes.Extends [] later.scopes)
    (complete : context.returns ≠ .none → block.alwaysReturns = true) (name : String) :
    Bodied ground context root ⟨name, scope, ids, block⟩ before later := by
  have present := ScopeTree.lt_of_parent headed.parented
  have sited : Promised later.scopes fun tree =>
      Body.Sited tree root ⟨name, scope, ids, block⟩ := by
    intro opened tree outermosts further formed
    have presentLater := Nat.lt_of_lt_of_le present closed.count
    have parentAfter := (closed.parent scope present).trans headed.parented
    have parentLater := (further.parent scope presentLater).trans parentAfter
    have notOpened : scope ∉ opened := by
      intro member
      rw [outermosts scope member] at parentAfter
      cases parentAfter
    have rootLater : (tree.scope root).parent = none := by
      rw [further.parent root (Nat.lt_of_lt_of_le headed.present closed.count),
        closed.parent root headed.present, headed.outermost]
    have whole := settled.resolved opened tree further formed block.flow (by simp)
    rw [formed.parents.chain_of_parent parentLater, ScopeTree.chain_of_root rootLater] at whole
    refine ⟨parentLater, ?_, whole, fun label member => ?_, by simpa using settled.distinct⟩
    · rw [(further.closed scope presentLater notOpened).2,
        (closed.closed scope present (by simp)).2]
      exact headed.declared
    · have owner := settled.owners label (by simpa using member)
      omega
  refine ⟨headed.extended.trans closed (by simp), Nat.le_trans headed.le settled.le, sited,
    complete, settled.made, fun id => ?_⟩
  · have few := settled.uses id
    rw [← fresh_add headed.le settled.le]
    simp only
    omega

end Headed

/-! ## Drafts -/

/-- The bodies of a draft, with the types of their results. -/
def Draft.bodies (draft : Draft) : List (Ty × Body) :=
  draft.methods.map (fun decl => (decl.method.returns, decl.asBody)) ++
    draft.script.toList.map fun script => (script.returns, script.asBody draft.name)

/-- The nodes of a draft and of the NFTs inside it. -/
def Draft.nodes (draft : Draft) : List Node :=
  draft.bodies.flatMap (fun pair => pair.2.block.nodes) ++ draft.nfts.flatMap Module.nodes

/-- What the bodies of a draft can refer to when it is finished as it is. -/
def Draft.vocabulary (outside : Outside) (draft : Draft) (tree : ScopeTree) : Vocabulary :=
  { declarations := tree.declarations
    declared := outside.declared
    own := draft.methods.map MethodDecl.method
    events := draft.events }

/-- A body of a draft stays as it is, whatever is declared behind it. -/
structure Lasting (ground : Ground) (known : Vocabulary) (now : ScopeTree) (root : ScopeId)
    (returns : Ty) (body : Body) : Prop where
  sited : Promised now fun tree => body.Sited tree root
  complete : returns ≠ .none → body.block.alwaysReturns = true
  made : ∀ node ∈ body.block.nodes, node.Made ground known returns

theorem Lasting.onward {known more : Vocabulary} {now later : ScopeTree} {root : ScopeId}
    {returns : Ty} {body : Body} (lasting : Lasting ground known now root returns body)
    (outermost : ∀ scope ∈ opened, (now.scope scope).parent = none)
    (extended : now.Extends opened later) (grows : known.Grows more) :
    Lasting ground more later root returns body where
  sited := lasting.sited.onward outermost extended
  complete := lasting.complete
  made node member := node_made_grows grows (lasting.made node member)

/-- A method with a new name has been made known, and its body can be read. -/
structure Callable (outside : Outside) (draft : Draft) (method : Method) (ids : List VarId)
    (now : Place) : Prop where
  own : method.IsOwn
  entry : method.aliasName = "@entry_" ++ method.name
  sufficient : method.Sufficient
  signed : ids.map (draft.vocabulary outside now.scopes).parameter? = method.parameters.map some
  fresh : ∀ other ∈ draft.methods, other.name ≠ method.name
  known : method.name ∈ (now.scopes.scope draft.scope).methods

/-- A module that began with an empty draft has been read up to some place. -/
structure Drafted (ground : Ground) (outside : Outside) (first : Draft) (start : Place)
    (draft : Draft) (now : Place) : Prop where
  name : draft.name = first.name
  kind : draft.kind = first.kind
  scope : draft.scope = first.scope
  extended : start.scopes.Extends [draft.scope] now.scopes
  present : draft.scope < now.scopes.scopes.length
  outermost : (now.scopes.scope draft.scope).parent = none
  le : start.nodes ≤ now.nodes
  shown : Shown ground draft.line
  libraries : ∀ library ∈ draft.libraries, library.Foreign
  own : draft.own.Sufficient
  callable : draft.own.methods = draft.methods.map MethodDecl.method
  recorded : ∀ decl ∈ draft.methods, decl.name ∈ (now.scopes.scope draft.scope).methods
  distinct : (draft.methods.map MethodDecl.name).Nodup
  bare : draft.kind.isScript → draft.methods = [] ∧ draft.events = [] ∧
    (now.scopes.scope draft.scope).variableIds = []
  methods : ∀ decl ∈ draft.methods, decl.WellTyped (draft.vocabulary outside now.scopes)
  methodLines : ∀ decl ∈ draft.methods, Shown ground decl.line
  eventLines : ∀ event ∈ draft.events, Shown ground event.line
  scriptLine : ∀ script ∈ draft.script, Shown ground script.mark.line
  bodies : ∀ pair ∈ draft.bodies,
    Lasting ground (draft.vocabulary outside now.scopes) now.scopes draft.scope pair.1 pair.2
  alone : draft.kind.isScript = false → draft.script = none
  described : ∀ script ∈ draft.script, draft.kind = .description → 2 ≤ script.parameters.length
  identified : draft.kind = .nft → now.scopes.Identifies draft.scope
  nftTypes : draft.kind = .nft → draft.nft.isSome = true
  uses : Numbered draft.nodes start.nodes now.nodes
  usable : draft.moduleNames = first.moduleNames ++ draft.nfts.map Module.name
  apart : draft.moduleNames.Nodup
  childless : draft.kind = .nft → draft.nfts = []
  nfts : ∀ nft ∈ draft.nfts, Promised now.scopes (nft.Finished ground outside.declared)

namespace Drafted

variable {first draft : Draft} {start now later : Place}

theorem furnished (drafted : Drafted ground outside first start draft now) (returns : Ty) :
    (draft.context outside returns).Furnished :=
  ⟨drafted.libraries, drafted.own⟩

/-- Reading goes on; in the outermost scope of a script nothing is declared. -/
theorem onward (drafted : Drafted ground outside first start draft now)
    (extended : now.scopes.Extends [draft.scope] later.scopes) (le : now.nodes ≤ later.nodes)
    (bare : draft.kind.isScript → (later.scopes.scope draft.scope).variableIds =
      (now.scopes.scope draft.scope).variableIds) :
    Drafted ground outside first start draft later := by
  have top : ∀ scope ∈ [draft.scope], (now.scopes.scope scope).parent = none := by
    simpa using drafted.outermost
  have grows : (draft.vocabulary outside now.scopes).Grows
      (draft.vocabulary outside later.scopes) :=
    ⟨extended.declarations, List.prefix_rfl, List.prefix_rfl, List.prefix_rfl⟩
  exact { drafted with
    extended := drafted.extended.trans extended fun _ member => .inl member
    present := Nat.lt_of_lt_of_le drafted.present extended.count
    outermost := (extended.parent _ drafted.present).trans drafted.outermost
    le := Nat.le_trans drafted.le le
    recorded := fun decl member =>
      (extended.scope _ drafted.present).methods.subset (drafted.recorded decl member)
    bare := fun isScript => by
      rw [bare isScript]
      exact drafted.bare isScript
    methods := fun decl member => (drafted.methods decl member).grow grows
    bodies := fun pair member => (drafted.bodies pair member).onward top extended grows
    identified := fun isNft => extended.toGrows.identifies (drafted.identified isNft)
    uses := drafted.uses.onward drafted.le le
    nfts := fun nft member => (drafted.nfts nft member).onward top extended }

/-- Nothing is declared in the outermost scope itself. -/
theorem aside (drafted : Drafted ground outside first start draft now)
    (extended : now.scopes.Extends [] later.scopes) (le : now.nodes ≤ later.nodes) :
    Drafted ground outside first start draft later :=
  drafted.onward (extended.widen (by simp)) le fun _ =>
    (extended.closed _ drafted.present (by simp)).2

/-- A module begins with an empty draft. -/
theorem initial {root : ScopeId} (present : root < now.scopes.scopes.length)
    (outermost : (now.scopes.scope root).parent = none) {kind : Module.Kind}
    (empty : kind.isScript → (now.scopes.scope root).variableIds = [])
    (identified : kind = .nft → now.scopes.Identifies root) {line : Nat}
    (shown : Shown ground line) {names : List String} (apart : names.Nodup) (outside : Outside)
    (name : String) {nft : Option NftTypes} (nftTypes : kind = .nft → nft.isSome = true) :
    Drafted ground outside (Draft.start outside name kind root line nft names) now
      (Draft.start outside name kind root line nft names) now where
  name := rfl
  kind := rfl
  scope := rfl
  extended := .refl _ _
  present := present
  outermost := outermost
  le := Nat.le_refl _
  shown := shown
  libraries := by simpa [Draft.start] using Library.ofStructs_foreign outside.declared
  own := by simp [Draft.start, Library.Sufficient]
  callable := rfl
  recorded := by simp [Draft.start]
  distinct := by simp [Draft.start]
  bare isScript := ⟨rfl, rfl, empty isScript⟩
  methods := by simp [Draft.start]
  methodLines := by simp [Draft.start]
  eventLines := by simp [Draft.start]
  scriptLine := by simp [Draft.start]
  bodies := by simp [Draft.start, Draft.bodies]
  alone _ := rfl
  described := by simp [Draft.start]
  identified := identified
  nftTypes := nftTypes
  uses := by simp [Draft.start, Draft.nodes, Draft.bodies, Numbered, Node.count]
  usable := by simp [Draft.start]
  apart := apart
  childless _ := rfl
  nfts := by simp [Draft.start]

/-- A body is put among the others. -/
theorem addBody {context : Context} {next : Draft} {pair : Ty × Body}
    (drafted : Drafted ground outside first start draft now)
    (bodied : Bodied ground context draft.scope pair.2 now later)
    (order : next.bodies.Perm (pair :: draft.bodies)) (nfts : next.nfts = draft.nfts) :
    Numbered next.nodes start.nodes later.nodes := by
  have nodes := order.flatMap_right fun pair : Ty × Body => pair.2.block.nodes
  rw [List.flatMap_cons] at nodes
  refine (drafted.uses.append bodied.uses drafted.le bodied.le).perm ?_
  unfold Draft.nodes
  rw [nfts]
  refine List.perm_append_comm.trans ?_
  rw [← List.append_assoc]
  exact nodes.symm.append_right _

/-- A method that has been read with its body joins the draft. -/
theorem addMethod (drafted : Drafted ground outside first start draft now)
    (decl : MethodDecl) (isContract : draft.kind.isContract = true) (shown : Shown ground decl.line)
    (callable : Callable outside draft decl.method decl.parameters now)
    (bodied : Bodied ground ((draft.addSignature decl.method).context outside decl.method.returns)
      draft.scope decl.asBody now later) :
    Drafted ground outside first start ((draft.addSignature decl.method).addMethod decl)
      later := by
  have kept := drafted.aside bodied.extended bodied.le
  have known := (bodied.extended.scope _ drafted.present).methods.subset callable.known
  have inserted : (draft.own.insert decl.method).methods =
      (draft.methods ++ [decl]).map MethodDecl.method := by
    rw [Library.insert, List.map_append, drafted.callable]
    refine Library.insertInto_of_new fun other member => ?_
    rcases List.mem_map.mp member with ⟨earlier, listed, rfl⟩
    exact callable.fresh earlier listed
  have vocabulary : ((draft.addSignature decl.method).addMethod decl).vocabulary outside
      later.scopes = ((draft.addSignature decl.method).context outside
        decl.method.returns).vocabulary later.scopes := by
    simp only [Draft.vocabulary, Context.vocabulary, Draft.context, Draft.addSignature,
      Draft.addMethod, inserted]
  have grows {before : ScopeTree} (continued : before.declarations <+: later.scopes.declarations) :
      (draft.vocabulary outside before).Grows
        (((draft.addSignature decl.method).addMethod decl).vocabulary outside later.scopes) := by
    refine ⟨continued, List.prefix_rfl, ?_, List.prefix_rfl⟩
    exact (List.prefix_append draft.methods [decl]).map MethodDecl.method
  have order : ((draft.addSignature decl.method).addMethod decl).bodies.Perm
      ((decl.method.returns, decl.asBody) :: draft.bodies) := by
    simp [Draft.bodies, Draft.addMethod, Draft.addSignature, List.perm_middle]
  have made := bodied.made
  rw [← vocabulary] at made
  exact { kept with
    own := kept.own.insert callable.sufficient
    callable := inserted
    recorded := List.forall_mem_append.mpr
      ⟨kept.recorded, List.forall_mem_singleton.mpr known⟩
    distinct := by
      refine (List.map_append ..).symm ▸ List.nodup_append.mpr ⟨drafted.distinct, by simp, ?_⟩
      rintro name member other alone rfl
      rcases List.mem_map.mp member with ⟨earlier, listed, same⟩
      rw [List.map_singleton, List.mem_singleton] at alone
      exact callable.fresh earlier listed (same.trans alone)
    bare := fun isScript => by
      have isScript : draft.kind.isScript = true := isScript
      simp [Module.Kind.isContract, isScript] at isContract
    methods := by
      refine List.forall_mem_append.mpr ⟨fun other member => ?_, fun other member => ?_⟩
      · exact (kept.methods other member).grow (grows List.prefix_rfl)
      · rw [List.mem_singleton.mp member]
        exact ⟨callable.own, callable.entry,
          (grows bodied.extended.declarations).signed callable.signed,
          fun node listed => (made node listed).fits⟩
    methodLines := List.forall_mem_append.mpr
      ⟨kept.methodLines, List.forall_mem_singleton.mpr shown⟩
    bodies := fun pair member => by
      rcases List.mem_cons.mp (order.mem_iff.mp member) with rfl | old
      · exact ⟨bodied.sited, bodied.complete, made⟩
      · exact (kept.bodies pair old).onward (by simp) (.refl [] _) (grows List.prefix_rfl)
    uses := drafted.addBody bodied order rfl }

/-- The single body of a script joins the draft. -/
theorem addScript (drafted : Drafted ground outside first start draft now)
    (script : Script) (isScript : draft.kind.isScript = true)
    (shown : Shown ground script.mark.line)
    (single : draft.script = none)
    (described : draft.kind = .description → 2 ≤ script.parameters.length)
    (bodied : Bodied ground (draft.context outside script.returns) draft.scope
      (script.asBody draft.name) now later) :
    Drafted ground outside first start { draft with script := some script } later := by
  have kept := drafted.aside bodied.extended bodied.le
  have order : Draft.bodies { draft with script := some script } |>.Perm
      ((script.returns, script.asBody draft.name) :: draft.bodies) := by
    simp [Draft.bodies, single]
  have made := bodied.made
  have vocabulary : (draft.context outside script.returns).vocabulary later.scopes =
      draft.vocabulary outside later.scopes := by
    simp only [Context.vocabulary, Draft.context, Draft.vocabulary, drafted.callable]
  rw [vocabulary] at made
  exact { kept with
    alone := fun other => absurd isScript (by simp [other])
    scriptLine := fun other found => by
      cases found
      exact shown
    bodies := fun pair member => by
      rcases List.mem_cons.mp (order.mem_iff.mp member) with rfl | old
      · exact ⟨bodied.sited, bodied.complete, made⟩
      · exact kept.bodies pair old
    described := fun other found => by
      cases found
      exact described
    uses := drafted.addBody bodied order rfl }

end Drafted

/-! ## Finished modules -/

/-- The single body of a description takes the two parameters that events are shown with. -/
def describes (content : Module.Content) : Prop :=
  ∀ script, content = .description script → 2 ≤ script.parameters.length

variable {first draft : Draft} {start now : Place} {module : Module}

/-- A module with methods holds those of the draft, any other the script of the draft. -/
theorem content_ok {content : Module.Content} (held : draft.content = .ok content) :
    content.kind = draft.kind ∧
      (draft.kind.isScript = false ∧ content.script? = none ∧
          content.contract? = some draft.contract ∨
        draft.kind.isScript ∧ content.contract? = none ∧
          ∃ script ∈ draft.script, content.script? = some script) := by
  have scripted {wrap : Script → Module.Content}
      (made : (do return wrap (← draft.body) : Except Error Module.Content) = .ok content) :
      ∃ script ∈ draft.script, content = wrap script := by
    unfold Draft.body at made
    split at made
    · rename_i script found
      cases made
      exact ⟨script, found, rfl⟩
    · cases made
  unfold Draft.content at held
  cases kind : draft.kind <;> simp only [kind] at held
  case script | description =>
    rcases scripted held with ⟨script, found, rfl⟩
    exact ⟨rfl, .inr ⟨rfl, rfl, script, found, rfl⟩⟩
  case nft =>
    split at held <;> cases held
    exact ⟨rfl, .inl ⟨rfl, rfl, rfl⟩⟩
  all_goals
    cases held
    exact ⟨rfl, .inl ⟨rfl, rfl, rfl⟩⟩

theorem finish_content (finished : draft.finish = .ok module) :
    ∃ content, draft.content = .ok content ∧ module =
      ⟨draft.name, draft.scope, draft.libraries.map Library.name, draft.line, content⟩ := by
  unfold Draft.finish at finished
  cases held : draft.content with
  | error error =>
    rw [held] at finished
    cases finished
  | ok content =>
    rw [held] at finished
    cases finished
    exact ⟨content, rfl, rfl⟩

theorem Drafted.routines (drafted : Drafted ground outside first start draft now)
    (finished : draft.finish = .ok module) :
    module.routines = draft.bodies.map Prod.snd := by
  rcases finish_content finished with ⟨content, held, rfl⟩
  rcases (content_ok held).2 with
    ⟨isScript, noScript, contract⟩ | ⟨isScript, -, script, found, holds⟩
  · simp [Module.routines, noScript, contract, Draft.contract, Draft.bodies,
      drafted.alone isScript]
  · simp [Module.routines, holds, Draft.bodies, Option.mem_def.mp found, (drafted.bare isScript).1]

/-- A description that is finished can show events. -/
theorem Drafted.describes (drafted : Drafted ground outside first start draft now)
    (finished : draft.finish = .ok module) : describes module.content := by
  rcases finish_content finished with ⟨content, held, rfl⟩
  rintro script rfl
  rcases content_ok held with ⟨kind, ⟨-, noScript, -⟩ | ⟨-, -, other, listed, holds⟩⟩
  · cases noScript
  · cases holds
    exact drafted.described script listed kind.symm

/-- A draft that is finished is a module with all that has been read. -/
theorem Drafted.finish (drafted : Drafted ground outside first start draft now)
    (finished : draft.finish = .ok module) {tree : ScopeTree}
    (closed : draft.kind.isScript → draft.scope ∉ opened)
    (outermost : ∀ scope ∈ opened, (now.scopes.scope scope).parent = none)
    (extended : now.scopes.Extends opened tree) (formed : tree.WellFormed) :
    module.Finished ground outside.declared tree := by
  have routines := drafted.routines finished
  have lasting : ∀ body ∈ module.routines, ∃ returns,
      Lasting ground (draft.vocabulary outside now.scopes) now.scopes draft.scope returns body := by
    rw [routines, List.forall_mem_map]
    exact fun pair member => ⟨pair.1, drafted.bodies pair member⟩
  have grows : (draft.vocabulary outside now.scopes).Grows (draft.vocabulary outside tree) :=
    ⟨extended.declarations, List.prefix_rfl, List.prefix_rfl, List.prefix_rfl⟩
  have complete : ∀ body ∈ module.routines, ∀ expr, .expression expr ∈ body.block.nodes →
      (expr.hasArguments && expr.isExcused) = true := by
    intro body member expr listed
    rcases lasting body member with ⟨returns, holds⟩
    exact (holds.made _ listed : Expr.Made ground _ expr).complete
  rcases finish_content finished with ⟨content, held, rfl⟩
  rcases content_ok held with ⟨kind, cases⟩
  have vocabulary : Module.vocabulary outside.declared tree.declarations
      ⟨draft.name, draft.scope, draft.libraries.map Library.name, draft.line, content⟩ =
      draft.vocabulary outside tree := by
    rcases cases with ⟨-, -, contract⟩ | ⟨isScript, noContract, -⟩
    · simp [Module.vocabulary, Draft.vocabulary, contract, Draft.contract]
    · simp [Module.vocabulary, Draft.vocabulary, noContract, drafted.bare isScript]
  have methods : ∀ contract ∈ content.contract?, contract = draft.contract := by
    intro contract found
    rcases cases with ⟨-, -, holds⟩ | ⟨-, noContract, -⟩
    · exact Option.some.inj (found.symm.trans holds)
    · cases found.symm.trans noContract
  have scripts : ∀ script ∈ content.script?, draft.kind.isScript ∧
      (script.returns, script.asBody draft.name) ∈ draft.bodies := by
    intro script found
    rcases cases with ⟨-, noScript, -⟩ | ⟨isScript, -, other, listed, holds⟩
    · cases found.symm.trans noScript
    · cases found.symm.trans holds
      exact ⟨isScript, List.mem_append_right _ (List.mem_map_of_mem (Option.mem_toList.mpr listed))⟩
  refine ⟨⟨Nat.lt_of_lt_of_le drafted.present extended.count, ?_, ?_, ?_⟩, ⟨?_, ?_, ?_⟩,
    ⟨?_, ?_⟩, ⟨?_,
    fun body member expr listed => (Bool.and_eq_true_iff.mp (complete body member expr listed)).1,
    fun body member expr listed => (Bool.and_eq_true_iff.mp (complete body member expr listed)).2⟩,
    fun body member node listed => ?_, fun contract found decl member => ?_,
    fun contract found event member => ?_, fun script found => ?_⟩
  · exact (extended.parent _ drafted.present).trans drafted.outermost
  · intro body member
    rcases lasting body member with ⟨returns, holds⟩
    exact holds.sited opened tree outermost extended formed
  · intro found
    rcases Option.isSome_iff_exists.mp found with ⟨script, given⟩
    have isScript := (scripts script given).1
    rw [(extended.closed _ drafted.present (closed isScript)).2]
    exact (drafted.bare isScript).2.2
  · intro contract found decl member
    rw [methods contract found] at member
    rw [vocabulary]
    exact (drafted.methods decl member).grow grows
  · intro contract found
    rw [methods contract found]
    exact drafted.distinct
  · intro script found node member
    rw [vocabulary]
    have made := (drafted.bodies _ (scripts script found).2).made node member
    exact (node_made_grows grows made).fits
  · intro contract found decl member
    rw [methods contract found] at member
    exact (drafted.bodies _ (List.mem_append_left _ (List.mem_map_of_mem member))).complete
  · intro script found
    exact (drafted.bodies _ (scripts script found).2).complete
  · intro found
    refine extended.toGrows.identifies (drafted.identified (kind.symm.trans ?_))
    cases content <;> first | rfl | cases found
  · rcases lasting body member with ⟨returns, holds⟩
    exact (holds.made node listed).shown
  · rw [methods contract found] at member
    exact drafted.methodLines decl member
  · rw [methods contract found] at member
    exact drafted.eventLines event member
  · rcases cases with ⟨-, noScript, -⟩ | ⟨-, -, other, listed, holds⟩
    · cases found.symm.trans noScript
    · cases found.symm.trans holds
      exact drafted.scriptLine script listed

end Reading

end Covenant
