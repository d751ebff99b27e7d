import Covenant.Proofs.Drafts

/-!
# Reading declarations

Every declaration of a module is read fairly, and what has been read of the
module is as it should be behind it as well.
-/

namespace Covenant.Reading

variable {ground : Ground} {outside : Outside} {first draft : Draft} {start place : Place}
  {bound line : Nat} {name : String} {error : Error} {ids : List VarId} {scope : ScopeId}
  {tree : ScopeTree} {role : Role}

/-! ## Methods -/

theorem signature_sufficient (name : String) (role : Role) (isPublic : Bool)
    (parameters : List Variable) (returns : Ty) :
    (signature name role isPublic parameters returns).Sufficient :=
  ⟨Nat.zero_le _, rfl, trivial⟩

/-- The signature of a method lists its parameters. -/
theorem signature_signed {known : Vocabulary}
    (continued : tree.declarations <+: known.declarations)
    (listed : ∀ id ∈ ids, id < tree.declarations.length) (name : String) (role : Role)
    (isPublic : Bool) (returns : Ty) :
    ids.map known.parameter? =
      (signature name role isPublic (ids.map tree.declaration) returns).parameters.map some := by
  simp only [signature, Method.make, List.map_map]
  refine List.map_congr_left fun id member => ?_
  have present := listed id member
  have found := List.prefix_iff_getElem?.mp continued id present
  simp [Vocabulary.parameter?, ScopeTree.declaration, found, List.getElem?_eq_getElem present]

theorem noResult_blames {declared : Option Ty} (shown : Shown ground line)
    (failed : noResult name declared line = .error error) : Blames ground error := by
  unfold noResult at failed
  split at failed <;> cases failed
  exact ⟨rfl, shown⟩

/-- The one signature that may be unknown is that of a trigger. -/
theorem checkSignature_blames {types : List Ty} {declared : Option Ty} (shown : Shown ground line)
    (known : role = .trigger → (Trigger.signature? name).isSome = true)
    (failed : checkSignature name role types declared line = .error error) :
    Blames ground error := by
  cases role with
  | method | property => cases failed
  | constructor =>
    simp only [checkSignature] at failed
    split at failed
    · exact noResult_blames shown failed
    · cases failed
      exact ⟨rfl, shown⟩
  | task =>
    simp only [checkSignature] at failed
    split at failed
    · split at failed
      · cases failed
      · split at failed <;> cases failed
        exact ⟨rfl, shown⟩
    · cases failed
      exact ⟨rfl, shown⟩
  | trigger =>
    rcases Option.isSome_iff_exists.mp (known rfl) with ⟨wanted, found⟩
    simp only [checkSignature, found] at failed
    split at failed
    · exact noResult_blames shown failed
    · cases failed
      exact ⟨rfl, shown⟩

theorem resultType_passes (declared : Declared) :
    Passes ground false (resultType declared) fun _ => True := by
  refine .of_reads fun _ _ => .pass (.eat _ _) fun found _ => ?_
  split
  · exact .take (writtenType_passes declared) fun _ _ => .pure ⟨rfl, trivial⟩
  · exact .pure ⟨rfl, trivial⟩

section Bodies

variable {root scope : ScopeId} {context : Context} {ids : List VarId} {before : Place}

/-- The parameters of a body are the variables of its scope. -/
theorem parameters_headed (declared : Declared) (new : before.scopes.scopes.length ≤ scope)
    (headed : Headed root scope [] before place) :
    Reads ground bound place true (parameters declared scope) fun ids =>
      Headed root scope ids before := by
  refine .take (.separator _) fun _ _ => .commaSeparated (fun ids later headed => ?_) headed
  refine .take .identifier fun name shown => .take (.separator _) fun _ _ => ?_
  refine .take (writtenType_passes declared) fun ty _ => ?_
  have proper : ∀ id, Variable.Proper
      { id, name := name.value, ty, storage := .argument, scope, line := name.line } :=
    fun _ => Variable.proper_of_plain rfl nofun
  have admitted : later.scopes.Admits scope .argument := by
    simp [ScopeTree.Admits, headed.parented, headed.outermost]
  refine (declare_reads shown (ScopeTree.lt_of_parent headed.parented) admitted proper).mono
    fun id last introduces => headed.onward introduces.extended (by simpa using new)
      (Nat.le_of_eq introduces.nodes.symm) ?_
  rw [introduces.listed, headed.declared]

/-- A body is read behind its parameters. -/
theorem body_reads (furnished : context.Furnished) (headed : Headed root scope ids before place)
    (shown : Shown ground line) (name written : String) :
    Reads ground bound place true (body context written scope line) fun block =>
      Bodied ground context root ⟨name, scope, ids, block⟩ before := by
  have around : ((place.scopes.scope scope).parent).isSome := by
    rw [headed.parented]
    rfl
  refine .spend (block_settles (statement_nests furnished) around) ?_
  intro block last ⟨settled, closed⟩
  split
  · exact .fail ⟨rfl, shown⟩
  · rename_i complete
    exact .pure (headed.bodied settled closed (by simpa using complete) name)

/-- The value of a property is the single statement of its body. -/
theorem propertyValue_reads (furnished : context.Furnished)
    (headed : Headed root scope ids before place) (shown : Shown ground line) (name : String) :
    Reads ground bound place true (propertyValue context scope line) fun block =>
      Bodied ground context root ⟨name, scope, ids, block⟩ before := by
  have around : ((place.scopes.scope scope).parent).isSome := by
    rw [headed.parented]
    rfl
  refine .keep (childScope_enters (ScopeTree.lt_of_parent headed.parented)) ?_
  intro inner entered enters
  refine .spend (expression_makes furnished inner) fun written read one => ?_
  refine .keep (coerce_makes context _ shown) fun value later fitted => ?_
  refine .take (.separator _) fun _ _ => ?_
  have gives : Reads ground bound later false
      (node line fun mark => Stmt.giveBack mark (some value))
      fun statement last => (∃ mark, statement = .giveBack mark (some value)) ∧
        Settles ground context inner entered statement last :=
    .both (.node ⟨_, rfl⟩)
      (gives_settles (one.trans fitted.2) (fun _ => fitted.1) shown)
  refine gives.keep fun statement last ⟨⟨mark, same⟩, settled⟩ => .pure ?_
  have nodes : statement.nodes.Perm (Stmt.allNodes [statement]) := by
    simp [Stmt.allNodes]
  have alone : Settled ground context inner [Stmt.allFlow [statement]] (Stmt.allNodes [statement])
      entered last :=
    (settled.perm (.refl _) nodes).regroup (labels_allFlow [statement])
      fun tree enclosing resolved => resolved_allFlow (by simpa using resolved)
  rcases enters.within around (Emission.lastLine [statement]) alone with ⟨inside, closed⟩
  refine headed.bodied inside closed (fun _ => ?_) name
  rw [same]
  rfl

end Bodies

/-- The scope of a method or a script is opened in that of its module. -/
theorem Drafted.enters (drafted : Drafted ground outside first start draft place) :
    Reads ground bound place false (childScope draft.scope) fun scope later =>
      place.scopes.scopes.length ≤ scope ∧ Headed draft.scope scope [] place later :=
  (childScope_enters drafted.present).mono fun _ _ enters =>
    ⟨Nat.le_of_eq enters.new, .initial drafted.present drafted.outermost enters⟩

theorem Reads.declarations {Outcome : Type} {eats : Bool} {next : List Variable → Reading Outcome}
    {goal : Outcome → Place → Prop}
    (second : Reads ground bound place eats (next (ids.map place.scopes.declaration)) goal) :
    Reads ground bound place eats (Reading.declarations ids >>= next) goal := by
  have looked : Reads ground bound place false (Reading.declarations ids) fun found later =>
      found = ids.map place.scopes.declaration ∧ later = place :=
    .scopes (.pure ⟨rfl, rfl⟩)
  refine looked.keep fun found later same => ?_
  rw [same.1, same.2]
  exact second

/-- A method gets a name that is new in its scope. -/
theorem recordMethod_records {after : ScopeTree} (present : scope < tree.scopes.length)
    (run : ScopeTree.recordMethod scope name line tree = .ok () after) :
    name ∉ (tree.scope scope).methods ∧ name ∈ (after.scope scope).methods := by
  rcases ScopeTree.recordMethod_cases run with ⟨new, rfl⟩
  rw [ScopeTree.scope_update, if_pos ⟨rfl, present⟩]
  exact ⟨new, by simp⟩

/-- A method that is recorded can be called. -/
theorem Drafted.records (drafted : Drafted ground outside first start draft place)
    (headed : Headed draft.scope scope ids place place) (shown : Shown ground line)
    (name : String) (role : Role) (isPublic : Bool) (returns : Ty) :
    Reads ground bound place false (recordMethod draft.scope name line) fun _ later =>
      Drafted ground outside first start draft later ∧
        Headed draft.scope scope ids later later ∧
        Callable outside draft
          (signature name role isPublic (ids.map place.scopes.declaration) returns) ids later := by
  refine .knowing fun recorded => .alter (.method draft.scope name line) (fun error tree run => ?_)
    (fun _ _ run => run) (.of_scope rfl drafted.present) trivial nofun fun _ tree run made => ?_
  · cases (ScopeTree.recordMethod_failed run).2
    exact ⟨rfl, shown⟩
  · rcases recordMethod_records drafted.present run with ⟨new, known⟩
    have extended : place.scopes.Extends [] tree := made.extends
    have present := ScopeTree.lt_of_parent headed.parented
    have later : Headed draft.scope scope ids place ⟨tree, place.nodes⟩ := by
      refine headed.onward extended (by simp) (by simp) ?_
      rw [← headed.declared, (extended.closed scope present (by simp)).2]
    refine ⟨drafted.aside extended (Nat.le_refl _), later.here, ⟨rfl, rfl⟩, rfl,
      signature_sufficient .., ?_, ?_, known⟩
    · refine signature_signed extended.declarations (fun id member => ?_) name role isPublic returns
      rw [← headed.declared] at member
      exact recorded.listed scope id member
    · rintro other member rfl
      exact new (drafted.recorded other member)

/-- With its body read, a method joins the draft. -/
theorem Drafted.addsMethod {method : Method} {body : Block} {last : Place}
    (drafted : Drafted ground outside first start draft place)
    (isContract : draft.kind.isContract = true) (shown : Shown ground line)
    (callable : Callable outside draft method ids place)
    (bodied : Bodied ground ((draft.addSignature method).context outside method.returns) draft.scope
      ⟨method.name, scope, ids, body⟩ place last) :
    Reads ground bound last false (node line fun mark =>
      (draft.addSignature method).addMethod { method, scope, parameters := ids, body, mark })
      fun next => Drafted ground outside first start next := by
  refine .node ?_
  have added := drafted.addMethod ⟨method, scope, ids, body, ⟨last.nodes + 1, line⟩⟩
    isContract shown callable bodied
  exact added.aside (.refl _ _) (Nat.le_succ _)

theorem Callable.furnished {method : Method} (callable : Callable outside draft method ids place)
    (drafted : Drafted ground outside first start draft place) (returns : Ty) :
    ((draft.addSignature method).context outside returns).Furnished :=
  ⟨drafted.libraries, drafted.own.insert callable.sufficient⟩

theorem method_drafts (drafted : Drafted ground outside first start draft place)
    (isContract : draft.kind.isContract = true) (shown : Shown ground line) (name : String)
    (isPublic : Bool) (known : role = .trigger → (Trigger.signature? name).isSome = true) :
    Reads ground bound place true (method outside draft name role isPublic line)
      (Drafted ground outside first start) := by
  refine .keep drafted.enters fun scope entered ⟨new, headed⟩ => ?_
  refine .spend (parameters_headed _ new headed) fun ids opened headed => ?_
  have drafted := drafted.aside headed.extended headed.le
  refine .pass (resultType_passes _) fun declared _ => .declarations ?_
  refine .pass (.result fun _ => checkSignature_blames shown known) fun returns _ => ?_
  refine .keep (drafted.records headed.here shown name role isPublic returns) ?_
  intro _ later ⟨drafted, headed, callable⟩
  refine .spend (body_reads (callable.furnished drafted _) headed shown name _)
    fun block last bodied => ?_
  exact drafted.addsMethod isContract shown callable bodied

theorem property_drafts (drafted : Drafted ground outside first start draft place)
    (isContract : draft.kind.isContract = true) (shown : Shown ground line) :
    Reads ground bound place true (property outside draft line)
      (Drafted ground outside first start) := by
  refine .take .identifier fun written _ => .take (.separator _) fun _ _ => ?_
  refine .take (writtenType_passes _) fun ty _ => ?_
  refine .keep drafted.enters fun scope entered ⟨_, headed⟩ => ?_
  have drafted := drafted.aside headed.extended headed.le
  refine .keep (drafted.records headed.here shown (propertyName written.value ty) .property true ty)
    fun _ later ⟨drafted, headed, callable⟩ => ?_
  have furnished := callable.furnished drafted ty
  refine .pass (.eat _ _) fun valued _ => ?_
  split
  · exact .spend (propertyValue_reads furnished headed shown _) fun block last bodied =>
      drafted.addsMethod isContract shown callable bodied
  · exact .spend (body_reads furnished headed shown _ _) fun block last bodied =>
      drafted.addsMethod isContract shown callable bodied

theorem code_drafts (drafted : Drafted ground outside first start draft place)
    (isScript : draft.kind.isScript = true) (shown : Shown ground line) :
    Reads ground bound place true (code outside draft line)
      (Drafted ground outside first start) := by
  unfold code
  split
  · exact .failFirst ⟨rfl, shown⟩
  · rename_i single
    refine .keep drafted.enters fun scope entered ⟨new, headed⟩ => ?_
    refine .spend (parameters_headed _ new headed) fun ids opened headed => .declarations ?_
    have drafted := drafted.aside headed.extended headed.le
    split
    · exact .failFirst ⟨rfl, shown⟩
    · rename_i agreed
      have described : draft.kind = .description → 2 ≤ ids.length := by
        intro isDescription
        have types : (ids.map opened.scopes.declaration).map Variable.ty = [.address, .any] := by
          simpa [isDescription] using agreed
        have count := congrArg List.length types
        simp only [List.length_map, List.length_cons, List.length_nil] at count
        omega
      refine .pass (resultType_passes _) fun declared _ => ?_
      refine .spend (body_reads (drafted.furnished _) headed.here shown draft.name _)
        fun block last bodied => .node ?_
      have added := drafted.addScript ⟨scope, ids, block, _, ⟨last.nodes + 1, line⟩⟩ isScript
        shown (by simpa using single) described bodied
      exact added.aside (.refl _ _) (Nat.le_succ _)

/-! ## Declarations without bodies -/

theorem importName_passes : Passes ground true importName fun _ => True := by
  refine .of_reads fun _ place => .take .identifier fun written _ => ?_
  refine .iterate ?_ ?_ ⟨rfl, trivial⟩
  · exact .of_reads fun _ _ => .pass (.eat _ _) fun _ _ => .pure ⟨rfl, trivial⟩
  · exact fun _ _ same => .take .member fun _ _ => .pure same

theorem importedLibrary_cases (outside : Outside) (name : String) (shown : Shown ground line) :
    (∀ library, importedLibrary outside name line = .ok library → library.Foreign) ∧
      ∀ error, importedLibrary outside name line = .error error → Blames ground error := by
  unfold importedLibrary
  split
  · split
    · exact ⟨fun _ found => by cases found; exact Library.interface_foreign _ _, nofun⟩
    · exact ⟨nofun, fun _ failed => by cases failed; exact ⟨rfl, shown⟩⟩
  · exact ⟨fun _ => Library.load_foreign, fun _ => load_blames shown⟩

theorem importation_drafts (drafted : Drafted ground outside first start draft place)
    (shown : Shown ground line) :
    Reads ground bound place true (importation outside draft line)
      (Drafted ground outside first start) := by
  refine .take importName_passes fun name _ => .take (.separator _) fun _ _ => ?_
  rcases importedLibrary_cases outside name shown with ⟨foreign, blames⟩
  refine .pass (.result blames) fun library found => ?_
  refine .of_passes (.result fun error failed => ?_) fun next added => ?_
  · unfold Draft.addLibrary at failed
    split at failed <;> cases failed
    exact ⟨rfl, shown⟩
  · unfold Draft.addLibrary at added
    split at added <;> cases added
    exact { drafted with
      libraries := List.forall_mem_append.mpr
        ⟨drafted.libraries, List.forall_mem_singleton.mpr (foreign library found)⟩ }

theorem constant_drafts (drafted : Drafted ground outside first start draft place)
    (shown : Shown ground line) :
    Reads ground bound place true (constant outside draft line)
      (Drafted ground outside first start) := by
  refine .take .identifier fun name _ => .take (.separator _) fun _ _ => ?_
  refine .take (writtenType_passes _) fun ty _ => .take (.operator _) fun _ _ => ?_
  refine .spend (expression_makes (drafted.furnished .none) draft.scope) fun written _ one => ?_
  refine .keep (coerce_makes (draft.context outside .none) ty shown) fun value later fitted => ?_
  have makes := one.trans fitted.2
  refine .pass (.require ⟨rfl, shown⟩) fun text _ => .take (.separator _) fun _ _ => ?_
  have unchanged : place.scopes.Extends [] later.scopes := makes.same ▸ .refl _ _
  have drafted := drafted.aside unchanged makes.le
  have stored : Reads ground bound later false
      (alter (ScopeTree.declareConstant draft.scope ⟨name.value, ty, text, line⟩)) fun _ last =>
        Drafted ground outside first start draft last := by
    refine .alter (.constant draft.scope _) (fun error tree run => ?_) (fun _ _ run => run)
      (.of_scope rfl drafted.present) drafted.outermost nofun
      fun _ _ _ made => drafted.aside made.extends (Nat.le_refl _)
    rcases (ScopeTree.declareConstant_failed run).2 with rfl | rfl
    · exact ⟨rfl, shown⟩
    · exact ⟨rfl, shown⟩
  exact stored.keep fun _ _ holds => .pure holds

/-- A collection is declared with the types that its kind asks for. -/
theorem collectionTypes_passes (declared : Declared) (kind : Ty.Kind) :
    Passes ground true (collectionTypes declared kind) fun types =>
      kind = .storageMap → types.key.isSome = true := by
  refine .of_reads fun bound place => .take (.operator _) fun _ _ => ?_
  have rest : ∀ key : Option Ty, (kind = .storageMap → key.isSome = true) →
      Reads ground bound place false (do
        let value ← writtenType declared
        closeAngle
        return { key, value : CollectionTypes }) fun types later =>
          later = place ∧ (kind = .storageMap → types.key.isSome = true) :=
    fun key keyed => .take (writtenType_passes declared) fun value _ =>
      .take .closeAngle fun _ _ => .pure ⟨rfl, keyed⟩
  split
  · refine .take (writtenType_passes declared) fun key _ => ?_
    exact .take (.separator _) fun _ _ => rest (some key) fun _ => rfl
  · rename_i other
    exact rest none fun isMap => absurd isMap other

theorem collection_proper {token : Token} {kind : Ty.Kind}
    (named : collectionKind? token = some kind) {types : CollectionTypes}
    (keyed : kind = .storageMap → types.key.isSome = true) :
    ∃ ty, Ty.ofKind kind = .ok ty ∧ ∀ id, Variable.Proper
      { id, name, ty, storage := .global, scope, line, collection := some types } := by
  have collects : kind.isStorageCollection = true := by
    unfold collectionKind? at named
    split at named
    · exact (Option.filter_eq_some_iff.mp named).2
    · cases named
  cases kind <;> simp [Ty.Kind.isStorageCollection] at collects <;>
    refine ⟨_, rfl, fun id => ⟨fun found same => ?_, nofun⟩⟩ <;>
    cases Option.some.inj same <;> simp_all

/-- A variable is declared in the outermost scope of a module. -/
theorem Drafted.declares {ty : Ty} {collection : Option CollectionTypes}
    (drafted : Drafted ground outside first start draft place)
    (isContract : draft.kind.isContract = true) (shown : Shown ground line)
    (proper : ∀ id, Variable.Proper
      { id, name, ty, storage := .global, scope := draft.scope, line, collection }) :
    Reads ground bound place false (do
      discard (declare draft.scope name ty .global collection line)
      separator ";"
      return draft) (Drafted ground outside first start) := by
  have admitted : place.scopes.Admits draft.scope .global := by
    simp [ScopeTree.Admits, drafted.outermost]
  have declared : Reads ground bound place false
      (discard (declare draft.scope name ty .global collection line)) fun _ later =>
        Drafted ground outside first start draft later := by
    refine .discard ((declare_reads shown drafted.present admitted proper).mono
      fun id later introduces => drafted.onward introduces.extended
        (Nat.le_of_eq introduces.nodes.symm) fun isScript => ?_)
    simp [Module.Kind.isContract, isScript] at isContract
  exact declared.keep fun _ _ holds => .take (.separator _) fun _ _ => .pure holds

theorem globalVariable_drafts (drafted : Drafted ground outside first start draft place)
    (isContract : draft.kind.isContract = true) (shown : Shown ground line) :
    Reads ground bound place true (globalVariable outside draft line)
      (Drafted ground outside first start) := by
  refine .take .identifier fun name _ => .take (.separator _) fun _ _ => ?_
  refine .current fun token before shownToken present here light => ?_
  split
  · rename_i kind named
    refine Reads.skip present here light fun less lighter => ?_
    refine .take (collectionTypes_passes _ kind) fun types keyed => ?_
    rcases collection_proper named keyed with ⟨ty, built, proper⟩
    refine .pass (.resultOf built) fun _ same => same ▸ ?_
    exact drafted.declares isContract shown proper
  · refine Reads.take (writtenType_passes _) (fun ty _ => ?_) before here light
    exact drafted.declares isContract shown fun _ => Variable.proper_of_plain rfl nofun

/-- What can be seen of the modules before this one is as it should be. -/
def Outside.Described (outside : Outside) : Prop :=
  ∀ top ∈ outside.finished, describes top.content

theorem checkDescription_blames {ty : Ty} (described : outside.Described)
    (shown : Shown ground line)
    (failed : checkDescription outside tree name ty line = .error error) : Blames ground error := by
  unfold checkDescription at failed
  split at failed
  · cases failed
    exact ⟨rfl, shown⟩
  · rename_i top found
    split at failed
    · rename_i script same
      have both := described top (List.mem_of_find?_eq_some found) script same
      rw [List.getElem?_eq_getElem (show 1 < _ from both)] at failed
      simp only at failed
      split at failed <;> cases failed
      exact ⟨rfl, shown⟩
    · cases failed
      exact ⟨rfl, shown⟩

theorem description_passes (described : outside.Described) (ty : Ty) {token : Token}
    (shown : Shown ground token.line) :
    Passes ground false (description outside ty token) fun _ => True := by
  refine .of_reads fun _ _ => ?_
  unfold description
  split
  · exact .pure ⟨rfl, trivial⟩
  · exact .pure ⟨rfl, trivial⟩
  · exact .scopes (.pass (.result fun _ => checkDescription_blames described shown)
      fun _ _ => .pure ⟨rfl, trivial⟩)
  · exact .fail ⟨rfl, shown⟩

theorem event_drafts (described : outside.Described)
    (drafted : Drafted ground outside first start draft place)
    (isContract : draft.kind.isContract = true) (shown : Shown ground line) :
    Reads ground bound place true (event outside draft line)
      (Drafted ground outside first start) := by
  refine .take .identifier fun name _ => .take (.separator _) fun _ _ => ?_
  refine .take (writtenType_passes _) fun ty _ => .take (.operator _) fun _ _ => ?_
  refine .take .fetch fun token shownToken => ?_
  refine .pass (description_passes described ty shownToken) fun description _ => ?_
  refine .take (.separator _) fun _ _ => ?_
  refine .of_passes (.result fun error failed => ?_) fun next added => ?_
  · unfold Draft.addEvent at failed
    split at failed
    · cases failed
      exact ⟨rfl, shown⟩
    · split at failed <;> cases failed
      exact ⟨rfl, shown⟩
  · unfold Draft.addEvent at added
    split at added
    · cases added
    · split at added <;> cases added
      rename_i number _
      have grows : (draft.vocabulary outside place.scopes).Grows
          (Draft.vocabulary outside { draft with events := draft.events ++
            [⟨name.value, number, ty, description, line⟩] } place.scopes) :=
        ⟨List.prefix_rfl, List.prefix_rfl, List.prefix_rfl, List.prefix_append _ _⟩
      exact { drafted with
        bare := fun isScript => by
          have isScript : draft.kind.isScript = true := isScript
          simp [Module.Kind.isContract, isScript] at isContract
        methods := fun decl member => (drafted.methods decl member).grow grows
        eventLines := List.forall_mem_append.mpr
          ⟨drafted.eventLines, List.forall_mem_singleton.mpr shown⟩
        bodies := fun pair member =>
          (drafted.bodies pair member).onward (by simp) (.refl [] _) grows }

/-! ## Any declaration -/

/-- The host knows the signature of every trigger that a module may have. -/
theorem signature?_of_contains {set : TriggerSet} (contained : set.contains name = true) :
    (Trigger.signature? name).isSome = true := by
  have all : ∀ set : TriggerSet, ∀ name ∈ set.names,
      (Trigger.signature? name).isSome = true := by
    intro set
    cases set <;> decide
  exact all set name (by simpa [TriggerSet.contains] using contained)

theorem trigger_drafts (drafted : Drafted ground outside first start draft place)
    (shown : Shown ground line) :
    Reads ground bound place true (trigger outside draft line)
      (Drafted ground outside first start) := by
  refine .pass (.require ⟨rfl, shown⟩) fun set found => .take .identifier fun name _ => ?_
  have isContract : draft.kind.isContract = true := by
    revert found
    cases draft.kind <;> simp [Module.Kind.triggers?, Module.Kind.isContract, Module.Kind.isScript]
  simp only
  split
  · rename_i contained
    exact (method_drafts drafted isContract shown _ true
      fun _ => signature?_of_contains contained).loosen
  · exact .fail ⟨rfl, shown⟩

theorem namedMethod_drafts (drafted : Drafted ground outside first start draft place)
    (isContract : draft.kind.isContract = true) (shown : Shown ground line) (isPublic : Bool)
    (other : role ≠ .trigger) :
    Reads ground bound place true (namedMethod outside draft role isPublic line)
      (Drafted ground outside first start) :=
  .take .identifier fun _ _ => (method_drafts drafted isContract shown _ isPublic
    fun same => absurd same other).loosen

/-- A declaration that is allowed is read. -/
theorem allow_drafts {allowed : Bool} {keyword : String} {reader : Reading Draft}
    (shown : Shown ground line)
    (reads : allowed = true → Reads ground bound place true reader
      (Drafted ground outside first start)) :
    Reads ground bound place true (do
      allow allowed draft keyword line
      reader) (Drafted ground outside first start) := by
  cases allowed with
  | true =>
    have passed : Reads ground bound place false (allow true draft keyword line)
        fun _ later => later = place := .pure rfl
    exact passed.keep fun _ _ same => same ▸ reads rfl
  | false => exact .failFirst ⟨rfl, shown⟩

theorem keywordItem_drafts (described : outside.Described)
    (drafted : Drafted ground outside first start draft place) (keyword : String)
    (shown : Shown ground line) :
    Reads ground bound place true (keywordItem outside draft keyword line)
      (Drafted ground outside first start) := by
  unfold keywordItem
  simp only
  split
  · exact importation_drafts drafted shown
  · exact constant_drafts drafted shown
  · exact allow_drafts shown fun allowed => globalVariable_drafts drafted allowed shown
  · exact allow_drafts shown fun allowed => event_drafts described drafted allowed shown
  · exact allow_drafts shown fun allowed => method_drafts drafted allowed shown _ true nofun
  · exact allow_drafts shown fun allowed => property_drafts drafted allowed shown
  · exact allow_drafts shown fun allowed => namedMethod_drafts drafted allowed shown true nofun
  · exact allow_drafts shown fun allowed => namedMethod_drafts drafted allowed shown false nofun
  · exact allow_drafts shown fun allowed => namedMethod_drafts drafted allowed shown true nofun
  · exact trigger_drafts drafted shown
  · exact allow_drafts shown fun allowed => code_drafts drafted allowed shown
  · exact .fail ⟨rfl, shown⟩
  · exact .fail ⟨rfl, shown⟩

theorem item_drafts (described : outside.Described)
    (drafted : Drafted ground outside first start draft place) :
    Reads ground bound place true (item outside draft) (Drafted ground outside first start) := by
  refine .take .fetch fun token shown => ?_
  split
  · exact (keywordItem_drafts described drafted _ shown).loosen
  · exact .fail ⟨rfl, shown⟩

/-- There is a module in the making in every round, and at the end. -/
theorem items_reads {round : Draft → Reading Draft} {post : Draft → Place → Prop}
    (advancing : ∀ draft later, post draft later → Reads ground bound later true (round draft) post)
    (start : post draft place) : Reads ground bound place false (items round draft) post := by
  have looped : Reads ground bound place false (iterate (eat .separator "\x7d") (fun draft => do
      let draft ← underway draft (← Reading.line)
      return some (← round draft)) (some draft))
      fun draft? later => ∃ draft, draft? = some draft ∧ post draft later := by
    refine .iterate (.eat _ _) ?_ ⟨draft, rfl, start⟩
    rintro _ later ⟨next, rfl, holds⟩
    refine .pass .line fun _ _ => .pass (fun _ => .pure ⟨rfl, rfl⟩) fun draft same => ?_
    rw [← show next = draft from same]
    exact .spend (advancing next later holds) fun last _ more => .pure ⟨last, rfl, more⟩
  refine looped.keep ?_
  rintro _ later ⟨last, rfl, holds⟩
  exact .pass .line fun _ _ => .pure holds

end Covenant.Reading
