import Covenant.Emission.Method
import Covenant.Proofs.SaneScopes
import Covenant.Proofs.StatementRegisters

/-!
# The registers of methods

A method gives registers to its parameters, to the variables of the token
behind it and to the globals that it uses; after its body it gives all of them
back.  Between the two nothing is held by a node, so what a body leaves bound
is what the end of the method has to deal with.

Before its body a method can run out of registers, or meet a global whose type
has no shape on the machine; it never misses the value of a variable.  After
its body nothing can fail.

`content_steady` is the invariant of a whole module: at every moment of its
emission the registers in use are `Owned`, whether or not the emission gets to
its end.
-/

namespace Covenant

variable {before after between : Generator} {ids more : List VarId} {id : VarId}

/-- The register of a variable; it only matters where the variable has one. -/
def Generator.place (generator : Generator) (id : VarId) : Register :=
  (generator.bindings.lookup id).getD { index := 0 }

theorem Generator.place_of_lookup {generator : Generator} {register : Register}
    (found : generator.bindings.lookup id = some register) : generator.place id = register := by
  simp [Generator.place, found]

theorem Generator.lookup_of_binds {generator : Generator} (bound : generator.Binds id) :
    generator.bindings.lookup id = some (generator.place id) := by
  rcases Option.isSome_iff_exists.mp bound with ⟨register, found⟩
  rw [Generator.place_of_lookup found, found]

namespace Emission

/-- The variables of the list have got a register, and no other register has changed. -/
structure Places (ids : List VarId) (before after : Generator) : Prop where
  keeps : ∀ id register, before.bindings.lookup id = some register →
    after.bindings.lookup id = some register
  binds : ∀ id, after.Binds id ↔ before.Binds id ∨ id ∈ ids

/-- None of the variables of the list has a register, and no variable has got one. -/
def Frees (ids : List VarId) (before after : Generator) : Prop :=
  ∀ id, after.Binds id → before.Binds id ∧ id ∉ ids

namespace Places

theorem of_bindings (same : after.bindings = before.bindings) : Places [] before after :=
  ⟨fun _ _ found => by rwa [same], fun id => by simp [Generator.Binds, same]⟩

theorem of_rebinds (rebinds : Rebinds (some id) before after) : Places [id] before after :=
  ⟨fun _ _ => rebinds.keeps, fun other => by simp [rebinds.binds_iff, eq_comm]⟩

theorem trans (first : Places ids before between) (second : Places more between after) :
    Places (ids ++ more) before after := by
  refine ⟨fun id register found => second.keeps id register (first.keeps id register found), ?_⟩
  intro id
  rw [second.binds, first.binds, List.mem_append, or_assoc]

/-- What leaves the bindings alone can follow. -/
theorem followed (placed : Places ids before between) (same : Places [] between after) :
    Places ids before after := by
  simpa using placed.trans same

theorem place_eq (placed : Places ids before after) (bound : before.Binds id) :
    after.place id = before.place id :=
  Generator.place_of_lookup (placed.keeps id _ (Generator.lookup_of_binds bound))

theorem fresh (placed : Places ids before after) (unbound : ¬ before.Binds id) (apart : id ∉ ids) :
    ¬ after.Binds id := by
  rw [placed.binds]
  rintro (bound | listed)
  · exact unbound bound
  · exact apart listed

end Places

namespace Frees

theorem of_without (bindings : after.bindings = without ids before.bindings) :
    Frees ids before after := by
  intro id bound
  unfold Generator.Binds at *
  rw [bindings, lookup_without] at bound
  by_cases listed : id ∈ ids
  · simp [listed] at bound
  · simp only [listed, if_false] at bound
    exact ⟨bound, listed⟩

theorem trans (left : Frees ids before between) (right : Frees more between after) :
    Frees (ids ++ more) before after := by
  intro id bound
  rcases right id bound with ⟨present, notSecond⟩
  rcases left id present with ⟨earlier, notFirst⟩
  exact ⟨earlier, by simp [notFirst, notSecond]⟩

theorem followed (left : Frees ids before between) (same : Places [] between after) :
    Frees ids before after :=
  fun id bound => left id (((same.binds id).mp bound).resolve_right List.not_mem_nil)

theorem preceded (right : Frees ids between after) (same : Places [] before between) :
    Frees ids before after := by
  intro id bound
  rcases right id bound with ⟨present, apart⟩
  exact ⟨((same.binds id).mp present).resolve_right List.not_mem_nil, apart⟩

end Frees

/-! ## Programs that give registers to variables -/

variable {Outcome First Second : Type} {code : Emission First} {env : Env} {watch : Watch}
  {scopes : List ScopeId} {following : First → Emission Second} {mark : Mark}

theorem KeepsBound.of_places (placed : Places ids before after) : KeepsBound watch before after :=
  fun id _ bound => (placed.binds id).mpr (.inl bound)

/-- Nothing is kept of what is not to be kept. -/
theorem KeepsBound.of_free (free : ∀ id, ¬ watch.keeps id) : KeepsBound watch before after :=
  fun id kept => absurd kept (free id)

/-- The program gives registers to the variables of the list. -/
abbrev Gains (env : Env) (watch : Watch) (scopes : List ScopeId) (ids : List VarId)
    (code : Emission Outcome) : Prop :=
  Effects env watch scopes (fun _ => Places ids) code

/-- The program takes the registers of the variables of the list away. -/
abbrev Loses (env : Env) (watch : Watch) (scopes : List ScopeId) (ids : List VarId)
    (code : Emission Outcome) : Prop :=
  Effects env watch scopes (fun _ => Frees ids) code

/-- The program works on the register of a variable. -/
def Works (env : Env) (watch : Watch) (uses : Register → Emission Unit) : Prop :=
  ∀ bindings register, Known bindings register →
    Handles (watching env watch bindings fun _ => True) true (fun _ => []) (uses register) []

theorem refers_held {bindings : List (VarId × Register)} {line : Line} {temporaries : List Register}
    (refers : watch.named → Refers bindings line) :
    ∀ register ∈ line.registers, register ∈ temporaries ∨
      (watching env watch bindings fun _ => True).known register ∧ True :=
  fun register member => .inr ⟨fun asked => refers asked register member, trivial⟩

theorem Works.restores {generator : Generator} {held : List Register} {register : Register}
    {uses : Register → Emission Unit} (works : Works env watch uses) (line : Nat)
    (stands : Stands env watch generator held)
    (bound : generator.bindings.lookup id = some register) :
    Restores env watch (Excused env watch generator) (·.bindings = generator.bindings)
      (operand env id line >>= uses) generator held := by
  have handles : Handles (watching env watch generator.bindings fun _ => True) true (fun _ => [])
      (operand env id line >>= uses) [] := found_handles bound (works _ _ (.inr ⟨id, bound⟩))
  refine (handles.restores stands nofun (covers_indices generator held) nofun).mono ?_
  rintro - later heldLater - ⟨rfl, same, -⟩
  exact ⟨rfl, same⟩

namespace Gains

theorem andThen (first : Gains env watch scopes ids code)
    (second : ∀ outcome, Gains env watch scopes more (following outcome)) :
    Gains env watch scopes (ids ++ more) (code >>= following) :=
  Effects.andThen first second (fun _ _ _ => .of_places)
    fun _ _ _ _ _ left right => left.trans right

theorem followed (first : Gains env watch scopes ids code)
    (second : ∀ outcome, Still env watch scopes (following outcome)) :
    Gains env watch scopes ids (code >>= following) :=
  Effects.andThen first second (fun _ _ _ => .of_places)
    fun _ _ _ _ _ placed same => placed.followed (.of_bindings same)

/-- The register of a variable that has just got one. -/
theorem reading {uses : Register → Emission Unit} (gains : Gains env watch scopes ids code)
    (listed : id ∈ ids) (works : Works env watch uses) (line : Nat) :
    Gains env watch scopes ids (code >>= fun _ => operand env id line >>= uses) := by
  intro generator held stands inside
  refine (gains generator held stands inside).andThen ?_
  rintro - between held standsBetween ⟨rfl, insideBetween, placed⟩
  have bound := Generator.lookup_of_binds ((placed.binds id).mpr (.inr listed))
  refine (works.restores line standsBetween bound).ending
    (fun _ _ excused => excused.preceded (.of_places placed)) ?_
  rintro - after held - ⟨rfl, same⟩ -
  exact ⟨rfl, insideBetween.congr same, placed.followed (.of_bindings same)⟩

end Gains

/-! ## Before the body -/

theorem mem_usedFields {body : Block} {implicit : List Variable} {field : Variable × String} :
    field ∈ usedFields body implicit ↔ field.1 ∈ implicit ∧ body.uses field.1.id = true ∧
      tokenField? field.1.name = some field.2 := by
  rcases field with ⟨declaration, name⟩
  simp only [usedFields, List.mem_filterMap, List.mem_filter, Option.map_eq_some_iff,
    Prod.mk.injEq]
  grind

/-- The code for each item, one after the other. -/
def inTurn {Item : Type} (step : Item → Emission Unit) : List Item → Emission Unit
  | [] => pure ()
  | first :: rest => step first >>= fun _ => inTurn step rest

theorem inTurn_gains {Item : Type} {step : Item → Emission Unit} {key : Item → VarId}
    {items : List Item} (gains : ∀ item ∈ items, Gains env watch scopes [key item] (step item)) :
    Gains env watch scopes (items.map key) (inTurn step items) := by
  induction items with
  | nil => exact .pure fun _ => .of_bindings rfl
  | cons first rest ih =>
    rw [List.forall_mem_cons] at gains
    exact .andThen gains.1 fun _ => ih gains.2

section Steps

variable (env : Env) (mark : Mark)

/-- Read a field of a token into the register of a variable. -/
def readField (data : Register) (field : Variable × String) : Emission Unit := do
  Functor.discard (ensureBound env field.1.id mark)
  let target ← operand env field.1.id mark.line
  loadScratch (.quoted field.2)
  instruction .get [.register data, .register target, .scratch]
  unpackStruct field.1.ty target

theorem popVariables_eq (ids : List VarId) :
    popVariables env mark ids = inTurn (popVariable env mark) ids := by
  induction ids with
  | nil => rfl
  | cons first rest ih => rw [popVariables, ih, inTurn]

theorem loadGlobals_eq (body : Block) (declarations : List Variable) :
    loadGlobals env mark body declarations = inTurn (loadGlobal env mark)
      (declarations.filter fun declaration => body.uses declaration.id) := by
  induction declarations with
  | nil => rfl
  | cons first rest ih =>
    rw [loadGlobals, ih]
    cases used : body.uses first.id with
    | false =>
      rw [List.filter_cons_of_neg (by simp [used]), onlyIf, if_neg Bool.false_ne_true, pure_bind]
    | true => rw [List.filter_cons_of_pos (by exact used), onlyIf, if_pos rfl, inTurn]

theorem readFields_eq (data : Register) (fields : List (Variable × String)) :
    readFields env mark data fields = inTurn (readField env mark data) fields := by
  induction fields with
  | nil => rfl
  | cons first rest ih => simp only [readFields, ih, inTurn, readField, bind_assoc]

variable {env mark}

theorem ensureBound_gains (shown : watch.Shows mark.line) (admits : Admits env watch scopes [id]) :
    Gains env watch scopes [id] (Functor.discard (ensureBound env id mark)) := by
  refine Effects.discard fun generator held stands inside => ?_
  refine (ensureBound_sound id [] (.full shown rfl) stands inside admits).mono ?_
  rintro - later heldLater - ⟨rfl, rebinds, -⟩
  exact ⟨rfl, inside.rebinds rebinds admits, .of_rebinds rebinds⟩

/-- A variable gets a register, and with it what is done to the register. -/
theorem ensured_gains {before : Emission Unit} {uses : Register → Emission Unit} {line : Nat}
    (shown : watch.Shows mark.line) (admits : Admits env watch scopes [id])
    (still : Still env watch scopes before) (works : Works env watch uses) :
    Gains env watch scopes [id] (Functor.discard (ensureBound env id mark) >>= fun _ => before >>=
      fun _ => operand env id line >>= uses) := by
  have gains := (ensureBound_gains shown admits).followed fun _ => still
  rw [← bind_assoc]
  exact gains.reading List.mem_cons_self works line

/-- An instruction on the register of a variable. -/
theorem works_instruction (opcode : Opcode) :
    Works env watch fun register => instruction opcode [.register register] :=
  fun _ _ known => .last (.inl rfl) (refers_held fun _ => List.forall_mem_singleton.mpr known)

theorem popVariable_gains (shown : watch.Shows mark.line) (admits : Admits env watch scopes [id]) :
    Gains env watch scopes [id] (popVariable env mark id) :=
  ensured_gains shown admits Still.done (works_instruction .pop)

theorem popVariables_gains (shown : watch.Shows mark.line) (admits : Admits env watch scopes ids) :
    Gains env watch scopes ids (popVariables env mark ids) := by
  rw [popVariables_eq]
  simpa using @inTurn_gains env watch scopes _ _ id ids fun _ member =>
    popVariable_gains shown (admits.mem member)

theorem loadGlobal_gains {declaration : Variable} (shown : watch.Shows mark.line)
    (admits : Admits env watch scopes [declaration.id]) :
    Gains env watch scopes [declaration.id] (loadGlobal env mark declaration) := by
  have shape : Still env watch scopes (result declaration.ty.machineType) := .result
    (fun _ bindings failed => @machineType_excused (watching env watch bindings) _ _ failed)
    fun _ _ => rfl
  refine Still.andThen shape (fun shape => ?_) fun _ _ _ _ same placed =>
    (Places.of_bindings same).trans placed
  have pushes : Still env watch scopes (do
      pushValue (.natural shape.tag)
      pushValue (.quoted declaration.name)
      pushValue (.quoted env.moduleName)
      hostCall "Data.Get") := .of_handles fun _ => (pushValue_handles rfl).andThen fun _ =>
    (pushValue_handles rfl).andThen fun _ => (pushValue_handles rfl).andThen fun _ =>
      hostCall_handles _
  exact ensured_gains shown admits pushes (works_instruction .pop)

theorem readField_gains {data : Register} {field : Variable × String}
    (shown : watch.Shows mark.line) (nameless : watch.named → Nameless data)
    (admits : Admits env watch scopes [field.1.id]) :
    Gains env watch scopes [field.1.id] (readField env mark data field) := by
  refine ensured_gains shown admits Still.done fun bindings target known => ?_
  have other (asked : watch.named) : Known bindings data := .inl (nameless asked)
  refine .after (loadScratch_handles rfl) fun _ => .line (.onlyIf (.last (.inl rfl) ?_))
    (.inl (.inl rfl)) ?_
  · exact refers_held fun _ => by simp [Refers, Line.registers, Operand.register?, known]
  · exact refers_held fun asked => by
      simp [Refers, Line.registers, Operand.register?, known, other asked]

/-- Reading a token gives registers to the fields that are used. -/
theorem readToken_gains (shown : watch.Shows mark.line) (token : String)
    {used : List (Variable × String)}
    (admits : Admits env watch scopes (used.map fun field => field.1.id)) :
    Gains env watch scopes (used.map fun field => field.1.id) (do
      pushValue (.quoted token)
      hostCall "Runtime.ReadToken"
      let data ← alloc mark
      instruction .pop [.register data]
      readFields env mark data used
      dealloc data mark.line) := by
  have preceded (outcome : Unit) (before between after : Generator)
      (same : between.bindings = before.bindings)
      (placed : Places (used.map fun field => field.1.id) between after) :
      Places (used.map fun field => field.1.id) before after :=
    (Places.of_bindings same).trans placed
  have reads (data : Register) (nameless : Nameless data) :
      Gains env watch scopes (used.map fun field => field.1.id)
        (instruction .pop [.register data] >>= fun _ => readFields env mark data used) := by
    rw [readFields_eq]
    refine Still.andThen (.line rfl (List.forall_mem_singleton.mpr nameless)) (fun _ => ?_) preceded
    refine inTurn_gains fun field member =>
      readField_gains shown (fun _ => nameless) (admits.mem ?_)
    exact List.mem_map.mpr ⟨field, member, rfl⟩
  refine Still.andThen (.of_handles fun _ => pushValue_handles rfl) (fun _ => ?_) preceded
  refine Still.andThen (.of_handles fun _ => hostCall_handles _) (fun _ => ?_) preceded
  have taken (bindings : List (VarId × Register)) :
      Values (watching env watch bindings) (alloc mark) := fun _ => ⟨rfl, shown, fun _ => rfl⟩
  exact Effects.holding taken reads mark.line
    fun _ _ _ _ same placed freed => (preceded () _ _ _ same placed).followed (.of_bindings freed)

/-- The variables of a token that get a register are reported; all are of the module. -/
theorem loadToken_effects {moduleScope : ScopeId} (token : String) (body : Block)
    (shown : watch.Shows mark.line)
    (identified : watch.strict → env.scopes.Identifies moduleScope)
    (admits : Admits env watch scopes ((env.scopes.declaredIn moduleScope).map Variable.id)) :
    Effects env watch scopes (fun implicit before after => Places implicit before after ∧
        ∀ id ∈ implicit, id ∈ (env.scopes.declaredIn moduleScope).map Variable.id)
      (loadToken env mark moduleScope token body) := by
  unfold loadToken
  simp only
  split
  · rename_i missing
    refine fun generator held stands _ => ⟨stands, .of_bindings rfl, fun strict => ?_⟩
    rcases identified strict with ⟨id, -, listed, stored, named⟩
    have absent := List.find?_eq_none.mp missing (env.scopes.declaration id)
      (List.mem_filter.mpr ⟨List.mem_map_of_mem listed, by simpa using stored⟩)
    simp [named] at absent
  · rename_i number found
    have listed : number.id ∈ (env.scopes.declaredIn moduleScope).map Variable.id :=
      List.mem_map_of_mem (List.mem_filter.mp (List.mem_of_find?_eq_some found)).1
    have among : ∀ field ∈ usedFields body ((env.scopes.declaredIn moduleScope).filter
        fun declaration => declaration.storage = .nft),
          field.1.id ∈ (env.scopes.declaredIn moduleScope).map Variable.id := fun field member =>
      List.mem_map_of_mem (List.mem_filter.mp (mem_usedFields.mp member).1).1
    generalize usedFields body _ = used at among ⊢
    have pops : Gains env watch scopes [number.id] (popVariable env mark number.id) :=
      popVariable_gains shown (admits.mem listed)
    have joined (reported : List VarId) (before between after : Generator)
        (first : Places [number.id] before between)
        (second : Places (used.map fun field => field.1.id) between after ∧
          reported = number.id :: used.map fun field => field.1.id) :
        Places reported before after ∧
          ∀ id ∈ reported, id ∈ (env.scopes.declaredIn moduleScope).map Variable.id := by
      rcases second with ⟨second, rfl⟩
      exact ⟨first.trans second, List.forall_mem_cons.mpr ⟨listed, List.forall_mem_map.mpr among⟩⟩
    cases empty : used.isEmpty with
    | true =>
      refine Effects.andThen pops (fun _ => .pure fun _ => ?_) (fun _ _ _ => .of_places)
        fun _ => joined
      simp [List.isEmpty_iff.mp empty, Places.of_bindings]
    | false =>
      have reads := readToken_gains shown token (admits.subset (List.forall_mem_map.mpr among))
      have told : Effects env watch scopes (fun reported before after =>
          Places (used.map fun field => field.1.id) before after ∧
            reported = number.id :: used.map fun field => field.1.id) _ := Effects.andThen reads
        (fun _ => .returning (number.id :: used.map fun field => field.1.id))
        (fun _ _ _ => .of_places) fun _ _ _ _ _ placed ⟨same, told⟩ => ⟨same ▸ placed, told⟩
      have whole := Effects.andThen
        (pops.reading List.mem_cons_self (works_instruction .push) mark.line) (fun _ => told)
        (fun _ _ _ => .of_places) fun _ => joined
      simpa only [bind_assoc, Bool.false_eq_true, if_false] using whole

theorem loadImplicit_effects {moduleScope : ScopeId} {token : Option String} {decl : MethodDecl}
    (shown : watch.Shows decl.line)
    (identified : watch.strict → token.isSome = true → env.scopes.Identifies moduleScope)
    (admits : Admits env watch scopes ((env.scopes.declaredIn moduleScope).map Variable.id)) :
    Effects env watch scopes (fun implicit before after => Places implicit before after ∧
        ∀ id ∈ implicit, id ∈ (env.scopes.declaredIn moduleScope).map Variable.id)
      (loadImplicit env moduleScope token decl) := by
  cases token with
  | none => exact .pure fun _ => ⟨.of_bindings rfl, nofun⟩
  | some token =>
    exact loadToken_effects token decl.body shown (fun strict => identified strict rfl) admits

/-- The globals that are loaded before the body: those it uses, or none in a constructor. -/
def loadedGlobals (env : Env) (moduleScope : ScopeId) (decl : MethodDecl) : List Variable :=
  if decl.method.role = .constructor then
    []
  else
    (globals env moduleScope).filter fun declaration => decl.body.uses declaration.id

theorem loadedGlobals_subset (moduleScope : ScopeId) (decl : MethodDecl) :
    loadedGlobals env moduleScope decl ⊆ globals env moduleScope := by
  unfold loadedGlobals
  split
  · exact List.nil_subset _
  · exact List.filter_sublist.subset

theorem checkInitialized_blames {body : Block} {line : Nat} {declarations : List Variable}
    {error : Error} {bindings : List (VarId × Register)} (shown : watch.Shows line)
    (failed : checkInitialized body line declarations = .error error) :
    Blames env watch bindings error := by
  induction declarations with
  | nil => cases failed
  | cons first rest ih =>
    unfold checkInitialized at failed
    split at failed
    · cases failed
      exact fun strict => ⟨shown strict, trivial⟩
    · exact ih failed
    · cases failed
      exact fun strict => ⟨shown strict, trivial⟩

theorem prepareGlobals_gains {decl : MethodDecl} {moduleScope : ScopeId}
    (shown : watch.Shows decl.line)
    (admits : Admits env watch scopes ((env.scopes.declaredIn moduleScope).map Variable.id)) :
    Gains env watch scopes ((loadedGlobals env moduleScope decl).map Variable.id)
      (prepareGlobals env moduleScope decl) := by
  unfold prepareGlobals loadedGlobals
  split
  · exact .result (fun _ _ => checkInitialized_blames shown) fun _ _ => .of_bindings rfl
  · rw [loadGlobals_eq]
    refine inTurn_gains fun declaration member => loadGlobal_gains shown (admits.mem ?_)
    exact List.mem_map_of_mem (List.mem_filter.mp (List.mem_filter.mp member).1).1

/-- Before the body, only implicit variables, parameters and globals get a register. -/
theorem prologue_effects {moduleScope : ScopeId} {token : Option String} {decl : MethodDecl}
    (shown : watch.Shows decl.line)
    (identified : watch.strict → token.isSome = true → env.scopes.Identifies moduleScope)
    (admits : Admits env watch scopes
      (decl.parameters ++ (env.scopes.declaredIn moduleScope).map Variable.id)) :
    Effects env watch scopes (fun implicit before after =>
        Places (implicit ++ decl.parameters ++ (loadedGlobals env moduleScope decl).map Variable.id)
          before after ∧
        ∀ id ∈ implicit, id ∈ (env.scopes.declaredIn moduleScope).map Variable.id)
      (prologue env moduleScope token decl) := by
  have outer := admits.subset (List.subset_append_right _ _)
  refine Still.andThen (.of_handles fun _ => annotate_handles env _) (fun _ => ?_) ?_
  · refine Still.andThen (.line rfl nofun) (fun _ => ?_) ?_
    · have loads (implicit : List VarId) : Effects env watch scopes (fun told before after =>
          Places (decl.parameters ++ (loadedGlobals env moduleScope decl).map Variable.id)
            before after ∧ told = implicit) (do
          popVariables env decl.mark decl.parameters
          prepareGlobals env moduleScope decl
          return implicit) := by
        rw [← bind_assoc]
        have pops := popVariables_gains shown (admits.subset (List.subset_append_left _ _))
        exact Effects.andThen (pops.andThen fun _ => prepareGlobals_gains shown outer)
          (fun _ => .returning implicit) (fun _ _ _ => .of_places)
          fun _ _ _ _ _ placed ⟨same, told⟩ => ⟨same ▸ placed, told⟩
      refine Effects.andThen (loadImplicit_effects shown identified outer) loads
        (fun _ _ _ placed => .of_places placed.1) ?_
      rintro _ _ _ _ _ ⟨placed, listed⟩ ⟨more, rfl⟩
      exact ⟨List.append_assoc .. ▸ placed.trans more, listed⟩
    · exact fun _ _ _ _ same placed => ⟨(Places.of_bindings same).trans placed.1, placed.2⟩
  · exact fun _ _ _ _ same placed => ⟨(Places.of_bindings same).trans placed.1, placed.2⟩

/-! ## After the body -/

theorem release_loses (id : VarId) (line : Nat) :
    Loses env watch scopes [id] (Functor.discard (release id line)) := by
  refine Effects.discard fun generator held stands inside => ?_
  refine (release_sound id line stands).mono ?_
  rintro released later heldLater - ⟨rfl, -, -, bindings⟩
  exact ⟨rfl, inside.without bindings, .of_without bindings⟩

theorem releaseAll_loses (free : ∀ id, ¬ watch.keeps id) (line : Nat) (ids : List VarId) :
    Loses env watch scopes ids (releaseAll line ids) := by
  induction ids with
  | nil => exact .pure fun _ _ bound => ⟨bound, List.not_mem_nil⟩
  | cons first rest ih =>
    exact Effects.andThen (release_loses first line) (fun _ => ih) (fun _ _ _ _ => .of_free free)
      fun _ _ _ _ _ => Frees.trans

theorem leaveGlobal_loses (line : Nat) (body : Block) (declaration : Variable) :
    Loses env watch scopes [declaration.id] (leaveGlobal env line body declaration) := by
  intro generator held stands inside
  refine (isBound_sound declaration.id stands).andThen ?_
  rintro bound generator held - ⟨rfl, rfl, rfl⟩
  cases present : (generator.bindings.lookup declaration.id).isSome with
  | false =>
    refine ⟨stands, rfl, inside, fun id bound => ⟨bound, fun listed => ?_⟩⟩
    rw [List.mem_singleton.mp listed, Generator.Binds, present] at bound
    cases bound
  | true =>
    rcases Option.isSome_iff_exists.mp present with ⟨register, found⟩
    have asks : Works env watch (fun register => do
        instruction .push [.register register]
        pushValue (.quoted declaration.name)
        hostCall "Data.Set") := fun bindings register known =>
      (works_instruction .push bindings register known).andThen fun _ =>
        (pushValue_handles rfl).andThen fun _ => hostCall_handles _
    have stored : Restores env watch (Excused env watch generator)
        (·.bindings = generator.bindings)
        (onlyIf (body.assigns declaration.id) (storeGlobal env line declaration)) generator
        held := .onlyIf (asks.restores line stands found) ⟨stands, rfl, rfl⟩
    refine stored.andThen ?_
    rintro - later held standsLater ⟨rfl, same⟩
    refine (release_loses declaration.id line later held standsLater (inside.congr same)).ending
      (fun _ _ excused => excused.preceded (.of_bindings same)) ?_
    rintro - last held - ⟨rfl, inner, frees⟩ -
    exact ⟨rfl, inner, frees.preceded (.of_bindings same)⟩

theorem storeGlobals_loses (free : ∀ id, ¬ watch.keeps id) (line : Nat) (body : Block)
    (declarations : List Variable) :
    Loses env watch scopes (declarations.map Variable.id)
      (storeGlobals env line body declarations) := by
  induction declarations with
  | nil => exact .pure fun _ _ bound => ⟨bound, List.not_mem_nil⟩
  | cons first rest ih =>
    exact Effects.andThen (leaveGlobal_loses line body first) (fun _ => ih)
      (fun _ _ _ _ => .of_free free) fun _ _ _ _ _ => Frees.trans

/-- After the body, all globals, implicit variables and parameters lose their registers. -/
theorem epilogue_loses (free : ∀ id, ¬ watch.keeps id) (moduleScope : ScopeId) (decl : MethodDecl)
    (implicit : List VarId) :
    Loses env watch scopes
      ((globals env moduleScope).map Variable.id ++ (implicit ++ decl.parameters))
      (epilogue env moduleScope decl implicit) := by
  refine Effects.andThen (storeGlobals_loses free decl.line decl.body _) (fun _ => ?_)
    (fun _ _ _ _ => .of_free free) fun _ _ _ _ _ => Frees.trans
  exact Effects.andThen (releaseAll_loses free decl.line (implicit ++ decl.parameters))
    (fun _ => Still.line rfl nofun) (fun _ _ _ _ => .of_free free)
    fun _ _ _ _ _ left same => left.followed (.of_bindings same)

end Steps

/-! ## Whole modules -/

/-- What a body asks of the source. -/
structure ReadableBody (watch : Watch) (line : Nat) (body : Block) : Prop where
  shown : watch.Shows line
  flow : ReadableFlow watch body.flow

/-- What the names around a body ask of it. -/
structure SpelledBody (env : Env) (quiet : Prop) (scopes : List ScopeId) (parameters : List VarId)
    (body : Block) : Prop where
  coherent : env.scopes.Coherent
  clear : env.scopes.Unambiguous scopes
  declared : ∀ id ∈ parameters, env.scopes.Declares scopes id
  flow : SpelledFlow env quiet scopes body.flow

/-- What the names in a method ask; after it no variable has a register. -/
structure SpelledMethod (env : Env) (quiet : Prop) (moduleScope : ScopeId) (token : Option String)
    (decl : MethodDecl) : Prop extends SpelledBody env quiet [decl.scope, moduleScope]
      (decl.parameters ++ (env.scopes.declaredIn moduleScope).map Variable.id) decl.body where
  clears : ∀ before held after, Owned before held → BoundWithin env.scopes [] before →
    (method env moduleScope token decl).Ends before () after → BoundWithin env.scopes [] after

variable (dropped : ∀ scope, Dropped watch (env.scopes.declaredIn scope))

include dropped

theorem bodyCode_steady {body : Block} (readable : ReadableFlow watch body.flow)
    (spelled : watch.named → ∃ parameters, SpelledBody env watch.quiet scopes parameters body)
    (name : String) (scope : ScopeId) (line : Nat) :
    Steady env watch scopes (bodyCode env name scope line body) := by
  unfold bodyCode
  rw [inMethod_eq env _ _ noSubject]
  have nameless : Nameless noSubject := rfl
  refine (flow_steady dropped (fun asked => ?_) readable (fun asked => ?_) nameless).andThen ?_
  · exact (spelled asked).choose_spec.coherent
  · exact (spelled asked).choose_spec.flow
  · exact fun _ => (leaveScope_steady line (dropped scope)).andThen fun _ => label_steady _

variable (free : ∀ id, ¬ watch.keeps id)

include free

theorem methods_steady {moduleScope : ScopeId} {token : Option String} {decls : List MethodDecl}
    (identified : watch.strict → token.isSome = true → env.scopes.Identifies moduleScope)
    (readable : ∀ decl ∈ decls, ReadableBody watch decl.line decl.body)
    (spelled : watch.named → ∀ decl ∈ decls,
      SpelledMethod env watch.quiet moduleScope token decl) :
    Steady env watch [] (methods env moduleScope token decls) := by
  have loose {Outcome : Type} {scopes : List ScopeId} {code : Emission Outcome}
      {effect : Outcome → Generator → Generator → Prop}
      (effects : Effects env watch scopes effect code) : Steady env watch scopes code :=
    effects.mono fun _ _ _ _ => .of_free free
  induction decls with
  | nil => exact Steady.done ()
  | cons first rest ih =>
    rw [List.forall_mem_cons] at readable
    have own (asked : watch.named) := spelled asked first List.mem_cons_self
    refine Steady.andThen ?_ fun _ => ih readable.2 fun asked decl member =>
      spelled asked decl (List.mem_cons_of_mem _ member)
    have whole : Steady env watch [first.scope, moduleScope] (method env moduleScope token first) :=
      (loose (prologue_effects readable.1.shown identified fun asked =>
        ⟨(own asked).clear, (own asked).declared⟩)).andThen fun implicit =>
        (bodyCode_steady dropped readable.1.flow (fun asked => ⟨_, (own asked).toSpelledBody⟩)
          _ _ _).andThen fun _ => loose (epilogue_loses free _ _ _)
    intro generator held stands inside
    refine (whole generator held stands fun asked id binds => ?_).ending (fun _ _ => id) ?_
    · simpa [ScopeTree.Declares] using inside asked id binds
    · rintro _ after held - ⟨rfl, -, keeps⟩ ends
      exact ⟨rfl, fun asked => (own asked).clears generator _ after stands.owned
        (inside asked) ends,
        keeps⟩

theorem script_steady {body : Script} (readable : ReadableBody watch body.mark.line body.body)
    (spelled : watch.named → SpelledBody env watch.quiet scopes body.parameters body.body) :
    Steady env watch scopes (script env body) := by
  have entered : Steady env watch scopes (scriptPrologue env body) :=
    (Steady.of_still (.of_handles fun _ => annotate_handles env _)).andThen fun _ =>
      (popVariables_gains readable.shown fun asked =>
        ⟨(spelled asked).clear, (spelled asked).declared⟩).mono fun _ _ _ => .of_places
  refine entered.andThen fun _ => (bodyCode_steady dropped readable.flow
    (fun asked => ⟨_, spelled asked⟩) _ _ _).andThen fun _ => ?_
  have left : Steady env watch scopes (releaseAll body.mark.line body.parameters) :=
    (releaseAll_loses free _ _).mono fun _ _ _ _ => .of_free free
  exact left.andThen fun _ => Steady.line rfl nofun

/-- The code of a module leaves what nodes hold alone. -/
theorem content_steady {moduleScope : ScopeId} {body : Module.Content} (unnamed : ¬ watch.named)
    (identified : watch.strict → body.nftTypes?.isSome = true →
      env.scopes.Identifies moduleScope)
    (methods : ∀ contract ∈ body.contract?, ∀ decl ∈ contract.methods,
      ReadableBody watch decl.line decl.body)
    (script : ∀ script ∈ body.script?, ReadableBody watch script.mark.line script.body) :
    Steady env watch [] (content env moduleScope body) := by
  cases body with
  | contract body | token body | organization body =>
    exact methods_steady dropped free nofun (methods body rfl) fun asked => absurd asked unnamed
  | nft body types =>
    exact methods_steady dropped free (fun strict _ => identified strict rfl) (methods body rfl)
      fun asked => absurd asked unnamed
  | script body | description body =>
    exact script_steady dropped free (script body rfl) fun asked => absurd asked unnamed

end Emission

end Covenant
