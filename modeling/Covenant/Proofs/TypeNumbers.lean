import Covenant.Proofs.Requests
import Covenant.Ty.Table
import Mathlib.Data.List.Nodup

/-!
# Types under requests

A table of types is changed by requests: types are asked for, open types are
replaced, structs and enums are declared.  All tables that requests lead to are
`Canonical`: the list of types and the map of their numbers are two views of
the same, and elements have smaller numbers than their arrays.  So the number of
a type can stand for the type, and what looks into arrays comes to an end.
-/

namespace Covenant.TypeTable

variable {table later : TypeTable} {shape : TypeShape} {id : TypeId}

/-- The names of the declared types, those of structs first. -/
def names (table : TypeTable) : List String :=
  table.structs.map NumberedStruct.name ++ table.enums.map EnumDecl.name

theorem mem_names {name : String} : name ∈ table.names ↔ table.isTaken name = true := by
  simp [names, isTaken, struct?, enum?]

/-! ## Requests -/

/-- A request to a table of types. -/
inductive Request where
  | intern (shape : TypeShape)
  | find (kind : Ty.Kind) (detail : TypeDetail)
  | substitute (id : TypeId) (arguments : List TypeId)
  | struct (decl : NumberedStruct) (line : Nat)
  | enum (decl : EnumDecl) (line : Nat)

/-- The numbers that a request mentions have types. -/
def Request.Applies (table : TypeTable) : Request → Prop
  | .intern shape => ∀ element, shape = .array element → element < table.types.length
  | .find _ detail => ∀ id, detail = .element id → id < table.types.length
  | .substitute id arguments => ∀ part ∈ id :: arguments, part < table.types.length
  | .struct decl _ => ∀ field ∈ decl.fields, field.2 < table.types.length
  | .enum _ _ => True

/-- The type that a request asks for, where it names one. -/
def Request.wanted? : Request → Option TypeShape
  | .intern shape => some shape
  | .find kind detail => (TypeShape.ofDetail kind detail).toOption
  | .substitute _ _ => none
  | .struct decl _ => some (.struct decl.name)
  | .enum decl _ => some (.enum decl.name)

/-- How a request ends, if it comes to an end. -/
def perform : Request → TypeTable → Option (EStateM.Result Error TypeTable TypeId)
  | .intern shape, table => some (.ok (intern shape table).1 (intern shape table).2)
  | .find kind detail, table => some (find kind detail table)
  | .substitute id arguments, table =>
    (substitute arguments id table).map fun (id, later) => .ok id later
  | .struct decl line, table => some (declareStruct decl line table)
  | .enum decl line, table => some (declareEnum decl line table)

def after (table : TypeTable) (request : Request) : TypeTable :=
  match perform request table with
  | some (.ok _ later) => later
  | some (.error _ later) => later
  | none => table

/-- Requests that mention numbers of types only lead to the table. -/
abbrev Known : TypeTable → Prop :=
  Reached after (fun table request => request.Applies table) initial

variable {request : Request}

/-! ## Canonical tables -/

/-- The types and their numbers determine each other, and elements come before their arrays. -/
structure Canonical (table : TypeTable) : Prop where
  inverse : ∀ id shape, table.type? id = some shape ↔ table.number? shape = some id
  predefined : predefined <+: table.types
  elements : ∀ id element, table.type? id = some (.array element) → element < id
  names : table.names.Nodup

theorem Canonical.distinct (canonical : table.Canonical) : table.types.Nodup := by
  refine List.nodup_iff_injective_get.mpr fun one other same => Fin.ext ?_
  have first := (canonical.inverse one _).mp (List.getElem?_eq_getElem one.2)
  have second := (canonical.inverse other _).mp (List.getElem?_eq_getElem other.2)
  rw [show table.types[one.1] = table.types[other.1] from same, second] at first
  exact (Option.some.inj first).symm

theorem type?_of_prefix (grown : table.types <+: later.types)
    (known : table.type? id = some shape) :
    later.type? id = some shape := by
  rcases grown with ⟨added, same⟩
  rw [type?, ← same, List.getElem?_append_left (List.getElem?_eq_some_iff.mp known).1]
  exact known

theorem lt_of_type? (known : table.type? id = some shape) : id < table.types.length :=
  (List.getElem?_eq_some_iff.mp known).1

theorem exists_type? (present : id < table.types.length) : ∃ shape, table.type? id = some shape :=
  ⟨_, List.getElem?_eq_getElem present⟩

theorem intern_run (shape : TypeShape) (table : TypeTable) :
    intern shape table =
      match table.number? shape with
      | some id => (id, table)
      | none => (table.types.length,
          { table with
            types := table.types ++ [shape]
            numbers := (shape, table.types.length) :: table.numbers }) := by
  simp only [intern, StateT.bind, bind, get, getThe, MonadStateOf.get, StateT.get, pure]
  cases table.number? shape <;> rfl

/-- A table has got more types, and nothing else. -/
structure Grown (table later : TypeTable) : Prop where
  canonical : later.Canonical
  types : table.types <+: later.types
  structs : later.structs = table.structs
  enums : later.enums = table.enums

theorem Grown.refl (canonical : table.Canonical) : Grown table table :=
  ⟨canonical, List.prefix_rfl, rfl, rfl⟩

theorem Grown.trans {between : TypeTable} (first : Grown table between)
    (second : Grown between later) : Grown table later :=
  ⟨second.canonical, first.types.trans second.types, second.structs.trans first.structs,
    second.enums.trans first.enums⟩

/-- A type gets the next number, or keeps the one that it has. -/
theorem Canonical.intern (canonical : table.Canonical) (shape : TypeShape)
    (known : ∀ element, shape = .array element → element < table.types.length) :
    Grown table (intern shape table).2 ∧
      (intern shape table).2.type? (intern shape table).1 = some shape := by
  rw [intern_run]
  cases found : table.number? shape with
  | some id => exact ⟨.refl canonical, (canonical.inverse id shape).mpr found⟩
  | none =>
    have types (id : TypeId) : (table.types ++ [shape])[id]? =
        if id = table.types.length then some shape else table.type? id := by
      rcases Nat.lt_trichotomy id table.types.length with smaller | rfl | larger
      · simp [List.getElem?_append_left smaller, Nat.ne_of_lt smaller, type?]
      · simp
      · rw [if_neg (Nat.ne_of_gt larger), List.getElem?_eq_none (by simp; omega), type?,
          List.getElem?_eq_none (Nat.le_of_lt larger)]
    refine ⟨⟨⟨fun id other => ?_, ?_, fun id element listed => ?_, canonical.names⟩,
      List.prefix_append _ _, rfl, rfl⟩, by simp [type?]⟩
    · rw [type?, types, number?, List.lookup_cons]
      by_cases same : other = shape
      · subst same
        have unlisted : table.type? id ≠ some other := fun listed => by
          rw [(canonical.inverse id other).mp listed] at found
          cases found
        by_cases last : id = table.types.length
        · simp [last]
        · simp [last, unlisted, Ne.symm last]
      · rw [beq_eq_false_iff_ne.mpr same]
        split
        · rename_i last
          refine iff_of_false (fun first => same (Option.some.inj first).symm) fun numbered => ?_
          exact Nat.ne_of_lt (lt_of_type? ((canonical.inverse id other).mpr numbered)) last
        · exact canonical.inverse id other
    · exact canonical.predefined.trans (List.prefix_append _ _)
    · rw [type?, types] at listed
      split at listed
      · rename_i last
        exact last ▸ known element (Option.some.inj listed)
      · exact canonical.elements id element listed

theorem initial_types : initial.types = predefined := by
  decide

theorem Canonical.initial : TypeTable.initial.Canonical where
  inverse id shape := by
    have numbered : ∀ id < 17, ∀ shape ∈ TypeTable.initial.type? id,
        TypeTable.initial.number? shape = some id := by decide
    have listed : ∀ entry ∈ TypeTable.initial.numbers,
        TypeTable.initial.type? entry.2 = some entry.1 := by decide
    refine ⟨fun known => numbered id (lt_of_type? known) shape known, fun found => ?_⟩
    rcases List.lookup_eq_some_iff.mp found with ⟨first, last, numbers, -⟩
    exact listed (shape, id) (by simp [numbers])
  predefined := initial_types ▸ List.prefix_rfl
  elements id element found := by
    have member := List.mem_of_getElem? found
    rw [initial_types] at member
    simp [TypeTable.predefined] at member
  names := List.nodup_nil

/-! ## Looking into arrays -/

section Elements

variable (canonical : table.Canonical)
include canonical

/-- What holds of a number if it holds of the elements holds of all numbers that have a type. -/
theorem Canonical.induction (property : TypeId → Prop)
    (step : ∀ id shape, table.type? id = some shape →
      (∀ element, shape = .array element → element < id ∧ property element) → property id)
    (present : id < table.types.length) : property id := by
  induction id using Nat.strongRecOn with
  | _ id ih =>
    rcases exists_type? present with ⟨shape, known⟩
    refine step id shape known fun element same => ?_
    have smaller := canonical.elements id element (same ▸ known)
    exact ⟨smaller, ih element smaller (Nat.lt_trans smaller present)⟩

theorem Canonical.display (present : id < table.types.length) :
    (table.display? id).isSome = true := by
  refine canonical.induction (fun id => (table.display? id).isSome = true)
    (fun id shape known inner => ?_) present
  rw [display?, known]
  cases shape with
  | array element =>
    rcases inner element rfl with ⟨smaller, shows⟩
    rcases Option.isSome_iff_exists.mp shows with ⟨text, shown⟩
    simp [smaller, shown]
  | _ => rfl

theorem Canonical.isGeneric (present : id < table.types.length) :
    (table.isGeneric? id).isSome = true := by
  refine canonical.induction (fun id => (table.isGeneric? id).isSome = true)
    (fun id shape known inner => ?_) present
  rw [isGeneric?, known]
  cases shape with
  | array element => simpa [(inner element rfl).1] using (inner element rfl).2
  | _ => rfl

theorem Canonical.accepts {argument : TypeId} (present : id < table.types.length)
    (given : argument < table.types.length) : (table.accepts? id argument).isSome = true := by
  refine canonical.induction (fun id => ∀ argument < table.types.length,
    (table.accepts? id argument).isSome = true) (fun id shape known inner argument given => ?_)
    present argument given
  rcases exists_type? given with ⟨found, listed⟩
  rw [accepts?]
  split
  · rfl
  rw [known, listed]
  cases shape with
  | array element =>
    cases found with
    | array other =>
      rcases inner element rfl with ⟨smaller, accepts⟩
      simpa [smaller] using accepts other (Nat.lt_trans (canonical.elements _ _ listed) given)
    | _ => rfl
  | method name => cases found <;> rfl
  | _ => rfl

/-- Open types can be replaced, which adds the types that come out. -/
theorem Canonical.substitute {arguments : List TypeId} (present : id < table.types.length)
    (given : ∀ argument ∈ arguments, argument < table.types.length) :
    ∃ outcome later, TypeTable.substitute arguments id table = some (outcome, later) ∧
      Grown table later ∧ outcome < later.types.length := by
  refine canonical.induction (fun id => ∃ outcome later,
    TypeTable.substitute arguments id table = some (outcome, later) ∧ Grown table later ∧
      outcome < later.types.length) (fun id shape known inner => ?_) present
  rw [TypeTable.substitute]
  have stays {outcome : TypeId} (listed : outcome < table.types.length) :
      ∃ result later, some (outcome, table) = some (result, later) ∧ Grown table later ∧
        result < later.types.length := ⟨outcome, table, rfl, .refl canonical, listed⟩
  have looked (next : TypeShape → StateT TypeTable Option TypeId) :
      (get >>= fun current => liftM (current.type? id) >>= next) table = next shape table := by
    change (liftM (table.type? id) >>= next) table = _
    rw [known]
    rfl
  rw [looked]
  cases shape with
  | array element =>
    rcases inner element rfl with ⟨smaller, replaced, between, run, grown, listed⟩
    have numbered := grown.canonical.intern (.array replaced) fun _ same => by
      cases same
      exact listed
    refine ⟨_, _, ?_, grown.trans numbered.1, lt_of_type? numbered.2⟩
    simp only [if_pos smaller, bind, StateT.bind, run]
    rfl
  | generic index =>
    refine stays ?_
    cases found : arguments[index]? with
    | none => exact lt_of_type? known
    | some argument => exact given argument (List.mem_of_getElem? found)
  | _ => exact stays (lt_of_type? known)

end Elements

/-! ## What requests lead to -/

/-- A request is answered with the number of the type that it asks for. -/
structure Answers (table : TypeTable) (request : Request) (id : TypeId) (later : TypeTable) :
    Prop where
  canonical : later.Canonical
  types : table.types <+: later.types
  found : ∀ shape, request.wanted? = some shape → later.type? id = some shape
  /-- A struct is declared by a request for it, under a name that is new. -/
  structs : later.structs = table.structs ∨ ∃ decl line, request = .struct decl line ∧
    decl.name ∉ table.names ∧ later.structs = table.structs ++ [decl]

theorem declare_run (name : String) (add : TypeTable → TypeTable) (line : Nat) :
    declare name shape add line table =
      if table.isTaken name then
        .error (.duplicate line name) table
      else
        .ok (intern shape table).1 (add (intern shape table).2) := by
  rw [declare, Change.get_bind]
  split <;> rfl

/-- An array that is described by a detail has the element that the detail names. -/
theorem element_of_ofDetail {kind : Ty.Kind} {detail : TypeDetail} {element : TypeId}
    (built : TypeShape.ofDetail kind detail = .ok (.array element)) :
    detail = .element element := by
  unfold TypeShape.ofDetail at built
  split at built
  case h_5 =>
    cases built
    rfl
  all_goals
    repeat' split at built
    all_goals cases built

/-- A request on a canonical table is answered, or it fails and changes nothing. -/
theorem Canonical.perform (canonical : table.Canonical) (applies : request.Applies table) :
    (∃ id later, perform request table = some (.ok id later) ∧ Answers table request id later) ∨
      ∃ error, perform request table = some (.error error table) := by
  cases request with
  | intern shape =>
    have numbered := canonical.intern shape applies
    refine .inl ⟨_, _, rfl, numbered.1.canonical, numbered.1.types, fun _ same => ?_,
      .inl numbered.1.structs⟩
    cases same
    exact numbered.2
  | find kind detail =>
    simp only [TypeTable.perform, find]
    cases built : TypeShape.ofDetail kind detail with
    | error error => exact .inr ⟨error, rfl⟩
    | ok shape =>
      have numbered := canonical.intern shape fun element same =>
        applies element (element_of_ofDetail (same ▸ built))
      refine .inl ⟨_, _, rfl, numbered.1.canonical, numbered.1.types, fun _ same => ?_,
        .inl numbered.1.structs⟩
      rw [Request.wanted?, built] at same
      cases same
      exact numbered.2
  | substitute id arguments =>
    have given := List.forall_mem_cons.mp applies
    rcases canonical.substitute given.1 given.2 with ⟨outcome, later, run, grown, -⟩
    refine .inl ⟨outcome, later, ?_, grown.canonical, grown.types, nofun, .inl grown.structs⟩
    rw [TypeTable.perform, run]
    rfl
  | struct decl line =>
    rw [TypeTable.perform, declareStruct, declare_run]
    split
    · exact .inr ⟨_, rfl⟩
    rename_i taken
    rw [← mem_names] at taken
    have numbered := canonical.intern (.struct decl.name) nofun
    refine .inl ⟨_, _, rfl, { numbered.1.canonical with names := ?_ }, numbered.1.types,
      fun _ same => ?_, .inr ⟨decl, line, rfl, taken, by rw [numbered.1.structs]⟩⟩
    · have names := canonical.names
      simp only [TypeTable.names, numbered.1.structs, numbered.1.enums] at taken names ⊢
      simpa [List.nodup_middle] using And.intro (by simpa using taken) names
    · cases same
      exact numbered.2
  | enum decl line =>
    rw [TypeTable.perform, declareEnum, declare_run]
    split
    · exact .inr ⟨_, rfl⟩
    rename_i taken
    rw [← mem_names] at taken
    have numbered := canonical.intern (.enum decl.name) nofun
    refine .inl ⟨_, _, rfl, { numbered.1.canonical with names := ?_ }, numbered.1.types,
      fun _ same => ?_, .inl numbered.1.structs⟩
    · have names := canonical.names
      simp only [TypeTable.names, numbered.1.structs, numbered.1.enums] at taken names ⊢
      rw [List.map_append, ← List.append_assoc]
      exact List.nodup_middle.mpr (by simpa using And.intro (by simpa using taken) names)
    · cases same
      exact numbered.2

/-- What a request leaves behind is an answer to it, or the table itself. -/
theorem Canonical.after (canonical : table.Canonical) (applies : request.Applies table) :
    (∃ id, Answers table request id (table.after request)) ∨ table.after request = table := by
  rcases canonical.perform applies with ⟨id, later, run, answers⟩ | ⟨error, run⟩
  · refine .inl ⟨id, ?_⟩
    rw [TypeTable.after, run]
    exact answers
  · exact .inr (by rw [TypeTable.after, run])

theorem Known.canonical (known : Known table) : table.Canonical := by
  induction known with
  | start => exact .initial
  | step request _ applies canonical =>
    rcases canonical.after applies with ⟨id, answers⟩ | same
    · exact answers.canonical
    · rwa [same]

/-- The types of the fields were there before the struct. -/
def Prepared (table : TypeTable) (decl : NumberedStruct) : Prop :=
  ∃ before, Known before ∧ before.types <+: table.types ∧ decl.name ∉ before.names ∧
    ∀ field ∈ decl.fields, field.2 < before.types.length

theorem Known.fields (known : Known table) : ∀ decl ∈ table.structs, table.Prepared decl := by
  induction known with
  | start => exact nofun
  | @step table request known applies earlier =>
    rcases (Known.canonical known).after applies with ⟨id, answers⟩ | same
    · intro decl listed
      have kept (old : decl ∈ table.structs) : (table.after request).Prepared decl := by
        rcases earlier decl old with ⟨before, reached, grown, new, present⟩
        exact ⟨before, reached, grown.trans answers.types, new, present⟩
      rcases answers.structs with same | ⟨added, line, rfl, new, more⟩
      · exact kept (same ▸ listed)
      · rcases List.mem_append.mp (more ▸ listed) with old | last
        · exact kept old
        · cases List.mem_singleton.mp last
          exact ⟨table, known, answers.types, new, applies⟩
    · rwa [same]

/--
Whatever requests have led to a table, failing ones among them: no type is
listed twice, the list of types and the map of their numbers are inverse to each
other, the predefined types have the first numbers, the element of an array has
a smaller number than the array, and no two declared types share a name.  The
types of the fields of a struct were numbered before it was declared.  So what
looks into arrays comes to an end.  A number keeps its type whatever is
requested next; a request ends with the number of the type that it asks for, or
it fails and leaves the table as it is.
-/
theorem requests_keepCanonical (known : Known table) :
    table.types.Nodup ∧
    (∀ id shape, table.type? id = some shape ↔ table.number? shape = some id) ∧
    (∀ id shape, predefined[id]? = some shape → table.type? id = some shape) ∧
    (∀ id element, table.type? id = some (.array element) → element < id) ∧
    table.names.Nodup ∧
    (∀ decl ∈ table.structs, table.Prepared decl) ∧
    (∀ id < table.types.length, (table.display? id).isSome = true ∧
      (table.isGeneric? id).isSome = true ∧
      ∀ argument < table.types.length, (table.accepts? id argument).isSome = true) ∧
    ∀ request, request.Applies table →
      (∀ id shape, table.type? id = some shape → (table.after request).type? id = some shape) ∧
      ((∃ id later, perform request table = some (.ok id later) ∧
          ∀ shape, request.wanted? = some shape → later.type? id = some shape) ∨
        ∃ error later, perform request table = some (.error error later) ∧ later = table) := by
  have canonical := known.canonical
  refine ⟨canonical.distinct, canonical.inverse, fun id shape first => ?_, canonical.elements,
    canonical.names, known.fields, fun id present => ⟨canonical.display present,
      canonical.isGeneric present, fun argument => canonical.accepts present⟩,
    fun request applies => ⟨fun id shape numbered => ?_, ?_⟩⟩
  · have start : initial.type? id = some shape := by rwa [type?, initial_types]
    exact type?_of_prefix (initial_types ▸ canonical.predefined) start
  · rcases canonical.after applies with ⟨_, answers⟩ | same
    · exact type?_of_prefix answers.types numbered
    · rwa [same]
  · rcases canonical.perform applies with ⟨id, later, run, answers⟩ | ⟨error, run⟩
    · exact .inl ⟨id, later, run, answers.found⟩
    · exact .inr ⟨error, table, run, rfl⟩

/-- An array of structs whose element is declared late, and a struct that is declared twice. -/
theorem requests_keepCanonical_lateStruct :
    ∃ table, Known table ∧ table.types.length = 19 ∧ table.type? 18 = some (.array 17) ∧
      table.number? (.array 17) = some 18 ∧ (table.display? 18).isSome = true ∧
      perform (.enum ⟨"Pair", []⟩ 3) table = some (.error (.duplicate 3 "Pair") table) := by
  have named := (.start : Known initial).step (.find .struct (.name "Pair")) (by exact nofun)
  have listed := named.step (.find .array (.element 17))
    (by exact fun _ same => by cases same; decide +kernel)
  have known := listed.step (.struct ⟨"Pair", [("rest", 18)]⟩ 1)
    (by exact fun field member => by cases List.mem_singleton.mp member; decide +kernel)
  have kept := requests_keepCanonical known
  refine ⟨_, known, by decide +kernel, by decide +kernel, (kept.2.1 18 _).mp (by decide +kernel),
    (kept.2.2.2.2.2.2.1 18 (by decide +kernel)).1, ?_⟩
  rcases (kept.2.2.2.2.2.2.2 (.enum ⟨"Pair", []⟩ 3) (by trivial)).2 with
    ⟨id, later, run, -⟩ | ⟨error, later, run, rfl⟩
  · cases run
  · cases run
    rfl

end Covenant.TypeTable
