import Covenant.Proofs.ExactLiterals
import Covenant.Proofs.FairTypes
import Covenant.Proofs.InterfaceText
import Covenant.Proofs.Sufficiency

/-!
# Libraries of collections

A registry remembers the library of a collection under the names of its types.
The names of written types are distinct: a word names at most one type, only
decimals and methods have an angle bracket in their names, and only arrays end
with a bracket.  None of them has a comma.  So a remembered library is always
the one that would have been built.
-/

namespace Covenant

variable {declared : Declared} {ty : Ty} {word name : String}

/-! ## Written types -/

/-- More structs and enums may have been declared. -/
inductive Declared.Grows (start : Declared) : Declared → Prop
  | refl : Grows start start
  | struct {declared extended : Declared} {decl : StructDecl} {line : Nat}
      (grows : Grows start declared) (added : declared.addStruct decl line = .ok extended) :
      Grows start extended
  | enum {declared extended : Declared} {decl : EnumDecl} {line : Nat}
      (grows : Grows start declared) (added : declared.addEnum decl line = .ok extended) :
      Grows start extended

theorem Declared.isTaken_of_named? (known : declared.named? name = some ty) :
    declared.isTaken name = true := by
  unfold named? at known
  rw [isTaken, Bool.or_eq_true]
  split at known
  · exact .inl ‹_›
  · split at known
    · exact .inr ‹_›
    · cases known

/-- A declared name keeps its meaning. -/
theorem Declared.Grows.named? {start : Declared} (grows : start.Grows declared)
    (known : start.named? name = some ty) : declared.named? name = some ty := by
  induction grows with
  | refl => exact known
  | @struct declared extended decl line _ added ih
  | @enum declared extended decl line _ added ih =>
    simp only [addStruct, addEnum] at added
    split at added
    next => cases added
    next new =>
      cases added
      have other : decl.name ≠ name := fun same => new (same ▸ isTaken_of_named? ih)
      rw [← ih]
      simp [Declared.named?, struct?, enum?, List.find?_append, other]

/--
The type can be written in a source where these types are declared, now or
earlier: reading a type from a token of the source gives it.
-/
def Ty.WrittenIn (declared : Declared) (ty : Ty) : Prop :=
  ∃ (source : String) (earlier : Declared) (before after : Reading.State),
    earlier.Grows declared ∧ (∀ token ∈ before.rest.head?, token ∈ Token.scan source) ∧
      (Reading.writtenType earlier).run before = .ok (ty, after)

/-- The type that a word names by itself. -/
def Declared.ofWord? (declared : Declared) (word : String) : Option Ty :=
  match Ty.Kind.ofTypeName? word with
  | some kind => Ty.ofPrimitive? kind
  | none => declared.named? word

/-- The forms of types in a source. -/
inductive Ty.Spelled (declared : Declared) : Ty → Prop
  | word {word : String} {ty : Ty} (isWord : Word.isIdentifier word = true)
      (means : declared.ofWord? word = some ty) (shown : ty.display = word) : Spelled declared ty
  | decimal (places : Ty.Places) : Spelled declared (.decimal places)
  | method : Spelled declared (.method "")
  | array {element : Ty} (spelled : Spelled declared element) : Spelled declared (.array element)

theorem Declared.display_of_named? (known : declared.named? name = some ty) :
    ty.display = name := by
  unfold named? at known
  split at known
  · cases known
    rfl
  · split at known
    · cases known
      rfl
    · cases known

theorem Declared.closed_of_word (means : declared.ofWord? word = some ty) :
    ty.isGeneric = false := by
  unfold ofWord? at means
  split at means
  next kind _ => cases kind <;> cases means <;> rfl
  next =>
    unfold named? at means
    split at means
    · cases means
      rfl
    · split at means <;> cases means
      rfl

theorem Ty.Kind.isTypeName_of_kind {kind : Ty.Kind} (named : Ty.Kind.ofTypeName? word = some kind) :
    word = kind.name ∧ Word.isTypeName word = true := by
  have found := List.find?_some named
  simp only [Bool.and_eq_true, Bool.not_eq_true', beq_iff_eq] at found
  rcases found with ⟨given, rfl⟩
  refine ⟨rfl, ?_⟩
  cases kind <;> first | rfl | cases given

/-- A declared name that is no type name. -/
theorem Ty.Spelled.of_named (isWord : Word.isIdentifier word = true)
    (other : Word.isTypeName word = false) (known : declared.named? word = some ty) :
    ty.Spelled declared := by
  refine .word isWord ?_ (Declared.display_of_named? known)
  unfold Declared.ofWord?
  split
  next kind isKind =>
    rw [(Ty.Kind.isTypeName_of_kind isKind).2] at other
    cases other
  next => exact known

namespace Reading

/-- A type of the language has a word for its name, unless it is a decimal or a method. -/
theorem languageType_spelled {token : Token} {before after : State}
    (read : (languageType token).run before = .ok (ty, after)) : ty.Spelled declared := by
  unfold languageType at read
  cases named : Ty.Kind.ofTypeName? token.value with
  | none =>
    rw [named] at read
    cases read
  | some kind =>
    rw [named] at read
    rcases Ty.Kind.isTypeName_of_kind named with ⟨spelling, -⟩
    have word {ty : Ty} (simple : Ty.ofPrimitive? kind = some ty)
        (shown : ty.display = kind.name) (isWord : Word.isIdentifier kind.name = true) :
        ty.Spelled declared := by
      refine .word isWord ?_ shown
      rw [Declared.ofWord?, ← spelling, named]
      exact simple
    cases kind
    case decimal =>
      rcases ok_of_bind read with ⟨_, _, -, read⟩
      rcases ok_of_bind read with ⟨places, _, -, read⟩
      rcases ok_of_bind read with ⟨_, _, -, read⟩
      unfold Ty.ofPlaces at read
      split at read <;> cases read
      exact .decimal _
    case method =>
      cases read
      exact .method
    case storageMap | storageList | storageSet | generic | struct | enum | array => cases read
    all_goals
      cases read
      exact word rfl rfl rfl

theorem arrayLevels_spelled (spelled : ty.Spelled declared) (tokens : List Token) :
    (arrayLevels ty tokens).1.Spelled declared := by
  fun_induction arrayLevels ty tokens with
  | case1 ty first second rest _ ih => exact ih (.array spelled)
  | case2 => exact spelled
  | case3 => exact spelled

end Reading

/-- A type that can be written has one of the forms. -/
theorem Ty.WrittenIn.spelled (written : ty.WrittenIn declared) : ty.Spelled declared := by
  rcases written with ⟨source, earlier, before, after, grows, scanned, read⟩
  rcases Reading.ok_of_bind read with ⟨token, between, fetched, read⟩
  rcases Reading.ok_of_bind read with ⟨inner, last, named, read⟩
  have listed : token ∈ Token.scan source := by
    refine scanned token ?_
    rcases before with ⟨tokens, lastLine, nodes, scopes⟩
    cases tokens with
    | nil => cases fetched
    | cons first rest =>
      cases fetched
      rfl
  have spelled : inner.Spelled declared := by
    unfold Reading.innermostType at named
    have language (named : (if Word.isTypeName token.value then Reading.languageType token
        else Reading.fail (.expected token.line "type" token.value)).run between =
          .ok (inner, last)) : inner.Spelled declared := by
      split at named
      · exact Reading.languageType_spelled named
      · cases named
    split at named
    next isIdentifier =>
      have forms := Token.scan_forms listed
      rw [isIdentifier] at forms
      rcases forms with ⟨isWord, noType⟩
      rw [String.ofList_toList] at isWord noType
      cases known : earlier.named? token.value with
      | none =>
        rw [known] at named
        cases named
      | some ty =>
        rw [known] at named
        cases named
        exact .of_named isWord noType (grows.named? known)
    next => exact language named
    next => exact language named
    next => cases named
  cases read
  exact Reading.arrayLevels_spelled spelled _

/-! ## Names of types -/

theorem Word.continues_of_mem (isWord : isIdentifier word = true) {character : Char}
    (member : character ∈ word.toList) : continuesName character = true := by
  unfold isIdentifier at isWord
  cases spelled : word.toList with
  | nil =>
    rw [spelled] at member
    cases member
  | cons first rest =>
    rw [spelled] at isWord member
    simp only [Bool.and_eq_true, List.all_eq_true] at isWord
    rcases List.mem_cons.mp member with rfl | later
    · have starts := isWord.1
      simp only [startsName, Bool.or_eq_true] at starts
      simp only [continuesName, isLetterOrDigit, Bool.or_eq_true]
      rcases starts with letter | underscore
      · exact .inl (.inl letter)
      · exact .inr underscore
    · exact isWord.2 _ later

namespace Ty

variable {declared : Declared} {one two ty : Ty}

theorem toList_display_decimal (places : Ty.Places) :
    (Ty.decimal places).display.toList =
      "decimal<".toList ++ (Nat.toDigits 10 places.val ++ ">".toList) := by
  simp only [display, String.toList_append, List.append_assoc]
  congr 1
  simp [Nat.repr]
  rfl

theorem notMem_display_decimal {character : Char} (places : Ty.Places)
    (outside : character ∉ "decimal<>".toList) (noDigit : Text.isDigit character = false) :
    character ∉ (Ty.decimal places).display.toList := by
  rw [toList_display_decimal]
  intro member
  rcases List.mem_append.mp member with front | member
  · exact outside (List.mem_append_left [(">".toList.head (by decide))] front)
  · rcases List.mem_append.mp member with digit | back
    · rw [Text.isDigit_of_mem_toDigits digit] at noDigit
      cases noDigit
    · exact outside (List.mem_append_right "decimal<".toList back)

/-- No name has a comma in it. -/
theorem Spelled.comma_notMem (spelled : ty.Spelled declared) : ',' ∉ ty.display.toList := by
  induction spelled with
  | word isWord means shown =>
    rw [shown]
    exact fun comma => absurd (Word.continues_of_mem isWord comma) (by decide)
  | decimal places => exact notMem_display_decimal places (by decide) rfl
  | method => decide +kernel
  | array spelled ih =>
    rw [display, String.toList_append, List.mem_append, not_or]
    exact ⟨ih, by decide⟩

theorem decimal_of_display {places wanted : Ty.Places}
    (same : (Ty.decimal places).display = (Ty.decimal wanted).display) : places = wanted := by
  have characters := congrArg String.toList same
  rw [toList_display_decimal, toList_display_decimal] at characters
  have digits := List.append_cancel_right (List.append_cancel_left characters)
  apply Subtype.ext
  rw [← Text.digitsValue_toDigits places.val, digits, Text.digitsValue_toDigits]

theorem element_of_display {element other : Ty}
    (same : (Ty.array element).display = (Ty.array other).display) :
    element.display = other.display := by
  have characters := congrArg String.toList same
  simp only [display, String.toList_append] at characters
  exact String.toList_injective (List.append_cancel_right characters)

/-- What a name is the name of. -/
inductive Shape where
  | word
  | decimal
  | method
  | array

/-- The shape of a type can be seen in the characters of its name. -/
def shape (name : String) : Shape :=
  if ']' ∈ name.toList then .array
  else if '<' ∉ name.toList then .word
  else if 'c' ∈ name.toList then .decimal
  else .method

theorem shape_word (isWord : Word.isIdentifier word = true) : shape word = .word := by
  have absent {character : Char} (mark : Word.continuesName character = false) :
      character ∉ word.toList := by
    intro member
    rw [Word.continues_of_mem isWord member] at mark
    cases mark
  rw [shape, if_neg (absent rfl), if_pos (absent rfl)]

theorem shape_decimal (places : Ty.Places) : shape (Ty.decimal places).display = .decimal := by
  have inside {character : Char} (member : character ∈ "decimal<".toList) :
      character ∈ (Ty.decimal places).display.toList := by
    rw [toList_display_decimal]
    exact List.mem_append_left _ member
  rw [shape, if_neg (notMem_display_decimal places (by decide) rfl),
    if_neg (not_not_intro (inside (by decide))), if_pos (inside (by decide))]

theorem shape_array (element : Ty) : shape (Ty.array element).display = .array := by
  rw [shape, display, String.toList_append]
  exact if_pos (List.mem_append_right _ (by decide))

/-- Types with the same name are the same. -/
theorem Spelled.eq_of_display (first : one.Spelled declared) (second : two.Spelled declared)
    (same : one.display = two.display) : one = two := by
  have shapes : shape one.display = shape two.display := congrArg shape same
  have shape_method : shape (Ty.method "").display = .method := rfl
  induction first generalizing two with
  | word isWord means shown =>
    rw [shown, shape_word isWord] at shapes
    cases second with
    | word _ otherMeans otherShown =>
      rw [← shown, same, otherShown] at means
      exact Option.some.inj (means.symm.trans otherMeans)
    | decimal places => cases shapes.trans (shape_decimal places)
    | method => cases shapes.trans shape_method
    | array => cases shapes.trans (shape_array _)
  | decimal places =>
    rw [shape_decimal] at shapes
    cases second with
    | word isWord _ shown => cases shapes.trans (shown ▸ shape_word isWord)
    | decimal wanted => rw [decimal_of_display same]
    | method => cases shapes.trans shape_method
    | array => cases shapes.trans (shape_array _)
  | method =>
    cases second with
    | word isWord _ shown => cases shapes.trans (shown ▸ shape_word isWord)
    | decimal places => cases shapes.trans (shape_decimal places)
    | method => rfl
    | array => cases shapes.trans (shape_array _)
  | array _ ih =>
    rw [shape_array] at shapes
    cases second with
    | word isWord _ shown => cases shapes.trans (shown ▸ shape_word isWord)
    | decimal places => cases shapes.trans (shape_decimal places)
    | method => cases shapes.trans shape_method
    | array second =>
      have elements := element_of_display same
      rw [ih second elements (congrArg shape elements)]

/-- The names of types, with commas between them, tell which types they are. -/
theorem eq_of_signature {first second : List Ty} (one : ∀ ty ∈ first, ty.Spelled declared)
    (two : ∀ ty ∈ second, ty.Spelled declared) (given : first ≠ []) (asked : second ≠ [])
    (same : ",".intercalate (first.map display) = ",".intercalate (second.map display)) :
    first = second := by
  have parts {types : List Ty} (spelled : ∀ ty ∈ types, ty.Spelled declared) (some : types ≠ []) :
      List.splitOn ',' (",".intercalate (types.map display)).toList =
        types.map fun ty => ty.display.toList := by
    rw [String.toList_intercalate, List.map_map]
    refine List.splitOn_intercalate ',' ?_ (by simpa using some)
    intro name member
    rcases List.mem_map.mp member with ⟨ty, listed, rfl⟩
    exact (spelled ty listed).comma_notMem
  have names : (first.map fun ty => ty.display.toList) =
      second.map fun ty => ty.display.toList := by
    rw [← parts one given, same, parts two asked]
  clear same parts given asked
  induction first generalizing second with
  | nil => exact (List.map_eq_nil_iff.mp names.symm).symm
  | cons ty types ih =>
    cases second with
    | nil => cases names
    | cons other others =>
      rw [List.forall_mem_cons] at one two
      rw [List.map_cons, List.map_cons, List.cons.injEq] at names
      rw [one.1.eq_of_display two.1 (String.toList_injective names.1), ih one.2 two.2 names.2]

/-! ## Open types -/

/-- The open types in a type are among the first ones. -/
def opensBelow (bound : Nat) : Ty → Bool
  | generic index => index < bound
  | array element => element.opensBelow bound
  | _ => true

theorem Spelled.closed (spelled : ty.Spelled declared) : ty.isGeneric = false := by
  induction spelled with
  | word isWord means shown => exact Declared.closed_of_word means
  | decimal | method => rfl
  | array _ ih => exact ih

/-- Nothing stays open where every open type gets an argument. -/
theorem substitute_closed {arguments : List Ty} (closed : ∀ ty ∈ arguments, ty.isGeneric = false)
    (opens : ty.opensBelow arguments.length = true) :
    (ty.substitute arguments).isGeneric = false := by
  induction ty with
  | generic index =>
    have small : index < arguments.length := by simpa [opensBelow] using opens
    rw [substitute, List.getElem?_eq_getElem small]
    exact closed _ (List.getElem_mem small)
  | array element ih => exact ih opens
  | _ => rfl

end Ty

/-- The types that a method mentions. -/
def Method.types (method : Method) : List Ty :=
  method.returns :: method.parameters.map Parameter.ty

/-- No method of the library mentions an open type. -/
def Library.isClosed (library : Library) : Bool :=
  library.methods.all fun method => method.types.all fun ty => !ty.isGeneric

/-- Collections ask for a template, which has as many open types as they have arguments. -/
theorem templates_open {count : Nat}
    (listed : (name, count) ∈ [("Map", 2), ("List", 1), ("Set", 1)]) :
    ∃ template, Library.standard? name = some template ∧
      ∀ method ∈ template.methods, ∀ ty ∈ method.types, ty.opensBelow count = true := by
  have known : ∀ pair ∈ [("Map", 2), ("List", 1), ("Set", 1)],
      ((Library.standard? pair.1).any fun template =>
        template.methods.all fun method => method.types.all (Ty.opensBelow pair.2)) = true := by
    decide +kernel
  have opened := known _ listed
  cases found : Library.standard? name with
  | none =>
    rw [found] at opened
    cases opened
  | some template =>
    rw [found] at opened
    exact ⟨template, rfl, by simpa using opened⟩

namespace Specialization

/-- A template with written types for all its open types. -/
structure Proper (declared : Declared) (request : Specialization) : Prop where
  template : (request.template, request.arguments.length) ∈ [("Map", 2), ("List", 1), ("Set", 1)]
  spelled : ∀ ty ∈ request.arguments, ty.Spelled declared

variable {declared : Declared} {request other : Specialization}

theorem Proper.exists_library (proper : request.Proper declared) :
    ∃ library, ∀ line, request.library line = .ok library := by
  rcases templates_open proper.template with ⟨template, found, -⟩
  refine ⟨template.specialize request.libraryName request.arguments, fun line => ?_⟩
  rw [library, found]

/-- The library that is built has the name of the request, and no open types. -/
theorem Proper.built (proper : request.Proper declared) {line : Nat} {library : Library}
    (built : request.library line = .ok library) :
    library.name = request.libraryName ∧ library.isClosed = true := by
  rcases templates_open proper.template with ⟨template, found, opens⟩
  rw [Specialization.library, found] at built
  cases built
  refine ⟨rfl, ?_⟩
  have closed : ∀ ty ∈ request.arguments, ty.isGeneric = false :=
    fun ty listed => (proper.spelled ty listed).closed
  simp only [Library.isClosed, Library.specialize, Method.types, Method.substitute, List.all_map,
    List.all_eq_true, List.all_cons, Function.comp_apply, Bool.and_eq_true, Bool.not_eq_true']
  intro method listed
  have fits {ty : Ty} (mentioned : ty ∈ method.types) :
      (ty.substitute request.arguments).isGeneric = false :=
    Ty.substitute_closed closed (opens method listed ty mentioned)
  exact ⟨fits List.mem_cons_self, fun parameter given =>
    fits (List.mem_cons_of_mem _ (List.mem_map_of_mem given))⟩

theorem Proper.arguments_ne_nil (proper : request.Proper declared) : request.arguments ≠ [] := by
  intro empty
  have listed := proper.template
  rw [empty] at listed
  simp at listed

/-- What a registry remembers a request by tells the request. -/
theorem Proper.eq_of_key (one : request.Proper declared) (two : other.Proper declared)
    (templates : request.template = other.template)
    (signatures : request.signature = other.signature) : request = other := by
  have arguments : request.arguments = other.arguments :=
    Ty.eq_of_signature one.spelled two.spelled one.arguments_ne_nil two.arguments_ne_nil signatures
  rcases request with ⟨template, types⟩
  rcases other with ⟨template', types'⟩
  simp only at templates arguments
  rw [templates, arguments]

/-- So does the name of its library. -/
theorem Proper.eq_of_libraryName (one : request.Proper declared) (two : other.Proper declared)
    (same : request.libraryName = other.libraryName) : request = other := by
  have front {request : Specialization} (proper : request.Proper declared) :
      request.libraryName.toList.takeWhile (· != '<') = request.template.toList := by
    have listed := proper.template
    simp only [List.mem_cons, Prod.mk.injEq, List.not_mem_nil, or_false] at listed
    rcases listed with ⟨isMap, -⟩ | ⟨isList, -⟩ | ⟨isSet, -⟩ <;> simp [libraryName, *]
  have templates : request.template = other.template :=
    String.toList_injective (by rw [← front one, same, front two])
  have characters := congrArg String.toList same
  simp only [libraryName, templates, String.toList_append, List.append_assoc] at characters
  have signatures := List.append_cancel_left (List.append_cancel_left characters)
  exact one.eq_of_key two templates
    (String.toList_injective (List.append_cancel_right signatures))

end Specialization

/-! ## Requests of collections -/

/-- A storage collection whose types can be written. -/
inductive Variable.Kept (declared : Declared) (collection : Variable) : Prop
  | map {key value : Ty} (isMap : collection.ty = .storageMap)
      (given : collection.collection = some ⟨some key, value⟩)
      (keyWritten : key.WrittenIn declared) (valueWritten : value.WrittenIn declared)
  | list {types : CollectionTypes} (isList : collection.ty = .storageList)
      (given : collection.collection = some types) (written : types.value.WrittenIn declared)
  | set {types : CollectionTypes} (isSet : collection.ty = .storageSet)
      (given : collection.collection = some types) (written : types.value.WrittenIn declared)

theorem Variable.Kept.exists_request {collection : Variable} (kept : collection.Kept declared) :
    ∃ request, Specialization.ofCollection collection = .ok request ∧
      request.Proper declared := by
  unfold Specialization.ofCollection
  cases kept with
  | @map key value isMap given keyWritten valueWritten =>
    rw [isMap]
    refine ⟨⟨"Map", [key, value]⟩, ?_, by simp, ?_⟩
    · simp [Specialization.ofMap, Specialization.typesOf, given, bind, Except.bind, pure,
        Except.pure]
    · simpa using ⟨keyWritten.spelled, valueWritten.spelled⟩
  | @list types isList given written =>
    rw [isList]
    refine ⟨⟨"List", [types.value]⟩, ?_, by simp, ?_⟩
    · simp [Specialization.ofList, Specialization.typesOf, given, bind, Except.bind, pure,
        Except.pure]
    · simpa using written.spelled
  | @set types isSet given written =>
    rw [isSet]
    refine ⟨⟨"Set", [types.value]⟩, ?_, by simp, ?_⟩
    · simp [Specialization.ofSet, Specialization.typesOf, given, bind, Except.bind, pure,
        Except.pure]
    · simpa using written.spelled

namespace Registry

/-- What a collection is given: its library, and where the registry keeps it. -/
structure Served where
  library : Library
  place : Nat

/-- Give out the library behind a storage collection. -/
def serve (registry : Registry) (collection : Variable) : Except Error (Served × Registry) := do
  let request ← Specialization.ofCollection collection
  let given ← registry.specialize request collection.line
  return (⟨given.1.library, given.1.earlier.getD registry.entries.length⟩, given.2)

/-- Give out the libraries behind some storage collections, one after the other. -/
def serveAll (registry : Registry) : List Variable → Except Error (List Served × Registry)
  | [] => return ([], registry)
  | collection :: collections => do
      let first ← registry.serve collection
      let rest ← first.2.serveAll collections
      return (first.1 :: rest.1, rest.2)

/-- What a registry remembers a request by. -/
abbrev keyOf (request : Specialization) : Key :=
  .specialized request.template request.signature

variable {registry : Registry} {collection : Variable}

theorem remembered?_some {key : Key} {answer : Answer}
    (known : registry.remembered? key = some answer) :
    ∃ place, answer.earlier = some place ∧
      registry.entries[place]? = some (key, answer.library) := by
  unfold remembered? at known
  rcases Option.map_eq_some_iff.mp known with ⟨pair, found, rfl⟩
  have isKey := List.find?_some found
  have listed := List.mem_of_find?_eq_some found
  refine ⟨pair.2, rfl, ?_⟩
  rw [List.mk_mem_zipIdx_iff_getElem?.mp listed]
  simp only [decide_eq_true_eq] at isKey
  rw [← isKey]

theorem remembered?_none {key : Key} (unknown : registry.remembered? key = none) :
    key ∉ registry.entries.map Prod.fst := by
  unfold remembered? at unknown
  rw [Option.map_eq_none_iff, List.find?_eq_none] at unknown
  intro member
  rcases List.mem_map.mp member with ⟨entry, listed, rfl⟩
  rcases List.mem_iff_getElem?.mp listed with ⟨place, found⟩
  exact unknown (entry, place) (List.mk_mem_zipIdx_iff_getElem?.mpr found) (by simp)

/-- Every library is remembered once, under a request that it was built for. -/
structure Remembers (declared : Declared) (registry : Registry) : Prop where
  distinct : (registry.entries.map Prod.fst).Nodup
  built : ∀ entry ∈ registry.entries, ∃ request : Specialization, request.Proper declared ∧
    entry.1 = keyOf request ∧ ∀ line, request.library line = .ok entry.2

/-- The registry keeps what a collection was given, and it is what the collection asks for. -/
def Keeps (declared : Declared) (registry : Registry) (collection : Variable) (served : Served) :
    Prop :=
  ∃ request : Specialization, Specialization.ofCollection collection = .ok request ∧
    request.Proper declared ∧ (∀ line, request.library line = .ok served.library) ∧
      registry.entries[served.place]? = some (keyOf request, served.library)

/-- One collection is served. -/
theorem Remembers.serve (remembers : registry.Remembers declared)
    (kept : collection.Kept declared) :
    ∃ served after, registry.serve collection = .ok (served, after) ∧
      after.Remembers declared ∧ registry.entries <+: after.entries ∧
        after.Keeps declared collection served := by
  rcases kept.exists_request with ⟨request, asked, proper⟩
  rcases proper.exists_library with ⟨library, builds⟩
  cases known : registry.remembered? (keyOf request) with
  | some answer =>
    rcases remembered?_some known with ⟨place, earlier, found⟩
    rcases remembers.built _ (List.mem_of_getElem? found) with ⟨other, properOther, key, built⟩
    have same : other = request := by
      rw [Key.specialized.injEq] at key
      exact properOther.eq_of_key proper key.1.symm key.2.symm
    refine ⟨⟨answer.library, place⟩, registry, ?_, remembers, List.prefix_refl _, request, asked,
      proper, same ▸ built, found⟩
    rw [Registry.serve, asked]
    change (registry.specialize request collection.line >>= _) = _
    rw [specialize, Registry.answer, known]
    change Except.ok _ = _
    rw [earlier]
    rfl
  | none =>
    have new := remembered?_none known
    refine ⟨⟨library, registry.entries.length⟩,
      { registry with entries := registry.entries ++ [(keyOf request, library)] }, ?_, ⟨?_, ?_⟩,
      List.prefix_append _ _, request, asked, proper, builds, List.getElem?_concat_length ..⟩
    · rw [Registry.serve, asked]
      change (registry.specialize request collection.line >>= _) = _
      rw [specialize, Registry.answer, known, builds]
      rfl
    · rw [List.map_append]
      refine List.nodup_append.mpr ⟨remembers.distinct, by simp, ?_⟩
      rintro key listed last isLast rfl
      rw [List.map_singleton, List.mem_singleton] at isLast
      subst isLast
      exact new listed
    · intro entry member
      rcases List.mem_append.mp member with old | isNew
      · exact remembers.built entry old
      · cases List.mem_singleton.mp isNew
        exact ⟨request, proper, rfl, builds⟩

theorem Keeps.mono {after : Registry} {served : Served}
    (keeps : registry.Keeps declared collection served)
    (grows : registry.entries <+: after.entries) : after.Keeps declared collection served := by
  rcases keeps with ⟨request, asked, proper, builds, found⟩
  refine ⟨request, asked, proper, builds, ?_⟩
  rcases grows with ⟨more, whole⟩
  rw [← whole, List.getElem?_append_left (List.getElem?_eq_some_iff.mp found).1, found]

/-- All collections are served, and the registry keeps what they were given. -/
theorem Remembers.serveAll (remembers : registry.Remembers declared) {collections : List Variable}
    (kept : ∀ collection ∈ collections, collection.Kept declared) :
    ∃ served after, registry.serveAll collections = .ok (served, after) ∧
      after.Remembers declared ∧ registry.entries <+: after.entries ∧
        List.Forall₂ (after.Keeps declared) collections served := by
  induction collections generalizing registry with
  | nil => exact ⟨[], registry, rfl, remembers, List.prefix_refl _, .nil⟩
  | cons collection collections ih =>
    rw [List.forall_mem_cons] at kept
    rcases remembers.serve kept.1 with ⟨first, between, ran, remembersMore, grows, keeps⟩
    rcases ih remembersMore kept.2 with ⟨rest, after, ranAll, remembersAll, growsMore, keepsAll⟩
    refine ⟨first :: rest, after, ?_, remembersAll, grows.trans growsMore,
      .cons (keeps.mono growsMore) keepsAll⟩
    rw [Registry.serveAll, ran]
    change (between.serveAll collections >>= _) = _
    rw [ranAll]
    rfl

/-- Two collections are given the same library, at the same place, if they ask for the same. -/
theorem Remembers.same_iff (remembers : registry.Remembers declared) {other : Variable}
    {served given : Served} (keeps : registry.Keeps declared collection served)
    (keepsOther : registry.Keeps declared other given) :
    (served.place = given.place ↔
      Specialization.ofCollection collection = Specialization.ofCollection other) ∧
    (served.library = given.library ↔
      Specialization.ofCollection collection = Specialization.ofCollection other) := by
  rcases keeps with ⟨one, asked, proper, builds, found⟩
  rcases keepsOther with ⟨two, askedOther, properOther, buildsOther, foundOther⟩
  rw [asked, askedOther, Except.ok.injEq]
  refine ⟨⟨fun same => ?_, fun same => ?_⟩, fun same => ?_, fun same => ?_⟩
  · rw [same, foundOther, Option.some.injEq, Prod.mk.injEq, Key.specialized.injEq] at found
    exact proper.eq_of_key properOther found.1.1.symm found.1.2.symm
  · subst same
    have keys : (registry.entries.map Prod.fst)[served.place]? =
        (registry.entries.map Prod.fst)[given.place]? := by
      rw [List.getElem?_map, List.getElem?_map, found, foundOther]
      rfl
    have within : served.place < (registry.entries.map Prod.fst).length := by
      rw [List.length_map]
      exact (List.getElem?_eq_some_iff.mp found).1
    exact (List.getElem?_inj within remembers.distinct).mp keys
  · refine proper.eq_of_libraryName properOther ?_
    rw [← (proper.built (builds 0)).1, same, (properOther.built (buildsOther 0)).1]
  · subst same
    exact Except.ok.inj ((builds 0).symm.trans (buildsOther 0))

/--
Whatever collections ask a registry one after the other, each is given the library that would be
built for its own types, with no open types left in it.  Two of them are given the same library,
from the same place, exactly if they ask for the same template and the same types: the names of
written types, with commas between them, are never the same for different types.
-/
theorem collections_served {collections : List Variable}
    (kept : ∀ collection ∈ collections, collection.Kept declared) :
    (∃ served after, serveAll {} collections = .ok (served, after) ∧
      List.Forall₂ (fun collection given => Library.ofCollection collection = .ok given.library ∧
        given.library.isClosed = true) collections served ∧
      ∀ one ∈ collections.zip served, ∀ two ∈ collections.zip served,
        (one.2.place = two.2.place ↔
          Specialization.ofCollection one.1 = Specialization.ofCollection two.1) ∧
        (one.2.library = two.2.library ↔
          Specialization.ofCollection one.1 = Specialization.ofCollection two.1)) ∧
    ∀ one two : Specialization, one.arguments ≠ [] → two.arguments ≠ [] →
      (∀ ty ∈ one.arguments ++ two.arguments, ty.WrittenIn declared) →
      one.signature = two.signature → one.arguments = two.arguments := by
  constructor
  · have empty : Remembers declared {} := ⟨List.nodup_nil, fun _ member => by cases member⟩
    rcases empty.serveAll kept with ⟨served, after, ran, remembers, -, keeps⟩
    refine ⟨served, after, ran, keeps.imp fun collection given keep => ?_, ?_⟩
    · rcases keep with ⟨request, asked, proper, builds, -⟩
      refine ⟨?_, (proper.built (builds 0)).2⟩
      rw [Library.ofCollection, asked]
      exact builds collection.line
    · intro one oneListed two twoListed
      rcases List.forall₂_iff_zip.mp keeps with ⟨-, keepsOf⟩
      exact remembers.same_iff (keepsOf oneListed) (keepsOf twoListed)
  · intro one two given asked written same
    have spelled (ty : Ty) (listed : ty ∈ one.arguments ++ two.arguments) : ty.Spelled declared :=
      (written ty listed).spelled
    exact Ty.eq_of_signature (fun ty listed => spelled ty (List.mem_append_left _ listed))
      (fun ty listed => spelled ty (List.mem_append_right _ listed)) given asked same

/-- A struct is declared. -/
def pointDeclared : Declared := { structs := [{ name := "Point" }] }

theorem point_written : (Ty.struct "Point").WrittenIn pointDeclared :=
  ⟨"Point", pointDeclared, { rest := [⟨.identifier, "Point", ⟨0, 1, 1⟩, 5⟩], lastLine := 1 }, _,
    .refl, by decide +kernel, rfl⟩

theorem decimals_written : (Ty.array (.decimal ⟨3, by decide⟩)).WrittenIn pointDeclared :=
  ⟨"decimal<3>[]", pointDeclared,
    { rest := [⟨.type, "decimal", ⟨0, 1, 1⟩, 7⟩, ⟨.operator, "<", ⟨7, 1, 8⟩, 8⟩,
        ⟨.number, "3", ⟨8, 1, 9⟩, 9⟩, ⟨.operator, ">", ⟨9, 1, 10⟩, 10⟩,
        ⟨.separator, "[", ⟨10, 1, 11⟩, 11⟩, ⟨.separator, "]", ⟨11, 1, 12⟩, 12⟩]
      lastLine := 1 }, _, .refl, by decide +kernel, rfl⟩

/-- Two maps with the same types, and a set. -/
def pointCollections : List Variable :=
  let types : CollectionTypes := ⟨some (.struct "Point"), .array (.decimal ⟨3, by decide⟩)⟩
  [{ id := 0, name := "one", ty := .storageMap, storage := .global, scope := 0, line := 1
     collection := some types },
    { id := 1, name := "two", ty := .storageMap, storage := .global, scope := 0, line := 2
      collection := some types },
    { id := 2, name := "three", ty := .storageSet, storage := .global, scope := 0, line := 3
      collection := some ⟨none, .struct "Point"⟩ }]

theorem pointCollections_kept : ∀ collection ∈ pointCollections, collection.Kept pointDeclared := by
  simp only [pointCollections, List.forall_mem_cons]
  exact ⟨.map rfl rfl point_written decimals_written, .map rfl rfl point_written decimals_written,
    .set rfl rfl point_written, List.forall_mem_nil _⟩

theorem collections_served_points :
    (∀ collection ∈ pointCollections, collection.Kept pointDeclared) ∧
      ∃ served after, serveAll {} pointCollections = .ok (served, after) ∧
        List.Forall₂ (fun collection given =>
          Library.ofCollection collection = .ok given.library ∧ given.library.isClosed = true)
          pointCollections served := by
  rcases (collections_served pointCollections_kept).1 with ⟨served, after, ran, fresh, -⟩
  exact ⟨pointCollections_kept, served, after, ran, fresh⟩

end Registry

end Covenant
