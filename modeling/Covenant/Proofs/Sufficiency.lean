import Covenant.Callable.Registry
import Covenant.Interface.Basic
import Covenant.Proofs.Supply
import Covenant.Proofs.Typing

/-!
# Methods that can be called

A call has at least as many arguments as its method has parameters.  Where the
parameters are enough for what the method reads of its arguments, so are the
arguments.  This holds of every method that a source can call: those of the
catalogue, the constructors of structs, the methods of collections, those of
other contracts and those of the module itself.  Only the last ones belong to
the module.
-/

namespace Covenant

/-- If the arguments of the method are not checked, then it calls by name or is imported. -/
def Method.isExcused (method : Method) : Bool :=
  !method.isUntyped || method ∈ Catalogue.callLibrary.methods || method.means = .contractCall

/-- The parameters are enough for the arguments that a call reads and for its type. -/
def Method.Sufficient (method : Method) : Prop :=
  method.needs ≤ method.parameters.length ∧ method.isExcused = true ∧
    match method.resultType with
    | .argument index | .element index => index < method.parameters.length
    | .declared | .explicit _ => True

instance (method : Method) : Decidable method.Sufficient := by
  unfold Method.Sufficient
  cases method.resultType <;> infer_instance

/-- If the expression is a call, then its arguments are checked unless its method is excused. -/
def Expr.isExcused : Expr → Bool
  | .call _ _ method _ _ => method.isExcused
  | _ => true

/-- Every method of the library has enough parameters. -/
def Library.Sufficient (library : Library) : Prop :=
  ∀ method ∈ library.methods, method.Sufficient

/-- The methods of the library have enough parameters, and the module that calls them owns none. -/
def Library.Foreign (library : Library) : Prop :=
  ∀ method ∈ library.methods, ¬ method.IsOwn ∧ method.Sufficient

namespace Library

variable {library : Library} {name : String} {method : Method} {methods : List Method}

theorem mem_of_method? (found : library.method? name = some method) : method ∈ library.methods :=
  List.mem_of_find?_eq_some found

theorem mem_insertInto {other : Method} (member : other ∈ insertInto method methods) :
    other = method ∨ other ∈ methods := by
  induction methods with
  | nil => simpa [insertInto] using member
  | cons first rest ih =>
    unfold insertInto at member
    split at member
    · rcases List.mem_cons.mp member with rfl | further
      · exact Or.inl rfl
      · exact Or.inr (List.mem_cons_of_mem _ further)
    · rcases List.mem_cons.mp member with rfl | further
      · exact Or.inr List.mem_cons_self
      · exact (ih further).imp_right (List.mem_cons_of_mem _)

theorem mem_insertAll {other : Method}
    (member : other ∈ (methods.foldl insert library).methods) :
    other ∈ methods ∨ other ∈ library.methods := by
  induction methods generalizing library with
  | nil => exact .inr member
  | cons first rest ih =>
    rcases ih member with later | inserted
    · exact .inl (List.mem_cons_of_mem _ later)
    · rcases mem_insertInto inserted with rfl | old
      · exact .inl List.mem_cons_self
      · exact .inr old

theorem ofMethods_foreign (name : String)
    (others : ∀ method ∈ methods, ¬ method.IsOwn ∧ method.Sufficient) :
    (ofMethods name methods).Foreign := by
  intro method member
  rcases mem_insertAll member with listed | none
  · exact others method listed
  · cases none

theorem Sufficient.insert (sufficient : library.Sufficient) (enough : method.Sufficient) :
    (library.insert method).Sufficient := by
  intro other member
  rcases mem_insertInto member with rfl | old
  · exact enough
  · exact sufficient other old

/-- The catalogue and the standard routines stand on their own. -/
theorem standard?_foreign (found : standard? name = some library) : library.Foreign := by
  have catalogue : ∀ entry ∈ Catalogue.importable ++ [Catalogue.setLibrary],
      ∀ method ∈ entry.methods, ¬ method.IsOwn ∧ method.Sufficient := by
    decide +kernel
  have routines : ∀ routine ∈ Routine.standard,
      ¬ routine.method.IsOwn ∧ routine.method.Sufficient := by
    decide +kernel
  rcases Option.map_eq_some_iff.mp found with ⟨entry, listed, rfl⟩
  rw [← List.foldl_map]
  intro method member
  rcases mem_insertAll member with joined | own
  · rcases List.mem_map.mp joined with ⟨routine, among, rfl⟩
    exact routines routine (List.mem_filter.mp among).1
  · exact catalogue entry (List.mem_of_find?_eq_some listed) method own

theorem load_foreign {line : Nat} (loaded : load name line = .ok library) : library.Foreign := by
  unfold load at loaded
  split at loaded
  · split at loaded
    · rename_i found
      cases loaded
      exact standard?_foreign found
    · cases loaded
  · cases loaded

/-- The constructors of structs are written out where they are called. -/
theorem ofStructs_foreign (declared : Declared) : (ofStructs declared).Foreign := by
  refine ofMethods_foreign _ fun method member => ?_
  rcases List.mem_map.mp member with ⟨decl, -, rfl⟩
  exact ⟨fun isOwn => Means.noConfusion isOwn.1, Nat.zero_le _, rfl, trivial⟩

theorem interface_foreign (interface : Interface) (qualified : String) :
    (interface.library qualified).Foreign := by
  refine ofMethods_foreign _ fun method member => ?_
  rcases List.mem_map.mp member with ⟨listed, -, rfl⟩
  exact ⟨fun isOwn => Means.noConfusion isOwn.1, Nat.zero_le _, Bool.or_true _, trivial⟩

end Library

/-! ## Libraries of collections -/

/-- The name of the library behind a collection holds an angle bracket. -/
theorem Specialization.libraryName_ne (request : Specialization) {name : String}
    (plain : '<' ∉ name.toList) : request.libraryName ≠ name := by
  rintro rfl
  exact plain (by simp [libraryName])

/-- Putting types into a template keeps the number of parameters. -/
theorem Library.ofCollection_foreign {collection : Variable} {library : Library}
    (built : ofCollection collection = .ok library) : library.Foreign := by
  unfold ofCollection at built
  cases asked : Specialization.ofCollection collection with
  | error error =>
    rw [asked] at built
    cases built
  | ok request =>
    rw [asked] at built
    simp only [bind, Except.bind, Specialization.library] at built
    split at built
    · rename_i template found
      cases built
      intro method member
      rcases List.mem_map.mp member with ⟨original, listed, rfl⟩
      have checked : request.libraryName ≠ "Call" := request.libraryName_ne (by decide)
      refine ⟨fun isOwn => request.libraryName_ne (by decide) isOwn.2, ?_⟩
      simpa [Method.Sufficient, Method.isExcused, Method.isUntyped, checked, Method.substitute,
        Method.needs] using (standard?_foreign found original listed).2.imp_right And.right
    · cases built

/-- Every collection that is properly declared has a library. -/
theorem Library.exists_ofCollection {collection : Variable}
    (proper : ∀ types, collection.collection = some types →
      collection.ty = .storageMap ∧ types.key.isSome = true ∨
        collection.ty = .storageList ∨ collection.ty = .storageSet)
    (given : collection.collection.isSome = true) :
    ∃ library, ofCollection collection = .ok library := by
  have templates : ∀ name ∈ ["Map", "List", "Set"], (standard? name).isSome = true := by
    decide +kernel
  rcases Option.isSome_iff_exists.mp given with ⟨types, found⟩
  have asked : ∃ request, Specialization.ofCollection collection = .ok request ∧
      request.template ∈ ["Map", "List", "Set"] := by
    rcases proper types found with ⟨isMap, keyed⟩ | isList | isSet
    · rcases Option.isSome_iff_exists.mp keyed with ⟨key, keyed⟩
      simp [Specialization.ofCollection, isMap, Specialization.ofMap, Specialization.typesOf,
        found, bind, Except.bind, keyed, pure, Except.pure]
    · simp [Specialization.ofCollection, isList, Specialization.ofList, Specialization.typesOf,
        found, bind, Except.bind, pure, Except.pure]
    · simp [Specialization.ofCollection, isSet, Specialization.ofSet, Specialization.typesOf,
        found, bind, Except.bind, pure, Except.pure]
  rcases asked with ⟨request, asked, listed⟩
  rcases Option.isSome_iff_exists.mp (templates _ listed) with ⟨template, known⟩
  simp [ofCollection, asked, bind, Except.bind, Specialization.library, known]

end Covenant
