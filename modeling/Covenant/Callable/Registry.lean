import Covenant.Callable.StandardRoutine
import Covenant.Catalogue.Standard
import Covenant.Scope.Tree
import Covenant.Ty.Declared

/-!
# Libraries on demand

A standard library is the catalogue's library together with the routines that
belong to it.  A storage collection has a library of its own, which is a
template of the catalogue with the key and value types of the collection put
in.  `Registry` remembers the libraries it has given out and gives the same
one again for the same request.
-/

namespace Covenant

namespace Library

def standard? (name : String) : Option Library :=
  (Catalogue.find? name).map fun library =>
    (Routine.ofLibrary Routine.standard name).foldl (fun library routine =>
      library.insert routine.method) library

def load (name : String) (line : Nat) : Except Error Library :=
  if Catalogue.isImportable name then
    match standard? name with
    | some library => .ok library
    | none => .error (.unknownLibrary line name)
  else
    .error (.unknownLibrary line name)

/-- One constructor for each declared struct, with the fields as parameters. -/
def ofStructs (declared : Declared) : Library :=
  .ofMethods "Struct" (declared.structs.map fun decl =>
    Method.make "Struct" decl.name (.inline (.construct decl.name)) (.struct decl.name)
      (decl.fields.map fun field => (field.name, field.ty)))

end Library

/-- What a collection asks of the catalogue: a template and its arguments. -/
structure Specialization where
  template : String
  arguments : List Ty
deriving DecidableEq

namespace Specialization

def signature (request : Specialization) : String :=
  ",".intercalate (request.arguments.map Ty.display)

def libraryName (request : Specialization) : String :=
  request.template ++ "<" ++ request.signature ++ ">"

def library (request : Specialization) (line : Nat) : Except Error Library :=
  match Library.standard? request.template with
  | some template => .ok (template.specialize request.libraryName request.arguments)
  | none => .error (.unknownLibrary line request.template)

def typesOf (collection : Variable) : Except Error CollectionTypes :=
  match collection.collection with
  | some types => .ok types
  | none => blame collection.line (.untypedCollection collection.name)

def ofMap (collection : Variable) : Except Error Specialization := do
  let types ← typesOf collection
  match types.key with
  | some key => return { template := "Map", arguments := [key, types.value] }
  | none => blame collection.line (.mapWithoutKey collection.name)

def ofList (collection : Variable) : Except Error Specialization := do
  let types ← typesOf collection
  return { template := "List", arguments := [types.value] }

def ofSet (collection : Variable) : Except Error Specialization := do
  let types ← typesOf collection
  return { template := "Set", arguments := [types.value] }

def ofCollection (collection : Variable) : Except Error Specialization :=
  match collection.ty with
  | .storageMap => ofMap collection
  | .storageList => ofList collection
  | .storageSet => ofSet collection
  | _ => blame collection.line (.notCollection collection.name)

end Specialization

def Library.ofCollection (collection : Variable) : Except Error Library := do
  let request ← Specialization.ofCollection collection
  request.library collection.line

/-! ## Remembering libraries -/

inductive Registry.Key where
  | imported (name : String)
  | specialized (template signature : String)
deriving DecidableEq

/-- The libraries given out so far, in the order of the first request. -/
structure Registry where
  entries : List (Registry.Key × Library) := []

/-- An answer of a registry: a library, and its place if it was given out before. -/
structure Registry.Answer where
  library : Library
  earlier : Option Nat

namespace Registry

def remembered? (registry : Registry) (key : Registry.Key) : Option Registry.Answer :=
  (registry.entries.zipIdx.find? fun (entry, _) => entry.1 = key).map fun (entry, place) =>
    { library := entry.2, earlier := some place }

def answer (registry : Registry) (key : Registry.Key) (build : Except Error Library) :
    Except Error (Registry.Answer × Registry) :=
  match registry.remembered? key with
  | some known => .ok (known, registry)
  | none => do
      let library ← build
      return ({ library, earlier := none },
        { registry with entries := registry.entries ++ [(key, library)] })

def load (registry : Registry) (name : String) (line : Nat) :
    Except Error (Registry.Answer × Registry) :=
  registry.answer (.imported name) (Library.load name line)

def specialize (registry : Registry) (request : Specialization) (line : Nat) :
    Except Error (Registry.Answer × Registry) :=
  registry.answer (.specialized request.template request.signature) (request.library line)

end Registry

end Covenant
