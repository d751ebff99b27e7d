import Covenant.Callable.Method

/-!
# Entries of the catalogue

The methods of a standard library are written down without the name of the
library, which `libraryOf` supplies to all of them.
-/

namespace Covenant.Catalogue

/-- A method that waits for the name of its library. -/
abbrev Entry := String → Method

def host (name : String) (returns : Ty) (parameters : List (String × Ty)) : Entry :=
  fun library => Method.make library name .hostCall returns parameters

def remote (name : String) (returns : Ty) (parameters : List (String × Ty)) : Entry :=
  fun library => Method.make library name .contractCall returns parameters

def inline (name : String) (operation : Inline) (returns : Ty)
    (parameters : List (String × Ty)) : Entry :=
  fun library => Method.make library name (.inline operation) returns parameters

def named (aliasName : String) (entry : Entry) : Entry :=
  fun library => { entry library with aliasName }

def typed (resultType : ResultType) (entry : Entry) : Entry :=
  fun library => { entry library with resultType }

def libraryOf (name : String) (entries : List Entry) : Library :=
  .ofMethods name (entries.map fun entry => entry name)

/-- A library whose entries all belong to one contract. -/
def libraryOfContract (name contract : String) (entries : List Entry) : Library :=
  libraryOf name (entries.map fun entry library =>
    { entry library with contract := some contract })

end Covenant.Catalogue
