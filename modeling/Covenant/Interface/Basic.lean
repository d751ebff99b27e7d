import Covenant.Callable.Method

/-!
# Interfaces

The interface of a compiled module lists its public methods, with their
places in the script and their machine types, and its events.  With the
interface of a contract at hand a source can call the methods it lists.
-/

namespace Covenant

structure Interface.Parameter where
  name : String
  shape : MachineType
deriving DecidableEq

/-- A method in an interface; `offset` is the place of its first byte. -/
structure Interface.Method where
  name : String
  returns : MachineType
  offset : Nat
  parameters : List Interface.Parameter
deriving DecidableEq

/-- An event in an interface; the description is in hexadecimal digits. -/
structure Interface.Event where
  name : String
  number : Nat
  shape : MachineType
  description : String
deriving DecidableEq

structure Interface where
  methods : List Interface.Method := []
  events : List Interface.Event := []
deriving DecidableEq

namespace Interface

def method? (interface : Interface) (name : String) : Option Interface.Method :=
  interface.methods.find? fun method => method.name == name

def event? (interface : Interface) (name : String) : Option Interface.Event :=
  interface.events.find? fun event => event.name == name

def lastSegment (qualified : String) : String :=
  String.ofList (qualified.toList.reverse.takeWhile (· != '.')).reverse

/-- A method of an interface as a method of an imported library. -/
def Method.imported (contract : String) (method : Interface.Method) : Covenant.Method :=
  { name := method.name
    library := contract
    returns := method.returns.toTy
    parameters := method.parameters.map fun parameter =>
      { name := parameter.name, ty := parameter.shape.toTy }
    aliasName := method.name
    means := .contractCall
    contract := some contract }

/-- The library of an interface that is imported under a name with dots. -/
def library (interface : Interface) (qualified : String) : Library :=
  let name := lastSegment qualified
  .ofMethods name (interface.methods.map (Method.imported name))

end Interface

end Covenant
