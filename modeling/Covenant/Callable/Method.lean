import Covenant.Machine.Opcode
import Covenant.Token.Word
import Covenant.Ty.Machine

/-!
# Callable methods

A method that a source can call: a method of its own module, a function of the
host, a method of another contract, or an operation that is written out at the
place of the call.
-/

namespace Covenant

inductive Role where
  | method
  | constructor
  | task
  | trigger
  | property
deriving DecidableEq

/-- Operations that are written out at the place of the call. -/
inductive Inline where
  /-- Throw the message unless the condition holds. -/
  | expect
  | unary (opcode : Opcode)
  | binary (opcode : Opcode)
  | cast (shape : MachineType)
  /-- A part of a text between two literal places. -/
  | range
  /-- The places of a decimal, known while compiling. -/
  | decimalPlaces
  /-- Is every bit of the flag set in the value? -/
  | enumFlag
  /-- Put the arguments into the fields of a struct. -/
  | construct (structName : String)
  | arrayGet
  /--
  Read or write storage.  A typed read pushes the number of its machine type
  first; a read that names the contract pushes the name of the module last.
  -/
  | storage (namesContract typed : Bool)
  /-- Call a function of the host by a literal name. -/
  | callHost
  /-- Call a method of a contract by literal names. -/
  | callContract
  /-- Call a method of the own module by a literal name. -/
  | callMethod
  | moduleScript
  | moduleInterface
  /-- Create a series of tokens behind an NFT module. -/
  | createSeries
  /-- Read a field of a token. -/
  | readToken (field : String)
deriving DecidableEq

inductive Means where
  | hostCall
  | contractCall
  | localCall
  | inline (operation : Inline)
deriving DecidableEq

inductive ResultType where
  | declared
  /-- The type written after the method name; where it may be left out, it is none. -/
  | explicit (required : Bool)
  | argument (index : Nat)
  | element (index : Nat)
deriving DecidableEq

structure Parameter where
  name : String
  ty : Ty
deriving DecidableEq

/--
The signature of a method and the way a call to it is emitted.  The alias is
the name of a host function, the name of a method of another contract, or a
label.
-/
structure Method where
  name : String
  library : String
  role : Role := .method
  returns : Ty
  parameters : List Parameter
  isPublic : Bool := true
  aliasName : String
  means : Means
  contract : Option String := none
  resultType : ResultType := .declared
deriving DecidableEq

namespace Method

def defaultAlias (library name : String) : Means → String
  | .hostCall => library ++ "." ++ Word.capitalize name
  | .contractCall => Word.capitalize name
  | .localCall => "@entry_" ++ name
  | .inline _ => library ++ "." ++ name

def make (library name : String) (means : Means) (returns : Ty)
    (parameters : List (String × Ty)) : Method :=
  { name, library, returns, means
    parameters := parameters.map fun (name, ty) => { name, ty }
    aliasName := defaultAlias library name means }

/-- The arguments of these methods are not checked against the parameters. -/
def isUntyped (method : Method) : Bool :=
  method.library == "Call"

def substitute (method : Method) (arguments : List Ty) : Method :=
  { method with
    returns := method.returns.substitute arguments
    parameters := method.parameters.map fun parameter =>
      { parameter with ty := parameter.ty.substitute arguments } }

end Method

/-- A named set of methods with distinct names, in the order of declaration. -/
structure Library where
  name : String
  methods : List Method := []
deriving DecidableEq

namespace Library

def method? (library : Library) (name : String) : Option Method :=
  library.methods.find? fun method => method.name == name

/-- Put a method in the place of the first one with its name, or at the end. -/
def insertInto (method : Method) : List Method → List Method
  | [] => [method]
  | first :: rest =>
    if first.name = method.name then method :: rest else first :: insertInto method rest

def insert (library : Library) (method : Method) : Library :=
  { library with methods := insertInto method library.methods }

def ofMethods (name : String) (methods : List Method) : Library :=
  methods.foldl insert { name }

/-- The library under another name, with its open types replaced. -/
def specialize (library : Library) (name : String) (arguments : List Ty) : Library :=
  { name
    methods := library.methods.map fun method =>
      { method with library := name }.substitute arguments }

end Library

end Covenant
