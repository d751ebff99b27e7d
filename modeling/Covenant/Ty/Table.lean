import Covenant.Text.Quoted
import Covenant.Ty.Declared

/-!
# Numbered types

A `TypeTable` gives every type it meets a number, in the order of their first
appearance, and the same number whenever the type appears again.  It keeps the
types in a list and their numbers in a map.  The element of an array is kept as
a number, so what looks into an array follows numbers, from larger to smaller ones.
-/

namespace Covenant

abbrev TypeId := Nat

/-- A type as a table keeps it. -/
inductive TypeShape where
  | primitive (kind : Ty.Kind)
  | generic (index : Nat)
  | struct (name : String)
  | enum (name : String)
  | decimal (places : Nat)
  | method (name : String)
  | array (element : TypeId)
deriving DecidableEq

def TypeShape.kind : TypeShape → Ty.Kind
  | .primitive kind => kind
  | .generic _ => .generic
  | .struct _ => .struct
  | .enum _ => .enum
  | .decimal _ => .decimal
  | .method _ => .method
  | .array _ => .array

/-- What a request for a type says beyond the kind. -/
inductive TypeDetail where
  | none
  | name (name : String)
  | precision (places : Nat)
  | element (id : TypeId)
  | index (index : Nat)
deriving DecidableEq

def TypeDetail.display : TypeDetail → String
  | .none => "None"
  | .name text => "Name(" ++ Text.quoted text ++ ")"
  | .precision places => s!"Precision({places})"
  | .element id => s!"Element(TypeId({id}))"
  | .index position => s!"Index({position})"

/-- The type that a kind and a detail describe. -/
def TypeShape.ofDetail : Ty.Kind → TypeDetail → Except Error TypeShape
  | .struct, .name name => .ok (.struct name)
  | .enum, .name name => .ok (.enum name)
  | .method, .name name => .ok (.method name)
  | .decimal, .precision places =>
    if places = 0 || places > Ty.maxPlaces then
      blame 0 (.precisionOutOfRange places)
    else
      .ok (.decimal places)
  | .array, .element id => .ok (.array id)
  | .generic, .index index => .ok (.generic index)
  | kind, detail =>
    if detail = .none && kind.isPrimitive then
      .ok (.primitive kind)
    else
      blame 0 (.unbuildableType kind.name detail.display)

/-- A struct with the numbers of the types of its fields. -/
structure NumberedStruct where
  name : String
  fields : List (String × TypeId) := []
deriving DecidableEq

/-- The types met so far with their numbers, and the declared structs and enums. -/
structure TypeTable where
  types : List TypeShape := []
  numbers : List (TypeShape × TypeId) := []
  structs : List NumberedStruct := []
  enums : List EnumDecl := []
deriving DecidableEq

namespace TypeTable

def type? (table : TypeTable) (id : TypeId) : Option TypeShape :=
  table.types[id]?

def number? (table : TypeTable) (shape : TypeShape) : Option TypeId :=
  table.numbers.lookup shape

def struct? (table : TypeTable) (name : String) : Option NumberedStruct :=
  table.structs.find? fun decl => decl.name == name

def enum? (table : TypeTable) (name : String) : Option EnumDecl :=
  table.enums.find? fun decl => decl.name == name

def isTaken (table : TypeTable) (name : String) : Bool :=
  (table.struct? name).isSome || (table.enum? name).isSome

/-- The number of a declared type. -/
def named? (table : TypeTable) (name : String) : Option TypeId :=
  if (table.struct? name).isSome then
    table.number? (.struct name)
  else if (table.enum? name).isSome then
    table.number? (.enum name)
  else
    none

/-! ## Requests for types -/

/-- The number of a type, which is added when it is new. -/
def intern (shape : TypeShape) : StateM TypeTable TypeId := do
  match (← get).number? shape with
  | some id => return id
  | none =>
    let id := (← get).types.length
    modify fun table => { table with types := table.types ++ [shape] }
    modify fun table => { table with numbers := (shape, id) :: table.numbers }
    return id

def find (kind : Ty.Kind) (detail : TypeDetail) : Change TypeTable TypeId := do
  match TypeShape.ofDetail kind detail with
  | .ok shape => modifyGet (intern shape)
  | .error error => throw error

/-- Declare a type under a name that is new; `add` records the declaration. -/
def declare (name : String) (shape : TypeShape) (add : TypeTable → TypeTable) (line : Nat) :
    Change TypeTable TypeId := do
  if (← get).isTaken name then
    throw (.duplicate line name)
  else
    let id ← modifyGet (intern shape)
    modify add
    return id

def declareStruct (decl : NumberedStruct) : Nat → Change TypeTable TypeId :=
  declare decl.name (.struct decl.name) fun table =>
    { table with structs := table.structs ++ [decl] }

def declareEnum (decl : EnumDecl) : Nat → Change TypeTable TypeId :=
  declare decl.name (.enum decl.name) fun table => { table with enums := table.enums ++ [decl] }

def predefined : List TypeShape :=
  [Ty.Kind.none, .unknown, .number, .bool, .string, .timestamp, .address, .hash, .bytes, .task,
    .any, .storageMap, .storageList, .storageSet, .moduleRef].map .primitive ++
  [.generic 0, .generic 1]

def initial : TypeTable :=
  predefined.foldl (fun table shape => (intern shape table).2) {}

/-- The number that `any` has in every table. -/
def anyId : TypeId := 10

/-! ## Looking into arrays

There is no outcome if a number has no type, or if an element does not stand
before its array, where numbers could lead in a circle.
-/

def display? (table : TypeTable) (id : TypeId) : Option String := do
  match ← table.type? id with
  | .primitive kind => return kind.name
  | .generic _ => return "generic"
  | .struct name => return name
  | .enum name => return name
  | .decimal places => return s!"decimal<{places}>"
  | .method name => return s!"method<{name}>"
  | .array element =>
    if element < id then
      return (← table.display? element) ++ "[]"
    else
      none

def isGeneric? (table : TypeTable) (id : TypeId) : Option Bool := do
  match ← table.type? id with
  | .generic _ => return true
  | .array element => if element < id then table.isGeneric? element else none
  | _ => return false

def accepts? (table : TypeTable) (parameter argument : TypeId) : Option Bool := do
  if parameter = argument || parameter = anyId then
    return true
  else
    match ← table.type? parameter, ← table.type? argument with
    | .generic _, _ => return true
    | .array wanted, .array found =>
      if wanted < parameter then table.accepts? wanted found else none
    | .method _, .method _ => return true
    | _, _ => return false

/-- Replace open types by the arguments; one without an argument stays. -/
def substitute (arguments : List TypeId) (id : TypeId) : StateT TypeTable Option TypeId := do
  match ← (← get).type? id with
  | .generic index => return arguments[index]?.getD id
  | .array element =>
    if element < id then
      let element ← substitute arguments element
      modifyGet (intern (.array element))
    else
      failure
  | _ => return id

end TypeTable

end Covenant
