/-!
# Types

`Ty` is the type of a value in the source.  Two types are the same exactly
when they are equal as values of `Ty`, so no table of types is needed to
compare them.  `Ty.Kind` forgets the details: the name of a struct, the places
of a decimal, the element of an array.
-/

namespace Covenant

inductive Ty.Kind where
  | none
  | unknown
  | generic
  | number
  | bool
  | string
  | timestamp
  | address
  | hash
  | bytes
  | enum
  | task
  | any
  | method
  | struct
  | decimal
  | storageMap
  | storageList
  | storageSet
  | array
  | moduleRef
deriving DecidableEq

namespace Ty.Kind

def all : List Ty.Kind :=
  [none, unknown, generic, number, bool, string, timestamp, address, hash, bytes, enum, task,
    any, method, struct, decimal, storageMap, storageList, storageSet, array, moduleRef]

def name : Ty.Kind → String
  | none => "none"
  | unknown => "unknown"
  | generic => "generic"
  | number => "number"
  | bool => "bool"
  | string => "string"
  | timestamp => "timestamp"
  | address => "address"
  | hash => "hash"
  | bytes => "bytes"
  | enum => "enum"
  | task => "task"
  | any => "any"
  | method => "method"
  | struct => "struct"
  | decimal => "decimal"
  | storageMap => "storage_map"
  | storageList => "storage_list"
  | storageSet => "storage_set"
  | array => "array"
  | moduleRef => "module"

/-- Kinds that a source cannot spell as a type name. -/
def isNameless : Ty.Kind → Bool
  | unknown | generic | enum | struct | array => true
  | _ => false

def ofTypeName? (word : String) : Option Ty.Kind :=
  all.find? fun kind => !kind.isNameless && kind.name == word

/-- Kinds that are fully described without further details. -/
def isPrimitive : Ty.Kind → Bool
  | generic | struct | enum | decimal | method | array => false
  | _ => true

def isStorageCollection : Ty.Kind → Bool
  | storageMap | storageList | storageSet => true
  | _ => false

end Ty.Kind

def Ty.maxPlaces : Nat := 32

/-- How many places a decimal can have. -/
abbrev Ty.Places := { count : Nat // 1 ≤ count ∧ count ≤ Ty.maxPlaces }

/--
The type of a value.  `generic` stands for a type that a library leaves open,
counted from zero.
-/
inductive Ty where
  | none
  | unknown
  | number
  | bool
  | string
  | timestamp
  | address
  | hash
  | bytes
  | task
  | any
  | storageMap
  | storageList
  | storageSet
  | moduleRef
  | generic (index : Nat)
  | struct (name : String)
  | enum (name : String)
  | decimal (places : Ty.Places)
  | method (name : String)
  | array (element : Ty)
deriving DecidableEq, Inhabited

namespace Ty

def kind : Ty → Ty.Kind
  | none => .none
  | unknown => .unknown
  | number => .number
  | bool => .bool
  | string => .string
  | timestamp => .timestamp
  | address => .address
  | hash => .hash
  | bytes => .bytes
  | task => .task
  | any => .any
  | storageMap => .storageMap
  | storageList => .storageList
  | storageSet => .storageSet
  | moduleRef => .moduleRef
  | generic _ => .generic
  | struct _ => .struct
  | enum _ => .enum
  | decimal _ => .decimal
  | method _ => .method
  | array _ => .array

def ofPrimitive? : Ty.Kind → Option Ty
  | .none => some none
  | .unknown => some unknown
  | .number => some number
  | .bool => some bool
  | .string => some string
  | .timestamp => some timestamp
  | .address => some address
  | .hash => some hash
  | .bytes => some bytes
  | .task => some task
  | .any => some any
  | .storageMap => some storageMap
  | .storageList => some storageList
  | .storageSet => some storageSet
  | .moduleRef => some moduleRef
  | .generic | .struct | .enum | .decimal | .method | .array => Option.none

/-- The name of a type in messages. -/
def display : Ty → String
  | generic _ => "generic"
  | struct name => name
  | enum name => name
  | decimal places => s!"decimal<{places.val}>"
  | method name => s!"method<{name}>"
  | array element => element.display ++ "[]"
  | simple => simple.kind.name

def element? : Ty → Option Ty
  | array element => some element
  | _ => Option.none

def places? : Ty → Option Nat
  | decimal places => some places.val
  | _ => Option.none

def isGeneric : Ty → Bool
  | generic _ => true
  | array element => element.isGeneric
  | _ => false

/-- Replace open types by the arguments; one without an argument stays. -/
def substitute (arguments : List Ty) : Ty → Ty
  | generic index => arguments[index]?.getD (generic index)
  | array element => array (element.substitute arguments)
  | other => other

/--
May a value of the second type stand where the first is declared, without any
conversion?
-/
def accepts : Ty → Ty → Bool
  | any, _ => true
  | generic _, _ => true
  | method _, method _ => true
  | array parameter, array argument => parameter.accepts argument
  | parameter, argument => parameter == argument

/-- The conversions that are inserted where a value has another type. -/
def canCast (source target : Ty) : Bool :=
  match source.kind, target.kind with
  | .number, .string | .bool, .string | .address, .string | .hash, .string
  | .timestamp, .string | .enum, .string | .decimal, .string => true
  | .number, .timestamp => true
  | .timestamp, .number => true
  | .enum, .number => true
  | .string, .bytes | .hash, .bytes => true
  | .bytes, .hash => true
  | _, _ => false

end Ty

end Covenant
