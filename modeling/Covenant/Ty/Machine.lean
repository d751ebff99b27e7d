import Covenant.Error
import Covenant.Ty.Basic

/-!
# Machine types

The machine distinguishes fewer types than the source.  Its types have a
number, which is pushed where a value is read from storage, and a name, which
is written into interfaces.
-/

namespace Covenant

/-- The types of values on the machine, in the order of their numbers. -/
inductive MachineType where
  | none
  | struct
  | bytes
  | number
  | string
  | timestamp
  | bool
  | enum
  | object
deriving DecidableEq

namespace MachineType

/-- Every machine type once, in the order of the numbers. -/
def all : List MachineType :=
  [none, struct, bytes, number, string, timestamp, bool, enum, object]

def tag : MachineType → Nat
  | none => 0
  | struct => 1
  | bytes => 2
  | number => 3
  | string => 4
  | timestamp => 5
  | bool => 6
  | enum => 7
  | object => 8

def name : MachineType → String
  | none => "None"
  | struct => "Struct"
  | bytes => "Bytes"
  | number => "Number"
  | string => "String"
  | timestamp => "Timestamp"
  | bool => "Bool"
  | enum => "Enum"
  | object => "Object"

def ofName? (name : String) : Option MachineType :=
  all.find? fun machineType => machineType.name == name

/-- The machine type of a kind; some kinds have none. -/
def ofKind : Ty.Kind → Except Error MachineType
  | .address => .ok object
  | .bytes | .hash | .moduleRef => .ok bytes
  | .bool => .ok bool
  | .enum => .ok enum
  | .method | .number | .decimal | .task => .ok number
  | .string => .ok string
  | .timestamp => .ok timestamp
  | .none => .ok none
  | .struct => .ok struct
  | kind => .error (.unrepresentable kind.name)

/-- The source type that stands for a machine type in an imported interface. -/
def toTy : MachineType → Ty
  | none => .none
  | number | enum => .number
  | string => .string
  | bool => .bool
  | bytes => .bytes
  | timestamp => .timestamp
  | object => .address
  | struct => .any

end MachineType

def Ty.machineType (ty : Ty) : Except Error MachineType :=
  MachineType.ofKind ty.kind

end Covenant
