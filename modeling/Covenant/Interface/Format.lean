import Covenant.Interface.Basic
import Covenant.Json.Reader
import Covenant.Json.Writer

/-!
# The written form of an interface

An interface is written as JSON.  A part of it is written as an object and can
also be read from an array of its members in order.  Members with unknown
names are skipped, and a known name must not be repeated.  The list of events
can be left out.
-/

namespace Covenant.Interface

/-! ## Writing -/

def Parameter.toJson (parameter : Interface.Parameter) : Json :=
  .record [("name", .text parameter.name), ("type", .text parameter.shape.name)]

def Method.toJson (method : Interface.Method) : Json :=
  .record [("name", .text method.name), ("returnType", .text method.returns.name),
    ("offset", .natural method.offset),
    ("parameters", .array (method.parameters.map Parameter.toJson))]

def Event.toJson (event : Interface.Event) : Json :=
  .record [("name", .text event.name), ("value", .natural event.number),
    ("returnType", .text event.shape.name), ("description", .text event.description)]

def toJson (interface : Interface) : Json :=
  .record [("methods", .array (interface.methods.map Method.toJson)),
    ("events", .array (interface.events.map Event.toJson))]

/-- The text that is stored with a script; every interface has one, as its keys are texts. -/
def encode (interface : Interface) : String :=
  interface.toJson.compact

/-! ## Reading -/

def valuesOf (name : String) (members : List (Option String × Json)) : List Json :=
  members.filterMap fun (found, value) => if found = some name then some value else none

/-- The value of the only member with a name; there may be none. -/
def valueOf? (members : List (Option String × Json)) (name : String) : Option (Option Json) :=
  match valuesOf name members with
  | [] => some none
  | [value] => some (some value)
  | _ => none

/-- The values of the named members of a part, in the order of the names. -/
def membersOf? (names : List String) : Json → Option (List (Option Json))
  | .object members =>
    if members.all fun (name, _) => name.isSome then names.mapM (valueOf? members) else none
  | .array items =>
    if items.length ≤ names.length then
      some (items.map some ++ List.replicate (names.length - items.length) none)
    else
      none
  | _ => none

def shapeOf? : Json → Option MachineType
  | .string (some name) => MachineType.ofName? name
  | .object [(some name, .null)] => MachineType.ofName? name
  | _ => none

def listOf? {Item : Type} (item? : Json → Option Item) (json : Json) : Option (List Item) := do
  (← json.items?).mapM item?

def Parameter.ofJson? (json : Json) : Option Interface.Parameter :=
  match membersOf? ["name", "type"] json with
  | some [some name, some shape] => do
      return { name := ← name.text?, shape := ← shapeOf? shape }
  | _ => none

def Method.ofJson? (json : Json) : Option Interface.Method :=
  match membersOf? ["name", "returnType", "offset", "parameters"] json with
  | some [some name, some returns, some offset, some parameters] => do
      return {
        name := ← name.text?
        returns := ← shapeOf? returns
        offset := ← offset.natural? Text.limit32
        parameters := ← listOf? Parameter.ofJson? parameters }
  | _ => none

def Event.ofJson? (json : Json) : Option Interface.Event :=
  match membersOf? ["name", "value", "returnType", "description"] json with
  | some [some name, some number, some shape, some description] => do
      return {
        name := ← name.text?
        number := ← number.natural? Text.limit8
        shape := ← shapeOf? shape
        description := ← description.text? }
  | _ => none

def ofJson? (json : Json) : Option Interface :=
  match membersOf? ["methods", "events"] json with
  | some [some methods, none] => do
      return { methods := ← listOf? Method.ofJson? methods }
  | some [some methods, some events] => do
      return {
        methods := ← listOf? Method.ofJson? methods
        events := ← listOf? Event.ofJson? events }
  | _ => none

def decode? (text : String) : Option Interface :=
  (Json.read? text).bind ofJson?

/-! ## Looking for interfaces -/

/-- A directory: the names of its files and their texts. -/
abbrev Directory := List (String × String)

def fileName (contract : String) : String :=
  contract ++ ".abi.json"

/-- The first well-formed interface of a contract along some directories. -/
def search? (directories : List Directory) (contract : String) : Option Interface :=
  directories.findSome? fun directory =>
    (directory.lookup (fileName contract)).bind decode?

end Covenant.Interface
