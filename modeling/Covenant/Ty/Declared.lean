import Covenant.Error
import Covenant.Text.Numeral
import Covenant.Ty.Basic

/-!
# Declared types

Structs and enums are declared by the source and shared by all its modules.
No two of them have the same name, whatever their kind.
-/

namespace Covenant

namespace Ty

/-- The type of a kind that needs no details. -/
def ofKind (kind : Ty.Kind) : Except Error Ty :=
  match ofPrimitive? kind with
  | some ty => .ok ty
  | Option.none => blame 0 (.unbuildableType kind.name "None")

/-- The type of decimals with a number of places. -/
def ofPlaces (count : Nat) : Except Error Ty :=
  if range : 1 ≤ count ∧ count ≤ maxPlaces then
    .ok (.decimal ⟨count, range⟩)
  else
    blame 0 (.precisionOutOfRange count)

end Ty

structure Field where
  name : String
  ty : Ty
deriving DecidableEq

/-- A struct: its fields in order, with distinct names. -/
structure StructDecl where
  name : String
  fields : List Field := []
deriving DecidableEq

namespace StructDecl

def field? (decl : StructDecl) (name : String) : Option Field :=
  decl.fields.find? fun field => field.name == name

def add (decl : StructDecl) (name : String) (ty : Ty) (line : Nat) :
    Except Error StructDecl :=
  if (decl.field? name).isSome then
    .error (.duplicate line (decl.name ++ "." ++ name))
  else
    .ok { decl with fields := decl.fields ++ [{ name, ty }] }

end StructDecl

structure EnumEntry where
  name : String
  value : Nat
deriving DecidableEq

/-- An enum: its entries in order, with distinct names and distinct values. -/
structure EnumDecl where
  name : String
  entries : List EnumEntry := []
deriving DecidableEq

namespace EnumDecl

def entry? (decl : EnumDecl) (name : String) : Option EnumEntry :=
  decl.entries.find? fun entry => entry.name == name

/--
The value after the last entry.  Values have thirty-two bits, and the counter
does not wrap around.
-/
def nextValue (decl : EnumDecl) : Except Failure Nat :=
  match decl.entries.getLast? with
  | none => .ok 0
  | some last =>
    if last.value + 1 < Text.limit32 then .ok (last.value + 1) else .error .overflow

/-- Add an entry at the end; without a value it continues from the last one. -/
def add (decl : EnumDecl) (name : String) (value? : Option Nat) (line : Nat) :
    Except Failure EnumDecl := do
  if (decl.entry? name).isSome then
    throw (.error (.duplicate line (decl.name ++ "." ++ name)))
  let value ←
    match value? with
    | some value => pure value
    | none => decl.nextValue
  if decl.entries.any fun entry => entry.value == value then
    throw (.error (.semantic line (.repeatedEnumValue value decl.name)))
  return { decl with entries := decl.entries ++ [{ name, value }] }

end EnumDecl

/-- The structs and enums declared so far, each in order. -/
structure Declared where
  structs : List StructDecl := []
  enums : List EnumDecl := []
deriving DecidableEq

namespace Declared

def struct? (declared : Declared) (name : String) : Option StructDecl :=
  declared.structs.find? fun decl => decl.name == name

def enum? (declared : Declared) (name : String) : Option EnumDecl :=
  declared.enums.find? fun decl => decl.name == name

def isTaken (declared : Declared) (name : String) : Bool :=
  (declared.struct? name).isSome || (declared.enum? name).isSome

def named? (declared : Declared) (name : String) : Option Ty :=
  if (declared.struct? name).isSome then
    some (.struct name)
  else if (declared.enum? name).isSome then
    some (.enum name)
  else
    none

def addStruct (declared : Declared) (decl : StructDecl) (line : Nat) : Except Error Declared :=
  if declared.isTaken decl.name then
    .error (.duplicate line decl.name)
  else
    .ok { declared with structs := declared.structs ++ [decl] }

def addEnum (declared : Declared) (decl : EnumDecl) (line : Nat) : Except Error Declared :=
  if declared.isTaken decl.name then
    .error (.duplicate line decl.name)
  else
    .ok { declared with enums := declared.enums ++ [decl] }

def structOf? (declared : Declared) : Ty → Option StructDecl
  | .struct name => declared.struct? name
  | _ => none

def fieldType? (declared : Declared) (ty : Ty) (field : String) : Option Ty := do
  let decl ← declared.structOf? ty
  let found ← decl.field? field
  return found.ty

end Declared

end Covenant
