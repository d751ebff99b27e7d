import Covenant.Error

/-!
# Registers

The machine has thirty-two registers.  Register zero is scratch space inside
short instruction sequences and is never handed out.  Every other register is
owned by one node between its allocation and its release.
-/

namespace Covenant

/-- A register that has been handed out; an alias names it in the assembly. -/
structure Register where
  index : Nat
  aliasName : Option String := none
deriving DecidableEq

namespace Register

def physical (register : Register) : String :=
  s!"r{register.index}"

/-- The name of the register as an operand: its alias, if it has one. -/
def display (register : Register) : String :=
  match register.aliasName with
  | some aliasName => "$" ++ aliasName
  | none => register.physical

end Register

/-- How many registers were handed out and given back, and the most held at once. -/
structure RegisterStats where
  allocations : Nat := 0
  deallocations : Nat := 0
  peak : Nat := 0
deriving DecidableEq

def registerCount : Nat := 32

/-- The registers with their owners, and the counts so far. -/
structure RegisterFile where
  owners : List (Option Nat) := List.replicate registerCount none
  stats : RegisterStats := {}
deriving DecidableEq

namespace RegisterFile

def isFree (file : RegisterFile) (index : Nat) : Bool :=
  file.owners[index]? == some none

def lowest? (file : RegisterFile) : Option Nat :=
  (List.range' 1 (registerCount - 1)).find? file.isFree

def live (file : RegisterFile) : Nat :=
  file.owners.countP Option.isSome

/-- Hand out the lowest register that is free. -/
def take (owner : Nat) (aliasName : Option String) (line : Nat) :
    Change RegisterFile Register := do
  match (← get).lowest? with
  | none => throw (.internal line .registersExhausted)
  | some index =>
    modify fun file => { file with owners := file.owners.set index (some owner) }
    modify fun file =>
      { file with
        stats := { file.stats with
          allocations := file.stats.allocations + 1
          peak := max file.stats.peak file.live } }
    return { index, aliasName }

def giveBack (register : Register) (line : Nat) : Change RegisterFile Unit := do
  match (← get).owners[register.index]? with
  | some (some _) =>
    modify fun file => { file with owners := file.owners.set register.index none }
    modify fun file =>
      { file with stats := { file.stats with deallocations := file.stats.deallocations + 1 } }
  | _ => throw (.internal line (.registerFree register.index))

def alloc (file : RegisterFile) (owner : Nat) (aliasName : Option String) (line : Nat) :
    Except Error (Register × RegisterFile) :=
  (take owner aliasName line).outcome file

def dealloc (file : RegisterFile) (register : Register) (line : Nat) :
    Except Error RegisterFile :=
  ((giveBack register line).outcome file).map Prod.snd

def held (file : RegisterFile) : List (Nat × Nat) :=
  file.owners.zipIdx.filterMap fun (owner, index) => owner.map fun node => (index, node)

def verify (file : RegisterFile) (line : Nat) : Except Error Unit :=
  if file.held.isEmpty then .ok () else blame line (.registersHeld file.held)

end RegisterFile

end Covenant
