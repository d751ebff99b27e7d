import Covenant.Machine.Label
import Covenant.Machine.Opcode
import Covenant.Machine.Register
import Covenant.Ty.Machine

/-!
# Lines of assembly

Code is emitted as a list of `Line`s, which keep the opcode and the operands
apart.  `Line.render` is the only place that turns them into text.
-/

namespace Covenant

inductive Operand where
  /-- Register zero. -/
  | scratch
  | register (held : Register)
  | literal (text : String)
  | quoted (text : String)
  | natural (value : Nat)
  | machineType (shape : MachineType)
  | label (place : Label)
deriving DecidableEq

/-- A text between quotes; nothing in it is escaped. -/
def enquote (text : String) : String :=
  "\"" ++ text ++ "\""

def Operand.render : Operand → String
  | .scratch => "r0"
  | .register held => held.display
  | .literal text => text
  | .quoted text => enquote text
  | .natural value => toString value
  | .machineType shape => "#" ++ shape.name
  | .label place => place.text

inductive Line where
  | instruction (opcode : Opcode) (operands : List Operand)
  /-- A label stands on an instruction that does nothing. -/
  | label (place : Label)
  /-- From here on the alias denotes the register. -/
  | aliasing (index : Nat) (name : String)
  /-- The text of a source line, as a comment. -/
  | source (line : Nat) (text : String)
  | raw (text : String)
deriving DecidableEq

def Line.render : Line → String
  | .instruction opcode operands =>
    " ".intercalate (opcode.mnemonic :: operands.map Operand.render)
  | .label place => place.text ++ ": " ++ Opcode.nop.mnemonic
  | .aliasing index name => s!"ALIAS r{index} ${name}"
  | .source line text => s!"// Line {line}: {text}"
  | .raw text => text

end Covenant
