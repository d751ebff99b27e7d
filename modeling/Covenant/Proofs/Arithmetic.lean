import Covenant.Machine.Line
import Covenant.Text.Numeral
import Covenant.Tree.Operator

/-!
# The machine

A machine with registers and a stack that runs lines of assembly one after the
other.  Operands are read as they are written: sources first and the
destination last, and a register is the one that was handed out, whatever
alias it is printed with.

What values there are and what can be done with them is left open.  An
`Arithmetic` has the operations that the instructions carry out, and whatever
is said about the machine holds for all of them.
-/

namespace Covenant

/-- Values and the operations on them.  An operation may fail on its operands. -/
structure Arithmetic (Value : Type) where
  number : Nat → Value
  text : String → Value
  /-- The struct without fields, which a register holds when it has been cleared. -/
  empty : Value
  /-- What the text of a literal stands for. -/
  literal : String → Option Value
  operator : BinaryOp → Value → Value → Option Value
  concatenate : Value → Value → Option Value
  complement : Value → Option Value
  opposite : Value → Option Value
  convert : MachineType → Value → Option Value
  /-- What a struct or an array has under a key. -/
  get : Value → Value → Option Value
  /-- A struct with a value under a key. -/
  put : Value → Value → Value → Option Value
  /-- Digits stand for the number they spell. -/
  literal_digits : ∀ digits, digits ≠ [] → digits.all Text.isDigit = true →
    literal (String.ofList digits) = some (number (Text.digitsValue digits))

/-- The operator that an instruction with two sources carries out. -/
def Opcode.operator? : Opcode → Option BinaryOp
  | .add => some .add
  | .sub => some .sub
  | .mul => some .mul
  | .div => some .div
  | .mod => some .mod
  | .shl => some .shl
  | .shr => some .shr
  | .and => some .and
  | .or => some .or
  | .xor => some .xor
  | .equal => some .equal
  | .lt => some .less
  | .lte => some .lessEqual
  | .gt => some .greater
  | .gte => some .greaterEqual
  | _ => none

/-- What the machine remembers from one line to the next. -/
structure Machine (Value : Type) where
  registers : Nat → Value
  stack : List Value

namespace Machine

variable {Value : Type}

/-- Change a single register. -/
def set (machine : Machine Value) (index : Nat) (value : Value) : Machine Value :=
  { machine with
    registers := fun other => if other = index then value else machine.registers other }

@[simp]
theorem registers_set_self (machine : Machine Value) (index : Nat) (value : Value) :
    (machine.set index value).registers index = value := by
  simp [set]

@[simp]
theorem registers_set_of_ne (machine : Machine Value) {index other : Nat} (value : Value)
    (different : other ≠ index) :
    (machine.set index value).registers other = machine.registers other := by
  simp [set, different]

@[simp]
theorem stack_set (machine : Machine Value) (index : Nat) (value : Value) :
    (machine.set index value).stack = machine.stack :=
  rfl

/-- The value in the register that an operand names. -/
def read (machine : Machine Value) : Operand → Option Value
  | .scratch => some (machine.registers 0)
  | .register held => some (machine.registers held.index)
  | _ => none

@[simp]
theorem read_scratch (machine : Machine Value) :
    machine.read .scratch = some (machine.registers 0) :=
  rfl

@[simp]
theorem read_register (machine : Machine Value) (held : Register) :
    machine.read (.register held) = some (machine.registers held.index) :=
  rfl

/-- Change the register that an operand names. -/
def write (machine : Machine Value) (value : Value) : Operand → Option (Machine Value)
  | .scratch => some (machine.set 0 value)
  | .register held => some (machine.set held.index value)
  | _ => none

end Machine

namespace Arithmetic

variable {Value : Type} (arithmetic : Arithmetic Value) {value : Value}

/-- The value that is loaded for an operand. -/
def constant : Operand → Option Value
  | .literal text => arithmetic.literal text
  | .quoted text => some (arithmetic.text text)
  | .natural value => some (arithmetic.number value)
  | _ => none

/-- What an instruction computes from one source. -/
def unary : Opcode → Value → Option Value
  | .copy => some
  | .not => arithmetic.complement
  | .negate => arithmetic.opposite
  | _ => fun _ => none

/-- What an instruction computes from two sources. -/
def binary (opcode : Opcode) (first second : Value) : Option Value :=
  if opcode = .cat then
    arithmetic.concatenate first second
  else
    opcode.operator?.bind fun op => arithmetic.operator op first second

/--
The machine after a line.  There is none where an instruction fails, and none
behind instructions that go elsewhere or ask the host.
-/
def execute (machine : Machine Value) : Line → Option (Machine Value)
  | .instruction .load [target, source] => do
      machine.write (← arithmetic.constant source) target
  | .instruction .clear [target] => machine.write arithmetic.empty target
  | .instruction .push [source] => do
      return { machine with stack := (← machine.read source) :: machine.stack }
  | .instruction .pop [target] =>
    match machine.stack with
    | [] => none
    | top :: rest => { machine with stack := rest }.write top target
  | .instruction .cast [source, target, .machineType shape] => do
      machine.write (← arithmetic.convert shape (← machine.read source)) target
  | .instruction .put [source, target, key] => do
      let struct ← machine.read target
      machine.write (← arithmetic.put struct (← machine.read key) (← machine.read source)) target
  | .instruction .get [source, target, key] => do
      machine.write (← arithmetic.get (← machine.read source) (← machine.read key)) target
  | .instruction opcode [source, target] => do
      machine.write (← arithmetic.unary opcode (← machine.read source)) target
  | .instruction opcode [first, second, target] => do
      machine.write (← arithmetic.binary opcode (← machine.read first) (← machine.read second))
        target
  | .aliasing _ _ | .source _ _ => some machine
  | _ => none

section Instructions

variable (machine : Machine Value) (source target : Register)

@[simp]
theorem execute_load (value : Operand) :
    arithmetic.execute machine (.instruction .load [.register target, value]) =
      (arithmetic.constant value).map (machine.set target.index) :=
  Option.map_eq_bind.symm

@[simp]
theorem execute_loadScratch (value : Operand) :
    arithmetic.execute machine (.instruction .load [.scratch, value]) =
      (arithmetic.constant value).map (machine.set 0) :=
  Option.map_eq_bind.symm

@[simp]
theorem execute_clear :
    arithmetic.execute machine (.instruction .clear [.register target]) =
      some (machine.set target.index arithmetic.empty) :=
  rfl

@[simp]
theorem execute_copy :
    arithmetic.execute machine (.instruction .copy [.register source, .register target]) =
      some (machine.set target.index (machine.registers source.index)) :=
  rfl

@[simp]
theorem execute_not :
    arithmetic.execute machine (.instruction .not [.register source, .register target]) =
      (arithmetic.complement (machine.registers source.index)).map
        (machine.set target.index) :=
  Option.map_eq_bind.symm

@[simp]
theorem execute_negate :
    arithmetic.execute machine (.instruction .negate [.register source, .register target]) =
      (arithmetic.opposite (machine.registers source.index)).map (machine.set target.index) :=
  Option.map_eq_bind.symm

@[simp]
theorem execute_cast (shape : MachineType) :
    arithmetic.execute machine
        (.instruction .cast [.register source, .register target, .machineType shape]) =
      (arithmetic.convert shape (machine.registers source.index)).map
        (machine.set target.index) :=
  Option.map_eq_bind.symm

/-- The key may be in register zero or in any other. -/
theorem execute_get {key : Operand} (known : machine.read key = some value) :
    arithmetic.execute machine (.instruction .get [.register source, .register target, key]) =
      (arithmetic.get (machine.registers source.index) value).map (machine.set target.index) := by
  cases computed : arithmetic.get (machine.registers source.index) value <;>
    simp [execute, Machine.write, known, computed]

theorem execute_put {key : Operand} (known : machine.read key = some value) :
    arithmetic.execute machine (.instruction .put [.register source, .register target, key]) =
      (arithmetic.put (machine.registers target.index) value
        (machine.registers source.index)).map (machine.set target.index) := by
  cases computed : arithmetic.put (machine.registers target.index) value
      (machine.registers source.index) <;>
    simp [execute, Machine.write, known, computed]

/-- The second source may be in register zero or in any other. -/
theorem execute_binary {opcode : Opcode} {second : Operand}
    (known : machine.read second = some value)
    (computes : opcode = .cat ∨ opcode.operator?.isSome = true) :
    arithmetic.execute machine
        (.instruction opcode [.register source, second, .register target]) =
      (arithmetic.binary opcode (machine.registers source.index) value).map
        (machine.set target.index) := by
  have unfolded : arithmetic.execute machine
      (.instruction opcode [.register source, second, .register target]) =
        (machine.read second).bind fun other =>
          (arithmetic.binary opcode (machine.registers source.index) other).bind fun result =>
            some (machine.set target.index result) := by
    cases opcode <;> first | rfl | simp [Opcode.operator?] at computes
  rw [unfolded]
  cases computed : arithmetic.binary opcode (machine.registers source.index) value <;>
    simp [known, computed]

end Instructions

/-- The machine after some lines, one after the other. -/
def run (lines : List Line) (machine : Machine Value) : Option (Machine Value) :=
  lines.foldlM arithmetic.execute machine

@[simp]
theorem run_nil (machine : Machine Value) : arithmetic.run [] machine = some machine :=
  rfl

@[simp]
theorem run_cons (line : Line) (rest : List Line) (machine : Machine Value) :
    arithmetic.run (line :: rest) machine =
      (arithmetic.execute machine line).bind (arithmetic.run rest) := by
  simp [run, List.foldlM_cons]
  rfl

@[simp]
theorem bind_run_nil (outcome : Option (Machine Value)) :
    outcome.bind (arithmetic.run []) = outcome := by
  cases outcome <;> rfl

theorem run_append (first second : List Line) (machine : Machine Value) :
    arithmetic.run (first ++ second) machine =
      (arithmetic.run first machine).bind (arithmetic.run second) := by
  simp [run, List.foldlM_append]
  rfl

end Arithmetic

end Covenant
