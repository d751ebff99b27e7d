import Covenant.Machine.Line

/-!
# What an instruction does to registers and to the flow of control

Two readings of a line of assembly.  `Line.destinations` are the registers
that the line writes; by the convention of the machine the destination comes
last, apart from the instructions whose last operands say how much or which
part is meant.  A line that `isStraight` is followed by the next line whatever
happens; labels count as turns, since a run can arrive at them from elsewhere.
-/

namespace Covenant

namespace Opcode

/-- The places of the operands that an instruction writes. -/
@[simp]
def written : Opcode → List Nat
  | .nop | .push | .call | .extCall | .jmp | .jmpIf | .jmpNot | .ret | .throw | .switch
  | .debug => []
  | .pop | .load | .clear | .inc | .dec => [0]
  | .move | .swap => [0, 1]
  | .copy | .cast | .range | .left | .right | .size | .count | .not | .sign | .negate | .abs
  | .ctx | .put | .get | .unpack | .pack => [1]
  | .cat | .and | .or | .xor | .equal | .lt | .gt | .lte | .gte | .add | .sub | .mul | .div
  | .mod | .shl | .shr | .min | .max | .pow => [2]

end Opcode

namespace Operand

/-- The register that an operand names. -/
def indices : Operand → List Nat
  | .scratch => [0]
  | .register held => [held.index]
  | _ => []

/-- The register that an operand stands for. -/
def register? : Operand → Option Register
  | .register held => some held
  | _ => none

end Operand

namespace Line

/-- The registers that a line writes. -/
def destinations : Line → List Nat
  | .instruction opcode operands =>
    opcode.written.flatMap fun place => (operands[place]?.map Operand.indices).getD []
  | _ => []

/-- The line is followed by the next one, and reached from the one before only. -/
def isStraight : Line → Bool
  | .instruction .jmp [.label _] => false
  | .instruction .jmpIf [_, .label _] => false
  | .instruction .jmpNot [_, .label _] => false
  | .instruction .throw [_] => false
  | .instruction .ret [] => false
  | .label _ => false
  | .raw _ => false
  | _ => true

/-- The registers that a line refers to. -/
def registers : Line → List Register
  | .instruction _ operands => operands.filterMap Operand.register?
  | _ => []

/-- The line neither names a register nor comes from assembly. -/
def isCode : Line → Bool
  | .aliasing _ _ => false
  | .raw _ => false
  | _ => true

/-- What an instruction writes is among its operands. -/
theorem exists_operand_of_mem_destinations {opcode : Opcode} {operands : List Operand}
    {index : Nat} (member : index ∈ (Line.instruction opcode operands).destinations) :
    ∃ operand ∈ operands, index ∈ operand.indices := by
  simp only [destinations, List.mem_flatMap] at member
  rcases member with ⟨place, -, found⟩
  cases operandAt : operands[place]? with
  | none => simp [operandAt] at found
  | some operand =>
    refine ⟨operand, List.mem_of_getElem? operandAt, ?_⟩
    simpa [operandAt] using found

/-- The line turns nowhere and writes none of the registers that are to be kept. -/
structure Spares (kept : List Nat) (line : Line) : Prop where
  straight : line.isStraight = true
  writes : ∀ index ∈ line.destinations, index ∉ kept ∧ index < registerCount

/-- Between registers only, an instruction with two operands goes on to the next line. -/
theorem isStraight_two (opcode : Opcode) (first second : Register) :
    (Line.instruction opcode [.register first, .register second]).isStraight = true := by
  cases opcode <;> rfl

/-- Between registers only, an instruction with three operands goes on to the next line. -/
theorem isStraight_three (opcode : Opcode) (first second third : Register) :
    (Line.instruction opcode
      [.register first, .register second, .register third]).isStraight = true := by
  cases opcode <;> rfl

end Line

end Covenant
