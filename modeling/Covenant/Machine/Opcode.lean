/-!
# Opcodes

The instruction set of the machine.  Operands are written sources first and
destination last.  The byte of an opcode is its position in `Opcode.all`.
-/

namespace Covenant

/-- The operations of the machine, in the order of their bytes. -/
inductive Opcode where
  | nop
  /-- Move a value and leave the source empty. -/
  | move
  | copy
  | push
  | pop
  | swap
  | call
  | extCall
  | jmp
  | jmpIf
  | jmpNot
  | ret
  | throw
  | load
  | cast
  | cat
  /-- A part of a text or array: source, destination, index, length. -/
  | range
  | left
  | right
  | size
  | count
  | not
  | and
  | or
  | xor
  | equal
  | lt
  | gt
  | lte
  | gte
  | inc
  | dec
  | sign
  | negate
  | abs
  | add
  | sub
  | mul
  | div
  | mod
  | shl
  | shr
  | min
  | max
  | pow
  | ctx
  | switch
  | put
  | get
  | clear
  | unpack
  | pack
  | debug
deriving DecidableEq

namespace Opcode

/-- Every opcode once, in the order of the bytes. -/
def all : List Opcode :=
  [.nop, .move, .copy, .push, .pop, .swap, .call, .extCall, .jmp, .jmpIf, .jmpNot, .ret,
    .throw, .load, .cast, .cat, .range, .left, .right, .size, .count, .not, .and, .or, .xor,
    .equal, .lt, .gt, .lte, .gte, .inc, .dec, .sign, .negate, .abs, .add, .sub, .mul, .div,
    .mod, .shl, .shr, .min, .max, .pow, .ctx, .switch, .put, .get, .clear, .unpack, .pack,
    .debug]

def mnemonic : Opcode → String
  | .nop => "NOP"
  | .move => "MOVE"
  | .copy => "COPY"
  | .push => "PUSH"
  | .pop => "POP"
  | .swap => "SWAP"
  | .call => "CALL"
  | .extCall => "EXTCALL"
  | .jmp => "JMP"
  | .jmpIf => "JMPIF"
  | .jmpNot => "JMPNOT"
  | .ret => "RET"
  | .throw => "THROW"
  | .load => "LOAD"
  | .cast => "CAST"
  | .cat => "CAT"
  | .range => "RANGE"
  | .left => "LEFT"
  | .right => "RIGHT"
  | .size => "SIZE"
  | .count => "COUNT"
  | .not => "NOT"
  | .and => "AND"
  | .or => "OR"
  | .xor => "XOR"
  | .equal => "EQUAL"
  | .lt => "LT"
  | .gt => "GT"
  | .lte => "LTE"
  | .gte => "GTE"
  | .inc => "INC"
  | .dec => "DEC"
  | .sign => "SIGN"
  | .negate => "NEGATE"
  | .abs => "ABS"
  | .add => "ADD"
  | .sub => "SUB"
  | .mul => "MUL"
  | .div => "DIV"
  | .mod => "MOD"
  | .shl => "SHL"
  | .shr => "SHR"
  | .min => "MIN"
  | .max => "MAX"
  | .pow => "POW"
  | .ctx => "CTX"
  | .switch => "SWITCH"
  | .put => "PUT"
  | .get => "GET"
  | .clear => "CLEAR"
  | .unpack => "UNPACK"
  | .pack => "PACK"
  | .debug => "DEBUG"

def toByte (opcode : Opcode) : Nat :=
  all.idxOf opcode

def ofByte? (byte : Nat) : Option Opcode :=
  all[byte]?

def isJump : Opcode → Bool
  | .jmp | .jmpIf | .jmpNot => true
  | _ => false

/-- Opcodes that never continue with the next instruction. -/
def isTerminator : Opcode → Bool
  | .jmp | .ret | .throw => true
  | _ => false

end Opcode

end Covenant
