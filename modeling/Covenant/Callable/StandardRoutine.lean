import Covenant.Callable.Routine
import Covenant.Machine.Line

/-!
# The standard routines

Routines that join the standard libraries.  Arguments are on the stack in the
order of declaration, and the result is pushed before the return.
-/

namespace Covenant.Routine

def r (index : Nat) : Operand :=
  .register { index }

def target (text : String) : Operand :=
  .label (.named text)

def here (text : String) : Line :=
  .label (.named text)

def run (opcode : Opcode) (operands : List Operand) : Line :=
  .instruction opcode operands

/-- The integer square root, by Newton's iteration from above. -/
def sqrtCode : List Line :=
  [here "@tomb_math_sqrt",
    run .pop [r 1],
    run .copy [r 1, r 2],
    run .load [r 5, .natural 1],
    run .add [r 2, r 5, r 3],
    run .load [r 5, .natural 2],
    run .div [r 3, r 5, r 3],
    here "@tomb_math_sqrt_loop",
    run .lt [r 3, r 2, r 4],
    run .jmpNot [r 4, target "@tomb_math_sqrt_done"],
    run .copy [r 3, r 2],
    run .div [r 1, r 2, r 4],
    run .add [r 2, r 4, r 3],
    run .load [r 5, .natural 2],
    run .div [r 3, r 5, r 3],
    run .jmp [target "@tomb_math_sqrt_loop"],
    here "@tomb_math_sqrt_done",
    run .push [r 2],
    run .ret []]

def nextRandomCode : List Line :=
  [here "@tomb_math_nextRandom",
    run .pop [r 1],
    run .load [r 2, .natural 1103515245],
    run .mul [r 1, r 2, r 1],
    run .load [r 2, .natural 12345],
    run .add [r 1, r 2, r 1],
    run .load [r 2, .natural 2147483648],
    run .mod [r 1, r 2, r 1],
    run .push [r 1],
    run .ret []]

/--
Every character that stands in the first alphabet is replaced by the one in
its place in the second alphabet.
-/
def convertCode (name sources targets : String) : List Line :=
  [here name,
    run .pop [r 1],
    run .load [r 2, .quoted ""],
    run .load [r 3, .natural 0],
    run .size [r 1, r 4],
    run .load [r 10, .quoted sources],
    run .load [r 11, .quoted targets],
    run .load [r 12, .natural 1],
    run .load [r 13, .natural 26],
    here (name ++ "_next"),
    run .lt [r 3, r 4, r 5],
    run .jmpNot [r 5, target (name ++ "_done")],
    run .range [r 1, r 6, r 3, r 12],
    run .load [r 7, .natural 0],
    here (name ++ "_scan"),
    run .lt [r 7, r 13, r 5],
    run .jmpNot [r 5, target (name ++ "_append")],
    run .range [r 10, r 8, r 7, r 12],
    run .equal [r 6, r 8, r 5],
    run .jmpNot [r 5, target (name ++ "_skip")],
    run .range [r 11, r 6, r 7, r 12],
    run .jmp [target (name ++ "_append")],
    here (name ++ "_skip"),
    run .inc [r 7],
    run .jmp [target (name ++ "_scan")],
    here (name ++ "_append"),
    run .cat [r 2, r 6, r 2],
    run .inc [r 3],
    run .jmp [target (name ++ "_next")],
    here (name ++ "_done"),
    run .push [r 2],
    run .ret []]

def lowercase : String := "abcdefghijklmnopqrstuvwxyz"

def uppercase : String := "ABCDEFGHIJKLMNOPQRSTUVWXYZ"

def toUpperCode : List Line :=
  convertCode "@tomb_string_toUpper" lowercase uppercase

def toLowerCode : List Line :=
  convertCode "@tomb_string_toLower" uppercase lowercase

def sqrt : Routine :=
  { library := "Math", name := "sqrt", returns := .number
    parameters := [{ name := "value", ty := .number }]
    label := "@tomb_math_sqrt"
    body := sqrtCode.map Line.render }

def nextRandom : Routine :=
  { library := "Math", name := "nextRandom", returns := .number
    parameters := [{ name := "seed", ty := .number }]
    label := "@tomb_math_nextRandom"
    body := nextRandomCode.map Line.render }

def toUpper : Routine :=
  { library := "String", name := "toUpper", returns := .string
    parameters := [{ name := "value", ty := .string }]
    label := "@tomb_string_toUpper"
    body := toUpperCode.map Line.render }

def toLower : Routine :=
  { library := "String", name := "toLower", returns := .string
    parameters := [{ name := "value", ty := .string }]
    label := "@tomb_string_toLower"
    body := toLowerCode.map Line.render }

def standard : List Routine :=
  [sqrt, nextRandom, toUpper, toLower]

/-- The table from which the standard routines are read: the lines of each of them. -/
def standardTable : List (List String) :=
  [["// Precompiled helper routines for the Tomb standard libraries.", "//",
      "// Each routine starts with a header line",
      "//   #BUILTIN <Library> <method> <returnType> [name:type ...]",
      "// followed by its body. The first body line is the entry label.",
      "// Arguments arrive on the stack in declaration order; the result is pushed",
      "// before RET.", "", "#BUILTIN Math sqrt number value:number", "@tomb_math_sqrt: NOP",
      "POP r1", "COPY r1 r2", "LOAD r5 1", "ADD r2 r5 r3", "LOAD r5 2", "DIV r3 r5 r3",
      "@tomb_math_sqrt_loop: NOP", "LT r3 r2 r4", "JMPNOT r4 @tomb_math_sqrt_done", "COPY r3 r2",
      "DIV r1 r2 r4", "ADD r2 r4 r3", "LOAD r5 2", "DIV r3 r5 r3", "JMP @tomb_math_sqrt_loop",
      "@tomb_math_sqrt_done: NOP", "PUSH r2", "RET", ""],
    ["#BUILTIN Math nextRandom number seed:number", "@tomb_math_nextRandom: NOP", "POP r1",
      "LOAD r2 1103515245", "MUL r1 r2 r1", "LOAD r2 12345", "ADD r1 r2 r1", "LOAD r2 2147483648",
      "MOD r1 r2 r1", "PUSH r1", "RET", ""],
    ["#BUILTIN String toUpper string value:string", "@tomb_string_toUpper: NOP", "POP r1",
      "LOAD r2 \"\"", "LOAD r3 0", "SIZE r1 r4", "LOAD r10 \"abcdefghijklmnopqrstuvwxyz\"",
      "LOAD r11 \"ABCDEFGHIJKLMNOPQRSTUVWXYZ\"", "LOAD r12 1", "LOAD r13 26",
      "@tomb_string_toUpper_next: NOP", "LT r3 r4 r5", "JMPNOT r5 @tomb_string_toUpper_done",
      "RANGE r1 r6 r3 r12", "LOAD r7 0", "@tomb_string_toUpper_scan: NOP", "LT r7 r13 r5",
      "JMPNOT r5 @tomb_string_toUpper_append", "RANGE r10 r8 r7 r12", "EQUAL r6 r8 r5",
      "JMPNOT r5 @tomb_string_toUpper_skip", "RANGE r11 r6 r7 r12",
      "JMP @tomb_string_toUpper_append", "@tomb_string_toUpper_skip: NOP", "INC r7",
      "JMP @tomb_string_toUpper_scan", "@tomb_string_toUpper_append: NOP", "CAT r2 r6 r2", "INC r3",
      "JMP @tomb_string_toUpper_next", "@tomb_string_toUpper_done: NOP", "PUSH r2", "RET", ""],
    ["#BUILTIN String toLower string value:string", "@tomb_string_toLower: NOP", "POP r1",
      "LOAD r2 \"\"", "LOAD r3 0", "SIZE r1 r4", "LOAD r10 \"ABCDEFGHIJKLMNOPQRSTUVWXYZ\"",
      "LOAD r11 \"abcdefghijklmnopqrstuvwxyz\"", "LOAD r12 1", "LOAD r13 26",
      "@tomb_string_toLower_next: NOP", "LT r3 r4 r5", "JMPNOT r5 @tomb_string_toLower_done",
      "RANGE r1 r6 r3 r12", "LOAD r7 0", "@tomb_string_toLower_scan: NOP", "LT r7 r13 r5",
      "JMPNOT r5 @tomb_string_toLower_append", "RANGE r10 r8 r7 r12", "EQUAL r6 r8 r5",
      "JMPNOT r5 @tomb_string_toLower_skip", "RANGE r11 r6 r7 r12",
      "JMP @tomb_string_toLower_append", "@tomb_string_toLower_skip: NOP", "INC r7",
      "JMP @tomb_string_toLower_scan", "@tomb_string_toLower_append: NOP", "CAT r2 r6 r2", "INC r3",
      "JMP @tomb_string_toLower_next", "@tomb_string_toLower_done: NOP", "PUSH r2", "RET"]]

end Covenant.Routine
