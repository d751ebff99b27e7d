import Covenant.Proofs.StackCode
import Covenant.Proofs.TypedModules

/-!
# Calls between the methods of a module

The site of a call pushes a value for each argument, the last one first, and
the method takes values off the stack for its parameters, the first one first.
There are as many arguments as parameters, so the method finds the values of
the arguments in the order of its parameters and leaves what was on the stack
before.  The arguments may make calls of their own; these take off what was
pushed for them and leave their results, so that nothing stays behind.

A method of an NFT takes the number of a token off the stack before its
parameters, which no site of a call has pushed.
-/

namespace Covenant

variable {before after : Generator} {module : Module} {decl : MethodDecl} {mark : Mark}
  {written : List Expr} {ty : Ty}

namespace Emission

variable {env : Env}

/-! ## The site of a call -/

/-- The code of an argument and the register that is pushed behind it. -/
structure Pushed where
  code : List Line
  register : Register

/-- The code of the argument leaves its value in the register. -/
def Pushed.Computes (argument : Argument) (pushed : Pushed) : Prop :=
  ∃ before after, argument.code.Ends before pushed.register after ∧
    after.lines = before.lines ++ pushed.code

end Emission

/-! ## Running the lines of a call -/

/-- How a call has been answered: what it has done to the stack, and the values it has left. -/
structure Answer (Value : Type) where
  effect : Effect
  left : List Value
  fits : left.length = effect.leaves.toNat

namespace Arithmetic

variable {Value : Type} (arithmetic : Arithmetic Value)

/--
Run a line.  What is called runs on registers of its own, takes its values off
the stack and leaves others there; the answers are used up one after the other.
-/
def perform (state : Machine Value × List (Answer Value)) (line : Line) :
    Option (Machine Value × List (Answer Value)) :=
  if line.stackUse = .call then
    match state with
    | (_, []) => none
    | (machine, answer :: rest) =>
      some ({ machine with stack := answer.left ++ machine.stack.drop answer.effect.taken }, rest)
  else (arithmetic.execute state.1 line).map (·, state.2)

/-- Run lines, one after the other. -/
def performAll (lines : List Line) (state : Machine Value × List (Answer Value)) :
    Option (Machine Value × List (Answer Value)) :=
  lines.foldlM arithmetic.perform state

variable {arithmetic} {machine after : Machine Value} {line : Line}

variable {exit : Label} {result : Nat} {effects more : List Effect} {below above : Nat}
  {answers rest : List (Answer Value)} {top base : List Value}

end Arithmetic

namespace Emission

/-! ## Both sides of a call -/

section Running

variable {Value : Type} {arithmetic : Arithmetic Value} {exit : Label} {result : Nat}

/-- A run of the code of the argument ends with the value in the register. -/
def Pushed.Yields (arithmetic : Arithmetic Value) (pushed : Pushed) (value : Value) : Prop :=
  ∃ before after, arithmetic.performAll pushed.code before = some after ∧
    after.1.registers pushed.register.index = value

end Running

end Emission

end Covenant
