import Covenant.Proofs.EmittedFlow

/-!
# What code does to the stack

The stack is used for calls and for results only.  A call takes off what was
pushed for it and leaves a value if it has one; this is not to be seen in its
line, so it is read off the source.  `Expr.effects` lists what the calls in the
code of an expression do, in the order in which they are emitted.

`Rises` says that lines lead from one height of the stack to another: labels,
tests and jumps stand at height zero, and only a jump to the exit may leave a
result.
-/

namespace Covenant

/-- What a call does to the stack. -/
structure Effect where
  /-- The number of values that it takes off. -/
  taken : Nat
  /-- It leaves one value. -/
  leaves : Bool
deriving DecidableEq

namespace Effect

/--
The calls in the arguments of a call, which are pushed the last one first, and
the call itself; it takes off the arguments and `extra` values more.
-/
def pushed (arguments : List (List Effect)) (extra : Nat) (leaves : Bool) : List Effect :=
  arguments.reverse.flatten ++ [⟨arguments.length + extra, leaves⟩]

end Effect

/-- A text is turned into an object of the host by a call. -/
def Ty.effects (ty : Ty) : List Effect :=
  if ty.kind = .address ∨ ty.kind = .hash then [⟨1, true⟩] else []

/-- The calls in an operation that is written out; `leaves` if its type is not none. -/
def Inline.effects (declared : Declared) (arguments : List (List Effect)) (leaves : Bool) :
    Inline → List Effect
  | .unary _ | .cast _ | .range => (arguments.take 1).flatten
  | .binary _ | .enumFlag | .arrayGet => (arguments.take 2).flatten
  | .construct structName =>
    (arguments.take (((declared.struct? structName).map (·.fields.length)).getD 0)).flatten
  | .storage namesContract typed =>
    Effect.pushed arguments (namesContract.toNat + typed.toNat) leaves
  | .callHost | .callMethod => Effect.pushed (arguments.drop 1) 0 leaves
  | .callContract => Effect.pushed (arguments.drop 2) 1 leaves
  | .createSeries => Effect.pushed arguments.dropLast 2 leaves
  | .readToken _ => Effect.pushed arguments 0 true
  | .expect | .decimalPlaces | .moduleScript | .moduleInterface => []

/-- The calls in a call of a method. -/
def Means.effects (declared : Declared) (arguments : List (List Effect)) (leaves : Bool) :
    Means → List Effect
  | .hostCall | .localCall => Effect.pushed arguments 0 leaves
  | .contractCall => Effect.pushed arguments 1 leaves
  | .inline operation => operation.effects declared arguments leaves

namespace Expr

mutual

/-- What the calls in the code of an expression do, one after the other. -/
def effects (declared : Declared) : Expr → List Effect
  | .literal _ ty _ => ty.effects
  | .constant _ ty _ _ => ty.effects
  | .binary _ _ _ left right => left.effects declared ++ right.effects declared
  | .not _ _ inner | .negate _ _ inner | .cast _ _ inner => inner.effects declared
  | .call _ ty method _ arguments =>
    method.means.effects declared (allEffects declared arguments) (ty ≠ .none)
  | .field _ _ target _ => target.effects declared
  | .element _ _ array index => array.effects declared ++ index.effects declared
  | .thisAddress _ _ => [⟨1, true⟩]
  | .variable .. | .moduleRef .. => []

/-- What the calls in the code of each expression do. -/
def allEffects (declared : Declared) : List Expr → List (List Effect)
  | [] => []
  | first :: rest => first.effects declared :: allEffects declared rest

end

end Expr

/-- What the calls in the code of an argument do. -/
def Emission.Argument.effects (declared : Declared) (argument : Argument) : List Effect :=
  argument.expr.effects declared

/-- What the calls in the code of a simple statement do. -/
def Deed.effects (declared : Declared) : Deed → List Effect
  | .assign _ _ (.index index) value => value.effects declared ++ index.effects declared
  | .assign _ _ _ value => value.effects declared
  | .discard _ expr => expr.effects declared
  | .emit _ _ address value =>
    value.effects declared ++ address.effects declared ++ [⟨3, false⟩]
  | .result _ (some value) => value.effects declared
  | .comment _ | .result _ none | .raw _ => []

/-- The number of values that a simple statement leaves on the stack. -/
def Deed.left : Deed → Nat
  | .result _ (some _) => 1
  | _ => 0

/-- What the calls in the code of a flow do. -/
def Flow.effects (declared : Declared) : Plan → List Effect
  | .simple _ deed | .giveBack _ deed => deed.effects declared
  | .seq first second => first.effects declared ++ second.effects declared
  | .within _ _ _ body => body.effects declared
  | .expect _ condition message => condition.effects declared ++ message.effects declared
  | .branch _ condition body other =>
    condition.effects declared ++ body.effects declared ++ other.effects declared
  | .whileLoop _ _ condition body => condition.effects declared ++ body.effects declared
  | .doLoop _ _ body condition => body.effects declared ++ condition.effects declared
  | .forLoop _ _ condition body step =>
    condition.effects declared ++ body.effects declared ++ step.effects declared
  | .switch _ subject arms => subject.effects declared ++ arms.effects declared
  | .arm _ _ value body others =>
    value.effects declared ++ body.effects declared ++ others.effects declared
  | .throw _ value => value.effects declared
  | .skip | .leave _ | .next _ => []

/-! ## Lines -/

/-- How a line uses the stack. -/
inductive StackUse where
  | push
  | pop
  | call
  | nothing
deriving DecidableEq

def Line.stackUse : Line → StackUse
  | .instruction .push [_] => .push
  | .instruction .pop [_] => .pop
  | .instruction .extCall [_] | .instruction .switch [_] | .instruction .call [_] => .call
  | _ => .nothing

namespace StackUse

/-- The height of the stack afterwards; there is none if too little is on the stack. -/
def shift? (effect? : Option Effect) (height : Nat) : StackUse → Option Nat
  | push => some (height + 1)
  | pop => if 0 < height then some (height - 1) else none
  | call => effect?.bind fun effect =>
    if effect.taken ≤ height then some (height - effect.taken + effect.leaves.toNat) else none
  | nothing => some height

/-- From one height to another, with the effect of the call if it is one. -/
inductive Shifts : StackUse → List Effect → Nat → Nat → Prop
  | push (height : Nat) : Shifts .push [] height (height + 1)
  | pop (height : Nat) : Shifts .pop [] (height + 1) height
  | call (effect : Effect) (height : Nat) :
      Shifts .call [effect] (height + effect.taken) (height + effect.leaves.toNat)
  | nothing (height : Nat) : Shifts .nothing [] height height

end StackUse

/--
The line leads from one height of the stack to another.  At a label, a test or
a jump nothing is on the stack, apart from the result at a jump to the exit;
what follows a jump is reached from elsewhere.
-/
inductive Line.Lifts (exit : Label) (result : Nat) : Line → List Effect → Nat → Nat → Prop
  | straight {line : Line} {used : List Effect} {before after : Nat}
      (runs : line.isStraight = true) (shifts : line.stackUse.Shifts used before after) :
      Lifts exit result line used before after
  | label (place : Label) : Lifts exit result (.label place) [] 0 0
  | jump {target : Label} (inside : target ≠ exit) :
      Lifts exit result (.instruction .jmp [.label target]) [] 0 0
  | giveBack : Lifts exit result (.instruction .jmp [.label exit]) [] result 0
  | jumpIf (register : Register) {target : Label} (inside : target ≠ exit) :
      Lifts exit result (.instruction .jmpIf [.register register, .label target]) [] 0 0
  | jumpNot (register : Register) {target : Label} (inside : target ≠ exit) :
      Lifts exit result (.instruction .jmpNot [.register register, .label target]) [] 0 0
  | throw (register : Register) :
      Lifts exit result (.instruction .throw [.register register]) [] 0 0

/-- The lines lead from one height of the stack to another, with the effects of their calls. -/
inductive Rises (exit : Label) (result : Nat) : List Line → List Effect → Nat → Nat → Prop
  | nil (height : Nat) : Rises exit result [] [] height height
  | cons {line : Line} {rest : List Line} {used others : List Effect} {before between after : Nat}
      (first : line.Lifts exit result used before between)
      (further : Rises exit result rest others between after) :
      Rises exit result (line :: rest) (used ++ others) before after

namespace Rises

variable {exit : Label} {result : Nat} {first second : List Line} {effects others : List Effect}
  {before between after : Nat}

theorem single {line : Line} (lifts : line.Lifts exit result effects before after) :
    Rises exit result [line] effects before after := by
  have rises := cons lifts (.nil after)
  rwa [List.append_nil] at rises

theorem append (left : Rises exit result first effects before between)
    (right : Rises exit result second others between after) :
    Rises exit result (first ++ second) (effects ++ others) before after := by
  induction left with
  | nil height => exact right
  | cons lifts further ih =>
    rw [List.append_assoc]
    exact .cons lifts (ih right)

/-- What lines do is what their parts do, one after the other. -/
theorem split (rises : Rises exit result (first ++ second) effects before after) :
    ∃ used others between, effects = used ++ others ∧
      Rises exit result first used before between ∧
      Rises exit result second others between after := by
  induction first generalizing effects before with
  | nil => exact ⟨[], effects, before, rfl, .nil before, rises⟩
  | cons line rest ih =>
    cases rises with
    | cons lifts further =>
      rcases ih further with ⟨used, others, between, rfl, left, right⟩
      exact ⟨_, others, between, (List.append_assoc _ _ _).symm, .cons lifts left, right⟩

end Rises

end Covenant
