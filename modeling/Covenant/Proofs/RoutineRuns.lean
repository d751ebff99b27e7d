import Covenant.Proofs.Arithmetic

/-!
# Running code that jumps

Routines and templates are short programs of their own.  The machine that runs
them has whole numbers without a bound, texts that are counted in characters,
and outcomes of comparisons.  Division drops the fraction, and there is none by
zero.

A program runs from its first line up to an instruction that returns.  Where
no step is possible the machine is stuck, so a program that returns has not
failed anywhere.
-/

namespace Covenant

/-- What a register of the machine holds. -/
inductive Datum where
  | number (value : Int)
  | text (content : List Char)
  | flag (holds : Bool)
  /-- The struct without fields. -/
  | empty
deriving DecidableEq

namespace Datum

/-- What an operator makes of two values. -/
def operate : BinaryOp → Datum → Datum → Option Datum
  | .add, .number first, .number second => some (.number (first + second))
  | .div, .number first, .number second =>
    if second = 0 then none else some (.number (first.tdiv second))
  | .less, .number first, .number second => some (.flag (first < second))
  | .equal, first, second => some (.flag (first = second))
  | _, _, _ => none

/-- The values with the operations that routines and templates use. -/
def arithmetic : Arithmetic Datum where
  number value := .number value
  text content := .text content.toList
  empty := .empty
  literal digits :=
    if digits.toList ≠ [] ∧ digits.toList.all Text.isDigit then
      some (.number (Text.digitsValue digits.toList))
    else
      none
  operator := operate
  concatenate
    | .text first, .text second => some (.text (first ++ second))
    | _, _ => none
  complement _ := none
  opposite _ := none
  convert
    | .string, .text content => some (.text content)
    | _, _ => none
  get _ _ := none
  put _ _ _ := none
  literal_digits digits some spelled := by simp [some, spelled]

def number? : Datum → Option Int
  | .number value => some value
  | _ => none

def text? : Datum → Option (List Char)
  | .text content => some content
  | _ => none

def flag? : Datum → Option Bool
  | .flag holds => some holds
  | _ => none

/-- The machine after a line that does not jump. -/
def execute (machine : Machine Datum) : Line → Option (Machine Datum)
  | .instruction .inc [target] => do
      let value ← (← machine.read target).number?
      machine.write (.number (value + 1)) target
  | .instruction .size [source, target] => do
      let content ← (← machine.read source).text?
      machine.write (.number content.length) target
  | .instruction .range [source, target, index, count] => do
      let content ← (← machine.read source).text?
      let index ← (← machine.read index).number?
      let count ← (← machine.read count).number?
      machine.write (.text ((content.drop index.toNat).take count.toNat)) target
  | line => arithmetic.execute machine line

/-- The place where the machine is, and what it remembers. -/
abbrev Snapshot := Nat × Machine Datum

/-- What a program does at a line. -/
def act (code : List Line) (place : Nat) (machine : Machine Datum) : Line → Option Snapshot
  | .label _ => some (place + 1, machine)
  | .instruction .jmp [.label target] => (code.idxOf? (.label target)).map (·, machine)
  | .instruction .jmpNot [source, .label target] => do
      if ← (← machine.read source).flag? then
        some (place + 1, machine)
      else
        (code.idxOf? (.label target)).map (·, machine)
  | line => (execute machine line).map (place + 1, ·)

/-- Some steps of a program. -/
def walk (code : List Line) : Nat → Snapshot → Option Snapshot
  | 0, position => some position
  | steps + 1, (place, machine) => do
      walk code steps (← act code place machine (← code[place]?))

/-- The program comes to a position of a certain kind. -/
def Reaches (code : List Line) (goal : Snapshot → Prop) (start : Snapshot) : Prop :=
  ∃ steps finish, walk code steps start = some finish ∧ goal finish

/-- The program comes to its end and leaves this on the stack. -/
def Returns (code : List Line) (stack : List Datum) : Snapshot → Prop :=
  Reaches code fun finish =>
    finish.2.stack = stack ∧ code[finish.1]? = some (.instruction .ret [])

section Values

variable (first second : Int) (left right : List Char) (one other : Datum)

@[simp]
theorem number_eq (value : Nat) : arithmetic.number value = .number value :=
  rfl

@[simp]
theorem text_eq (content : String) : arithmetic.text content = .text content.toList :=
  rfl

@[simp]
theorem binary_add :
    arithmetic.binary .add (.number first) (.number second) = some (.number (first + second)) :=
  rfl

@[simp]
theorem binary_div {dividend divisor : Nat} (divisible : divisor ≠ 0) :
    arithmetic.binary .div (.number dividend) (.number divisor) =
      some (.number (dividend / divisor : Nat)) :=
  if_neg (Int.natCast_ne_zero.mpr divisible)

@[simp]
theorem binary_lt :
    arithmetic.binary .lt (.number first) (.number second) = some (.flag (first < second)) :=
  rfl

@[simp]
theorem binary_equal : arithmetic.binary .equal one other = some (.flag (one = other)) :=
  rfl

@[simp]
theorem binary_cat :
    arithmetic.binary .cat (.text left) (.text right) = some (.text (left ++ right)) :=
  rfl

end Values

namespace Reaches

variable {code : List Line} {goal : Snapshot → Prop} {place there : Nat}
  {machine : Machine Datum} {source target : Register} {named : Label}

theorem here (holds : goal (place, machine)) : Reaches code goal (place, machine) :=
  ⟨0, (place, machine), rfl, holds⟩

theorem next {line : Line} {later : Snapshot} (stands : code[place]? = some line)
    (acts : act code place machine line = some later) (rest : Reaches code goal later) :
    Reaches code goal (place, machine) := by
  rcases rest with ⟨steps, finish, walks, holds⟩
  exact ⟨steps + 1, finish, by simp [walk, stands, acts, walks], holds⟩

theorem label (stands : code[place]? = some (.label named))
    (rest : Reaches code goal (place + 1, machine)) : Reaches code goal (place, machine) :=
  next stands rfl rest

theorem jumps (stands : code[place]? = some (.instruction .jmp [.label named]))
    (labelled : code.idxOf? (.label named) = some there)
    (rest : Reaches code goal (there, machine)) : Reaches code goal (place, machine) :=
  next stands (congrArg (Option.map (·, machine)) labelled) rest

theorem act_jmpNot (value : Datum) (tested : machine.registers source.index = value) :
    act code place machine (.instruction .jmpNot [.register source, .label named]) =
      value.flag?.bind fun holds => if holds then some (place + 1, machine) else
        (code.idxOf? (.label named)).map (·, machine) := by
  rw [← tested]
  rfl

/-- The condition holds, so there is no jump. -/
theorem falls
    (stands : code[place]? = some (.instruction .jmpNot [.register source, .label named]))
    (tested : machine.registers source.index = .flag true)
    (rest : Reaches code goal (place + 1, machine)) : Reaches code goal (place, machine) :=
  next stands (act_jmpNot _ tested) rest

theorem turns
    (stands : code[place]? = some (.instruction .jmpNot [.register source, .label named]))
    (tested : machine.registers source.index = .flag false)
    (labelled : code.idxOf? (.label named) = some there)
    (rest : Reaches code goal (there, machine)) : Reaches code goal (place, machine) :=
  next stands ((act_jmpNot _ tested).trans (congrArg (Option.map (·, machine)) labelled)) rest

/-- A line that does not jump is executed. -/
theorem executes {line : Line} {later : Machine Datum} (stands : code[place]? = some line)
    (plain : act code place machine line = (execute machine line).map (place + 1, ·))
    (executed : execute machine line = some later)
    (rest : Reaches code goal (place + 1, later)) : Reaches code goal (place, machine) :=
  next stands (plain.trans (congrArg (Option.map (place + 1, ·)) executed)) rest

theorem loads {constant : Operand} {value : Datum}
    (stands : code[place]? = some (.instruction .load [.register target, constant]))
    (known : arithmetic.constant constant = some value)
    (rest : Reaches code goal (place + 1, machine.set target.index value)) :
    Reaches code goal (place, machine) :=
  executes stands rfl (congrArg (Option.bind · fun value => some (machine.set target.index value))
    known) rest

theorem copies
    (stands : code[place]? = some (.instruction .copy [.register source, .register target]))
    (rest : Reaches code goal
      (place + 1, machine.set target.index (machine.registers source.index))) :
    Reaches code goal (place, machine) :=
  next stands rfl rest

theorem pops {top : Datum} {rest : List Datum}
    (stands : code[place]? = some (.instruction .pop [.register target]))
    (stack : machine.stack = top :: rest)
    (further : Reaches code goal (place + 1, { machine with stack := rest }.set target.index top)) :
    Reaches code goal (place, machine) := by
  rcases machine with ⟨registers, _⟩
  cases stack
  exact executes stands rfl rfl further

theorem pushes (stands : code[place]? = some (.instruction .push [.register source]))
    (rest : Reaches code goal
      (place + 1,
        { machine with stack := machine.registers source.index :: machine.stack })) :
    Reaches code goal (place, machine) :=
  next stands rfl rest

theorem increments {value : Int}
    (stands : code[place]? = some (.instruction .inc [.register target]))
    (known : machine.registers target.index = .number value)
    (rest : Reaches code goal (place + 1, machine.set target.index (.number (value + 1)))) :
    Reaches code goal (place, machine) :=
  executes stands rfl (congrArg (fun datum : Datum => datum.number?.bind fun value =>
    some (machine.set target.index (.number (value + 1)))) known) rest

theorem counts {content : List Char}
    (stands : code[place]? = some (.instruction .size [.register source, .register target]))
    (known : machine.registers source.index = .text content)
    (rest : Reaches code goal (place + 1, machine.set target.index (.number content.length))) :
    Reaches code goal (place, machine) :=
  executes stands rfl (congrArg (fun datum : Datum => datum.text?.bind fun content =>
    some (machine.set target.index (.number content.length))) known) rest

theorem cuts {index count : Register} {content : List Char} {first length : Nat}
    (stands : code[place]? = some (.instruction .range
      [.register source, .register target, .register index, .register count]))
    (known : machine.registers source.index = .text content)
    (indexed : machine.registers index.index = .number first)
    (counted : machine.registers count.index = .number length)
    (rest : Reaches code goal
      (place + 1, machine.set target.index (.text ((content.drop first).take length)))) :
    Reaches code goal (place, machine) := by
  refine executes stands rfl ?_ rest
  show ((machine.registers source.index).text?.bind fun content =>
    (machine.registers index.index).number?.bind fun index =>
      (machine.registers count.index).number?.bind fun count =>
        some (machine.set target.index
          (.text ((content.drop index.toNat).take count.toNat)))) = _
  rw [known, indexed, counted]
  rfl

/-- An instruction with two sources computes the value. -/
theorem computes {opcode : Opcode} {second : Operand} {other : Datum} (value : Datum)
    (stands : code[place]? =
      some (.instruction opcode [.register source, second, .register target]))
    (known : machine.read second = some other)
    (computed : arithmetic.binary opcode (machine.registers source.index) other = some value)
    (rest : Reaches code goal (place + 1, machine.set target.index value)) :
    Reaches code goal (place, machine) := by
  have operates : opcode = .cat ∨ opcode.operator?.isSome = true := by
    cases opcode <;> first | exact .inl rfl | exact .inr rfl | cases computed
  have acts : act code place machine (.instruction opcode
        [.register source, second, .register target]) =
      (arithmetic.execute machine
        (.instruction opcode [.register source, second, .register target])).map (place + 1, ·) := by
    rcases operates with rfl | operates
    · rfl
    · cases opcode <;> first | rfl | cases operates
  refine next stands ?_ rest
  rw [acts, arithmetic.execute_binary machine source target known operates, computed]
  rfl

end Reaches

/-- A program stops where it returns, so it leaves one stack only. -/
theorem Returns.unique {code : List Line} {start : Snapshot} {stack other : List Datum}
    (first : Returns code stack start) (second : Returns code other start) : stack = other := by
  rcases first with ⟨steps, finish, walks, rfl, ends⟩
  rcases second with ⟨others, last, goes, rfl, stops⟩
  induction steps generalizing start others with
  | zero =>
    cases walks
    cases others with
    | zero => cases goes; rfl
    | succ others => simp [walk, ends, act, execute, Arithmetic.execute] at goes
  | succ steps ih =>
    cases others with
    | zero =>
      cases goes
      simp [walk, stops, act, execute, Arithmetic.execute] at walks
    | succ others =>
      simp only [walk, Option.bind_eq_bind, Option.bind_eq_some_iff] at walks goes
      rcases walks with ⟨line, stands, next, acts, walks⟩
      rcases goes with ⟨line', stands', next', acts', goes⟩
      cases stands.symm.trans stands'
      cases acts.symm.trans acts'
      exact ih walks others goes

end Datum

end Covenant
