import Covenant.Proofs.Meaning
import Covenant.Proofs.Timeline

/-!
# The code of expressions is right

The lines that are emitted for an elementary expression leave its value in the
register that is handed over, or fail where the expression has no value, and
they leave alone what was held before.

`Carries` follows the emission of code and the run of its lines at once: it
knows the registers that are held at a moment, and the values in them.  There
is one rule for each way to take, write or give back a register, and then one
lemma for each function that emits code of values.
-/

namespace Covenant

/-- Some registers and the stack have not changed. -/
structure Machine.Keeps {Value : Type} (kept : List Nat) (before after : Machine Value) : Prop where
  registers : ∀ index ∈ kept, after.registers index = before.registers index
  stack : after.stack = before.stack

namespace Machine.Keeps

variable {Value : Type} {kept : List Nat} {before after : Machine Value}

theorem refl (kept : List Nat) (machine : Machine Value) : machine.Keeps kept machine :=
  ⟨fun _ _ => rfl, rfl⟩

/-- A register that need not be kept may change. -/
theorem set (keeps : before.Keeps kept after) {index : Nat} (free : index ∉ kept)
    (value : Value) : before.Keeps kept (after.set index value) := by
  refine ⟨fun other member => ?_, keeps.stack⟩
  have different : other ≠ index := by
    rintro rfl
    exact free member
  rw [Machine.registers_set_of_ne _ _ different]
  exact keeps.registers other member

end Machine.Keeps

/--
A run that gives an expected value: it fails if there is none, and otherwise
ends in a machine of which `post` holds.
-/
def Gives {Value Wanted : Type} (expected : Option Wanted)
    (post : Wanted → Machine Value → Prop) (outcome : Option (Machine Value)) : Prop :=
  match expected with
  | none => outcome = none
  | some value => ∃ final, outcome = some final ∧ post value final

namespace Gives

variable {Value Wanted Further : Type} {expected : Option Wanted}
  {post : Wanted → Machine Value → Prop} {outcome : Option (Machine Value)}

/-- One run after the other. -/
theorem bind {further : Wanted → Option Further} {last : Further → Machine Value → Prop}
    {next : Machine Value → Option (Machine Value)} (first : Gives expected post outcome)
    (second : ∀ value machine, post value machine → Gives (further value) last (next machine)) :
    Gives (expected.bind further) last (outcome.bind next) := by
  cases expected with
  | none =>
    cases first
    rfl
  | some value =>
    rcases first with ⟨machine, rfl, holds⟩
    exact second value machine holds

end Gives

namespace Emission

variable {Value : Type} (arithmetic : Arithmetic Value)

/-- The registers of the variables hold their values. -/
def Agrees (generator : Generator) (store : VarId → Value) (machine : Machine Value) : Prop :=
  ∀ id register, generator.bindings.lookup id = some register →
    machine.registers register.index = store id

variable {before after : Generator} {held : List Register} {register : Register} {ty : Ty}
  {env : Env}

theorem free_ends {line : Nat} (ends : (dealloc register line).Ends before () after) :
    after.lines = before.lines ∧ after.bindings = before.bindings := by
  unfold Ends dealloc perform at ends
  simp only [run] at ends
  cases performed : (Action.give register line).perform before with
  | error error => simp [performed] at ends
  | ok changed =>
    rw [performed] at ends
    cases ends
    exact (give_cases performed).symm

theorem operand_ends {id : VarId} {line : Nat} {source : Register}
    (ends : (operand env id line).Ends before source after) :
    before.bindings.lookup id = some source ∧ after = before := by
  unfold Ends operand at ends
  cases bound : before.bindings.lookup id with
  | none => simp [run, binding?, generator, run_bind, bound] at ends
  | some register =>
    simp [run, binding?, generator, run_bind, bound] at ends
    cases ends
    exact ⟨rfl, rfl⟩

/-! ## Code that carries values -/

/-- Registers with the values that are in them. -/
abbrev Load (Value : Type) :=
  List (Register × Value)

def Holding (load : Load Value) (machine : Machine Value) : Prop :=
  ∀ register value, (register, value) ∈ load → machine.registers register.index = value

/--
The registers of the load are held in addition to what was held at the start,
and have their values; what was held at the start has not changed.
-/
structure Carrying (base : Generator) (held : List Register) (start : Machine Value)
    (load : Load Value) (generator : Generator) (machine : Machine Value) : Prop where
  owned : Owned generator (load.map Prod.fst ++ held)
  bindings : generator.bindings = base.bindings
  values : Holding load machine
  keeps : start.Keeps (base.indices held) machine

variable {Outcome Next : Type} {base : Generator} {start machine : Machine Value}
  {store : VarId → Value} {load front back : Load Value} {target : Register} {old : Value}

namespace Carrying

/-- Register zero, what is carried and what was held are all different. -/
theorem apart (carrying : Carrying base held start load before machine) :
    (0 :: (load.map (·.1.index) ++ base.indices held)).Nodup := by
  have same : before.indices (load.map Prod.fst ++ held) =
      load.map (·.1.index) ++ base.indices held := by
    simp [Generator.indices, carrying.bindings]
  rw [← same]
  exact List.nodup_cons.mpr ⟨carrying.owned.zero_not_held, carrying.owned.distinct⟩

theorem holding_set {index : Nat} (free : index ∉ load.map (·.1.index))
    (holds : Holding load machine) (value : Value) : Holding load (machine.set index value) := by
  intro register other member
  have listed : register.index ∈ load.map (·.1.index) :=
    List.mem_map.mpr ⟨(register, other), member, rfl⟩
  rw [Machine.registers_set_of_ne _ _ (ne_of_mem_of_not_mem listed free),
    holds register other member]

/-- What is in a register that is taken is not known, but stays. -/
theorem taken {mark : Mark} (carrying : Carrying base held start load before machine)
    (ends : (alloc mark).Ends before register after) :
    Carrying base held start ((register, machine.registers register.index) :: load) after machine ∧
      after.lines = before.lines := by
  rcases carrying.owned.handed ends with ⟨owned, bindings, lines⟩
  refine ⟨⟨owned, bindings.trans carrying.bindings, ?_, carrying.keeps⟩, lines⟩
  intro other value member
  rcases List.mem_cons.mp member with same | listed
  · cases same
    rfl
  · exact carrying.values other value listed

theorem written {line : Line} (carrying : Carrying base held start load before machine)
    (ends : (Emission.line line).Ends before () after) :
    Carrying base held start load after machine ∧ after.lines = before.lines ++ [line] := by
  rcases carrying.owned.written ends with ⟨owned, bindings, lines⟩
  exact ⟨⟨owned, bindings.trans carrying.bindings, carrying.values, carrying.keeps⟩, lines⟩

theorem scratch (carrying : Carrying base held start load before machine) (value : Value) :
    Carrying base held start load before (machine.set 0 value) := by
  have apart := carrying.apart
  rw [List.nodup_cons, List.mem_append, not_or] at apart
  exact ⟨carrying.owned, carrying.bindings, holding_set apart.1.1 carrying.values value,
    carrying.keeps.set apart.1.2 value⟩

/-- A register that is carried gets another value. -/
theorem set (carrying : Carrying base held start (front ++ (target, old) :: back) before machine)
    (value : Value) : Carrying base held start (front ++ (target, value) :: back) before
      (machine.set target.index value) := by
  have apart := carrying.apart
  simp only [List.map_append, List.map_cons, List.append_assoc, List.cons_append, List.nodup_cons,
    List.perm_middle.nodup_iff, List.mem_append, not_or] at apart
  rcases apart with ⟨-, ⟨notEarly, notLate, notOuter⟩, -⟩
  refine ⟨by simpa using carrying.owned, carrying.bindings, fun register other member => ?_,
    carrying.keeps.set notOuter value⟩
  have values := carrying.values
  rcases List.mem_append.mp member with early | late
  · exact holding_set notEarly (fun _ _ member => values _ _ (by simp [member])) value _ _ early
  · rcases List.mem_cons.mp late with same | late
    · cases same
      exact Machine.registers_set_self _ _ _
    · exact holding_set notLate (fun _ _ member => values _ _ (by simp [member])) value _ _ late

end Carrying

/--
Where the program emits its code, the lines lead from registers with the values of
the load to those that are left, if the expected value is there, and fail otherwise.
-/
def Carries (store : VarId → Value) (load : Load Value) (code : Emission Outcome)
    (expected : Option Value) (left : Value → Outcome → Load Value) : Prop :=
  ∀ ⦃base held start before machine outcome after added⦄, Agrees base store start →
    Carrying base held start load before machine → code.Ends before outcome after →
    after.lines = before.lines ++ added →
    Gives expected (fun value final => Carrying base held start (left value outcome) after final)
      (arithmetic.run added machine)

variable {code : Emission Outcome} {next : Outcome → Emission Next} {expected : Option Value}
  {left : Value → Outcome → Load Value} {further : Value → Option Value}
  {last : Value → Next → Load Value} {valueOf : (VarId → Value) → Option Value}
  {result : Option Value}

variable {arithmetic}

/-- A line computes a value into a register that is carried. -/
theorem Carrying.line (front : Load Value) (last : Value → Next → Load Value) {written : Line}
    {computed : Option Value} {next : Unit → Emission Next} {outcome : Next} {added : List Line}
    (agrees : Agrees base store start)
    (carrying : Carrying base held start (front ++ (target, old) :: back) before machine)
    (ends : (Emission.line written >>= next).Ends before outcome after)
    (lines : after.lines = before.lines ++ added)
    (executes : arithmetic.execute machine written = computed.map (machine.set target.index))
    (rest : ∀ value,
      Carries arithmetic store (front ++ (target, value) :: back) (next ()) (further value) last) :
    Gives (computed.bind further)
      (fun value final => Carrying base held start (last value outcome) after final)
      (arithmetic.run added machine) := by
  rcases bind_ok ends with ⟨_, between, writing, late⟩
  rcases carrying.written writing with ⟨carried, earlier⟩
  rcases lines_added _ late with ⟨more, later⟩
  rw [later, earlier, List.append_assoc] at lines
  rw [← List.append_cancel_left lines, List.singleton_append, Arithmetic.run_cons, executes]
  cases computed with
  | none => rfl
  | some value => exact rest value agrees (carried.set value) late later

/--
Whatever is carried, the code computes a value from the values of the variables,
and leaves it in the register that is the outcome.
-/
def Delivers (arithmetic : Arithmetic Value) (code : Emission Register)
    (value : (VarId → Value) → Option Value) : Prop :=
  ∀ store load, Carries arithmetic store load code (value store) fun result register =>
    (register, result) :: load

namespace Carries

theorem done {value : Value} {outcome : Outcome} (same : left value outcome = load) :
    Carries arithmetic store load (pure outcome) (some value) left := by
  intro base held start before machine _ after added _ carrying ends lines
  cases ends
  cases same
  rw [List.self_eq_append_right.mp lines]
  exact ⟨machine, rfl, carrying⟩

theorem andThen (first : Carries arithmetic store load code expected left)
    (second : ∀ value outcome,
      Carries arithmetic store (left value outcome) (next outcome) (further value) last) :
    Carries arithmetic store load (code >>= next) (expected.bind further) last := by
  intro base held start before machine _ after added agrees carrying ends lines
  rcases bind_ok ends with ⟨outcome, between, early, late⟩
  rcases lines_added _ early with ⟨one, earlier⟩
  rcases lines_added _ late with ⟨two, later⟩
  rw [later, earlier, List.append_assoc] at lines
  rw [← List.append_cancel_left lines, Arithmetic.run_append]
  exact (first agrees carrying early earlier).bind fun value final carried =>
    second value outcome agrees carried late later

theorem alloc {mark : Mark} {next : Register → Emission Next}
    (rest : ∀ register value,
      Carries arithmetic store ((register, value) :: load) (next register) expected last) :
    Carries arithmetic store load (alloc mark >>= next) expected last := by
  intro base held start before machine _ after added agrees carrying ends lines
  rcases bind_ok ends with ⟨register, taken, taking, late⟩
  rcases carrying.taken taking with ⟨carried, same⟩
  exact rest register _ agrees carried late (same ▸ lines)

theorem free (front : Load Value) {value : Value} {line : Nat}
    {next : Unit → Emission Next}
    (rest : Carries arithmetic store (front ++ back) (next ()) expected last) :
    Carries arithmetic store (front ++ (register, value) :: back)
      (dealloc register line >>= next) expected last := by
  intro base held start before machine _ after added agrees carrying ends lines
  rcases bind_ok ends with ⟨_, freed, freeing, late⟩
  have first : Owned before (register :: ((front ++ back).map Prod.fst ++ held)) := by
    refine carrying.owned.of_perm rfl carrying.owned.unique ?_
    simp [Generator.indices, List.perm_middle.symm]
  rcases first.returned freeing with ⟨owned, bindings, same⟩
  refine rest agrees ⟨owned, bindings.trans carrying.bindings, ?_, carrying.keeps⟩ late
    (same ▸ lines)
  exact fun other value member => carrying.values other value
    (List.mem_append.mpr ((List.mem_append.mp member).imp_right (List.mem_cons_of_mem _)))

theorem line (front : Load Value) {written : Line} {computed : Option Value}
    {next : Unit → Emission Next} (same : computed.bind further = result)
    (executes : ∀ machine, Holding (front ++ (target, old) :: back) machine →
      arithmetic.execute machine written = computed.map (machine.set target.index))
    (rest : ∀ value,
      Carries arithmetic store (front ++ (target, value) :: back) (next ()) (further value) last) :
    Carries arithmetic store (front ++ (target, old) :: back) (Emission.line written >>= next)
      result last :=
  fun _ _ _ _ machine _ _ _ agrees carrying ends lines => same ▸
    carrying.line front last agrees ends lines (executes machine carrying.values) rest

/-- The line finds a constant in register zero. -/
theorem scratch (front : Load Value) {written : Line} {computed : Option Value}
    {constant : Operand} {key : Value} {next : Unit → Emission Next}
    (same : computed.bind further = result) (known : arithmetic.constant constant = some key)
    (executes : ∀ machine, Holding (front ++ (target, old) :: back) machine →
      machine.registers 0 = key →
      arithmetic.execute machine written = computed.map (machine.set target.index))
    (rest : ∀ value,
      Carries arithmetic store (front ++ (target, value) :: back) (next ()) (further value) last) :
    Carries arithmetic store (front ++ (target, old) :: back)
      (loadScratch constant >>= fun _ => Emission.line written >>= next) result last := by
  intro base held start before machine _ after added agrees carrying ends lines
  rcases bind_ok ends with ⟨_, between, writing, late⟩
  rcases carrying.written writing with ⟨carried, earlier⟩
  rcases lines_added _ late with ⟨more, later⟩
  rw [later, earlier, List.append_assoc] at lines
  rw [← same, ← List.append_cancel_left lines, List.singleton_append, Arithmetic.run_cons,
    Arithmetic.execute_loadScratch, known]
  have loaded := carried.scratch key
  exact loaded.line front last agrees late later
    (executes _ loaded.values (Machine.registers_set_self _ _ _)) rest

/-- A value is computed and carried with the others. -/
theorem value {code : Emission Register} {next : Register → Emission Next}
    (delivers : Delivers arithmetic code valueOf)
    (rest : ∀ value register,
      Carries arithmetic store ((register, value) :: load) (next register) (further value) last) :
    Carries arithmetic store load (code >>= next) ((valueOf store).bind further) last :=
  (delivers store load).andThen rest

end Carries

variable (arithmetic)

/-! ## Literals and variables -/

/-- A literal is loaded as it is written; an entry of an enum is converted as well. -/
theorem literal_delivers (written : ty.isWritten = true) (mark : Mark) (text : String) :
    Delivers arithmetic (literal mark ty text) fun _ => arithmetic.literalOf ty text := by
  intro store load
  refine .alloc fun register value => ?_
  cases ty with
  | enum name =>
    show Carries _ _ _ (line _ >>= fun _ => line _ >>= fun _ => pure register) _ _
    refine .line [] rfl (fun _ _ => arithmetic.execute_load ..) fun _ => ?_
    refine .line [] (Option.bind_fun_some _) (fun machine holds => ?_) fun _ => .done rfl
    rw [arithmetic.execute_cast, holds register _ List.mem_cons_self]
  | number | decimal _ | bool | string | bytes =>
    exact .line [] (Option.bind_fun_some _) (fun _ _ => arithmetic.execute_load ..)
      fun _ => .done rfl
  | _ => cases written

theorem variable_delivers (env : Env) (mark : Mark) (ty : Ty) (id : VarId) :
    Delivers arithmetic (expression env (.variable mark ty id)) fun store => some (store id) := by
  intro store load base held start before machine register after added agrees carrying ends lines
  rcases bind_ok ends with ⟨source, looked, looking, rest⟩
  rcases operand_ends looking with ⟨bound, rfl⟩
  rw [carrying.bindings] at bound
  rcases bind_ok rest with ⟨target, taken, taking, copying⟩
  rcases carrying.taken taking with ⟨carried, same⟩
  have executes : arithmetic.execute machine
      (.instruction .copy [.register source, .register target]) =
        (some (store id)).map (machine.set target.index) := by
    rw [arithmetic.execute_copy, carrying.keeps.registers _
      (Generator.mem_indices_bound bound held), agrees id source bound]
    rfl
  show Gives ((some (store id)).bind some) _ _
  exact carried.line [] (fun result register => (register, result) :: load) agrees copying
    (same ▸ lines) executes fun _ => .done rfl

/-! ## Operators -/

/-- One operand, from whose value the instruction computes the result. -/
theorem unary_delivers {inner : Emission Register} (delivers : Delivers arithmetic inner valueOf)
    {opcode : Opcode} {extra : List Operand} {meaning : Value → Option Value} (mark : Mark)
    (executes : ∀ (machine : Machine Value) source target,
      arithmetic.execute machine
          (.instruction opcode ([.register source, .register target] ++ extra)) =
        (meaning (machine.registers source.index)).map (machine.set target.index)) :
    Delivers arithmetic (unary mark opcode inner extra) fun store =>
      (valueOf store).bind meaning := by
  refine fun store load => .value delivers fun operand source => .alloc fun register value => ?_
  refine .line [] (Option.bind_fun_some _) (fun machine holds => ?_) fun result =>
    .free [_] (.done rfl)
  rw [executes, holds source operand (by simp)]

/-- Decimals are scaled around a product and a quotient. -/
theorem binary_delivers {left right : Emission Register}
    {leftValue rightValue : (VarId → Value) → Option Value}
    (leftDelivers : Delivers arithmetic left leftValue)
    (rightDelivers : Delivers arithmetic right rightValue) (mark : Mark) (op : BinaryOp) (ty : Ty) :
    Delivers arithmetic (binary mark op ty left right) fun store =>
      (leftValue store).bind fun one => (rightValue store).bind fun other =>
        arithmetic.apply op ty one other := by
  refine fun store load => .alloc fun register value => .value leftDelivers fun one first =>
    .value rightDelivers fun other second => ?_
  by_cases unscaled : ty.places? = none ∨ op ≠ .mul ∧ op ≠ .div
  · have plain : scaleDividend op ty.places? first = pure () ∧
        scaleProduct op ty.places? register = pure () := by
      unfold scaleDividend scaleProduct
      constructor <;> split <;> simp_all
    have computes : opcodeOf op ty.kind = .cat ∨
        (opcodeOf op ty.kind).operator?.isSome = true := by
      cases op <;> simp [opcodeOf, Opcode.operator?] <;> grind
    simp only [plain, pure_bind]
    refine .line [_, _] (Option.bind_fun_some _) (fun machine holds => ?_) fun result =>
      .free [] (.free [] (.done rfl))
    rw [arithmetic.execute_binary _ _ _ (Machine.read_register _ _) computes,
      arithmetic.binary_opcodeOf unscaled, holds first one (by simp), holds second other (by simp)]
  · cases ty with
    | decimal places =>
      have scaled : op = .mul ∨ op = .div := by
        cases op <;> simp [Ty.places?] at unscaled ⊢
      have factor := arithmetic.constant_scale places
      rcases scaled with rfl | rfl
      · refine .line [_, _] rfl (fun machine holds => ?_) fun product => ?_
        · rw [arithmetic.execute_binary _ _ _ (Machine.read_register _ _) (.inr rfl),
            holds first one (by simp), holds second other (by simp)]
          rfl
        · refine .scratch [_, _] (Option.bind_fun_some _) factor (fun machine holds zero => ?_)
            fun result => .free [] (.free [] (.done rfl))
          rw [arithmetic.execute_binary _ _ _ (by rw [Machine.read_scratch, zero]) (.inr rfl),
            holds register product (by simp)]
          rfl
      · refine .scratch [_] rfl factor (fun machine holds zero => ?_) fun dividend => ?_
        · rw [arithmetic.execute_binary _ _ _ (by rw [Machine.read_scratch, zero]) (.inr rfl),
            holds first one (by simp)]
          rfl
        · refine .line [_, _] (Option.bind_fun_some _) (fun machine holds => ?_) fun result =>
            .free [] (.free [] (.done rfl))
          rw [arithmetic.execute_binary _ _ _ (Machine.read_register _ _) (.inr rfl),
            holds first dividend (by simp), holds second other (by simp)]
          rfl
    | _ => simp [Ty.places?] at unscaled

/-! ## Structs and arrays -/

/-- The name of the field passes through register zero. -/
theorem fieldValue_delivers {target : Emission Register}
    (delivers : Delivers arithmetic target valueOf) (mark : Mark) (name : String) :
    Delivers arithmetic (fieldValue mark target name) fun store =>
      (valueOf store).bind fun struct => arithmetic.get struct (arithmetic.text name) := by
  refine fun store load => .value delivers fun struct source => .alloc fun register value => ?_
  refine .scratch [] (Option.bind_fun_some _) rfl (fun machine holds zero => ?_) fun result =>
    .free [_] (.done rfl)
  rw [arithmetic.execute_get _ _ _ (by rw [Machine.read_scratch, zero]),
    holds source struct (by simp)]

theorem elementValue_delivers {array index : Emission Register}
    {arrayValue indexValue : (VarId → Value) → Option Value}
    (arrayDelivers : Delivers arithmetic array arrayValue)
    (indexDelivers : Delivers arithmetic index indexValue) (mark : Mark) :
    Delivers arithmetic (elementValue mark array index) fun store =>
      (arrayValue store).bind fun elements => (indexValue store).bind fun position =>
        arithmetic.get elements position := by
  refine fun store load => .value arrayDelivers fun elements source =>
    .value indexDelivers fun position key => .alloc fun register value => ?_
  refine .line [] (Option.bind_fun_some _) (fun machine holds => ?_) fun result =>
    .free [_] (.free [_] (.done rfl))
  rw [arithmetic.execute_get _ _ _ (Machine.read_register _ _), holds source elements (by simp),
    holds key position (by simp)]

/-- The fields of a struct are computed and put into it one after the other. -/
theorem putFields_carries (target : Register) (line : Nat) {written : List Expr}
    (delivers : ∀ expr ∈ written, Delivers arithmetic (expression env expr) fun store =>
      arithmetic.evaluate env.declared store expr) (fields : List Field) (struct : Value) :
    Carries arithmetic store ((target, struct) :: load)
      (putFields target line fields (arguments env written))
      (arithmetic.fill struct fields (arithmetic.evaluateAll env.declared store written))
      fun result _ => (target, result) :: load := by
  induction fields generalizing written struct with
  | nil => exact .done rfl
  | cons field fields ih =>
    cases written with
    | nil => exact .done rfl
    | cons expr exprs =>
      rw [List.forall_mem_cons] at delivers
      refine .value delivers.1 fun value register => ?_
      refine .scratch [_] rfl rfl (fun machine holds zero => ?_) fun filled =>
        .free [] (ih delivers.2 filled)
      rw [arithmetic.execute_put _ _ _ (by rw [Machine.read_scratch, zero]),
        holds target struct (by simp), holds register value (by simp)]

/-- A struct starts empty in the register that it stays in. -/
theorem construct_delivers {mark : Mark} {method : Method} {typeArgument : Option Ty}
    {written : List Expr} {name : String} (constructs : method.constructs? = some name)
    (delivers : ∀ expr ∈ written, Delivers arithmetic (expression env expr) fun store =>
      arithmetic.evaluate env.declared store expr) :
    Delivers arithmetic (expression env (.call mark ty method typeArgument written)) fun store =>
      (env.declared.struct? name).bind fun decl =>
        arithmetic.fill arithmetic.empty decl.fields
          (arithmetic.evaluateAll env.declared store written) := by
  have means : method.means = .inline (.construct name) := by
    unfold Method.constructs? at constructs
    split at constructs
    · rename_i found
      cases constructs
      exact found
    · cases constructs
  intro store load
  simp only [expression, call, means, inlineCall, construct]
  cases declared : env.declared.struct? name with
  | none =>
    intro base held start before machine register after added agrees carrying ends
    cases ends
  | some decl =>
    simp only [bind_assoc, pure_bind]
    refine .alloc fun register value => ?_
    have clears (machine : Machine Value) : arithmetic.execute machine
        (.instruction .clear [.register register]) =
          (some arithmetic.empty).map (machine.set register.index) := rfl
    refine .line [] ?_ (fun machine _ => clears machine) fun empty =>
      (putFields_carries arithmetic register mark.line delivers decl.fields empty).andThen
        fun result _ => .done rfl
    exact Option.bind_fun_some _

/-! ## All expressions -/

/-- The code of an elementary expression computes its value. -/
theorem elementary_delivers (env : Env) (expr : Expr) (elementary : expr.isElementary = true) :
    Delivers arithmetic (expression env expr) fun store =>
      arithmetic.evaluate env.declared store expr := by
  induction expr using Expr.induction with
  | literal mark ty text | constant mark ty name text =>
    exact literal_delivers arithmetic elementary mark text
  | named mark ty id => exact variable_delivers arithmetic env mark ty id
  | binary mark ty op left right first second =>
    rw [Expr.isElementary, Bool.and_eq_true] at elementary
    exact binary_delivers arithmetic (first elementary.1) (second elementary.2) mark op left.ty
  | not mark ty inner delivers =>
    exact unary_delivers arithmetic (delivers elementary) mark arithmetic.execute_not
  | negate mark ty inner delivers =>
    exact unary_delivers arithmetic (delivers elementary) mark arithmetic.execute_negate
  | cast mark ty inner delivers =>
    intro store load
    cases known : ty.machineType with
    | error error =>
      intro base held start before machine register after added agrees carrying ends
      rw [expression, known] at ends
      cases ends
    | ok shape =>
      have converts : arithmetic.convertTo ty = arithmetic.convert shape := by
        funext value
        simp [Arithmetic.convertTo, known]
      have code := unary_delivers arithmetic (delivers elementary) mark
        (fun machine source target => arithmetic.execute_cast machine source target shape)
      simp only [Arithmetic.evaluate, converts, expression, known]
      exact code store load
  | call mark ty method typeArgument written delivers =>
    rw [Expr.isElementary, Bool.and_eq_true] at elementary
    rcases Option.isSome_iff_exists.mp elementary.1 with ⟨name, constructs⟩
    have value : ∀ store, arithmetic.evaluate env.declared store
        (.call mark ty method typeArgument written) =
          (env.declared.struct? name).bind fun decl =>
            arithmetic.fill arithmetic.empty decl.fields
              (arithmetic.evaluateAll env.declared store written) := by
      intro store
      simp [Arithmetic.evaluate, constructs]
    simp only [value]
    exact construct_delivers arithmetic constructs fun other member =>
      delivers other member (Expr.isElementary_of_mem elementary.2 member)
  | field mark ty target name delivers =>
    exact fieldValue_delivers arithmetic (delivers elementary) mark name
  | element mark ty array index first second =>
    rw [Expr.isElementary, Bool.and_eq_true] at elementary
    exact elementValue_delivers arithmetic (first elementary.1) (second elementary.2) mark
  | thisAddress mark ty | moduleRef mark ty name => cases elementary

/--
The code of an elementary expression is right and clobbers nothing.  It writes
to free registers only, of which register zero is one.  Run on a machine that
has the values of the variables in their registers, it fails if the expression
has no value; otherwise it leaves the value in the register that is handed
over and changes neither the stack nor any register that was held.
-/
theorem expression_evaluates (env : Env) {expr : Expr} {before after : Generator}
    {held : List Register} {register : Register} (elementary : expr.isElementary = true)
    (owned : Owned before held) (ends : (expression env expr).Ends before register after) :
    ∃ added, after.lines = before.lines ++ added ∧
      (∀ line ∈ added, ∀ index ∈ line.destinations, before.registers.isFree index = true) ∧
      ∀ store machine, Agrees before store machine →
        (arithmetic.evaluate env.declared store expr = none →
          arithmetic.run added machine = none) ∧
        ∀ value, arithmetic.evaluate env.declared store expr = some value →
          ∃ final, arithmetic.run added machine = some final ∧
            final.registers register.index = value ∧ final.stack = machine.stack ∧
            ∀ index, before.registers.Holds index →
              final.registers index = machine.registers index := by
  rcases expression_computes env expr owned (covers_indices before held) ends with ⟨-, adds⟩
  rcases adds.appends with ⟨added, lines, spare⟩
  refine ⟨added, lines, ?_, fun store machine agrees => ?_⟩
  · intro line member index writes
    rcases (spare line member).writes index writes with ⟨apart, inside⟩
    refine RegisterFile.isFree_of_not_holds (owned.size ▸ inside) ?_
    rwa [owned.taken]
  · have nothing : Carrying before held machine [] before machine :=
      ⟨owned, rfl, nofun, Machine.Keeps.refl _ machine⟩
    have gives := elementary_delivers arithmetic env expr elementary store [] agrees nothing ends
      lines
    constructor
    · intro missing
      simp only [missing] at gives
      exact gives
    · intro value present
      simp only [present] at gives
      rcases gives with ⟨final, ran, carried⟩
      refine ⟨final, ran, carried.values register value List.mem_cons_self, carried.keeps.stack,
        fun index taken => ?_⟩
      exact carried.keeps.registers index ((owned.taken index).mp taken)

/-- An arithmetic of whole numbers and nothing else. -/
def wholeNumbers : Arithmetic Int where
  number value := value
  text _ := 0
  empty := 0
  literal text := (Text.readDigits? (Text.digitsValue text.toList + 1) text.toList).map Int.ofNat
  operator
    | .add, first, second => some (first + second)
    | .sub, first, second => some (first - second)
    | .mul, first, second => some (first * second)
    | .div, first, second => if second = 0 then none else some (first.tdiv second)
    | _, _, _ => none
  concatenate _ _ := none
  complement _ := none
  opposite value := some (-value)
  convert _ value := some value
  get _ _ := none
  put _ _ _ := none
  literal_digits digits some allDigits := by
    simp [Text.readDigits?, some, allDigits]

/-- The price `x` for two, split among four, with two places. -/
def share : Expr :=
  let decimal := Ty.decimal ⟨2, by decide⟩
  .binary ⟨5, 1⟩ decimal .div
    (.binary ⟨3, 1⟩ decimal .mul (.variable ⟨1, 1⟩ decimal 0) (.literal ⟨2, 1⟩ decimal "200"))
    (.literal ⟨4, 1⟩ decimal "400")

/-- A state in which `x` has the first register. -/
def oneVariable : Generator :=
  { registers :=
      { owners := none :: some 0 :: List.replicate 30 none
        stats := { allocations := 1, peak := 1 } }
    bindings := [(0, { index := 1, aliasName := some "x" })] }

/-- One and a half for two, split among four, is three quarters. -/
theorem expression_evaluates_share :
    Owned oneVariable [] ∧ ∃ register after added final,
      (expression { moduleName := "demo" } share).Ends oneVariable register after ∧
      after.lines = oneVariable.lines ++ added ∧
      wholeNumbers.run added ⟨fun _ => 150, []⟩ = some final ∧
      final.registers register.index = 75 := by
  have taking : Generator.take {} ⟨0, 1⟩ (some "x") =
      .ok ({ index := 1, aliasName := some "x" }, { oneVariable with bindings := [] }) := rfl
  rcases Owned.start.take taking with ⟨taken, -⟩
  have owned : Owned oneVariable [] := taken.bind List.mem_cons_self rfl
  cases ran : (expression { moduleName := "demo" } share).run oneVariable with
  | error error => cases ran
  | ok outcome =>
    rcases outcome with ⟨register, after⟩
    rcases expression_evaluates wholeNumbers { moduleName := "demo" } rfl owned ran with
      ⟨added, lines, -, runs⟩
    have agrees : Agrees oneVariable (fun _ => 150) (⟨fun _ => 150, []⟩ : Machine Int) :=
      fun _ _ _ => rfl
    rcases (runs _ _ agrees).2 75 (by decide) with ⟨final, finished, holds, -⟩
    exact ⟨owned, register, after, added, final, ran, lines, finished, holds⟩

end Emission

end Covenant
