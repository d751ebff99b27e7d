import Covenant.Proofs.GlobalStorage
import Covenant.Proofs.StackEffects

/-!
# Code that keeps the stack

`Shifts` tells what the lines that a program emits do to the stack.  The lemmas
follow the functions that emit code: arguments are pushed and taken off again
by the call, and its result, if there is one, is taken off behind it.  So the
code of every value leads back to the height it has started from, and a simple
statement leaves a value only if it gives one back.
-/

namespace Covenant

variable {height : Nat}

namespace Emission

variable {Outcome Next : Type} {exit : Label} {result before between after : Nat}
  {effects others : List Effect} {code : Emission Outcome} {next : Outcome → Emission Next}

/-- What the program emits leads from one height of the stack to another. -/
def Shifts (exit : Label) (result : Nat) (effects : List Effect) (before after : Nat)
    (code : Emission Outcome) : Prop :=
  ∀ start outcome finish, code.Ends start outcome finish →
    ∃ lines, finish.lines = start.lines ++ lines ∧ Rises exit result lines effects before after

namespace Shifts

theorem andThen (first : Shifts exit result effects before between code)
    (second : ∀ outcome, Shifts exit result others between after (next outcome)) :
    Shifts exit result (effects ++ others) before after (code >>= next) := by
  intro start last finish ends
  rcases bind_ok ends with ⟨outcome, middle, early, late⟩
  rcases first start outcome middle early with ⟨lines, added, rises⟩
  rcases second outcome middle last finish late with ⟨more, appended, further⟩
  exact ⟨lines ++ more, by rw [appended, added, List.append_assoc], rises.append further⟩

/-- What comes first calls nothing. -/
theorem quietly (first : Shifts exit result [] before between code)
    (second : ∀ outcome, Shifts exit result effects between after (next outcome)) :
    Shifts exit result effects before after (code >>= next) :=
  first.andThen second

/-- What comes last calls nothing. -/
theorem thenQuietly (first : Shifts exit result effects before between code)
    (second : ∀ outcome, Shifts exit result [] between after (next outcome)) :
    Shifts exit result effects before after (code >>= next) := by
  rw [← List.append_nil effects]
  exact first.andThen second

/-- Nothing is written. -/
theorem silent
    (same : ∀ start outcome finish, code.Ends start outcome finish → finish.lines = start.lines) :
    Shifts exit result [] height height code := by
  intro start outcome finish ends
  exact ⟨[], by rw [same start outcome finish ends, List.append_nil], .nil height⟩

theorem pure {outcome : Outcome} :
    Shifts exit result [] height height (pure outcome : Emission Outcome) :=
  silent fun _ _ _ ends => by cases ends; rfl

theorem fail {error : Error} :
    Shifts exit result effects before after (.fail error : Emission Outcome) := by
  intro start outcome finish ends
  cases ends

theorem lift {computed : Except Error Outcome}
    (rest : ∀ outcome, Shifts exit result effects before after (next outcome)) :
    Shifts exit result effects before after ((liftM computed : Emission Outcome) >>= next) := by
  cases computed with
  | ok outcome => exact rest outcome
  | error error => exact fail

theorem line {written : Line} (lifts : written.Lifts exit result effects before after) :
    Shifts exit result effects before after (Emission.line written) := by
  intro start outcome finish ends
  cases ends
  exact ⟨[written], by simp [Generator.lines], .single lifts⟩

/-- The line has nothing to do with the stack. -/
theorem still {written : Line} (runs : written.isStraight = true)
    (unused : written.stackUse = .nothing) :
    Shifts exit result [] height height (Emission.line written) :=
  line (.straight runs (unused ▸ .nothing height))

theorem step {written : Line} {next : Unit → Emission Next} (runs : written.isStraight = true)
    (unused : written.stackUse = .nothing)
    (rest : Shifts exit result effects before after (next ())) :
    Shifts exit result effects before after (Emission.line written >>= next) :=
  (still runs unused).quietly fun _ => rest

theorem alloc {mark : Mark} {next : Register → Emission Next}
    (rest : ∀ register, Shifts exit result effects before after (next register)) :
    Shifts exit result effects before after (Emission.alloc mark >>= next) :=
  (silent fun _ _ _ ends => (takeRegister_ends ends).1).quietly rest

theorem free {register : Register} {line : Nat} :
    Shifts exit result [] height height (dealloc register line) :=
  silent fun _ _ _ ends => (free_ends ends).1

theorem freeing {register : Register} {line : Nat} {next : Unit → Emission Next}
    (rest : Shifts exit result effects before after (next ())) :
    Shifts exit result effects before after (dealloc register line >>= next) :=
  free.quietly fun _ => rest

theorem onlyIf {condition : Bool} {code : Emission Unit}
    (shifts : Shifts exit result [] height height code) :
    Shifts exit result [] height height (onlyIf condition code) := by
  unfold Emission.onlyIf
  split
  · exact shifts
  · exact pure

end Shifts

/-- An instruction with more than one operand has nothing to do with the stack. -/
theorem stackUse_of_two (opcode : Opcode) (first second : Operand) (rest : List Operand) :
    (Line.instruction opcode (first :: second :: rest)).stackUse = .nothing := by
  cases opcode <;> rfl

theorem operand_shifts (env : Env) (id : VarId) (line : Nat) :
    Shifts exit result [] height height (operand env id line) := by
  refine .silent fun start register finish ends => ?_
  rcases bind_ok ends with ⟨found, seen, looked, rest⟩
  cases looked
  split at rest
  · cases rest
    rfl
  · cases rest

theorem ensureBound_shifts (env : Env) (id : VarId) (mark : Mark) :
    Shifts exit result [] height height (ensureBound env id mark) := by
  intro start fresh finish ends
  by_cases bound : start.Binds id
  · rcases bind_ok ends with ⟨found, seen, looked, rest⟩
    cases looked
    replace bound : (start.bindings.lookup id).isSome = true := bound
    simp only [bound, if_true] at rest
    cases rest
    exact ⟨[], by simp, .nil height⟩
  · exact ⟨_, ensureBound_ends bound ends, .single (.straight rfl (.nothing height))⟩

theorem loadScratch_shifts (value : Operand) :
    Shifts exit result [] height height (loadScratch value) := by
  refine .still ?_ rfl
  cases value <;> rfl

theorem push_shifts (value : Operand) :
    Shifts exit result [] height (height + 1) (instruction .push [value]) := by
  refine .line (.straight ?_ (.push height))
  cases value <;> rfl

theorem pop_shifts (register : Register) :
    Shifts exit result [] (height + 1) height (instruction .pop [.register register]) :=
  .line (.straight rfl (.pop height))

theorem pushValue_shifts (value : Operand) :
    Shifts exit result [] height (height + 1) (pushValue value) :=
  (loadScratch_shifts value).quietly fun _ => push_shifts .scratch

theorem hostCall_shifts (name : String) (effect : Effect) (height : Nat) :
    Shifts exit result [effect] (height + effect.taken) (height + effect.leaves.toNat)
      (hostCall name) :=
  (loadScratch_shifts _).quietly fun _ => .line (.straight rfl (.call effect height))

theorem labelCall_shifts (target : Label) (effect : Effect) (height : Nat) :
    Shifts exit result [effect] (height + effect.taken) (height + effect.leaves.toNat)
      (instruction .call [.label target]) :=
  .line (.straight rfl (.call effect height))

/-- The name of the method is pushed on top of the arguments. -/
theorem contractCall_shifts (contract method : String) (count : Nat) (leaves : Bool)
    (height : Nat) :
    Shifts exit result [⟨count + 1, leaves⟩] (height + count) (height + leaves.toNat)
      (contractCall contract method) := by
  refine (pushValue_shifts _).quietly fun _ => (loadScratch_shifts _).quietly fun _ => ?_
  exact .step rfl rfl (.line (.straight rfl (.call ⟨count + 1, leaves⟩ height)))

/-- What a call has left is taken off again. -/
theorem useRoutine_ends {env : Env} {start finish : Generator} {name : String}
    (ends : (useRoutine env name).Ends start () finish) :
    finish.lines = start.lines := by
  rcases bind_ok ends with ⟨_, _, looked, rest⟩
  cases looked
  split at rest <;> cases rest <;> rfl

theorem popResult_shifts (mark : Mark) (ty : Ty) :
    Shifts exit result [] (height + (decide (ty ≠ .none)).toNat) height (popResult mark ty) := by
  unfold popResult
  split
  · rename_i none
    rw [none]
    exact .pure
  · rename_i some
    rw [decide_eq_true some]
    exact .alloc fun register => (pop_shifts register).quietly fun _ => .pure

/-- The result of a call is taken off behind it. -/
theorem Shifts.popped {code : Emission Unit} (mark : Mark) (ty : Ty)
    (called : Shifts exit result effects before (height + (decide (ty ≠ .none)).toNat) code) :
    Shifts exit result effects before height (code >>= fun _ => popResult mark ty) :=
  called.thenQuietly fun _ => popResult_shifts mark ty

theorem loadBytes_shifts (mark : Mark) (bytes : List UInt8) :
    Shifts exit result [] height height (loadBytes mark bytes) :=
  .alloc fun _ => .step rfl rfl .pure

theorem unpackStruct_shifts (ty : Ty) (register : Register) :
    Shifts exit result [] height height (unpackStruct ty register) :=
  .onlyIf (.still rfl rfl)

/-! ## Arguments -/

section Arguments

variable {declared : Declared} {arguments : List Argument}

/-- The code of every argument leads back to where it has started from. -/
def Level (exit : Label) (result : Nat) (declared : Declared) (arguments : List Argument) : Prop :=
  ∀ argument ∈ arguments, ∀ height,
    Shifts exit result (argument.effects declared) height height argument.code

theorem pushArguments_shifts (level : Level exit result declared arguments) :
    Shifts exit result (arguments.map (Argument.effects declared)).reverse.flatten height
      (height + arguments.length) (pushArguments arguments) := by
  induction arguments with
  | nil => exact .pure
  | cons first rest ih =>
    simp only [List.map_cons, List.reverse_cons, List.flatten_append, List.flatten_singleton,
      List.length_cons]
    refine (ih fun argument member => level argument (List.mem_cons_of_mem _ member)).andThen ?_
    intro _
    refine (level first List.mem_cons_self _).thenQuietly fun register => ?_
    exact (push_shifts _).quietly fun _ => .free

/-- Arguments are pushed, and a call takes them off again with what was pushed before. -/
theorem pushed_shifts (level : Level exit result declared arguments) {extra : Nat} {leaves : Bool}
    (called : Shifts exit result [⟨arguments.length + extra, leaves⟩]
      (height + (arguments.length + extra)) after code) :
    Shifts exit result
      (Effect.pushed (arguments.map (Argument.effects declared)) extra leaves)
      (height + extra) after (pushArguments arguments >>= fun _ => code) := by
  refine (pushArguments_shifts level).andThen fun _ => ?_
  rwa [List.length_map, Nat.add_assoc, Nat.add_comm extra]

theorem compute_shifts (level : Level exit result declared arguments) (index line : Nat) :
    Shifts exit result ((arguments.map (Argument.effects declared))[index]?.getD []) height height
      (compute arguments index line) := by
  unfold compute argument
  cases found : arguments[index]? with
  | none => exact .fail
  | some argument =>
    rw [List.getElem?_map, found]
    exact level argument (List.mem_of_getElem? found) height

theorem applyUnary_shifts (level : Level exit result declared arguments) (mark : Mark)
    {operands : Register → Register → List Operand} {opcode : Opcode}
    (still : ∀ source target, (Line.instruction opcode (operands source target)).isStraight = true ∧
      (Line.instruction opcode (operands source target)).stackUse = .nothing) :
    Shifts exit result ((arguments.map (Argument.effects declared)).take 1).flatten height height
      (applyUnary mark arguments operands opcode) := by
  have first : ((arguments.map (Argument.effects declared)).take 1).flatten =
      (arguments.map (Argument.effects declared))[0]?.getD [] := by
    cases arguments <;> simp
  rw [first]
  refine (compute_shifts level 0 _).thenQuietly fun source => .alloc fun target => ?_
  rcases still source target with ⟨runs, unused⟩
  exact .step runs unused (.freeing .pure)

theorem applyBinary_shifts (level : Level exit result declared arguments) (mark : Mark)
    {code : Register → Register → Register → Emission Unit}
    (still : ∀ first second target, Shifts exit result [] height height
      (code first second target)) :
    Shifts exit result ((arguments.map (Argument.effects declared)).take 2).flatten height height
      (applyBinary mark arguments code) := by
  have both : ((arguments.map (Argument.effects declared)).take 2).flatten =
      (arguments.map (Argument.effects declared))[0]?.getD [] ++
        (arguments.map (Argument.effects declared))[1]?.getD [] := by
    rcases arguments with _ | ⟨first, _ | ⟨second, rest⟩⟩ <;> simp
  rw [both]
  refine (compute_shifts level 0 _).andThen fun first => ?_
  refine (compute_shifts level 1 _).thenQuietly fun second => .alloc fun target => ?_
  exact (still first second target).quietly fun _ => .freeing (.freeing .pure)

theorem putFields_shifts (level : Level exit result declared arguments) (target : Register)
    (line : Nat) (fields : List Field) :
    Shifts exit result
      ((arguments.map (Argument.effects declared)).take fields.length).flatten height height
      (putFields target line fields arguments) := by
  fun_induction putFields target line fields arguments with
  | case1 field fields argument arguments ih =>
    simp only [List.map_cons, List.length_cons, List.take_succ_cons, List.flatten_cons]
    refine (level argument List.mem_cons_self height).andThen fun value => ?_
    refine (loadScratch_shifts _).quietly fun _ => .step rfl rfl (.freeing ?_)
    exact ih fun argument member => level argument (List.mem_cons_of_mem _ member)
  | case2 fields arguments missing =>
    have nothing : ((arguments.map (Argument.effects declared)).take fields.length) = [] := by
      cases fields with
      | nil => simp
      | cons field rest =>
        cases arguments with
        | nil => simp
        | cons argument others => exact absurd rfl (missing _ _ _ _ rfl)
    rw [nothing]
    exact .pure

theorem construct_shifts (env : Env) (level : Level exit result env.declared arguments)
    (mark : Mark) (structName : String) :
    Shifts exit result ((Inline.construct structName).effects env.declared
      (arguments.map (Argument.effects env.declared)) true) height height
      (construct env mark structName arguments) := by
  simp only [Inline.effects, construct]
  cases env.declared.struct? structName with
  | none => exact .fail
  | some decl =>
    refine .alloc fun target => .step rfl rfl ?_
    exact (putFields_shifts level target _ _).thenQuietly fun _ => .pure

/-! ## Calls -/

theorem storage_shifts (level : Level exit result declared arguments) (env : Env) (mark : Mark)
    (ty : Ty) (method : Method) (namesContract typed : Bool) :
    Shifts exit result (Effect.pushed (arguments.map (Argument.effects declared))
      (namesContract.toNat + typed.toNat) (decide (ty ≠ .none))) height height
      (storage env mark ty method namesContract typed arguments) := by
  have tagged : Shifts exit result [] height (height + typed.toNat)
      (onlyIf typed (pushTag ty)) := by
    cases typed with
    | false => exact .pure
    | true => exact .lift fun shape => pushValue_shifts _
  have named : ∀ below, Shifts exit result [] below (below + namesContract.toNat)
      (onlyIf namesContract (pushValue (.quoted env.moduleName))) := by
    intro below
    cases namesContract with
    | false => exact .pure
    | true => exact pushValue_shifts _
  refine tagged.quietly fun _ => (pushArguments_shifts level).andThen fun _ => ?_
  have heights : height + typed.toNat + arguments.length + namesContract.toNat =
      height + (arguments.length + (namesContract.toNat + typed.toNat)) := by
    omega
  refine (named _).quietly fun _ => ?_
  rw [heights, List.length_map]
  exact .popped mark ty (hostCall_shifts _ ⟨_, _⟩ height)

theorem createSeries_shifts (level : Level exit result declared arguments) (env : Env)
    (mark : Mark) (ty : Ty) (method : Method) :
    Shifts exit result (Effect.pushed (arguments.map (Argument.effects declared)).dropLast 2
      (decide (ty ≠ .none))) height height (createSeries env mark ty method arguments) := by
  have others : Level exit result declared arguments.dropLast :=
    fun argument member => level argument (List.dropLast_subset arguments member)
  unfold createSeries
  split
  · exact .fail
  · refine .lift fun name => .lift fun artifact => ?_
    refine (pushValue_shifts _).quietly fun _ => (pushValue_shifts _).quietly fun _ => ?_
    rw [← List.map_dropLast]
    exact pushed_shifts others (.popped mark ty (hostCall_shifts _ ⟨_, _⟩ height))

theorem readToken_shifts (level : Level exit result declared arguments) (mark : Mark) (ty : Ty)
    (method : Method) (field : String) :
    Shifts exit result (Effect.pushed (arguments.map (Argument.effects declared)) 0 true)
      height height (readToken mark ty method field arguments) := by
  refine pushed_shifts level ((hostCall_shifts _ ⟨_, true⟩ height).thenQuietly fun _ => ?_)
  refine .alloc fun token => (pop_shifts token).quietly fun _ => .alloc fun register => ?_
  refine (loadScratch_shifts _).quietly fun _ => .step rfl rfl ?_
  exact (unpackStruct_shifts _ _).quietly fun _ => .freeing .pure

/-- Every operation but an expectation leads back to where it has started from. -/
theorem inlineCall_shifts (env : Env) (level : Level exit result env.declared arguments)
    (mark : Mark) (ty : Ty) (method : Method) {operation : Inline} (other : operation ≠ .expect) :
    Shifts exit result (operation.effects env.declared
      (arguments.map (Argument.effects env.declared)) (decide (ty ≠ .none))) height height
      (inlineCall env mark ty method arguments operation) := by
  have later (count : Nat) : Level exit result env.declared (arguments.drop count) :=
    fun argument member => level argument (List.mem_of_mem_drop member)
  cases operation with
  | expect => exact absurd rfl other
  | unary opcode =>
    exact applyUnary_shifts level mark fun source target =>
      ⟨Line.isStraight_two opcode source target, stackUse_of_two opcode _ _ _⟩
  | binary opcode =>
    exact applyBinary_shifts level mark fun first second target =>
      .still (Line.isStraight_three opcode first second target) (stackUse_of_two opcode _ _ _)
  | cast shape => exact applyUnary_shifts level mark fun _ _ => ⟨rfl, rfl⟩
  | range =>
    exact .lift fun index => .lift fun length =>
      applyUnary_shifts level mark fun _ _ => ⟨rfl, rfl⟩
  | decimalPlaces =>
    refine .lift fun target => ?_
    split
    · exact .alloc fun _ => .step rfl rfl .pure
    · exact .fail
  | enumFlag =>
    exact applyBinary_shifts level mark fun value flag target => .step rfl rfl (.still rfl rfl)
  | construct structName => exact construct_shifts env level mark structName
  | arrayGet => exact applyBinary_shifts level mark fun array index target => .still rfl rfl
  | storage namesContract typed => exact storage_shifts level env mark ty method _ _
  | callHost =>
    refine .lift fun name => ?_
    rw [Inline.effects, ← List.map_drop]
    exact pushed_shifts (later 1) (.popped mark ty (hostCall_shifts name ⟨_, _⟩ height))
  | callContract =>
    refine .lift fun contract => .lift fun name => ?_
    rw [Inline.effects, ← List.map_drop]
    refine (pushArguments_shifts (later 2)).andThen fun _ => ?_
    rw [List.length_map]
    exact .popped mark ty (contractCall_shifts contract name _ _ height)
  | callMethod =>
    refine .lift fun name => ?_
    rw [Inline.effects, ← List.map_drop]
    exact pushed_shifts (later 1) (.popped mark ty (labelCall_shifts _ ⟨_, _⟩ height))
  | moduleScript | moduleInterface =>
    exact .lift fun target => .lift fun name => .lift fun artifact => loadBytes_shifts mark _
  | createSeries => exact createSeries_shifts level env mark ty method
  | readToken field => exact readToken_shifts level mark ty method field

theorem call_shifts (env : Env) (level : Level exit result env.declared arguments) (mark : Mark)
    (ty : Ty) {method : Method} (other : method.means ≠ .inline .expect) :
    Shifts exit result (method.means.effects env.declared
      (arguments.map (Argument.effects env.declared)) (decide (ty ≠ .none))) height height
      (call env mark ty method arguments) := by
  unfold call
  cases means : method.means with
  | hostCall => exact pushed_shifts level (.popped mark ty (hostCall_shifts _ ⟨_, _⟩ height))
  | contractCall =>
    refine (pushArguments_shifts level).andThen fun _ => ?_
    rw [List.length_map]
    exact .popped mark ty (contractCall_shifts _ _ _ _ height)
  | localCall =>
    refine pushed_shifts level (Shifts.quietly (.silent fun _ _ _ => useRoutine_ends) fun _ => ?_)
    exact .popped mark ty (labelCall_shifts _ ⟨_, _⟩ height)
  | inline operation =>
    exact inlineCall_shifts env level mark ty method fun same => other (by rw [means, same])

end Arguments

/-! ## Values -/

theorem makeObject_shifts (register : Register) (constructor : String) :
    Shifts exit result [⟨1, true⟩] height height (makeObject register constructor) := by
  refine (push_shifts _).quietly fun _ => ?_
  exact (hostCall_shifts constructor ⟨1, true⟩ height).thenQuietly fun _ => pop_shifts _

theorem loadLiteral_shifts (register : Register) (ty : Ty) (text : String) :
    Shifts exit result ty.effects height height (loadLiteral register ty.kind text) := by
  unfold Ty.effects
  cases ty.kind with
  | address | hash => exact .step rfl rfl (makeObject_shifts register _)
  | enum => exact .step rfl rfl (.still rfl rfl)
  | _ => exact .still rfl rfl

theorem literal_shifts (mark : Mark) (ty : Ty) (text : String) :
    Shifts exit result ty.effects height height (literal mark ty text) :=
  .alloc fun _ => (loadLiteral_shifts _ ty text).thenQuietly fun _ => .pure

theorem scale_shifts {op : Opcode} {places : Nat} {register : Register}
    (runs : (Line.instruction op [.register register, .scratch, .register register]).isStraight =
      true) :
    Shifts exit result [] height height (do
      loadScratch (scale places)
      instruction op [.register register, .scratch, .register register]) :=
  (loadScratch_shifts _).quietly fun _ => .still runs (stackUse_of_two op _ _ _)

theorem scaleDividend_shifts (op : BinaryOp) (places : Option Nat) (register : Register) :
    Shifts exit result [] height height (scaleDividend op places register) := by
  unfold scaleDividend
  split
  · exact scale_shifts rfl
  · exact .pure

theorem scaleProduct_shifts (op : BinaryOp) (places : Option Nat) (register : Register) :
    Shifts exit result [] height height (scaleProduct op places register) := by
  unfold scaleProduct
  split
  · exact scale_shifts rfl
  · exact .pure

theorem unary_shifts {inner : Emission Register}
    (shifts : Shifts exit result effects height height inner) (mark : Mark) {opcode : Opcode}
    {extra : List Operand}
    (runs : ∀ source target : Register, (Line.instruction opcode
      ([.register source, .register target] ++ extra)).isStraight = true) :
    Shifts exit result effects height height (unary mark opcode inner extra) :=
  shifts.thenQuietly fun source => .alloc fun target =>
    .step (runs source target) (stackUse_of_two opcode _ _ _) (.freeing .pure)

theorem binary_shifts {left right : Emission Register}
    (first : Shifts exit result effects height height left)
    (second : Shifts exit result others height height right) (mark : Mark) (op : BinaryOp)
    (ty : Ty) :
    Shifts exit result (effects ++ others) height height (binary mark op ty left right) := by
  refine .alloc fun target => first.andThen fun one => second.thenQuietly fun other => ?_
  refine (scaleDividend_shifts op _ one).quietly fun _ => ?_
  refine .step (Line.isStraight_three _ _ _ _) (stackUse_of_two _ _ _ _) ?_
  exact (scaleProduct_shifts op _ target).quietly fun _ => .freeing (.freeing .pure)

theorem fieldValue_shifts {target : Emission Register}
    (shifts : Shifts exit result effects height height target) (mark : Mark) (name : String) :
    Shifts exit result effects height height (fieldValue mark target name) :=
  shifts.thenQuietly fun _ => .alloc fun _ => (loadScratch_shifts _).quietly fun _ =>
    .step rfl rfl (.freeing .pure)

theorem elementValue_shifts {array index : Emission Register}
    (first : Shifts exit result effects height height array)
    (second : Shifts exit result others height height index) (mark : Mark) :
    Shifts exit result (effects ++ others) height height (elementValue mark array index) :=
  first.andThen fun _ => second.thenQuietly fun _ => .alloc fun _ =>
    .step rfl rfl (.freeing (.freeing .pure))

theorem map_effects_arguments (env : Env) (declared : Declared) (written : List Expr) :
    (arguments env written).map (Argument.effects declared) = Expr.allEffects declared written := by
  induction written with
  | nil => rfl
  | cons first rest ih =>
    rw [arguments, List.map_cons, ih]
    rfl

theorem arguments_level {env : Env} {declared : Declared} {written : List Expr}
    (level : ∀ expr ∈ written, ∀ height,
      Shifts exit result (expr.effects declared) height height (expression env expr)) :
    Level exit result declared (arguments env written) := by
  induction written with
  | nil => exact nofun
  | cons first rest ih =>
    rw [arguments]
    refine List.forall_mem_cons.mpr ⟨level first List.mem_cons_self, ?_⟩
    exact ih fun expr member => level expr (List.mem_cons_of_mem _ member)

/-- An expectation has no value. -/
theorem expectation_none {mark : Mark} {arguments : List Argument} {start finish : Generator}
    {outcome : Option Register} (ends : (expectation mark arguments).Ends start outcome finish) :
    outcome = none := by
  rcases bind_ok ends with ⟨condition, computed, -, rest⟩
  rcases bind_ok rest with ⟨_, jumped, -, rest⟩
  rcases bind_ok rest with ⟨message, messaged, -, rest⟩
  rcases bind_ok rest with ⟨_, thrown, -, rest⟩
  rcases bind_ok rest with ⟨_, freed, -, rest⟩
  rcases bind_ok rest with ⟨_, placed, -, rest⟩
  rcases bind_ok rest with ⟨_, released, -, last⟩
  cases last
  rfl

/-- The code of a value leads back to where it has started from. -/
theorem expression_shifts (env : Env) (expr : Expr) (height : Nat) :
    Shifts exit result (expr.effects env.declared) height height (expression env expr) := by
  induction expr using Expr.induction generalizing height with
  | literal mark ty text | constant mark ty name text => exact literal_shifts mark ty text
  | named mark ty id =>
    exact (operand_shifts env id _).quietly fun source => .alloc fun target => .step rfl rfl .pure
  | binary mark ty op left right first second =>
    rw [Expr.effects]
    exact binary_shifts (first height) (second height) mark op left.ty
  | not mark ty inner ih | negate mark ty inner ih =>
    exact unary_shifts (ih height) mark fun _ _ => rfl
  | cast mark ty inner ih => exact .lift fun shape => unary_shifts (ih height) mark fun _ _ => rfl
  | call mark ty method typeArgument written ih =>
    rw [expression, Expr.effects, ← map_effects_arguments env]
    by_cases expects : method.means = .inline .expect
    · -- as a value an expectation is refused
      intro start register finish ends
      rcases bind_ok ends with ⟨outcome, called, calling, rest⟩
      simp only [call, expects, inlineCall] at calling
      rw [expectation_none calling] at rest
      cases rest
    · refine (call_shifts env (arguments_level ih) mark ty expects).thenQuietly fun outcome => ?_
      cases outcome with
      | none => exact .fail
      | some register => exact .pure
  | field mark ty target name ih => exact fieldValue_shifts (ih height) mark name
  | element mark ty array index first second =>
    rw [Expr.effects]
    exact elementValue_shifts (first height) (second height) mark
  | thisAddress mark ty =>
    exact .alloc fun register => .step rfl rfl
      ((makeObject_shifts register _).thenQuietly fun _ => .pure)
  | moduleRef mark ty name => exact .lift fun artifact => .alloc fun _ => .step rfl rfl .pure

/-! ## Simple statements -/

theorem pushExpression_shifts (env : Env) (expr : Expr) (line : Nat) :
    Shifts exit result (expr.effects env.declared) height (height + 1)
      (pushExpression env expr line) := by
  refine (expression_shifts env expr height).thenQuietly fun register => ?_
  exact (push_shifts _).quietly fun _ => .free

theorem clearFresh_shifts (fresh : Bool) (register : Register) :
    Shifts exit result [] height height (clearFresh fresh register) :=
  .onlyIf (.still rfl rfl)

theorem annotate_shifts (env : Env) (number : Nat) :
    Shifts exit result [] height height (annotate env number) := by
  intro start outcome finish ends
  refine ⟨_, annotate_ends ends, ?_⟩
  unfold commentLines
  split
  · cases env.sourceLines[number - 1]? with
    | none => exact .nil height
    | some text => exact .single (.straight rfl (.nothing height))
  · exact .nil height

/-- The code of an assignment; the index of an element is computed after the value. -/
theorem assign_shifts (env : Env) (mark : Mark) (id : VarId) (selector : Selector) (value : Expr) :
    Shifts exit result (Deed.effects env.declared (.assign mark id selector value)) height height
      (assign env mark id selector value) := by
  -- The effects of storing depend on the selector; the rest of the code is the same.
  have all {stored : List Effect} (storing : ∀ fresh register target, Shifts exit result stored
      height height (store env mark.line fresh register target selector)) :
      Shifts exit result (value.effects env.declared ++ stored) height height
        (assign env mark id selector value) :=
    (expression_shifts env value height).andThen fun register =>
      (ensureBound_shifts env id mark).quietly fun fresh =>
      (operand_shifts env id mark.line).quietly fun target =>
      (storing fresh register target).thenQuietly fun _ => .free
  cases selector with
  | whole =>
    rw [Deed.effects, ← List.append_nil (value.effects _)]
    · exact all fun fresh register target => .still rfl rfl
    · nofun
  | field name =>
    rw [Deed.effects, ← List.append_nil (value.effects _)]
    · exact all fun fresh register target => (clearFresh_shifts _ _).quietly fun _ =>
        (loadScratch_shifts _).quietly fun _ => .still rfl rfl
    · nofun
  | index index =>
    exact all fun fresh register target => (clearFresh_shifts _ _).quietly fun _ =>
      (expression_shifts env index height).thenQuietly fun key => .step rfl rfl .free

theorem discarded_shifts (env : Env) (line : Nat) {expr : Expr}
    (other : (Deed.expectation? expr).isSome = false) :
    Shifts exit result (expr.effects env.declared) height height (discarded env line expr) := by
  unfold discarded
  split
  · rename_i mark ty method typeArgument written
    rw [Expr.effects, ← map_effects_arguments env]
    have level : Level exit result env.declared (arguments env written) :=
      arguments_level fun expr _ height => expression_shifts env expr height
    by_cases expects : method.means = .inline .expect
    · -- too few arguments have been given
      intro start outcome finish ends
      rcases bind_ok ends with ⟨found, called, calling, -⟩
      simp only [call, expects, inlineCall] at calling
      rcases bind_ok calling with ⟨condition, computed, -, rest⟩
      rcases bind_ok rest with ⟨_, jumped, -, rest⟩
      rcases bind_ok rest with ⟨message, messaged, missing, -⟩
      rcases written with _ | ⟨first, _ | ⟨second, others⟩⟩
      · cases missing
      · cases missing
      · simp [Deed.expectation?, expects] at other
    · refine (call_shifts env level mark ty expects).thenQuietly fun outcome => ?_
      cases outcome with
      | none => exact .pure
      | some register => exact .free
  · exact (expression_shifts env expr height).thenQuietly fun _ => .free

theorem deed_shifts (env : Env) {task : Deed} (runs : task.turns = false) (height : Nat) :
    Shifts exit result (task.effects env.declared) height (height + task.left) (task.code env) := by
  cases task with
  | comment line => exact annotate_shifts env line
  | assign mark target selector value => exact assign_shifts env mark target selector value
  | discard line expr => exact discarded_shifts env line runs
  | emit line number address value =>
    rw [Deed.effects, List.append_assoc]
    refine (pushExpression_shifts env value line).andThen fun _ => ?_
    refine (pushExpression_shifts env address line).andThen fun _ => ?_
    exact (pushValue_shifts _).quietly fun _ => hostCall_shifts _ ⟨3, false⟩ height
  | result line value =>
    cases value with
    | none => exact .pure
    | some value => exact pushExpression_shifts env value line
  | raw lines => cases runs

/-- A comparison leaves the stack alone. -/
theorem valueCode_shifts (env : Env) (subject : Option Register) (expr : Expr) (height : Nat) :
    Shifts exit result (expr.effects env.declared) height height (valueCode env subject expr) := by
  cases subject with
  | none => exact expression_shifts env expr height
  | some subject =>
    exact (expression_shifts env expr height).thenQuietly fun register => .step rfl rfl .pure

end Emission

end Covenant
