import Covenant.Emission.Expression
import Covenant.Proofs.Supply
import Covenant.Proofs.Temporary

/-!
# The registers of values

The code of an expression takes one register that it leaves behind and gives
back every other it takes; it writes to the ones it has taken and to register
zero.  The same is true of a call, whether it has a result or not; only
`expect` turns.  If its calls have their arguments, then it fails because the
source breaks a rule, because it reads a variable that has no register, or
because registers run out; and it names a line on which one of its nodes stands.

Each function that emits such code has one lemma here, and the lemma of a
function that takes code as an argument assumes it of the argument.
-/

namespace Covenant.Emission

variable {terms : Terms} {turns : Bool} {temporaries : List Register} {error : Error}
  {register : Register} {line index : Nat} {opcode : Opcode} {mark : Mark}

/-! ## Values that pass through register zero -/

theorem loadScratch_handles {value : Operand} (constant : value.register? = none) :
    Handles terms turns (fun _ => []) (loadScratch value) [] := by
  have none : (Line.instruction .load [.scratch, value]).registers = [] := by
    cases value <;> first | rfl | cases constant
  exact .last (by cases value <;> exact .inr rfl) (by simp [none])

theorem pushValue_handles {value : Operand} (constant : value.register? = none) :
    Handles terms turns (fun _ => []) (pushValue value) [] :=
  (loadScratch_handles constant).andThen fun _ => .last (.inr rfl) nofun

theorem hostCall_handles (name : String) :
    Handles terms turns (fun _ => []) (hostCall name) [] :=
  (loadScratch_handles rfl).andThen fun _ => .last (.inr rfl) nofun

theorem contractCall_handles (contract method : String) :
    Handles terms turns (fun _ => []) (contractCall contract method) [] :=
  (pushValue_handles rfl).andThen fun _ => (loadScratch_handles rfl).andThen fun _ =>
    .line (.last (.inr rfl) nofun) (.inr rfl) nofun

theorem useRoutine_handles (env : Env) (name : String) :
    Handles terms turns (fun _ => []) (useRoutine env name) [] := by
  intro generator _
  show Handles terms turns (fun _ => []) (if _ then perform (.remember name) else pure ()) []
  split
  · exact ⟨trivial, rfl⟩
  · exact rfl

/-! ## Computations that do not emit -/

theorem machineType_excused {ty : Ty} (failed : ty.machineType = .error error) :
    terms.Excuses error := by
  unfold Ty.machineType MachineType.ofKind at failed
  split at failed <;> cases failed
  exact fun _ => ⟨trivial, trivial⟩

theorem artifact_excused {env : Env} {name : String} (shown : terms.watch.Shows line)
    (failed : artifact env name line = .error error) : terms.Excuses error := by
  unfold artifact at failed
  split at failed <;> cases failed
  exact fun strict => ⟨shown strict, trivial⟩

theorem moduleArgument_excused {argument : Argument} (shown : terms.watch.Shows line)
    (failed : moduleArgument argument line = .error error) : terms.Excuses error := by
  unfold moduleArgument at failed
  split at failed <;> cases failed
  exact fun strict => ⟨shown strict, trivial⟩

/-! ## Arguments and results -/

/-- A call without a result leaves nothing behind. -/
theorem popResult_handles (shown : terms.watch.Shows mark.line) (ty : Ty) :
    Handles terms turns Option.toList (popResult mark ty) [] := by
  unfold popResult
  split
  · exact rfl
  · exact .alloc shown fun _ => .line rfl (.inr rfl) newest_held

theorem loadBytes_handles (shown : terms.watch.Shows mark.line) (bytes : List UInt8) :
    Handles terms turns Option.toList (loadBytes mark bytes) [] :=
  .alloc shown fun _ => .line rfl (.inr rfl) newest_held

theorem pushTag_handles (ty : Ty) : Handles terms turns (fun _ => []) (pushTag ty) [] :=
  .result (fun _ => machineType_excused) fun _ _ => pushValue_handles rfl

theorem unpackStruct_handles (ty : Ty) (register : Register) :
    Handles terms turns (fun _ => register :: temporaries) (unpackStruct ty register)
      (register :: temporaries) :=
  .onlyIf (.last (.inr rfl) (by simp [Line.registers, Operand.register?]))

section Arguments

variable {arguments : List Argument}

theorem argument_excused (inside : terms.watch.strict → index < arguments.length)
    (failed : argument arguments index line = .error error) : terms.Excuses error := by
  unfold argument at failed
  split at failed <;> cases failed
  rename_i missing
  intro strict
  simp [inside strict] at missing

/-- What is read of an argument. -/
theorem ofArgument_excused {Value : Type} {read : Argument → Except Error Value}
    (inside : terms.watch.strict → index < arguments.length)
    (refused : ∀ found error, read found = .error error → terms.Excuses error)
    (failed : argument arguments index line >>= read = .error error) : terms.Excuses error := by
  cases found : argument arguments index line with
  | error other =>
    rw [found] at failed
    cases failed
    exact argument_excused inside found
  | ok target =>
    rw [found] at failed
    exact refused target error failed

theorem literalArgument_excused (shown : terms.watch.Shows line)
    (inside : terms.watch.strict → index < arguments.length)
    (failed : literalArgument arguments index line = .error error) : terms.Excuses error := by
  refine ofArgument_excused inside (fun found error refused => ?_) failed
  split at refused <;> cases refused
  exact fun strict => ⟨shown strict, trivial⟩

theorem stringArgument_excused (shown : terms.watch.Shows line)
    (inside : terms.watch.strict → index < arguments.length)
    (failed : stringArgument arguments index line = .error error) : terms.Excuses error := by
  refine ofArgument_excused inside (fun found error refused => ?_) failed
  split at refused <;> cases refused
  exact fun strict => ⟨shown strict, trivial⟩

/-- Each of the arguments is computed into a register of its own. -/
def AllValues (terms : Terms) (arguments : List Argument) : Prop :=
  ∀ argument ∈ arguments, Values terms argument.code

theorem AllValues.subset {others : List Argument} (values : AllValues terms arguments)
    (subset : others ⊆ arguments) : AllValues terms others :=
  fun argument member => values argument (subset member)

theorem pushArgument_handles {argument : Argument} (value : Values terms argument.code) :
    Handles terms turns (fun _ => []) (pushArgument argument) [] :=
  .value value fun _ => .line .deallocLast (.inr rfl) newest_held

theorem pushArguments_handles (values : AllValues terms arguments) :
    Handles terms turns (fun _ => []) (pushArguments arguments) [] := by
  induction arguments with
  | nil => exact rfl
  | cons first rest ih =>
    refine (ih (values.subset (List.subset_cons_self first rest))).andThen fun _ => ?_
    exact pushArgument_handles (values first List.mem_cons_self)

theorem compute_values (values : AllValues terms arguments) (line : Nat)
    (inside : terms.watch.strict → index < arguments.length) :
    Values terms (compute arguments index line) := by
  intro turns
  refine .result (fun _ => argument_excused inside) fun found finds => ?_
  unfold argument at finds
  split at finds <;> cases finds
  rename_i present
  exact values found (List.mem_of_getElem? present) turns

theorem applyUnary_handles (values : AllValues terms arguments)
    (inside : terms.watch.strict → 1 ≤ arguments.length) (shown : terms.watch.Shows mark.line)
    {operands : Register → Register → List Operand}
    (straight : ∀ source register,
      (Line.instruction opcode (operands source register)).isStraight = true)
    (held : ∀ source register, ∀ named ∈
      (Line.instruction opcode (operands source register)).registers, named ∈ [register, source]) :
    Handles terms turns Option.toList (applyUnary mark arguments operands opcode) [] :=
  .value (compute_values values _ inside) fun _ => .alloc shown fun _ =>
    .line (.deallocSecond rfl) (.inr (straight _ _))
      fun named member => .inl (held _ _ named member)

theorem applyBinary_handles (values : AllValues terms arguments)
    (inside : terms.watch.strict → 2 ≤ arguments.length) (shown : terms.watch.Shows mark.line)
    {code : Register → Register → Register → Emission Unit}
    (handles : ∀ first second register, Handles terms turns
      (fun _ => [register, second, first]) (code first second register) [register, second, first]) :
    Handles terms turns Option.toList (applyBinary mark arguments code) [] := by
  refine .value (compute_values values _ fun strict => Nat.lt_of_succ_lt (inside strict)) ?_
  intro first
  refine .value (compute_values values _ inside) fun second => .alloc shown fun register => ?_
  exact (handles first second register).andThen fun _ => .deallocSecond (.deallocSecond rfl)

/-! ## Operations that are written out -/

/-- Only here the code of a value turns, and only if there is a message. -/
theorem expectation_handles (values : AllValues terms arguments)
    (inside : terms.watch.strict → 2 ≤ arguments.length)
    (turning : turns = true ∨ arguments.length < 2) (mark : Mark) :
    Handles terms turns Option.toList (expectation mark arguments) [] := by
  refine .value (compute_values values _ fun strict => Nat.lt_of_succ_lt (inside strict)) ?_
  intro condition
  rcases turning with rfl | short
  · refine .line (.value (compute_values values _ inside) fun message => ?_)
      (.inl (.inl rfl)) newest_held
    refine .line (.dealloc ⟨⟨.inl (.inl rfl), rfl, nofun, nofun⟩, .dealloc rfl⟩)
      (.inl (.inl rfl)) newest_held
  · have missing : arguments[1]? = none := by simpa using Nat.le_of_lt_succ short
    simp only [compute, argument, missing]
    exact .line (fun strict => absurd (inside strict) (Nat.not_le_of_lt short))
      (.inl (.inr trivial)) newest_held

/-- As a value an expectation is refused. -/
theorem expectationValue_handles (values : AllValues terms arguments)
    (inside : terms.watch.strict → 2 ≤ arguments.length) (mark : Mark) (error : Error)
    (excused : terms.Excuses error) (gained : Register → List Register) :
    Handles terms turns gained (do
      let _ ← expectation mark arguments
      .fail error) [] := by
  simp only [expectation, bind_assoc, pure_bind]
  refine .value (compute_values values _ fun strict => Nat.lt_of_succ_lt (inside strict)) ?_
  intro condition
  refine .line (.value (compute_values values _ inside) fun message => ?_)
    (.inl (.inr ?_)) newest_held
  · refine .line (.dealloc ⟨⟨.inl (.inr ?_), rfl, nofun, nofun⟩, .dealloc excused⟩)
      (.inl (.inr ?_)) newest_held
    · trivial
    · trivial
  · exact Fails.after fun _ => trivial

theorem range_handles (values : AllValues terms arguments)
    (inside : terms.watch.strict → 3 ≤ arguments.length) (shown : terms.watch.Shows mark.line) :
    Handles terms turns Option.toList (range mark arguments) [] := by
  refine .result (fun _ => literalArgument_excused shown fun strict =>
    Nat.lt_of_succ_lt (inside strict)) fun index _ => ?_
  refine .result (fun _ => literalArgument_excused shown inside) fun length _ => ?_
  refine applyUnary_handles values (fun strict => by have := inside strict; omega) shown
    (fun _ _ => rfl) ?_
  simp [Line.registers, Operand.register?]

theorem decimalPlaces_handles (inside : terms.watch.strict → 1 ≤ arguments.length)
    (shown : terms.watch.Shows mark.line) :
    Handles terms turns Option.toList (decimalPlaces mark arguments) [] := by
  refine .result (fun _ => argument_excused inside) fun target _ => ?_
  split
  · exact .alloc shown fun _ => .line rfl (.inr rfl) newest_held
  · exact fun strict => ⟨shown strict, trivial⟩

/-- Filling the fields of a struct works with the register of the struct. -/
theorem putFields_handles (values : AllValues terms arguments) (target : Register) (line : Nat)
    (fields : List Field) :
    Handles terms turns (fun _ => [target]) (putFields target line fields arguments) [target] := by
  fun_induction putFields target line fields arguments with
  | case1 field fields argument arguments ih =>
    refine .value (values argument List.mem_cons_self) fun value => ?_
    refine .after (loadScratch_handles rfl) fun _ =>
      .line (.dealloc ?_) (.inr rfl) (by simp [Line.registers, Operand.register?])
    exact ih (values.subset (List.subset_cons_self argument arguments))
  | case2 => exact rfl

theorem construct_handles (values : AllValues terms arguments) (env : Env)
    (shown : terms.watch.Shows mark.line) (structName : String) :
    Handles terms turns Option.toList (construct env mark structName arguments) [] := by
  unfold construct
  split
  · exact fun strict => ⟨shown strict, trivial⟩
  · exact .alloc shown fun register =>
      .line ((putFields_handles values register _ _).andThen fun _ => rfl) (.inr rfl) newest_held

theorem storage_handles (values : AllValues terms arguments) (env : Env)
    (shown : terms.watch.Shows mark.line) (ty : Ty) (method : Method) (namesContract typed : Bool) :
    Handles terms turns Option.toList (storage env mark ty method namesContract typed arguments)
      [] := by
  refine (Handles.onlyIf (pushTag_handles ty)).andThen fun _ => ?_
  refine (pushArguments_handles values).andThen fun _ => ?_
  refine (Handles.onlyIf (pushValue_handles rfl)).andThen fun _ => ?_
  exact (hostCall_handles _).andThen fun _ => popResult_handles shown ty

theorem createSeries_handles (values : AllValues terms arguments)
    (inside : terms.watch.strict → 1 ≤ arguments.length) (env : Env)
    (shown : terms.watch.Shows mark.line) (ty : Ty) (method : Method) :
    Handles terms turns Option.toList (createSeries env mark ty method arguments) [] := by
  unfold createSeries
  split
  · rename_i none
    intro strict
    rw [List.getLast?_eq_none_iff] at none
    simpa [none] using inside strict
  · refine .result (fun _ => moduleArgument_excused shown) fun name _ => ?_
    refine .result (fun _ => artifact_excused shown) fun artifact _ => ?_
    refine (pushValue_handles rfl).andThen fun _ => (pushValue_handles rfl).andThen fun _ => ?_
    refine (pushArguments_handles (values.subset (List.dropLast_subset _))).andThen fun _ => ?_
    exact (hostCall_handles _).andThen fun _ => popResult_handles shown ty

theorem readToken_handles (values : AllValues terms arguments)
    (shown : terms.watch.Shows mark.line) (ty : Ty) (method : Method) (field : String) :
    Handles terms turns Option.toList (readToken mark ty method field arguments) [] := by
  refine (pushArguments_handles values).andThen fun _ => (hostCall_handles _).andThen fun _ => ?_
  refine .alloc shown fun token => .line (.alloc shown fun register => ?_) (.inr rfl) newest_held
  refine .after (loadScratch_handles rfl) fun _ =>
    .line ?_ (.inr rfl) (by simp [Line.registers, Operand.register?])
  exact (unpackStruct_handles ty register).andThen fun _ => .deallocSecond rfl

/-- A call of something that is written out. -/
theorem inlineCall_handles (values : AllValues terms arguments) (env : Env)
    (shown : terms.watch.Shows mark.line) (ty : Ty) (method : Method) {operation : Inline}
    (inside : terms.watch.strict → operation.needs ≤ arguments.length)
    (turnless : turns = true ∨ (operation = .expect → arguments.length < 2)) :
    Handles terms turns Option.toList (inlineCall env mark ty method arguments operation) [] := by
  -- the arguments that are left are pushed, the call is made and its result taken
  have ends : ∀ count (code : Emission Unit), Handles terms turns (fun _ => []) code [] →
      Handles terms turns Option.toList (do
        pushArguments (arguments.drop count)
        code
        popResult mark ty) [] := fun count code handles =>
    (pushArguments_handles (values.subset (List.drop_subset count arguments))).andThen fun _ =>
      handles.andThen fun _ => popResult_handles shown ty
  cases operation with
  | expect =>
    exact expectation_handles values inside (turnless.imp_right (· rfl)) mark
  | unary opcode =>
    refine applyUnary_handles values inside shown (fun _ _ => Line.isStraight_two _ _ _) ?_
    simp [Line.registers, Operand.register?]
  | binary opcode =>
    exact applyBinary_handles values inside shown fun _ _ _ =>
      .last (.inr (Line.isStraight_three _ _ _ _)) (by simp [Line.registers, Operand.register?])
  | cast shape =>
    refine applyUnary_handles values inside shown (fun _ _ => rfl) ?_
    simp [Line.registers, Operand.register?]
  | range => exact range_handles values inside shown
  | decimalPlaces => exact decimalPlaces_handles inside shown
  | enumFlag =>
    exact applyBinary_handles values inside shown fun _ _ _ =>
      .line (.last (.inr rfl) (by simp [Line.registers, Operand.register?])) (.inr rfl)
        (by simp [Line.registers, Operand.register?])
  | construct structName => exact construct_handles values env shown structName
  | arrayGet =>
    exact applyBinary_handles values inside shown fun _ _ _ =>
      .last (.inr rfl) (by simp [Line.registers, Operand.register?])
  | storage namesContract typed => exact storage_handles values env shown ty method _ _
  | callHost =>
    exact .result (fun _ => stringArgument_excused shown inside) fun name _ =>
      ends 1 _ (hostCall_handles name)
  | callContract =>
    refine .result (fun _ => stringArgument_excused shown fun strict =>
      Nat.lt_of_succ_lt (inside strict)) fun contract _ => ?_
    exact .result (fun _ => stringArgument_excused shown inside) fun name _ =>
      ends 2 _ (contractCall_handles contract name)
  | callMethod =>
    exact .result (fun _ => stringArgument_excused shown inside) fun name _ =>
      ends 1 _ (.last (.inr rfl) (by simp [Line.registers, Operand.register?]))
  | moduleScript | moduleInterface =>
    refine .result (fun _ => argument_excused inside) fun found _ => ?_
    refine .result (fun _ => moduleArgument_excused shown) fun name _ => ?_
    exact .result (fun _ => artifact_excused shown) fun _ _ => loadBytes_handles shown _
  | createSeries => exact createSeries_handles values inside env shown ty method
  | readToken field => exact readToken_handles values shown ty method field

/-- A call; only `expect` turns. -/
theorem call_handles (values : AllValues terms arguments) (env : Env)
    (shown : terms.watch.Shows mark.line) (ty : Ty) {method : Method}
    (inside : terms.watch.strict → method.needs ≤ arguments.length)
    (turnless : turns = true ∨ (method.means = .inline .expect → arguments.length < 2)) :
    Handles terms turns Option.toList (call env mark ty method arguments) [] := by
  unfold call
  cases means : method.means with
  | hostCall =>
    exact (pushArguments_handles values).andThen fun _ => (hostCall_handles _).andThen fun _ =>
      popResult_handles shown ty
  | contractCall =>
    exact (pushArguments_handles values).andThen fun _ =>
      (contractCall_handles _ _).andThen fun _ => popResult_handles shown ty
  | localCall =>
    exact (pushArguments_handles values).andThen fun _ =>
      (useRoutine_handles env _).andThen fun _ =>
        .line (popResult_handles shown ty) (.inr rfl) nofun
  | inline operation =>
    refine inlineCall_handles values env shown ty method (fun strict => ?_)
      (turnless.imp_right fun short same => short (by rw [means, same]))
    simpa [Method.needs, means] using inside strict

/-- A call whose value is used must have a result, so it is none of `expect`. -/
theorem callValue_values (values : AllValues terms arguments) (env : Env)
    (shown : terms.watch.Shows mark.line) (ty : Ty) {method : Method}
    (inside : terms.watch.strict → method.needs ≤ arguments.length) :
    Values terms (do
      match ← call env mark ty method arguments with
      | some register => return register
      | none => .fail (.semantic mark.line (.noResult method.name))) := by
  intro turns
  by_cases means : method.means = .inline .expect
  · have expecting : call env mark ty method arguments = expectation mark arguments := by
      simp [call, means, inlineCall]
    have refused := @expectationValue_handles terms turns arguments values
      (fun strict => by simpa [Method.needs, means, Inline.needs] using inside strict) mark
      (.semantic mark.line (.noResult method.name)) (fun strict => ⟨shown strict, trivial⟩)
      fun register => [register]
    simpa [expecting, expectation, bind_assoc] using refused
  · refine (call_handles values env shown ty inside
      (.inr fun same => absurd same means)).andThen fun outcome => ?_
    cases outcome with
    | none => exact fun strict => ⟨shown strict, trivial⟩
    | some register => exact rfl

end Arguments

/-! ## Expressions -/

theorem makeObject_handles (register : Register) (constructor : String) :
    Handles terms turns (fun _ => register :: temporaries) (makeObject register constructor)
      (register :: temporaries) :=
  .line (.after (hostCall_handles constructor) fun _ => .last (.inr rfl) newest_held)
    (.inr rfl) newest_held

theorem loadLiteral_handles (register : Register) (kind : Ty.Kind) (text : String) :
    Handles terms turns (fun _ => register :: temporaries) (loadLiteral register kind text)
      (register :: temporaries) := by
  unfold loadLiteral
  split
  · exact .line (makeObject_handles register _) (.inr rfl) newest_held
  · exact .line (makeObject_handles register _) (.inr rfl) newest_held
  · exact .line (.last (.inr rfl) (by simp [Line.registers, Operand.register?]))
      (.inr rfl) newest_held
  · exact .last (.inr rfl) newest_held
  · exact .last (.inr rfl) newest_held

theorem literal_values (shown : terms.watch.Shows mark.line) (ty : Ty) (text : String) :
    Values terms (literal mark ty text) :=
  fun _ => .alloc shown fun register => (loadLiteral_handles register _ _).andThen fun _ => rfl

theorem unary_values {inner : Emission Register} (value : Values terms inner)
    (shown : terms.watch.Shows mark.line) {extra : List Operand}
    (straight : ∀ source register : Register,
      (Line.instruction opcode ([.register source, .register register] ++ extra)).isStraight = true)
    (constant : extra.filterMap Operand.register? = []) :
    Values terms (unary mark opcode inner extra) := fun _ =>
  .value value fun source => .alloc shown fun register => .line (.deallocSecond rfl)
    (.inr (straight source register)) (by simp [Line.registers, Operand.register?, constant])

/-- Scaling works in place. -/
theorem scaling_handles (places : Nat)
    (straight : (Line.instruction opcode
      [.register register, .scratch, .register register]).isStraight = true)
    (held : register ∈ temporaries) :
    Handles terms turns (fun _ => temporaries) (do
      loadScratch (scale places)
      instruction opcode [.register register, .scratch, .register register]) temporaries :=
  .after (loadScratch_handles rfl) fun _ => .last (.inr straight)
    (by simp [Line.registers, Operand.register?, held])

theorem scaleDividend_handles (op : BinaryOp) (places : Option Nat)
    (held : register ∈ temporaries) :
    Handles terms turns (fun _ => temporaries) (scaleDividend op places register) temporaries := by
  unfold scaleDividend
  split
  · exact scaling_handles _ rfl held
  · exact rfl

theorem scaleProduct_handles (op : BinaryOp) (places : Option Nat) (held : register ∈ temporaries) :
    Handles terms turns (fun _ => temporaries) (scaleProduct op places register) temporaries := by
  unfold scaleProduct
  split
  · exact scaling_handles _ rfl held
  · exact rfl

theorem binary_values {left right : Emission Register} (first : Values terms left)
    (second : Values terms right) (shown : terms.watch.Shows mark.line) (op : BinaryOp) (ty : Ty) :
    Values terms (binary mark op ty left right) := by
  refine fun _ => .alloc shown fun register => .value first fun one => .value second fun other => ?_
  refine (scaleDividend_handles op ty.places? (by simp)).andThen fun _ => ?_
  refine .line ?_ (.inr (Line.isStraight_three _ _ _ _))
    (by simp [Line.registers, Operand.register?])
  exact (scaleProduct_handles op ty.places? (by simp)).andThen fun _ => .dealloc (.dealloc rfl)

theorem fieldValue_values {target : Emission Register} (value : Values terms target)
    (shown : terms.watch.Shows mark.line) (name : String) :
    Values terms (fieldValue mark target name) := fun _ =>
  .value value fun _ => .alloc shown fun _ => .after (loadScratch_handles rfl) fun _ =>
    .line (.deallocSecond rfl) (.inr rfl) (by simp [Line.registers, Operand.register?])

theorem elementValue_values {array index : Emission Register} (first : Values terms array)
    (second : Values terms index) (shown : terms.watch.Shows mark.line) :
    Values terms (elementValue mark array index) := fun _ =>
  .value first fun _ => .value second fun _ => .alloc shown fun _ =>
    .line (.deallocSecond (.deallocSecond rfl)) (.inr rfl)
      (by simp [Line.registers, Operand.register?])

/-- The register of a variable that has one. -/
theorem found_handles {Outcome : Type} {gained : Outcome → List Register} {id : VarId}
    {next : Register → Emission Outcome} (found : terms.bindings.lookup id = some register)
    (second : Handles terms turns gained (next register) temporaries) :
    Handles terms turns gained (operand terms.env id line >>= next) temporaries := by
  intro generator same
  show Handles terms turns gained ((match generator.bindings.lookup id with
    | some register => pure register
    | none => Emission.fail _) >>= next) temporaries
  rw [same, found]
  exact second

/-- A variable has no register only if it has none. -/
theorem operand_handles {Outcome : Type} {gained : Outcome → List Register} {id : VarId}
    {next : Register → Emission Outcome} (shown : terms.watch.Shows line)
    (listed : terms.watch.strict → terms.watch.reads id)
    (second : ∀ register, terms.bindings.lookup id = some register →
      Handles terms turns gained (next register) temporaries) :
    Handles terms turns gained (operand terms.env id line >>= next) temporaries := by
  cases found : terms.bindings.lookup id with
  | some register => exact found_handles found (second register found)
  | none =>
    intro generator same
    show Handles terms turns gained ((match generator.bindings.lookup id with
      | some register => pure register
      | none => Emission.fail _) >>= next) temporaries
    rw [same, found]
    exact fun strict => ⟨shown strict, id, listed strict, found, rfl⟩

theorem arguments_values {env : Env} {written : List Expr}
    (values : ∀ expr ∈ written, Values terms (expression env expr)) :
    AllValues terms (arguments env written) := by
  induction written with
  | nil => simp [arguments, AllValues]
  | cons first rest ih =>
    rw [arguments]
    refine List.forall_mem_cons.mpr ⟨values first List.mem_cons_self, ?_⟩
    exact ih fun expr member => values expr (List.mem_cons_of_mem _ member)

theorem length_arguments (env : Env) (written : List Expr) :
    (arguments env written).length = written.length := by
  induction written with
  | nil => rfl
  | cons first rest ih => simp [arguments, ih]

/-- A node with the arguments it reads; what it reads may be missed, and its line can be shown. -/
structure Suits (watch : Watch) (part : Expr) : Prop where
  supplied : part.hasArguments = true
  reads : ∀ id, part.reads id = true → watch.reads id
  shown : watch.lines part.line

/-- The nodes of the expression are as they should be. -/
def Readable (watch : Watch) (expr : Expr) : Prop :=
  watch.strict → ∀ part ∈ expr.walk, Suits watch part

namespace Readable

variable {watch : Watch} {expr : Expr}

theorem suits (readable : Readable watch expr) (strict : watch.strict) : Suits watch expr :=
  readable strict expr expr.self_mem_walk

theorem shows (readable : Readable watch expr) : watch.Shows expr.line :=
  fun strict => (readable.suits strict).shown

theorem child {child : Expr} (readable : Readable watch expr) (member : child ∈ expr.children) :
    Readable watch child :=
  fun strict part among => readable strict part (Expr.mem_walk.mpr (.inr ⟨child, member, among⟩))

/-- A call has the arguments it reads. -/
theorem inside {ty : Ty} {typeArgument : Option Ty} {method : Method}
    {written : List Expr} {env : Env}
    (readable : Readable watch (.call mark ty method typeArgument written))
    (strict : watch.strict) :
    method.needs ≤ (arguments env written).length := by
  simpa [length_arguments, Expr.hasArguments] using (readable.suits strict).supplied

end Readable

/-- Every expression is computed into a register of its own. -/
theorem expression_values {expr : Expr} (readable : Readable terms.watch expr) :
    Values terms (expression terms.env expr) := by
  have shown := readable.shows
  induction expr using Expr.induction with
  | literal mark ty text | constant mark ty name text => exact literal_values shown ty text
  | named mark ty id =>
    refine fun _ => operand_handles shown (fun strict => ?_) fun source bound =>
      .alloc shown fun register => ⟨⟨.inr rfl, rfl, ?_, ?_⟩, rfl⟩
    · exact (readable.suits strict).reads id (by simp [Expr.reads])
    · simp [Line.destinations, Operand.indices]
    · simpa [Line.registers, Operand.register?] using .inr (terms.bound bound)
  | binary mark ty op left right first second =>
    have one := readable.child (List.mem_cons_self ..)
    have other := readable.child (List.mem_cons_of_mem _ List.mem_cons_self)
    exact binary_values (first one one.shows) (second other other.shows) shown op left.ty
  | not mark ty operand ih | negate mark ty operand ih =>
    have inner := readable.child List.mem_cons_self
    exact unary_values (ih inner inner.shows) shown (fun _ _ => rfl) rfl
  | cast mark ty operand ih =>
    have inner := readable.child List.mem_cons_self
    refine fun turns => .result (fun _ => machineType_excused) fun shape _ => ?_
    exact unary_values (ih inner inner.shows) shown (fun _ _ => rfl) rfl turns
  | call mark ty method typeArgument written ih =>
    refine callValue_values (arguments_values fun argument member => ?_) terms.env shown ty
      readable.inside
    exact ih argument member (readable.child member) (readable.child member).shows
  | field mark ty target name ih =>
    have inner := readable.child List.mem_cons_self
    exact fieldValue_values (ih inner inner.shows) shown name
  | element mark ty array index first second =>
    have one := readable.child List.mem_cons_self
    have other := readable.child (List.mem_cons_of_mem _ List.mem_cons_self)
    exact elementValue_values (first one one.shows) (second other other.shows) shown
  | thisAddress mark ty =>
    exact fun _ => .alloc shown fun register => .line
      ((makeObject_handles register _).andThen fun _ => rfl) (.inr rfl) newest_held
  | moduleRef mark ty name =>
    exact fun _ => .result (fun _ => artifact_excused shown) fun _ _ =>
      .alloc shown fun _ => .line rfl (.inr rfl) newest_held

/-- On lax terms nothing is asked of an expression. -/
theorem expression_computes (env : Env) (expr : Expr) : Computes (expression env expr) :=
  .of_handles env fun bindings => @expression_values (watching env .lax bindings) expr nofun false

/-! ## Single steps, wherever the run goes on from them -/

variable {env : Env} {watch : Watch} {generator later : Generator} {held : List Register}
  {fails : Error → Generator → Prop}

theorem line_sound {line : Line} (stands : Stands env watch generator held)
    (spelled : watch.Spells generator.bindings line) :
    Restores env watch fails (fun later =>
        later.bindings = generator.bindings ∧ later.lines = generator.lines ++ [line])
      (Emission.line line) generator held := by
  refine ⟨stands, ⟨trivial, fun asked => (spelled asked).2⟩, ?_⟩
  rintro changed ⟨⟩
  exact ⟨stands.write spelled, rfl, rfl, by simp [Generator.lines]⟩

theorem Owned.written {line : Line} (owned : Owned generator held)
    (ends : (Emission.line line).Ends generator () later) :
    Owned later held ∧ later.bindings = generator.bindings ∧
      later.lines = generator.lines ++ [line] := by
  cases ends
  exact ⟨owned.congr rfl rfl, rfl, by simp [Generator.lines]⟩

theorem dealloc_sound (line : Nat) (stands : Stands env watch generator (register :: held)) :
    Sound env watch fails (fun _ later heldLater => heldLater = held ∧
        later.bindings = generator.bindings ∧ later.lines = generator.lines)
      (dealloc register line) generator (register :: held) := by
  refine ⟨stands, ⟨List.mem_cons_self, fun _ => trivial⟩, fun changed performed => ?_⟩
  have after := stands.give List.mem_cons_self performed
  show Sound _ _ _ _ (.done ()) changed ((register :: held).erase register)
  rw [List.erase_cons_head] at after ⊢
  exact ⟨after, rfl, give_cases performed⟩

theorem Owned.returned (owned : Owned generator (register :: held))
    (ends : (dealloc register line).Ends generator () later) :
    Owned later held ∧ later.bindings = generator.bindings ∧ later.lines = generator.lines := by
  rcases (@dealloc_sound _ { moduleName := "" } _ _ _ (fun _ _ => True) line
    (.lax owned)).run_ok ends
    with ⟨_, stands, rfl, same⟩
  exact ⟨stands.owned, same⟩

end Covenant.Emission
