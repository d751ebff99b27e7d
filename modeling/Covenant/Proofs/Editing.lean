import Covenant.Emission.Method
import Covenant.Proofs.Flow
import Covenant.Proofs.Induction

/-!
# Emission with and without source lines

An `Edit` changes a program without changing how it is put together: it leaves
out actions that concern source lines, or hides a part of the generator from
the program.  Each function that emits code has one lemma: the edited code of
an environment is the code of the environment with or without source lines.
This has to be known of the source line of a single statement only.
-/

namespace Covenant.Emission

variable {Outcome Next : Type}

/-! ## Edits -/

/-- The action only concerns source lines in the code. -/
def Action.isNote : Action → Bool
  | .note _ | .write (.source _ _) => true
  | _ => false

/-- A change of programs. -/
structure Edit where
  /-- What a program gets to see of the generator. -/
  view : Generator → Generator := id
  /-- The actions that are left out. -/
  drops : Action → Bool := fun _ => false
  bindings : ∀ generator, (view generator).bindings = generator.bindings := by intros; rfl
  called : ∀ generator, (view generator).called = generator.called := by intros; rfl
  keeps : ∀ {action}, action.isNote = false → drops action = false := by intros; rfl

namespace Edit

variable (edit : Edit)

/-- The edited program. -/
def map : Emission Outcome → Emission Outcome
  | .done outcome => .done outcome
  | .fail error => .fail error
  | .look next => .look fun generator => map (next (edit.view generator))
  | .take mark aliasName next => .take mark aliasName fun register => map (next register)
  | .act action next =>
    if edit.drops action then map (next ()) else .act action fun _ => map (next ())

@[simp]
theorem map_pure (outcome : Outcome) : edit.map (pure outcome) = pure outcome :=
  rfl

@[simp]
theorem map_fail (error : Error) : edit.map (.fail error : Emission Outcome) = .fail error :=
  rfl

@[simp]
theorem map_bind (code : Emission Outcome) (next : Outcome → Emission Next) :
    edit.map (code >>= next) = edit.map code >>= fun outcome => edit.map (next outcome) := by
  show edit.map (code.andThen next) = (edit.map code).andThen fun outcome => edit.map (next outcome)
  induction code with
  | done outcome => rfl
  | fail error => rfl
  | look further ih =>
    rw [map, andThen, andThen, map]
    congr
    funext generator
    exact ih _
  | take mark aliasName further ih =>
    rw [map, andThen, andThen, map]
    congr
    funext register
    exact ih register
  | act action further ih =>
    rw [map, andThen, map]
    split
    · exact ih ()
    · rw [andThen]
      congr
      funext _
      exact ih ()

@[simp]
theorem map_ite {condition : Prop} [Decidable condition] (code other : Emission Outcome) :
    edit.map (if condition then code else other) =
      if condition then edit.map code else edit.map other :=
  apply_ite edit.map condition code other

@[simp]
theorem map_map (change : Outcome → Next) (code : Emission Outcome) :
    edit.map (change <$> code) = change <$> edit.map code := by
  rw [map_eq_pure_bind, map_eq_pure_bind, map_bind]
  rfl

@[simp]
theorem map_discard (code : Emission Outcome) :
    edit.map (discard code) = discard (edit.map code) := by
  simp [Functor.discard, map_const]

@[simp]
theorem map_onlyIf (condition : Bool) (code : Emission Unit) :
    edit.map (onlyIf condition code) = onlyIf condition (edit.map code) := by
  simp [onlyIf]

@[simp]
theorem map_lift (computed : Except Error Outcome) :
    edit.map (liftM computed : Emission Outcome) = liftM computed := by
  cases computed <;> rfl

theorem map_perform {action : Action} (kept : action.isNote = false) :
    edit.map (perform action) = perform action := by
  simp [perform, map, edit.keeps kept]

/-- A program may look at the bindings of variables and at the routines called. -/
theorem map_generator {next : Generator → Emission Outcome}
    (seen : ∀ generator, edit.map (next (edit.view generator)) = edit.map (next generator)) :
    edit.map (generator >>= next) = generator >>= fun found => edit.map (next found) := by
  show Emission.look _ = Emission.look _
  congr
  funext found
  exact seen found

end Edit

variable {edit : Edit}

/-! ## Registers and variables -/

@[simp]
theorem instruction_edited (opcode : Opcode) (operands : List Operand) :
    edit.map (instruction opcode operands) = instruction opcode operands :=
  edit.map_perform rfl

@[simp]
theorem label_edited (place : Label) : edit.map (label place) = label place :=
  edit.map_perform rfl

@[simp]
theorem takeRegister_edited (mark : Mark) (aliasName : Option String) :
    edit.map (takeRegister mark aliasName) = takeRegister mark aliasName :=
  rfl

@[simp]
theorem allocAlias_edited (mark : Mark) (aliasName : String) :
    edit.map (allocAlias mark aliasName) = allocAlias mark aliasName := by
  have written (register : Register) : edit.map (line (.aliasing register.index aliasName)) =
      line (.aliasing register.index aliasName) := edit.map_perform rfl
  simp [allocAlias, written]

@[simp]
theorem alloc_edited (mark : Mark) : edit.map (alloc mark) = alloc mark :=
  rfl

@[simp]
theorem dealloc_edited (register : Register) (line : Nat) :
    edit.map (dealloc register line) = dealloc register line :=
  edit.map_perform rfl

@[simp]
theorem binding?_edited (id : VarId) : edit.map (binding? id) = binding? id := by
  apply edit.map_generator
  intro generator
  rw [edit.bindings]

@[simp]
theorem isBound_edited (id : VarId) : edit.map (isBound id) = isBound id := by
  simp [isBound]

@[simp]
theorem release_edited (id : VarId) (line : Nat) :
    edit.map (release id line) = release id line := by
  have unbound : edit.map (perform (.unbind id)) = perform (.unbind id) := edit.map_perform rfl
  unfold release
  rw [edit.map_bind, binding?_edited]
  congr
  funext found
  cases found <;> simp [unbound]

section Environment

variable (env : Env) (annotated : Bool)

theorem ensureBound_edited (id : VarId) (mark : Mark) :
    edit.map (ensureBound env id mark) = ensureBound { env with annotated } id mark := by
  have named : edit.map (aliasFor env id) = aliasFor { env with annotated } id := by
    apply edit.map_generator
    intro generator
    dsimp only
    rw [edit.bindings]
  have bound (register : Register) (line : Nat) : edit.map (Emission.bind env id register line) =
      Emission.bind { env with annotated } id register line := by
    have performed : edit.map (perform (.bind id register)) = perform (.bind id register) :=
      edit.map_perform rfl
    simp [Emission.bind, performed]
  simp [ensureBound, named, bound]

theorem operand_edited (id : VarId) (line : Nat) :
    edit.map (operand env id line) = operand { env with annotated } id line := by
  unfold operand
  rw [edit.map_bind, binding?_edited]
  congr
  funext found
  cases found <;> rfl

theorem useRoutine_edited (label : String) :
    edit.map (useRoutine env label) = useRoutine { env with annotated } label := by
  have performed : edit.map (perform (.remember label)) = perform (.remember label) :=
    edit.map_perform rfl
  unfold useRoutine
  dsimp only
  rw [edit.map_generator]
  · simp [performed]
  · intro generator
    rw [edit.called]

end Environment

-- Functions that only put instructions together are opened.
attribute [local simp] loadScratch pushValue hostCall contractCall popResult loadBytes
  unpackStruct pushTag makeObject

/-! ## Calls -/

def Edit.argument (edit : Edit) (argument : Argument) : Argument :=
  { argument with code := edit.map argument.code }

section Arguments

variable (arguments : List Argument) (index line : Nat) (mark : Mark)

theorem argument_edited : argument (arguments.map edit.argument) index line =
    (argument arguments index line).map edit.argument := by
  unfold argument
  rw [List.getElem?_map]
  cases arguments[index]? <;> rfl

@[simp]
theorem literalArgument_edited :
    literalArgument (arguments.map edit.argument) index line =
      literalArgument arguments index line := by
  unfold literalArgument
  rw [argument_edited]
  cases argument arguments index line <;> rfl

@[simp]
theorem stringArgument_edited :
    stringArgument (arguments.map edit.argument) index line =
      stringArgument arguments index line := by
  unfold stringArgument
  rw [argument_edited]
  cases argument arguments index line <;> rfl

@[simp]
theorem pushArguments_edited :
    edit.map (pushArguments arguments) = pushArguments (arguments.map edit.argument) := by
  induction arguments with
  | nil => rfl
  | cons first rest ih => simp [pushArguments, pushArgument, ih, Edit.argument]

@[simp]
theorem compute_edited :
    edit.map (compute arguments index line) =
      compute (arguments.map edit.argument) index line := by
  unfold compute
  rw [edit.map_bind, edit.map_lift, argument_edited]
  cases argument arguments index line <;> rfl

@[simp]
theorem putFields_edited (target : Register) (fields : List Field) :
    edit.map (putFields target line fields arguments) =
      putFields target line fields (arguments.map edit.argument) := by
  induction fields generalizing arguments with
  | nil => rfl
  | cons field fields ih =>
    cases arguments with
    | nil => rfl
    | cons first rest => simp [putFields, ih, Edit.argument]

/-- What follows an argument that is looked at only depends on how it is written. -/
theorem afterArgument_edited {next : Argument → Emission Outcome}
    (same : ∀ argument, edit.map (next argument) = next (edit.argument argument)) :
    edit.map (do next (← argument arguments index line)) =
      (do next (← argument (arguments.map edit.argument) index line)) := by
  rw [edit.map_bind, edit.map_lift, argument_edited]
  cases argument arguments index line with
  | error error => rfl
  | ok found => exact same found

theorem inlineCall_edited (env : Env) (ty : Ty) (method : Method) (operation : Inline) :
    edit.map (inlineCall env mark ty method arguments operation) =
      inlineCall env mark ty method (arguments.map edit.argument) operation := by
  cases operation with
  | construct name =>
    simp only [inlineCall, construct]
    split <;> simp
  | createSeries =>
    simp only [inlineCall, createSeries, List.getLast?_map]
    cases arguments.getLast? with
    | none => rfl
    | some last => simp [moduleArgument, Edit.argument]
  | decimalPlaces =>
    refine afterArgument_edited _ _ _ fun target => ?_
    simp only [Edit.argument]
    split <;> simp
  | moduleScript | moduleInterface =>
    refine afterArgument_edited _ _ _ fun target => ?_
    simp [moduleArgument, Edit.argument]
  | _ =>
    simp [inlineCall, applyUnary, applyBinary, expectation, range, storage, readToken,
      List.map_drop]

theorem call_edited (env : Env) (annotated : Bool) (ty : Ty) (method : Method) :
    edit.map (call env mark ty method arguments) =
      call { env with annotated } mark ty method (arguments.map edit.argument) := by
  unfold call
  cases method.means with
  | inline operation => exact inlineCall_edited _ mark env ty method operation
  | _ => simp [useRoutine_edited env annotated]

end Arguments

/-! ## Values -/

section Values

variable (env : Env) (annotated : Bool)

theorem arguments_edited {written : List Expr}
    (each : ∀ expr ∈ written,
      edit.map (expression env expr) = expression { env with annotated } expr) :
    (arguments env written).map edit.argument = arguments { env with annotated } written := by
  induction written with
  | nil => rfl
  | cons first rest ih =>
    simp only [List.forall_mem_cons] at each
    simp only [arguments, List.map_cons, ih each.2, Edit.argument, each.1]

/-- The code of an expression does not depend on whether source lines are written. -/
theorem expression_edited (expr : Expr) :
    edit.map (expression env expr) = expression { env with annotated } expr := by
  induction expr using Expr.induction with
  | literal mark ty text | constant mark ty name text =>
    simp only [expression, literal, loadLiteral]
    split <;> simp
  | named mark ty id => simp [expression, operand_edited env annotated]
  | binary mark ty op left right one two =>
    simp only [expression, binary, scaleDividend, scaleProduct]
    split <;> split <;> simp [one, two]
  | call mark ty method typeArgument written each =>
    rw [expression, expression, edit.map_bind, call_edited _ _ env annotated,
      arguments_edited env annotated each]
    congr
    funext found
    cases found <;> rfl
  | _ => simp_all [expression, unary, fieldValue, elementValue, artifact]

theorem discarded_edited (line : Nat) (expr : Expr) :
    edit.map (discarded env line expr) = discarded { env with annotated } line expr := by
  unfold discarded
  split
  · rw [edit.map_bind, call_edited _ _ env annotated,
      arguments_edited env annotated fun expr _ => expression_edited env annotated expr]
    congr
    funext found
    cases found <;> simp
  · simp [expression_edited env annotated]

end Values

/-! ## Statements -/

theorem releaseLocals_edited (line : Nat) (declarations : List Variable) :
    edit.map (releaseLocals line declarations) = releaseLocals line declarations := by
  induction declarations with
  | nil => rfl
  | cons first rest ih => simp [releaseLocals, releaseLocal, ih]

theorem rawLines_edited (lines : List String) : edit.map (rawLines lines) = rawLines lines := by
  have written (text : String) : edit.map (line (.raw text)) = line (.raw text) :=
    edit.map_perform rfl
  induction lines with
  | nil => rfl
  | cons first rest ih => simp [rawLines, written, ih]

theorem jumpTo_edited (target : Option Label) (missing : Error) :
    edit.map (jumpTo target missing) = jumpTo target missing := by
  cases target <;> simp [jumpTo]

section Modules

variable {env : Env} {annotated : Bool}
  (same : ∀ number, edit.map (annotate env number) = annotate { env with annotated } number)

include same

theorem deed_edited (deed : Deed) : edit.map (deed.code env) =
    deed.code { env with annotated } := by
  have values := @expression_edited edit env annotated
  cases deed with
  | comment line => exact same line
  | assign mark target selector value =>
    cases selector <;> simp [Deed.code, assign, store, clearFresh, values,
      ensureBound_edited env annotated, operand_edited env annotated]
  | discard line expr => exact discarded_edited env annotated line expr
  | emit line number address value => simp [Deed.code, pushExpression, values]
  | result line given => cases given <;> simp [Deed.code, pushResult, pushExpression, values]
  | raw lines => exact rawLines_edited lines

/-- The edited code of a flow is its code with or without source lines. -/
theorem flow_edited (exit : Label) (flow : Plan) (loops : LoopStack) (subject : Register) :
    edit.map (flow.code env exit loops subject) =
      flow.code { env with annotated } exit loops subject := by
  have values := @expression_edited edit env annotated
  induction flow generalizing loops subject with
  | leave line | next line => exact jumpTo_edited _ _
  | _ =>
    simp_all [Flow.code, test, comparison, deed_edited same, leaveScope, releaseLocals_edited]

/-! ## Methods -/

omit same in
theorem releaseAll_edited (line : Nat) (ids : List VarId) :
    edit.map (releaseAll line ids) = releaseAll line ids := by
  induction ids with
  | nil => rfl
  | cons first rest ih => simp [releaseAll, ih]

omit same in
theorem popVariables_edited (mark : Mark) (ids : List VarId) :
    edit.map (popVariables env mark ids) = popVariables { env with annotated } mark ids := by
  induction ids with
  | nil => rfl
  | cons first rest ih =>
    simp [popVariables, popVariable, ensureBound_edited env annotated,
      operand_edited env annotated, ih]

omit same in
theorem loadGlobals_edited (mark : Mark) (body : Block) (declarations : List Variable) :
    edit.map (loadGlobals env mark body declarations) =
      loadGlobals { env with annotated } mark body declarations := by
  induction declarations with
  | nil => rfl
  | cons first rest ih =>
    simp [loadGlobals, loadGlobal, ensureBound_edited env annotated,
      operand_edited env annotated, ih]

omit same in
theorem storeGlobals_edited (line : Nat) (body : Block) (declarations : List Variable) :
    edit.map (storeGlobals env line body declarations) =
      storeGlobals { env with annotated } line body declarations := by
  induction declarations with
  | nil => rfl
  | cons first rest ih =>
    simp [storeGlobals, leaveGlobal, storeGlobal, operand_edited env annotated, ih]

omit same in
theorem loadToken_edited (mark : Mark) (root : ScopeId) (token : String) (body : Block) :
    edit.map (loadToken env mark root token body) =
      loadToken { env with annotated } mark root token body := by
  have fields (data : Register) (fields : List (Variable × String)) :
      edit.map (readFields env mark data fields) =
        readFields { env with annotated } mark data fields := by
    induction fields with
    | nil => rfl
    | cons first rest ih =>
      simp [readFields, ensureBound_edited env annotated, operand_edited env annotated, ih]
  unfold loadToken
  dsimp only
  split
  · rfl
  · simp [popVariable, ensureBound_edited env annotated, operand_edited env annotated, fields]

theorem bodyCode_edited (name : String) (scope : ScopeId) (line : Nat) (body : Block) :
    edit.map (bodyCode env name scope line body) =
      bodyCode { env with annotated } name scope line body := by
  simp [bodyCode, inMethod_eq _ _ _ noSubject, flow_edited same, leaveScope, releaseLocals_edited]

theorem methods_edited (root : ScopeId) (token : Option String) (decls : List MethodDecl) :
    edit.map (methods env root token decls) = methods { env with annotated } root token decls := by
  have loaded (decl : MethodDecl) : edit.map (loadImplicit env root token decl) =
      loadImplicit { env with annotated } root token decl := by
    cases token with
    | some token => exact loadToken_edited decl.mark root token decl.body
    | none => rfl
  have prepared (decl : MethodDecl) : edit.map (prepareGlobals env root decl) =
      prepareGlobals { env with annotated } root decl := by
    unfold prepareGlobals
    split
    · exact edit.map_lift _
    · exact loadGlobals_edited decl.mark decl.body _
  have popped := @popVariables_edited edit env annotated
  have stored := @storeGlobals_edited edit env annotated
  induction decls with
  | nil => rfl
  | cons first rest ih =>
    simp [methods, method, prologue, epilogue, globals, same, loaded, popped, prepared,
      bodyCode_edited same, stored, releaseAll_edited, ih]

theorem script_edited (body : Script) :
    edit.map (script env body) = script { env with annotated } body := by
  have popped := @popVariables_edited edit env annotated
  simp [script, scriptPrologue, same, popped, bodyCode_edited same, releaseAll_edited]

/-- The edited code of a module is its code with or without source lines. -/
theorem content_edited (root : ScopeId) (held : Module.Content) :
    edit.map (content env root held) = content { env with annotated } root held := by
  cases held with
  | script body | description body => exact script_edited same body
  | _ => exact methods_edited same root _ _

end Modules

end Covenant.Emission
