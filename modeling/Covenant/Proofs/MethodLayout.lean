import Covenant.Proofs.ExpressionCode
import Covenant.Proofs.ModuleRegisters
import Mathlib.Data.List.Nodup

/-!
# The lines around a body

Before its body a method names a register for each variable that it takes off
the stack, reads from the token or loads from storage; after its body it
stores globals.  The lines are told in terms of the registers that the
variables have when the body starts or ends.
-/

namespace Covenant

variable {id : VarId}

namespace Emission

variable {env : Env}

/-! ## Pieces of code -/

/-- Name a register after a variable. -/
def naming (register : Register) : Line :=
  .aliasing register.index (register.aliasName.getD "")

/-- Take a value off the stack. -/
def popLine (register : Register) : Line :=
  .instruction .pop [.register register]

/-- Push a value by way of the scratch register. -/
def valueLines (value : Operand) : List Line :=
  [.instruction .load [.scratch, value], .instruction .push [.scratch]]

/-- Call a function of the host. -/
def hostLines (name : String) : List Line :=
  [.instruction .load [.scratch, .quoted name], .instruction .extCall [.scratch]]

/-- The number that tells storage the shape of a type. -/
def tagOf (ty : Ty) : Nat :=
  match ty.machineType with
  | .ok shape => shape.tag
  | .error _ => 0

/-- Read a global from storage into a register. -/
def loadLines (moduleName : String) (declaration : Variable) (register : Register) :
    List Line :=
  naming register :: (valueLines (.natural (tagOf declaration.ty)) ++
    valueLines (.quoted declaration.name) ++ valueLines (.quoted moduleName) ++
    hostLines "Data.Get" ++ [popLine register])

/-- Write a global from a register to storage. -/
def storeLines (declaration : Variable) (register : Register) : List Line :=
  .instruction .push [.register register] ::
    (valueLines (.quoted declaration.name) ++ hostLines "Data.Set")

/-! ## Variables that get a register -/

variable {before after : Generator} {mark : Mark} {body : Block} {moduleScope : ScopeId}
  {register : Register} {id : VarId} {ids : List VarId} {token : Option String} {decl : MethodDecl}
  {held : List Register}
  {declaration : Variable}

theorem takeRegister_ends {aliasName : Option String}
    (ends : (takeRegister mark aliasName).Ends before register after) :
    after.lines = before.lines ∧ after.bindings = before.bindings ∧
      register.aliasName = aliasName := by
  unfold Ends at ends
  cases took : before.take mark aliasName with
  | error error => simp [takeRegister, run, took] at ends
  | ok pair =>
    simp only [takeRegister, run, took, Except.ok.injEq, Prod.mk.injEq] at ends
    rcases ends with ⟨rfl, rfl⟩
    rcases take_cases took with ⟨called, bindings, lines⟩
    exact ⟨lines, bindings, called⟩

theorem allocAlias_ends {name : String} (ends : (allocAlias mark name).Ends before register after) :
    after.lines = before.lines ++ [naming register] ∧ after.bindings = before.bindings := by
  rcases bind_ok ends with ⟨handed, taken, taking, rest⟩
  rcases bind_ok rest with ⟨_, written, writing, finish⟩
  cases finish
  rcases takeRegister_ends taking with ⟨lines, bindings, called⟩
  cases writing
  exact ⟨by simpa [naming, called, Generator.lines] using lines, bindings⟩

theorem bind_ends {line : Nat} (unbound : before.bindings.lookup id = none)
    (ends : (bind env id register line).Ends before () after) :
    after.lines = before.lines ∧ after.bindings = (id, register) :: before.bindings := by
  rcases bind_ok ends with ⟨bound, seen, looked, rest⟩
  cases looked
  simp only [unbound, Option.isSome_none, Bool.false_eq_true, if_false] at rest
  cases rest
  exact ⟨rfl, rfl⟩

/-- A variable that had no register gets one, and the code names it. -/
theorem ensureBound_ends {fresh : Bool} (unbound : ¬ before.Binds id)
    (ends : (ensureBound env id mark).Ends before fresh after) :
    after.lines = before.lines ++ [naming (after.place id)] := by
  have missing : before.bindings.lookup id = none := Option.not_isSome_iff_eq_none.mp unbound
  rcases bind_ok ends with ⟨bound, seen, looked, rest⟩
  cases looked
  simp only [missing, Option.isSome_none, Bool.false_eq_true, if_false] at rest
  rcases bind_ok rest with ⟨aliasName, named, chosen, rest⟩
  cases chosen
  rcases bind_ok rest with ⟨register, taken, taking, rest⟩
  rcases bind_ok rest with ⟨_, last, binding, finish⟩
  cases finish
  rcases allocAlias_ends taking with ⟨lines, bindings⟩
  rw [← bindings] at missing
  rcases bind_ends missing binding with ⟨sameLines, added⟩
  have placed : after.bindings.lookup id = some register := by simp [added]
  rw [Generator.place_of_lookup placed, sameLines, lines]

theorem discard_ends {Outcome : Type} {code : Emission Outcome}
    (ends : (discard code).Ends before () after) : ∃ outcome, code.Ends before outcome after := by
  replace ends : (code >>= fun _ => Emission.done ()).Ends before () after := ends
  rcases bind_ok ends with ⟨outcome, between, first, last⟩
  cases last
  exact ⟨outcome, first⟩

theorem line_ends {written : Line} (ends : (line written).Ends before () after) :
    after.lines = before.lines ++ [written] ∧ after.bindings = before.bindings := by
  cases ends
  exact ⟨by simp [Generator.lines], rfl⟩

/-- A variable takes a value off the stack. -/
theorem popVariable_lines (unbound : ¬ before.Binds id)
    (ends : (popVariable env mark id).Ends before () after) :
    after.lines = before.lines ++ [naming (after.place id), popLine (after.place id)] := by
  rcases bind_ok ends with ⟨_, bound, ensured, rest⟩
  rcases discard_ends ensured with ⟨fresh, ensured⟩
  rcases bind_ok rest with ⟨register, seen, looked, popping⟩
  rcases operand_ends looked with ⟨found, rfl⟩
  rcases line_ends popping with ⟨popped, bindings⟩
  have place : after.place id = seen.place id := by simp [Generator.place, bindings]
  rw [popped, ensureBound_ends unbound ensured, place, Generator.place_of_lookup found]
  simp [popLine]

/-- The lines that take values off the stack into the registers of variables. -/
def popLines (place : VarId → Register) (ids : List VarId) : List Line :=
  ids.flatMap fun id => [naming (place id), popLine (place id)]

/-- Each item gives a register to its variable and adds lines that depend on the register. -/
theorem inTurn_lines {Item : Type} {step : Item → Emission Unit} {key : Item → VarId}
    (piece : Item → Register → List Line) {items : List Item}
    (gains : ∀ item, Gains env .lax [] [key item] (step item))
    (adds : ∀ item before after, ¬ before.Binds (key item) → (step item).Ends before () after →
      after.lines = before.lines ++ piece item (after.place (key item)))
    (distinct : (items.map key).Nodup) (unbound : ∀ item ∈ items, ¬ before.Binds (key item))
    (owned : Owned before held) (ends : (inTurn step items).Ends before () after) :
    after.lines = before.lines ++
      items.flatMap fun item => piece item (after.place (key item)) := by
  induction items generalizing before with
  | nil =>
    cases ends
    simp
  | cons first rest ih =>
    simp only [List.map_cons, List.nodup_cons, List.mem_map, not_exists, not_and] at distinct
    rcases bind_ok ends with ⟨_, between, one, others⟩
    rcases (gains first).ends owned one with ⟨ownedBetween, placed⟩
    rcases (inTurn_gains fun item (_ : item ∈ rest) => gains item).ends ownedBetween others with
      ⟨-, further⟩
    have lines := adds first before between (unbound first List.mem_cons_self) one
    have free : ∀ item ∈ rest, ¬ between.Binds (key item) := fun item member =>
      placed.fresh (unbound item (List.mem_cons_of_mem _ member)) (by
        simpa using distinct.1 item member)
    have same : after.place (key first) = between.place (key first) :=
      further.place_eq ((placed.binds _).mpr (.inr List.mem_cons_self))
    rw [ih distinct.2 free ownedBetween others, lines, List.flatMap_cons, same, List.append_assoc]

/-- A global is read from storage. -/
theorem loadGlobal_lines (unbound : ¬ before.Binds declaration.id)
    (ends : (loadGlobal env mark declaration).Ends before () after) :
    after.lines = before.lines ++
      loadLines env.moduleName declaration (after.place declaration.id) := by
  rcases bind_ok ends with ⟨shape, start, shaped, rest⟩
  rcases (result_ok shaped : declaration.ty.machineType = .ok shape ∧ _) with ⟨found, rfl⟩
  rcases bind_ok rest with ⟨_, bound, ensured, rest⟩
  rcases discard_ends ensured with ⟨fresh, ensured⟩
  -- The three values and the call pass through the scratch register.
  rcases bind_ok rest with ⟨_, _, ⟨⟩, named⟩
  rcases bind_ok named with ⟨_, _, ⟨⟩, owned⟩
  rcases bind_ok owned with ⟨_, _, ⟨⟩, called⟩
  rcases bind_ok called with ⟨_, _, ⟨⟩, taken⟩
  rcases bind_ok taken with ⟨register, seen, looked, popping⟩
  rcases operand_ends looked with ⟨held, rfl⟩
  cases popping
  have place : bound.place declaration.id = register := Generator.place_of_lookup held
  have lines := ensureBound_ends unbound ensured
  show Generator.lines { bound with output := _ } = start.lines ++
    loadLines env.moduleName declaration (bound.place declaration.id)
  simp only [Generator.lines, place, loadLines] at lines ⊢
  simp [lines, tagOf, found, valueLines, hostLines, popLine]

/-! ## The token behind a method -/

/-- Read a field of a token into the register of a variable. -/
def fieldLines (data : Register) (declaration : Variable) (field : String)
    (register : Register) : List Line :=
  [naming register, .instruction .load [.scratch, .quoted field],
    .instruction .get [.register data, .register register, .scratch]] ++
  if declaration.ty.kind = .struct then
    [.instruction .unpack [.register register, .register register]]
  else
    []

theorem unpackStruct_ends {ty : Ty} (ends : (unpackStruct ty register).Ends before () after) :
    after.lines = before.lines ++ (if ty.kind = .struct then
      [.instruction .unpack [.register register, .register register]] else []) ∧
      after.bindings = before.bindings := by
  by_cases struct : ty.kind = .struct
  · simp only [unpackStruct, onlyIf, struct, decide_true, if_true] at ends ⊢
    exact line_ends ends
  · simp only [unpackStruct, onlyIf, struct, decide_false, Bool.false_eq_true, if_false]
      at ends ⊢
    cases ends
    exact ⟨by simp, rfl⟩

theorem readField_lines {data : Register} {field : Variable × String}
    (unbound : ¬ before.Binds field.1.id)
    (ends : (readField env mark data field).Ends before () after) :
    after.lines = before.lines ++ fieldLines data field.1 field.2 (after.place field.1.id) := by
  rcases bind_ok ends with ⟨_, bound, ensured, rest⟩
  rcases discard_ends ensured with ⟨fresh, ensured⟩
  rcases bind_ok rest with ⟨target, seen, looked, reading⟩
  rcases operand_ends looked with ⟨found, rfl⟩
  rcases bind_ok reading with ⟨_, _, ⟨⟩, getting⟩
  rcases bind_ok getting with ⟨_, _, ⟨⟩, unpacking⟩
  rcases unpackStruct_ends unpacking with ⟨unpacked, same⟩
  have place : seen.place field.1.id = target := Generator.place_of_lookup found
  have kept : after.place field.1.id = seen.place field.1.id := by
    simp [Generator.place, same]
  have lines := ensureBound_ends unbound ensured
  rw [kept, place, unpacked]
  rw [place] at lines
  simp only [Generator.lines] at lines ⊢
  simp [lines, fieldLines]

/-- The variables of an NFT that are declared with its module. -/
def implicitOf (env : Env) (moduleScope : ScopeId) : List Variable :=
  (env.scopes.declaredIn moduleScope).filter fun declaration => declaration.storage = .nft

/-- Take the number of a token off the stack and read the fields that a body uses. -/
def tokenLines (token : String) (number : VarId) (used : List (Variable × String))
    (data : Register) (place : VarId → Register) : List Line :=
  [naming (place number), popLine (place number)] ++
  if used.isEmpty then
    []
  else
    .instruction .push [.register (place number)] ::
      (valueLines (.quoted token) ++ hostLines "Runtime.ReadToken" ++ [popLine data] ++
        used.flatMap fun field => fieldLines data field.1 field.2 (place field.1.id))

theorem usedFields_sublist (body : Block) (implicit : List Variable) :
    ((usedFields body implicit).map fun field => field.1.id).Sublist
      (implicit.map Variable.id) := by
  induction implicit with
  | nil => simp [usedFields]
  | cons first rest ih =>
    unfold usedFields at *
    by_cases used : body.uses first.id = true
    · cases field : tokenField? first.name with
      | none => simpa [List.filter_cons, used, field] using ih.cons first.id
      | some name => simpa [List.filter_cons, used, field] using ih
    · simpa [List.filter_cons, used] using ih.cons first.id

/-- The number of the token is taken off the stack first. -/
theorem loadToken_ends {token : String} {reported : List VarId}
    (distinct : ((env.scopes.declaredIn moduleScope).map Variable.id).Nodup)
    (unbound : ∀ id, ¬ before.Binds id) (owned : Owned before held)
    (ends : (loadToken env mark moduleScope token body).Ends before reported after) :
    ∃ number data, number ∈ implicitOf env moduleScope ∧ number.name = "_tokenID" ∧
      reported = number.id :: (usedFields body (implicitOf env moduleScope)).map
        (fun field => field.1.id) ∧
      after.lines = before.lines ++ tokenLines token number.id
        (usedFields body (implicitOf env moduleScope)) data after.place := by
  unfold loadToken at ends
  simp only at ends
  have implicit : (env.scopes.declaredIn moduleScope).filter
      (fun declaration => declaration.storage = .nft) = implicitOf env moduleScope := rfl
  rw [implicit] at ends
  split at ends
  · cases ends
  · rename_i number found
    have listed := List.mem_of_find?_eq_some found
    have called : number.name = "_tokenID" := by simpa using List.find?_some found
    have distinctImplicit : ((implicitOf env moduleScope).map Variable.id).Nodup :=
      (List.filter_sublist.map Variable.id).nodup distinct
    have distinctUsed := (usedFields_sublist body (implicitOf env moduleScope)).nodup
      distinctImplicit
    -- the number itself is not one of the fields that are read
    have apart : ∀ field ∈ usedFields body (implicitOf env moduleScope),
        field.1.id ≠ number.id := by
      intro field member same
      rcases mem_usedFields.mp member with ⟨among, -, named⟩
      rw [List.inj_on_of_nodup_map distinctImplicit among listed same, called] at named
      cases named
    rcases bind_ok ends with ⟨_, popped, popping, rest⟩
    rcases (@popVariable_gains _ .lax _ _ _ False.elim False.elim).ends owned popping with
      ⟨ownedPopped, placed⟩
    have popLines := popVariable_lines (unbound number.id) popping
    split at rest
    · rename_i empty
      have none : usedFields body (implicitOf env moduleScope) = [] := by simpa using empty
      cases rest
      refine ⟨number, { index := 0 }, listed, called, by simp [none], ?_⟩
      rw [popLines]
      simp [tokenLines, none]
    · rename_i some
      rcases bind_ok rest with ⟨register, seen, looked, asking⟩
      rcases operand_ends looked with ⟨found, rfl⟩
      rcases bind_ok asking with ⟨_, _, ⟨⟩, naming⟩
      rcases bind_ok naming with ⟨_, _, ⟨⟩, calling⟩
      rcases bind_ok calling with ⟨_, _, ⟨⟩, holding⟩
      rcases bind_ok holding with ⟨data, taken, taking, getting⟩
      rcases Owned.handed (by exact ownedPopped.congr rfl rfl) taking with
        ⟨ownedTaken, same, sameLines⟩
      rcases bind_ok getting with ⟨_, got, get, filling⟩
      rcases ownedTaken.written get with ⟨ownedGot, getBindings, getLines⟩
      rcases bind_ok filling with ⟨_, filled, fill, freeing⟩
      rcases bind_ok freeing with ⟨_, freed, free, finish⟩
      cases finish
      rw [readFields_eq] at fill
      have placedAll := placed.followed
        (.of_bindings (by rw [getBindings, same]) : Places [] seen got)
      have unboundFields : ∀ field ∈ usedFields body (implicitOf env moduleScope),
          ¬ got.Binds field.1.id := fun field member =>
        placedAll.fresh (unbound field.1.id) (by simpa using apart field member)
      have fillLines := inTurn_lines (fun field => fieldLines data field.1 field.2)
        (fun _ => readField_gains False.elim False.elim False.elim) (fun _ _ _ => readField_lines)
        distinctUsed unboundFields
        ownedGot fill
      have fields := @inTurn_gains env .lax [] _ (readField env mark data) (·.1.id)
        (usedFields body (implicitOf env moduleScope)) fun _ _ =>
          readField_gains False.elim False.elim False.elim
      rcases fields.ends ownedGot fill with ⟨-, further⟩
      rcases free_ends free with ⟨freeLines, freeBindings⟩
      have place : ∀ id, after.place id = filled.place id := by
        intro id
        simp [Generator.place, freeBindings]
      have numberPlace : filled.place number.id = register := by
        rw [further.place_eq ((placedAll.binds _).mpr (.inr List.mem_cons_self))]
        refine Generator.place_of_lookup ?_
        rw [getBindings, same]
        exact found
      refine ⟨number, data, listed, called, rfl, ?_⟩
      rw [freeLines, fillLines, getLines, sameLines]
      simp only [Generator.lines] at popLines ⊢
      simp [popLines, tokenLines, some, place, numberPlace, Generator.place_of_lookup found,
        popLine,
        valueLines, hostLines]

/-- The lines that a method of an NFT starts with, given the registers of its variables. -/
inductive TokenPart (env : Env) (moduleScope : ScopeId) (body : Block)
    (place : VarId → Register) : Option String → List VarId → List Line → Prop
  /-- Only the methods of an NFT have such lines. -/
  | absent : TokenPart env moduleScope body place none [] []
  | present {token : String} {number : Variable} (data : Register)
      (listed : number ∈ implicitOf env moduleScope) (named : number.name = "_tokenID") :
      TokenPart env moduleScope body place (some token)
        (number.id :: (usedFields body (implicitOf env moduleScope)).map fun field => field.1.id)
        (tokenLines token number.id (usedFields body (implicitOf env moduleScope)) data place)

theorem TokenPart.congr {place other : VarId → Register} {lines : List Line}
    (part : TokenPart env moduleScope body place token ids lines)
    (same : ∀ id ∈ ids, other id = place id) :
    TokenPart env moduleScope body other token ids lines := by
  cases part with
  | absent => exact .absent
  | @present token number data listed named =>
    have equal : tokenLines token number.id (usedFields body (implicitOf env moduleScope)) data
        place = tokenLines token number.id (usedFields body (implicitOf env moduleScope)) data
        other := by
      unfold tokenLines
      rw [same number.id List.mem_cons_self]
      congr 3
      · congr 1
        refine List.flatMap_congr fun field member => ?_
        rw [same field.1.id (List.mem_cons_of_mem _ (List.mem_map_of_mem
          (f := fun field : Variable × String => field.1.id) member))]
    rw [equal]
    exact .present data listed named

theorem loadImplicit_ends {reported : List VarId}
    (distinct : ((env.scopes.declaredIn moduleScope).map Variable.id).Nodup)
    (unbound : ∀ id, ¬ before.Binds id) (owned : Owned before held)
    (ends : (loadImplicit env moduleScope token decl).Ends before reported after) :
    ∃ lines, after.lines = before.lines ++ lines ∧
      TokenPart env moduleScope decl.body after.place token reported lines := by
  cases token with
  | none =>
    cases ends
    exact ⟨[], by simp, .absent⟩
  | some token =>
    rcases loadToken_ends distinct unbound owned ends with
      ⟨number, data, listed, named, rfl, lines⟩
    exact ⟨_, lines, .present data listed named⟩

/-! ## Before the body -/

/-- The source line that stands before code, unless it was the last one written. -/
def commentLines (env : Env) (last number : Nat) : List Line :=
  if env.annotated && number ≠ 0 && number ≠ last then
    (env.sourceLines[number - 1]?).toList.map fun text => .source number (Text.trimmed text)
  else
    []

theorem annotate_ends {number : Nat} (ends : (annotate env number).Ends before () after) :
    after.lines = before.lines ++ commentLines env before.lastLine number := by
  rcases bind_ok ends with ⟨seen, same, looked, rest⟩
  cases looked
  unfold commentLines
  split at rest
  · rename_i written
    rw [if_pos written]
    rcases bind_ok rest with ⟨_, noted, noting, last⟩
    cases noting
    split at last
    · rename_i text found
      simpa [found, Generator.lines] using (line_ends last).1
    · rename_i missing
      cases last
      simp [missing, Generator.lines]
  · rename_i silent
    rw [if_neg silent]
    cases rest
    simp

/-- The variables that a method starts with are all different. -/
structure Apart (env : Env) (moduleScope : ScopeId) (decl : MethodDecl) : Prop where
  declared : ((env.scopes.declaredIn moduleScope).map Variable.id).Nodup
  parameters : decl.parameters.Nodup
  disjoint : ∀ id ∈ decl.parameters, id ∉ (env.scopes.declaredIn moduleScope).map Variable.id

theorem globals_sublist (env : Env) (moduleScope : ScopeId) :
    ((globals env moduleScope).map Variable.id).Sublist
      ((env.scopes.declaredIn moduleScope).map Variable.id) :=
  List.filter_sublist.map Variable.id

/-- What a method of an NFT takes from the token is not kept in storage. -/
theorem TokenPart.apart {place : VarId → Register} {lines : List Line}
    (distinct : ((env.scopes.declaredIn moduleScope).map Variable.id).Nodup)
    (part : TokenPart env moduleScope body place token ids lines) :
    (∀ id ∈ ids, id ∈ (env.scopes.declaredIn moduleScope).map Variable.id) ∧
      ∀ id ∈ ids, id ∉ (globals env moduleScope).map Variable.id := by
  have split : ∀ declaration ∈ implicitOf env moduleScope,
      declaration.id ∈ (env.scopes.declaredIn moduleScope).map Variable.id ∧
        declaration.id ∉ (globals env moduleScope).map Variable.id := by
    intro declaration member
    rcases List.mem_filter.mp member with ⟨listed, stored⟩
    refine ⟨List.mem_map_of_mem listed, ?_⟩
    intro among
    rcases List.mem_map.mp among with ⟨global, globalMember, same⟩
    rcases List.mem_filter.mp globalMember with ⟨globalListed, kept⟩
    rw [List.inj_on_of_nodup_map distinct globalListed listed same] at kept
    simp only [decide_eq_true_eq] at stored
    simp [stored] at kept
  cases part with
  | absent => exact ⟨nofun, nofun⟩
  | @present token number data listed named =>
    have all : ∀ id ∈ number.id :: (usedFields body (implicitOf env moduleScope)).map
        (fun field => field.1.id), ∃ declaration ∈ implicitOf env moduleScope,
          declaration.id = id := by
      intro id member
      rcases List.mem_cons.mp member with rfl | used
      · exact ⟨number, listed, rfl⟩
      · rcases List.mem_map.mp used with ⟨field, among, rfl⟩
        exact ⟨field.1, (mem_usedFields.mp among).1, rfl⟩
    constructor
    · intro id member
      rcases all id member with ⟨declaration, among, rfl⟩
      exact (split declaration among).1
    · intro id member
      rcases all id member with ⟨declaration, among, rfl⟩
      exact (split declaration among).2

theorem prepareGlobals_ends (distinct : ((globals env moduleScope).map Variable.id).Nodup)
    (unbound : ∀ declaration ∈ globals env moduleScope, ¬ before.Binds declaration.id)
    (owned : Owned before held)
    (ends : (prepareGlobals env moduleScope decl).Ends before () after) :
    after.lines = before.lines ++ (loadedGlobals env moduleScope decl).flatMap
        (fun declaration => loadLines env.moduleName declaration (after.place declaration.id)) ∧
      (decl.method.role = .constructor →
        checkInitialized decl.body decl.line (globals env moduleScope) = .ok ()) := by
  unfold prepareGlobals at ends
  unfold loadedGlobals
  split at ends
  · rename_i role
    rw [if_pos role]
    cases checked : checkInitialized decl.body decl.line (globals env moduleScope) with
    | error error =>
      rw [checked] at ends
      cases ends
    | ok outcome =>
      rw [checked] at ends
      cases ends
      exact ⟨by simp, fun _ => rfl⟩
  · rename_i role
    rw [if_neg role]
    rw [loadGlobals_eq] at ends
    refine ⟨inTurn_lines (loadLines env.moduleName)
      (fun _ => loadGlobal_gains False.elim False.elim)
      (fun _ _ _ => loadGlobal_lines) ?_ ?_ owned ends, fun isRole => absurd isRole role⟩
    · exact (List.filter_sublist.map Variable.id).nodup distinct
    · exact fun declaration member => unbound declaration (List.mem_filter.mp member).1

/-- The lines of a method up to its body. -/
structure Entered (env : Env) (moduleScope : ScopeId) (token : Option String)
    (decl : MethodDecl) (before : Generator) (implicit : List VarId) (start : Generator) :
    Prop where
  /-- A comment, the label, the token, the arguments and the globals, in this order. -/
  lines : ∃ tokenPart, TokenPart env moduleScope decl.body start.place token implicit tokenPart ∧
    start.lines = before.lines ++ commentLines env before.lastLine decl.line ++
      [.label (.entry decl.name)] ++ tokenPart ++ popLines start.place decl.parameters ++
      (loadedGlobals env moduleScope decl).flatMap fun declaration =>
        loadLines env.moduleName declaration (start.place declaration.id)
  places : Places (implicit ++ decl.parameters ++
    (loadedGlobals env moduleScope decl).map Variable.id) before start
  initialized : decl.method.role = .constructor →
    checkInitialized decl.body decl.line (globals env moduleScope) = .ok ()

theorem prologue_ends {start : Generator} {implicit : List VarId}
    (apart : Apart env moduleScope decl) (owned : Owned before held) (clear : before.Clear)
    (ends : (prologue env moduleScope token decl).Ends before implicit start) :
    Entered env moduleScope token decl before implicit start := by
  rcases Effects.ends (prologue_effects False.elim False.elim False.elim) owned ends with
    ⟨-, places, -⟩
  rcases bind_ok ends with ⟨_, annotated, annotation, rest⟩
  rcases bind_ok rest with ⟨_, entered, entry, rest⟩
  rcases bind_ok rest with ⟨reported, loaded, loading, rest⟩
  rcases bind_ok rest with ⟨_, popped, popping, rest⟩
  rcases bind_ok rest with ⟨_, prepared, preparing, finish⟩
  cases finish
  have quiet : Still env .lax [] (annotate env decl.line) :=
    .of_handles fun _ => annotate_handles env _
  rcases quiet.ends owned annotation with ⟨ownedAnnotated, silent⟩
  rcases ownedAnnotated.written entry with ⟨ownedEntered, same, -⟩
  have unbound : ∀ id, ¬ entered.Binds id := fun id => by
    simpa [Generator.Binds, same, silent] using clear id
  rcases Effects.ends (loadImplicit_effects False.elim False.elim False.elim) ownedEntered
    loading with ⟨ownedLoaded, tokenPlaces, -⟩
  rcases loadImplicit_ends apart.declared unbound ownedEntered loading with
    ⟨tokenPart, tokenLines, part⟩
  have outside := part.apart apart.declared
  have freeParameters : ∀ id ∈ decl.parameters, ¬ loaded.Binds id := fun id member =>
    tokenPlaces.fresh (unbound id) fun listed => apart.disjoint id member (outside.1 id listed)
  rcases (@popVariables_gains _ .lax _ _ _ False.elim False.elim).ends ownedLoaded popping with
    ⟨ownedPopped, parameterPlaces⟩
  rw [popVariables_eq] at popping
  have parameterLines := inTurn_lines (fun _ register => [naming register, popLine register])
    (fun _ => popVariable_gains False.elim False.elim) (fun _ _ _ => popVariable_lines)
    (by simpa using apart.parameters) freeParameters ownedLoaded popping
  have freeGlobals : ∀ declaration ∈ globals env moduleScope, ¬ popped.Binds declaration.id := by
    intro declaration member
    have among : declaration.id ∈ (globals env moduleScope).map Variable.id :=
      List.mem_map_of_mem member
    refine parameterPlaces.fresh (tokenPlaces.fresh (unbound _) fun listed =>
      outside.2 _ listed among) fun listed => ?_
    exact apart.disjoint _ listed ((globals_sublist env moduleScope).subset among)
  rcases (@prepareGlobals_gains .lax _ _ _ _ False.elim False.elim).ends ownedPopped preparing with
    ⟨-, globalPlaces⟩
  rcases prepareGlobals_ends ((globals_sublist env moduleScope).nodup apart.declared) freeGlobals
    ownedPopped preparing with ⟨globalLines, initialized⟩
  have later := parameterPlaces.trans globalPlaces
  have samePart : ∀ id ∈ implicit, start.place id = loaded.place id := fun id member =>
    later.place_eq ((tokenPlaces.binds id).mpr (.inr member))
  have sameParameters : popLines start.place decl.parameters =
      popLines popped.place decl.parameters :=
    List.flatMap_congr fun id member => by
      rw [globalPlaces.place_eq ((parameterPlaces.binds id).mpr (.inr member))]
  refine ⟨⟨tokenPart, part.congr samePart, ?_⟩, places, initialized⟩
  rw [globalLines, parameterLines, tokenLines, (line_ends entry).1, annotate_ends annotation,
    sameParameters, popLines]

/-! ## After the body -/

theorem release_ends {line : Nat} {released : Bool}
    (ends : (release id line).Ends before released after) :
    after.lines = before.lines ∧ after.bindings = without [id] before.bindings := by
  rcases bind_ok ends with ⟨found, seen, looked, rest⟩
  cases looked
  cases bound : before.bindings.lookup id with
  | none =>
    simp only [bound] at rest
    cases rest
    exact ⟨rfl, (without_of_lookup_none bound).symm⟩
  | some register =>
    simp only [bound] at rest
    rcases bind_ok rest with ⟨_, unbound, unbinding, rest⟩
    rcases bind_ok rest with ⟨_, freed, free, finish⟩
    cases unbinding
    cases finish
    rcases free_ends free with ⟨lines, bindings⟩
    refine ⟨lines, bindings.trans (List.filter_congr ?_)⟩
    rintro ⟨other, _⟩ -
    by_cases same : other = id <;> simp [same]

theorem releaseAll_ends {line : Nat} (ends : (releaseAll line ids).Ends before () after) :
    after.lines = before.lines := by
  induction ids generalizing before with
  | nil =>
    cases ends
    rfl
  | cons first rest ih =>
    rcases bind_ok ends with ⟨_, between, one, others⟩
    rcases discard_ends one with ⟨released, one⟩
    rw [ih others, (release_ends one).1]

theorem storeGlobal_ends {line : Nat}
    (ends : (storeGlobal env line declaration).Ends before () after) :
    after.lines = before.lines ++ storeLines declaration (before.place declaration.id) ∧
      after.bindings = before.bindings := by
  rcases bind_ok ends with ⟨register, seen, looked, rest⟩
  rcases operand_ends looked with ⟨found, rfl⟩
  cases rest
  refine ⟨?_, rfl⟩
  rw [Generator.place_of_lookup found]
  simp [Generator.lines, storeLines, valueLines, hostLines]

/-- The globals that are stored after the body: those that it assigns and that have a register. -/
def storedGlobals (body : Block) (finish : Generator) (declarations : List Variable) :
    List Variable :=
  declarations.filter fun declaration =>
    (finish.bindings.lookup declaration.id).isSome && body.assigns declaration.id

theorem leaveGlobal_ends {line : Nat}
    (ends : (leaveGlobal env line body declaration).Ends before () after) :
    after.lines = before.lines ++ (storedGlobals body before [declaration]).flatMap
        (fun stored => storeLines stored (before.place stored.id)) ∧
      ∀ id, id ≠ declaration.id → after.bindings.lookup id = before.bindings.lookup id := by
  rcases bind_ok ends with ⟨bound, seen, looked, rest⟩
  cases looked
  cases found : before.bindings.lookup declaration.id with
  | none =>
    simp only [found, Option.isSome_none, Bool.false_eq_true, if_false] at rest
    cases rest
    exact ⟨by simp [storedGlobals, found], fun _ _ => rfl⟩
  | some register =>
    simp only [found, Option.isSome_some, if_true] at rest
    rcases bind_ok rest with ⟨_, stored, storing, releasing⟩
    rcases discard_ends releasing with ⟨released, releasing⟩
    rcases release_ends releasing with ⟨sameLines, bindings⟩
    have others : stored.bindings = before.bindings → ∀ id, id ≠ declaration.id →
        after.bindings.lookup id = before.bindings.lookup id := by
      intro same id different
      rw [bindings, lookup_without, same]
      simp [different]
    by_cases assigned : body.assigns declaration.id = true
    · simp only [onlyIf, assigned, if_true] at storing
      rcases storeGlobal_ends storing with ⟨lines, same⟩
      exact ⟨by simpa [storedGlobals, found, assigned, sameLines] using lines, others same⟩
    · simp only [onlyIf, assigned, Bool.false_eq_true, if_false] at storing
      cases storing
      exact ⟨by simp [storedGlobals, assigned, sameLines], others rfl⟩

theorem storeGlobals_ends {line : Nat} {declarations : List Variable}
    (distinct : (declarations.map Variable.id).Nodup)
    (ends : (storeGlobals env line body declarations).Ends before () after) :
    after.lines = before.lines ++ (storedGlobals body before declarations).flatMap
      fun stored => storeLines stored (before.place stored.id) := by
  induction declarations generalizing before with
  | nil =>
    cases ends
    simp [storedGlobals]
  | cons first rest ih =>
    simp only [List.map_cons, List.nodup_cons] at distinct
    rcases bind_ok ends with ⟨_, between, one, others⟩
    rcases leaveGlobal_ends one with ⟨lines, same⟩
    have kept : ∀ declaration ∈ rest,
        between.bindings.lookup declaration.id = before.bindings.lookup declaration.id :=
      fun declaration member => same _ fun equal =>
        distinct.1 (equal ▸ List.mem_map_of_mem member)
    have fewer : storedGlobals body between rest = storedGlobals body before rest :=
      List.filter_congr fun declaration member => by rw [kept declaration member]
    have places : ∀ stored ∈ storedGlobals body before rest,
        storeLines stored (between.place stored.id) =
          storeLines stored (before.place stored.id) := fun stored member => by
      rw [Generator.place, kept stored (List.mem_filter.mp member).1]
      rfl
    have split : storedGlobals body before (first :: rest) =
        storedGlobals body before [first] ++ storedGlobals body before rest := by
      simp only [storedGlobals, ← List.filter_append, List.singleton_append]
    rw [ih distinct.2 others, lines, fewer, List.flatMap_congr places, split,
      List.flatMap_append, List.append_assoc]

/-- After the body the assigned globals are stored, and the method ends. -/
theorem epilogue_ends {implicit : List VarId}
    (distinct : ((globals env moduleScope).map Variable.id).Nodup)
    (ends : (epilogue env moduleScope decl implicit).Ends before () after) :
    after.lines = before.lines ++ (storedGlobals decl.body before
        (globals env moduleScope)).flatMap
      (fun stored => storeLines stored (before.place stored.id)) ++ [.instruction .ret []] := by
  rcases bind_ok ends with ⟨_, stored, storing, rest⟩
  rcases bind_ok rest with ⟨_, released, releasing, returning⟩
  rw [(line_ends returning).1, releaseAll_ends releasing, storeGlobals_ends distinct storing]

end Emission

end Covenant
