import Covenant.Proofs.DefiniteAssignment
import Covenant.Proofs.ExpressionCode

/-!
# Assignments to a part of a variable

The register of a variable is cleared before the first part is put there.  It
is cleared where the variable gets its register, that is at the assignment that
comes first in the text.  On a run another assignment may come first, and the
one that clears may come again and drop the parts that have been set.  In a
loop the register may also have been a temporary before, which other code of
the loop clears in the next round.

Whether all this goes well can be told from the body: `Body.clearsRightly`
emits it, with the variables that can be named at each place, and looks at all
ways through the code at once.
-/

namespace Covenant

open Emission

/-! ## Code that puts a part -/

/-- The variable of which a simple statement assigns a part. -/
def Deed.partOf? : Deed → Option VarId
  | .assign _ target (.field _) _ | .assign _ target (.index _) _ => some target
  | _ => none

def Register.clearing (register : Register) : Line :=
  .instruction .clear [.register register]

/-- The line that puts a value into a register, under a key. -/
def Register.putting (register value : Register) (key : Operand) : Line :=
  .instruction .put [.register value, .register register, key]

/--
The last line puts a part into the register of the variable.  A register that
is new is cleared before, and nothing else is written to it from then on; to
one that is not new nothing else is written at all.
-/
def Span.PutsPart (span : Span) (id : VarId) : Prop :=
  ∃ register ∈ span.after.bindings.lookup id, ∃ front found value key,
    (∀ line ∈ found, register.index ∉ line.destinations) ∧
      if span.before.bindings.lookup id = none then
        span.lines = front ++ register.clearing :: found ++ [register.putting value key]
      else span.lines = found ++ [register.putting value key]

namespace Emission

variable {env : Env} {before after : Generator} {held : List Register} {id : VarId} {mark : Mark}

/-- A variable has a new register if it had none. -/
theorem ensureBound_fresh {fresh : Bool}
    (ends : (ensureBound env id mark).Ends before fresh after) :
    fresh = true ↔ before.bindings.lookup id = none := by
  rcases bind_ok ends with ⟨bound, _, asking, rest⟩
  have known : bound = (before.bindings.lookup id).isSome := by
    cases asking
    rfl
  rw [← Option.isNone_iff_eq_none, ← Option.not_isSome, ← known]
  cases bound with
  | true =>
    cases rest
    simp
  | false =>
    rcases bind_ok rest with ⟨_, _, -, rest⟩
    rcases bind_ok rest with ⟨_, _, -, rest⟩
    rcases bind_ok rest with ⟨_, _, -, rest⟩
    cases rest
    simp

/-- What keeps a register does not write to it. -/
theorem Appends.spared {index : Nat} (appends : Appends [index] before after) :
    ∃ added, after.lines = before.lines ++ added ∧ ∀ line ∈ added, index ∉ line.destinations := by
  rcases appends with ⟨added, lines, spare⟩
  refine ⟨added, lines, fun line member writes => ?_⟩
  exact ((spare line member).writes index writes).1 List.mem_cons_self

/-- A part is put behind what finds its key; a register that is new is cleared first. -/
theorem store_ends {line : Nat} {fresh : Bool} {value target : Register} {selector : Selector}
    (part : selector ≠ .whole) (owned : Owned before held)
    (covers : Covers before held [target.index])
    (ends : (store env line fresh value target selector).Ends before () after) :
    ∃ found key, Owned after held ∧ after.bindings = before.bindings ∧
      (∀ line ∈ found, target.index ∉ line.destinations) ∧
      after.lines = before.lines ++ (if fresh then [target.clearing] else []) ++ found ++
        [target.putting value key] := by
  have clears {between : Generator} (clearing : (clearFresh fresh target).Ends before () between) :
      Owned between held ∧ between.bindings = before.bindings ∧
        between.lines = before.lines ++ (if fresh then [target.clearing] else []) := by
    cases fresh with
    | true =>
      exact owned.written clearing
    | false =>
      cases clearing
      exact ⟨owned, rfl, (List.append_nil _).symm⟩
  cases selector with
  | whole => exact absurd rfl part
  | field name =>
    rcases bind_ok ends with ⟨_, cleared, clearing, rest⟩
    rcases bind_ok rest with ⟨_, loaded, loading, putting⟩
    rcases clears clearing with ⟨ownedFirst, same, lines⟩
    rcases ownedFirst.written loading with ⟨ownedThen, sameThen, more⟩
    rcases ownedThen.written putting with ⟨ownedLast, sameLast, last⟩
    have positive := (owned.range _ (covers _ List.mem_cons_self)).1
    refine ⟨[.instruction .load [.scratch, .quoted name]], .scratch, ownedLast, ?_, ?_, ?_⟩
    · rw [sameLast, sameThen, same]
    · simpa [Line.destinations, Operand.indices] using Nat.ne_of_gt positive
    · rw [last, more, lines]
      rfl
  | index position =>
    rcases bind_ok ends with ⟨_, cleared, clearing, rest⟩
    rcases bind_ok rest with ⟨key, computed, computing, rest⟩
    rcases bind_ok rest with ⟨_, put, putting, freeing⟩
    rcases clears clearing with ⟨ownedFirst, same, lines⟩
    rcases expression_computes env position ownedFirst (covers.congr same) computing with
      ⟨ownedThen, added⟩
    rcases added.appends.spared with ⟨found, more, spare⟩
    rcases Owned.written ownedThen putting with ⟨ownedPut, sameThen, last⟩
    rcases Owned.returned ownedPut freeing with ⟨ownedLast, sameLast, none⟩
    refine ⟨found, .register key, ownedLast, ?_, spare, ?_⟩
    · rw [sameLast, sameThen, added.bindings, same]
    · rw [none, last, more, lines]
      rfl

/-- The register of a variable is among those that are in use. -/
theorem covers_bound {register : Register} (bound : before.bindings.lookup id = some register) :
    Covers before held [register.index] := by
  intro index member
  rw [List.mem_singleton.mp member]
  exact Generator.mem_indices_bound bound held

/-- An assignment to a part clears the register of the variable if the register is new. -/
theorem assign_puts {selector : Selector} {value : Expr} (part : selector ≠ .whole)
    (owned : Owned before held)
    (ends : (assign env mark id selector value).Ends before () after) :
    Span.PutsPart ⟨before, after⟩ id := by
  rcases bind_ok ends with ⟨source, computed, computing, rest⟩
  rcases bind_ok rest with ⟨fresh, bound, binding, rest⟩
  rcases bind_ok rest with ⟨register, looked, looking, rest⟩
  rcases bind_ok rest with ⟨_, stored, storing, freeing⟩
  have computes (kept : List Nat) (covers : Covers before held kept) :=
    expression_computes env value owned covers computing
  rcases computes [] nofun with ⟨ownedFirst, added⟩
  have new := ensureBound_fresh binding
  rw [added.bindings] at new
  have binds (kept : List Nat) := (@ensureBound_sound env .lax [] _ _ (fun _ _ => True) id mark kept
    trivial (.lax ownedFirst) False.elim False.elim).run_ok binding
  rcases binds [] with ⟨_, ⟨ownedThen, -⟩, rfl, rebinds, appended⟩
  rcases operand_ends looking with ⟨target, rfl⟩
  rcases store_ends part ownedThen (covers_bound target) storing with
    ⟨found, key, ownedStored, same, spare, lines⟩
  rcases Owned.returned ownedStored freeing with ⟨-, sameLast, none⟩
  have final : after.bindings.lookup id = some register := by rw [sameLast, same, target]
  cases known : before.bindings.lookup id with
  | none =>
    rcases added.appends.trans appended with ⟨front, early, -⟩
    refine ⟨register, final, front, found, source, key, spare, ?_⟩
    rw [if_pos known, Span.lines, none, lines, early, new.mpr known]
    simp
  | some taken =>
    cases target.symm.trans (rebinds.keeps (added.bindings ▸ known))
    rcases computes _ (covers_bound known) with ⟨-, spared⟩
    rcases binds [register.index] with ⟨_, -, -, -, kept⟩
    rcases (spared.appends.trans kept).spared with ⟨front, early, others⟩
    have old : fresh = false := by
      rw [← Bool.not_eq_true, new, known]
      exact Option.some_ne_none _
    refine ⟨register, final, [], front ++ found, source, key,
      List.forall_mem_append.mpr ⟨others, spare⟩, ?_⟩
    rw [if_neg (by simp [known]), Span.lines, none, lines, early, old]
    simp

/-- What is known of the code of simple statements and values. -/
structure Orderly (step : Step) : Prop where
  /-- The registers of variables that are not assigned are left alone. -/
  spares : ∀ leaf ∈ step.leaf?, ∀ id register, leaf.target ≠ some id →
    leaf.span.before.bindings.lookup id = some register → leaf.span.Spares register
  puts : ∀ span task, step = .deed span task → ∀ id ∈ task.partOf?, span.PutsPart id

theorem orderly_step {step : Step} (owned : Owned before held)
    (happens : step.Happens env before after)
    (runs : ∀ task, step.deed? = some task → task.turns = false) : Orderly step := by
  constructor
  · intro leaf isLeaf id register different bound
    rw [happens.leaf_span isLeaf] at bound
    exact Step.spares owned happens isLeaf (Step.turnless runs isLeaf) different bound
  · rintro span task rfl id part
    rcases happens with ⟨rfl, ends⟩
    cases task with
    | assign mark target selector value =>
      cases selector with
      | whole => cases part
      | _ =>
        cases part
        refine assign_puts ?_ owned ends
        nofun
    | _ => cases part

theorem Walk.orderly {steps : List Step} {later : List Register}
    (walk : Walk env steps before held after later)
    (runs : ∀ step ∈ steps, ∀ task, step.deed? = some task → task.turns = false) :
    ∀ step ∈ steps, Orderly step := by
  induction steps generalizing before held with
  | nil => nofun
  | cons step rest ih =>
    rcases walk.cons with ⟨between, middle, happens, -, -, further⟩
    rw [List.forall_mem_cons] at runs ⊢
    exact ⟨orderly_step walk.owned happens runs.1, ih further runs.2⟩

end Emission

/-! ## Registers on a run -/

/-- A register of the machine. -/
abbrev Slot := Fin registerCount

theorem registerCount_pos : 0 < registerCount :=
  Nat.succ_pos 31

def Register.slot (register : Register) : Slot :=
  ⟨register.index % registerCount, Nat.mod_lt _ registerCount_pos⟩

/-- The register that a line clears. -/
def Line.cleared? : Line → Option Slot
  | .instruction .clear [.register register] => some register.slot
  | _ => none

/-- What happens on a run of emitted code. -/
abbrev Incident := Happening (Occasion (Option VarId)) (List VarId × Figure)

namespace Incident

def lines : Incident → List Line
  | .deed occasion _ => occasion.span.lines
  | .value (_, figure) | .compared (_, figure) => figure.span.lines
  | _ => []

/-- The registers that are cleared. -/
def cleared (incident : Incident) : List Slot :=
  incident.lines.filterMap Line.cleared?

/-- The variables that can be named there. -/
def visible : Incident → List VarId
  | .deed occasion _ => occasion.visible
  | .value (visible, _) | .compared (visible, _) => visible
  | _ => []

/-- The variable of which a part is assigned. -/
def partOf? : Incident → Option VarId
  | .deed _ task => task.partOf?
  | _ => none

/-- The register that the variable has behind a simple statement. -/
def place? (id : VarId) : Incident → Option Slot
  | .deed occasion _ => (occasion.span.after.bindings.lookup id).map Register.slot
  | _ => none

/-- The register with the value of the variable, after what happens; a declaration takes it away. -/
def moves (id : VarId) (kept : Option Slot) : Incident → Option Slot
  | .deed occasion task =>
    if task.target? = some id then (occasion.span.after.bindings.lookup id).map Register.slot
    else if occasion.note = some id then none
    else kept
  | _ => kept

end Incident

/-- The register with the value of the variable, if it has been assigned or had one at the start. -/
def keptIn (start : Generator) (id : VarId) (incidents : List Incident) : Option Slot :=
  incidents.foldl (Incident.moves id) ((start.bindings.lookup id).map Register.slot)

/--
As long as the variable has no value, an assignment to a part of it clears its
register.  Once it has one, the register is not cleared by anything, from where
the variable can be named.
-/
def ClearsRightly (start : Generator) (id : VarId) (incidents : List Incident) : Prop :=
  ∀ earlier incident later, incidents = earlier ++ incident :: later →
    match keptIn start id earlier with
    | none => incident.partOf? = some id → ∃ slot ∈ incident.place? id, slot ∈ incident.cleared
    | some slot => id ∈ incident.visible → slot ∉ incident.cleared

/-- Look for a part in a register that is not clear, or for a value that is cleared. -/
def clearing (start : Generator) (id : VarId) : Watcher (Option Slot) Incident where
  entry := (start.bindings.lookup id).map Register.slot
  move := Incident.moves id
  wrong kept incident :=
    match kept with
    | none => incident.partOf? == some id && !(incident.place? id).any (· ∈ incident.cleared)
    | some slot => incident.visible.contains id && incident.cleared.contains slot

theorem right_clearing_iff {start : Generator} {id : VarId} {incidents : List Incident} :
    (clearing start id).Right incidents ↔ ClearsRightly start id incidents := by
  refine forall_congr' fun earlier => forall₃_congr fun incident later _ => ?_
  rw [show (clearing start id).known earlier = keptIn start id earlier from rfl]
  cases keptIn start id earlier with
  | none => simp [clearing, Option.any_eq_true]
  | some slot => simp [clearing]

/-! ## Bodies -/

namespace Body

variable (body : Body) (env : Env) (module : Module) (start : Generator)

/-- The variables that can be named where the body starts. -/
def around : List VarId :=
  (env.scopes.scope body.scope).variableIds ++ (env.scopes.scope module.scope).variableIds

/-- The flow of the body with its code and its declarations, if it can be emitted. -/
def trace? : Option (TracedFlow (Option VarId)) :=
  ((body.block.declaring.trace id env (.exit body.name) [] noSubject).run
    (start, body.around env module)).map Prod.fst

/-- On all ways through the body, the register of the variable is cleared when it should be. -/
def clearsRightly (id : VarId) : Bool :=
  (body.trace? env module start).any fun traced => traced.passes (clearing start id)

end Body

namespace Emission

variable {env : Env} {module : Module} {body : Body} {start finish : Generator}

/-- A body that is emitted can be traced. -/
theorem exists_traced {emitted : EmittedFlow}
    (settled : body.Settled env module start finish emitted)
    (ends : (inMethod env (.exit body.name) body.block).Ends start () finish) :
    ∃ traced, body.trace? env module start = some traced ∧
      traced.written = body.block.declaring ∧
      body.Settled env module start finish traced.emitted := by
  rw [inMethod_eq env (.exit body.name) body.block noSubject, ← BlockOf.plan_declaring,
    DeclaringFlow.plan, Flow.code_map] at ends
  rcases exists_trace id body.block.declaring (body.around env module) ends with
    ⟨traced, seen, gives, written, path, -⟩
  refine ⟨traced, ?_, written, { settled with plan := ?_, path := path }⟩
  · rw [Body.trace?, show StateT.run _ _ = _ from gives]
    rfl
  · rw [traced.plan_emitted, written]
    exact body.block.plan_declaring

/-- On every run of a body, the register of the variable is cleared when it should be. -/
def ClearsOnRuns (body : Body) (start finish : Generator) (traced : TracedFlow (Option VarId))
    (id : VarId) : Prop :=
  ∀ outcomes sights ending rest,
    (Span.region ⟨start, finish⟩).Runs (.exit body.name) start.lines.length outcomes sights ending
      rest →
    ClearsRightly start id (traced.perform outcomes).happenings

theorem clearsOnRuns_iff {traced : TracedFlow (Option VarId)}
    (found : body.trace? env module start = some traced)
    (settled : body.Settled env module start finish traced.emitted)
    (free : Node.AssemblyFree body.block.nodes)
    (ends : (inMethod env (.exit body.name) body.block).Ends start () finish) (id : VarId) :
    ClearsOnRuns body start finish traced id ↔ body.clearsRightly env module start id = true := by
  rw [Body.clearsRightly, found, Option.any_some, Flow.passes_iff]
  exact (settled.onRuns_iff free ends).trans (forall_congr' fun _ => right_clearing_iff.symm)

/--
The code of a body clears the register of a variable where it puts the first
part that is written into it.  On the runs of the body this comes before the
first part that is put there, and no value is cleared, if and only if this can
be told from the body.
-/
theorem parts_cleared_iff {interface? : String → Option Interface} {source : String}
    {program : Program} {env : Env} {module : Module} {body : Body} {start finish : Generator}
    (accepted : Program.read interface? source = .ok program)
    (emits : program.Emits env module body start finish)
    (free : Node.AssemblyFree body.block.nodes) :
    ∃ traced, body.trace? env module start = some traced ∧
      traced.written = body.block.declaring ∧
      body.Realized env start finish traced.emitted ∧
      (∀ step ∈ traced.emitted.steps (.exit body.name) [] noSubject, Orderly step) ∧
      (∀ outcomes, (Span.region ⟨start, finish⟩).Runs (.exit body.name) start.lines.length
        outcomes (traced.emitted.perform outcomes).sights (traced.emitted.perform outcomes).last
        (traced.emitted.perform outcomes).rest) ∧
      ∀ id, ClearsOnRuns body start finish traced id ↔
        body.clearsRightly env module start id = true := by
  rcases emits.exists_settled accepted with ⟨_, settled⟩
  rcases exists_traced settled emits.ends with ⟨traced, found, written, settled⟩
  refine ⟨traced, found, written, settled.toRealized,
    settled.walk.orderly (settled.turnless free), fun outcomes => ?_, fun id => ?_⟩
  · exact settled.runs free emits.ends outcomes
  · exact clearsOnRuns_iff found settled free emits.ends id

/-! ## Sources with one method -/

/-- The body of the first method of a module, and where it starts. -/
def firstBody? (env : Env) (module : Module) : Option (Body × Generator) := do
  let contract ← module.content.contract?
  let decl ← contract.methods.head?
  let (_, start) ← ((prologue env module.scope module.owner? decl).run {}).toOption
  return (decl.asBody, start)

/-- The source is read, and a module is emitted whose first body is like this. -/
def hasFirstBody (test : Env → Module → Body → Generator → Bool) : List String → Bool :=
  emitsModule fun env module => (firstBody? env module).any fun (body, start) =>
    Node.AssemblyFree body.block.nodes && test env module body start

theorem exists_firstBody {test : Env → Module → Body → Generator → Bool} {pieces : List String}
    (holds : hasFirstBody test pieces = true) :
    ∃ program env module body start finish,
      Program.read (fun _ => none) (String.join pieces) = .ok program ∧
      program.Emits env module body start finish ∧ Node.AssemblyFree body.block.nodes ∧
      test env module body start = true := by
  rcases exists_module holds with ⟨program, module, after, accepted, listed, ends, found⟩
  rcases (Option.any_eq_true _ _).mp found with ⟨⟨body, start⟩, first, fits⟩
  rw [Bool.and_eq_true, decide_eq_true_eq] at fits
  rcases Option.bind_eq_some_iff.mp first with ⟨contract, isContract, first⟩
  rcases Option.bind_eq_some_iff.mp first with ⟨decl, isFirst, first⟩
  rcases Option.bind_eq_some_iff.mp first with ⟨⟨implicit, _⟩, entered, same⟩
  cases same
  rcases List.head?_eq_some_iff.mp isFirst with ⟨later, order⟩
  rw [content_of_contract isContract, order] at ends
  rcases bind_ok ends with ⟨_, _, whole, _⟩
  rcases bind_ok whole with ⟨other, begun, enters, rest⟩
  rcases bind_ok rest with ⟨_, _, inside, _⟩
  rcases bind_ok inside with ⟨_, finish, emitted, _⟩
  rw [show Emission.run _ _ = _ from enters] at entered
  cases entered
  have starts : Starts (program.plainEnv module) module decl.asBody start :=
    .method isContract (show contract.methods = [] ++ decl :: later from order) rfl enters
  exact ⟨program, program.plainEnv module, module, decl.asBody, start, finish, accepted,
    ⟨listed, rfl, starts, emitted⟩, fits⟩

/-- Structs that are filled one field after the other, outside and inside of a loop. -/
def filledInOrder : List String :=
  ["struct Point \x7b x:number; y:number; \x7d ",
    "contract test \x7b public f(n:number):number \x7b local p:Point; p.x = n; p.y = 2; ",
    "while (p.x > 0) \x7b local q:Point; q.y = p.y; q.x = p.x - 1; p.x = q.x; \x7d ",
    "return p.x + p.y; \x7d \x7d"]

theorem parts_cleared_iff_filledInOrder :
    ∃ program env module body start finish traced,
      Program.read (fun _ => none) (String.join filledInOrder) = .ok program ∧
      program.Emits env module body start finish ∧ Node.AssemblyFree body.block.nodes ∧
      body.trace? env module start = some traced ∧ (localIds env).length = 2 ∧
      ∀ id ∈ localIds env, ClearsOnRuns body start finish traced id := by
  have holds : hasFirstBody (fun env module body start => (localIds env).length == 2 &&
      (localIds env).all (body.clearsRightly env module start)) filledInOrder = true := by
    decide +kernel
  rcases exists_firstBody holds with
    ⟨program, env, module, body, start, finish, accepted, emits, free, passes⟩
  rw [Bool.and_eq_true, beq_iff_eq, List.all_eq_true] at passes
  rcases parts_cleared_iff accepted emits free with ⟨traced, found, -, -, -, -, known⟩
  exact ⟨program, env, module, body, start, finish, traced, accepted, emits, free, found,
    passes.1, fun id member => (known id).mpr (passes.2 id member)⟩

/-- The first field is set in a branch, and the second one behind it. -/
def filledInOneBranch : List String :=
  ["struct Point \x7b x:number; y:number; \x7d ",
    "contract test \x7b public f(n:number):number \x7b local p:Point; ",
    "if (n > 0) \x7b p.x = 1; \x7d p.y = 2; return p.y; \x7d \x7d"]

/-- A body that is emitted may put a part into a register that has not been cleared. -/
theorem parts_uncleared_filledInOneBranch :
    ∃ program env module body start finish traced,
      Program.read (fun _ => none) (String.join filledInOneBranch) = .ok program ∧
      program.Emits env module body start finish ∧ Node.AssemblyFree body.block.nodes ∧
      body.trace? env module start = some traced ∧
      ∃ id ∈ localIds env, ¬ ClearsOnRuns body start finish traced id := by
  have holds : hasFirstBody (fun env module body start =>
      (localIds env).any fun id => !body.clearsRightly env module start id)
      filledInOneBranch = true := by
    decide +kernel
  rcases exists_firstBody holds with
    ⟨program, env, module, body, start, finish, accepted, emits, free, passes⟩
  rcases List.any_eq_true.mp passes with ⟨id, member, misses⟩
  rcases emits.exists_settled accepted with ⟨_, settled⟩
  rcases exists_traced settled emits.ends with ⟨traced, found, -, settled⟩
  refine ⟨program, env, module, body, start, finish, traced, accepted, emits, free, found, id,
    member, ?_⟩
  rw [clearsOnRuns_iff found settled free emits.ends]
  simpa using misses

end Emission

end Covenant
