import Covenant.Proofs.Aliases

/-!
# Code that works with temporaries

The code of a value takes registers, writes lines and gives registers back; it
leaves the bindings of variables alone and writes to no register that was held
before.  `Adds` says what such code may do between two moments, and `Yields`
says that a program does so and ends with certain registers held in addition
to those held before.

Such code fails for want of registers or because the source breaks a rule.  If
what is missing is the value of a variable, then the code reads that variable
and the variable has no register.  A `Watch` says what else is asked of a
failure, and whether names are asked about.  `Sound` is the logic that the
others build on: at every moment the registers in use are `Owned`, and `Named`
if that is asked for, and a run that fails does so in a way that is excused.
-/

namespace Covenant.Emission

variable {Outcome First Second : Type} {code : Emission First}

/-- Only straight lines are added, and they write to none of the registers kept. -/
def Appends (kept : List Nat) (before after : Generator) : Prop :=
  ∃ added, after.lines = before.lines ++ added ∧ ∀ line ∈ added, line.Spares kept

namespace Appends

variable {kept : List Nat} {before between after : Generator}

/-- No line at all. -/
theorem of_lines (same : after.lines = before.lines) : Appends kept before after :=
  ⟨[], by simp [same], by simp⟩

theorem trans (first : Appends kept before between) (second : Appends kept between after) :
    Appends kept before after := by
  rcases first with ⟨added, lines, spare⟩
  rcases second with ⟨more, appended, others⟩
  refine ⟨added ++ more, ?_, ?_⟩
  · rw [appended, lines, List.append_assoc]
  · intro line member
    rcases List.mem_append.mp member with early | late
    · exact spare line early
    · exact others line late

/-- One more line. -/
theorem push {line : Line} (spares : line.Spares kept) :
    Appends kept before { before with output := before.output.push line } := by
  refine ⟨[line], by simp [Generator.lines], ?_⟩
  intro other member
  rw [List.mem_singleton.mp member]
  exact spares

end Appends

/-- Lines are added and the registers of the variables stay the same. -/
structure Adds (kept : List Nat) (before after : Generator) : Prop where
  bindings : after.bindings = before.bindings
  appends : Appends kept before after

/-- The registers to be kept are held. -/
def Covers (generator : Generator) (held : List Register) (kept : List Nat) : Prop :=
  ∀ index ∈ kept, index ∈ generator.indices held

/-- What is held covers itself. -/
theorem covers_indices (generator : Generator) (held : List Register) :
    Covers generator held (generator.indices held) :=
  fun _ member => member

variable {generator : Generator} {held temporaries : List Register} {kept : List Nat}
  {register : Register}

theorem Covers.cons {later : Generator} (covers : Covers generator held kept)
    (bindings : later.bindings = generator.bindings) : Covers later (register :: held) kept := by
  intro index member
  have listed := covers index member
  simp only [Generator.indices, bindings, List.map_cons, List.cons_append] at listed ⊢
  exact List.mem_cons_of_mem _ listed

theorem Covers.congr {later : Generator} (covers : Covers generator held kept)
    (bindings : later.bindings = generator.bindings) : Covers later held kept := by
  intro index member
  have listed := covers index member
  simpa only [Generator.indices, bindings] using listed

/-- A register taken after those to be kept is none of them. -/
theorem Owned.apart (temporaries : List Register) (owned : Owned generator (temporaries ++ held))
    (covers : Covers generator held kept) (member : register ∈ temporaries) :
    register.index ∉ kept ∧ register.index < registerCount := by
  have listed : register.index ∈ generator.indices (temporaries ++ held) :=
    Generator.mem_indices_held (List.mem_append_left _ member)
  refine ⟨?_, (owned.range _ listed).2⟩
  intro shared
  have distinct := owned.distinct
  simp only [Generator.indices, List.map_append, List.append_assoc] at distinct
  have disjoint := (List.nodup_append.mp distinct).2.2
  exact disjoint _ (List.mem_map_of_mem member) _ (covers _ shared) rfl

/-- Register zero and the temporaries are not kept. -/
theorem Owned.spares {index : Nat} (owned : Owned generator (temporaries ++ held))
    (covers : Covers generator held kept)
    (own : index = 0 ∨ ∃ register ∈ temporaries, register.index = index) :
    index ∉ kept ∧ index < registerCount := by
  rcases own with rfl | ⟨register, temporary, rfl⟩
  · refine ⟨fun listed => owned.zero_not_held ?_, by decide⟩
    have covered := covers 0 listed
    simp only [Generator.indices, List.map_append, List.append_assoc] at covered ⊢
    exact List.mem_append_right _ covered
  · exact owned.apart temporaries covers temporary

/-! ## Straight code -/

/--
Whatever is held, the program keeps it, adds straight lines that spare it, and
ends with the registers `gained` of its outcome held in addition.
-/
def Yields (gained : Outcome → List Register) (code : Emission Outcome) : Prop :=
  ∀ ⦃generator held kept outcome later⦄, Owned generator held → Covers generator held kept →
    code.Ends generator outcome later →
      Owned later (gained outcome ++ held) ∧ Adds kept generator later

/-- The program leaves a value in a register of its own. -/
abbrev Computes (code : Emission Register) : Prop :=
  Yields (fun register => [register]) code

/-! ## Failures that a source can be blamed for -/

/-- What is asked about code and its failures. -/
structure Watch where
  /-- The compiler is not to be blamed. -/
  strict : Prop
  /-- The variables whose value may be missed. -/
  reads : VarId → Prop
  /-- The variables that no register is taken from. -/
  keeps : VarId → Prop
  /-- The lines that errors may name. -/
  lines : Nat → Prop
  /-- The names of registers are to be in order. -/
  named : Prop := False
  /-- There is no assembly. -/
  quiet : Prop := False

/-- Nothing is asked. -/
def Watch.lax : Watch where
  strict := False
  reads _ := False
  keeps _ := False
  lines _ := False

/-- An error may name the line. -/
def Watch.Shows (watch : Watch) (line : Nat) : Prop :=
  watch.strict → watch.lines line

/-- Registers have run out, the value of a variable is missed, or a rule is broken. -/
def Explained (missed : String → Prop) : Error → Prop
  | .internal _ defect => defect = .registersExhausted
  | .semantic _ (.unassignedVariable name) => missed name
  | _ => True

/--
The error names a line that it may name; a variable without a value is one that may be missed,
and it has no register.
-/
def Blames (env : Env) (watch : Watch) (bindings : List (VarId × Register)) (error : Error) :
    Prop :=
  watch.strict → error.line?.elim True watch.lines ∧ Explained (fun name => ∃ id,
    watch.reads id ∧ bindings.lookup id = none ∧ (env.scopes.declaration id).name = name) error

/-- On what terms code runs. -/
structure Terms where
  env : Env
  /-- The registers of the variables, which stay as they are. -/
  bindings : List (VarId × Register)
  watch : Watch
  /-- What lines may write besides temporaries. -/
  writes : Nat → Prop

namespace Terms

/-- What lines may refer to besides temporaries. -/
def known (terms : Terms) (register : Register) : Prop :=
  terms.watch.named → Known terms.bindings register

theorem bound (terms : Terms) {id : VarId} (found : terms.bindings.lookup id = some register) :
    terms.known register :=
  fun _ => .inr ⟨id, found⟩

end Terms

def watching (env : Env) (watch : Watch) (bindings : List (VarId × Register))
    (writes : Nat → Prop := fun _ => False) : Terms :=
  ⟨env, bindings, watch, writes⟩

/-- The error can come up on these terms. -/
def Terms.Excuses (terms : Terms) : Error → Prop :=
  Blames terms.env terms.watch terms.bindings

/-! ## Registers and their names at every moment -/

/-- The registers in use are owned and, if that is asked for, their names are in order. -/
structure Stands (env : Env) (watch : Watch) (generator : Generator) (held : List Register) :
    Prop where
  owned : Owned generator held
  named : watch.named → Named env watch.quiet generator

/-- What is given back is held, and what is written refers to variables that are bound. -/
def Allowed (watch : Watch) (generator : Generator) (held : List Register) (action : Action) :
    Prop :=
  action.Possible held ∧ (watch.named → action.Refers generator.bindings)

/-- The program keeps registers and names in order. -/
abbrev Sound (env : Env) (watch : Watch) (fails : Error → Generator → Prop)
    (post : Outcome → Generator → List Register → Prop) :
    Emission Outcome → Generator → List Register → Prop :=
  Obeys (Stands env watch) (Allowed watch) fails post

/-- The run gives back the registers that it takes, and `post` holds of the generator behind it. -/
abbrev Restores (env : Env) (watch : Watch) (fails : Error → Generator → Prop)
    (post : Generator → Prop) (code : Emission Outcome) (generator : Generator)
    (held : List Register) : Prop :=
  Sound env watch fails (fun _ later heldLater => heldLater = held ∧ post later) code generator held

/-- The line may be written, as far as names are concerned. -/
def Watch.Spells (watch : Watch) (bindings : List (VarId × Register)) (line : Line) : Prop :=
  watch.named → (watch.quiet → line.isCode = true) ∧ Refers bindings line

namespace Stands

variable {env : Env} {watch : Watch} {later : Generator}

theorem lax (owned : Owned generator held) : Stands env .lax generator held :=
  ⟨owned, False.elim⟩

theorem congr (stands : Stands env watch generator held)
    (registers : later.registers = generator.registers)
    (bindings : later.bindings = generator.bindings) (lines : later.lines = generator.lines) :
    Stands env watch later held :=
  ⟨stands.owned.congr registers bindings, fun asked => (stands.named asked).congr bindings lines⟩

theorem take {mark : Mark} {aliasName : Option String} (stands : Stands env watch generator held)
    (taking : generator.take mark aliasName = .ok (register, later)) :
    Stands env watch later (register :: held) := by
  rcases take_cases taking with ⟨-, bindings, lines⟩
  exact ⟨(stands.owned.take taking).1, fun asked => (stands.named asked).congr bindings lines⟩

theorem give {line : Nat} (stands : Stands env watch generator held) (member : register ∈ held)
    (performed : (Action.give register line).perform generator = .ok later) :
    Stands env watch later (held.erase register) := by
  rcases give_cases performed with ⟨bindings, lines⟩
  exact ⟨(stands.owned.give member performed).1,
    fun asked => (stands.named asked).congr bindings lines⟩

theorem write {line : Line} (stands : Stands env watch generator held)
    (spelled : watch.Spells generator.bindings line) :
    Stands env watch { generator with output := generator.output.push line } held :=
  ⟨stands.owned.congr rfl rfl,
    fun asked => (stands.named asked).write (spelled asked).1 (spelled asked).2⟩

end Stands

/-- Where a run stops, its error is excused. -/
theorem Obeys.stops {env : Env} {watch : Watch} {fails : Error → Generator → Prop}
    {post : Outcome → Generator → List Register → Prop} {code : Emission Outcome} {error : Error}
    {later : Generator} (sound : Sound env watch fails post code generator held)
    (stops : Stops code generator error later) : fails error later := by
  induction stops generalizing held with
  | fail => exact sound.2
  | look further ih => exact ih sound.2
  | full refused => exact take_error refused ▸ sound.2.1
  | take taking further ih => exact ih (sound.2.2 _ _ taking)
  | refused failed =>
    rcases sound.1.owned.performs sound.2.1.1 with ⟨changed, performed⟩
    simp [performed] at failed
  | act performed further ih => exact ih (sound.2.2 _ performed)

/-! ## Code and its temporaries -/

/-- However it runs, the program fails. -/
def Fails : Emission Outcome → Prop
  | .done _ => False
  | .fail _ => True
  | .look next => ∀ generator, Fails (next generator)
  | .take _ _ next => ∀ register, Fails (next register)
  | .act _ next => Fails (next ())

theorem Fails.before (fails : Fails code) (next : First → Emission Second) :
    Fails (code >>= next) := by
  show Fails (code.andThen next)
  induction code with
  | done outcome => cases fails
  | fail error => trivial
  | look further ih => exact fun generator => ih generator (fails generator)
  | take mark aliasName further ih => exact fun register => ih register (fails register)
  | act action further ih => exact ih () fails

theorem Fails.after {next : First → Emission Second} (fails : ∀ outcome, Fails (next outcome)) :
    Fails (code >>= next) := by
  show Fails (code.andThen next)
  induction code with
  | done outcome => exact fails outcome
  | fail error => trivial
  | look further ih => exact fun generator => ih generator
  | take mark aliasName further ih => exact fun register => ih register
  | act action further ih => exact ih ()

/-- The line writes and refers to temporaries and what else it may; it turns only if it may. -/
structure Treats (terms : Terms) (mayTurn : Prop) (temporaries : List Register)
    (line : Line) : Prop where
  straight : mayTurn ∨ line.isStraight = true
  isCode : line.isCode = true
  within : ∀ index ∈ line.destinations,
    (index = 0 ∨ ∃ register ∈ temporaries, register.index = index) ∨ terms.writes index
  refers : ∀ register ∈ line.registers, register ∈ temporaries ∨ terms.known register

/-- The action treats the temporaries as it should. -/
def Action.Treats (terms : Terms) (mayTurn : Prop) (temporaries : List Register) :
    Action → Prop
  | .write line => Emission.Treats terms mayTurn temporaries line
  | .give register _ => register ∈ temporaries
  | .note _ | .remember _ => True
  | .bind _ _ | .unbind _ => False

theorem Action.Treats.mono {terms : Terms} {mayTurn may : Prop} {action : Action}
    (treats : action.Treats terms mayTurn temporaries) (weaker : mayTurn → may) :
    action.Treats terms may temporaries := by
  cases action with
  | write line =>
    exact ⟨treats.straight.imp_left weaker, treats.isCode, treats.within, treats.refers⟩
  | _ => exact treats

/-- The temporaries that are left after an action. -/
def Action.leaving (temporaries : List Register) : Action → List Register
  | .give register _ => temporaries.erase register
  | _ => temporaries

/--
Holding the temporaries, the program gives back only what it holds, writes to
nothing else and ends with the registers `gained` of its outcome.  It turns if
`turns`, or where it fails in the end.
-/
def Handles (terms : Terms) (turns : Bool) (gained : Outcome → List Register) :
    Emission Outcome → List Register → Prop
  | .done outcome, temporaries => temporaries = gained outcome
  | .fail error, _ => terms.Excuses error
  | .look next, temporaries => ∀ generator : Generator, generator.bindings = terms.bindings →
      Handles terms turns gained (next generator) temporaries
  | .take mark aliasName next, temporaries => aliasName = none ∧ terms.watch.Shows mark.line ∧
      ∀ register, Handles terms turns gained (next register) (register :: temporaries)
  | .act action next, temporaries =>
    action.Treats terms (turns = true ∨ Fails (next ())) temporaries ∧
    Handles terms turns gained (next ()) (action.leaving temporaries)

/-- On any terms that let it turn or not, the code leaves a value in a register. -/
def Values (terms : Terms) (code : Emission Register) : Prop :=
  ∀ turns, Handles terms turns (fun register => [register]) code []

/-- The register that was taken last is a temporary. -/
theorem newest_held {other : Register → Prop} :
    ∀ named ∈ [register], named ∈ register :: temporaries ∨ other named :=
  fun _ member => .inl (List.mem_singleton.mp member ▸ List.mem_cons_self)

namespace Handles

variable {terms : Terms} {turns : Bool} {gained : Outcome → List Register}
  {temporaries : List Register}

/-- More temporaries do no harm. -/
theorem frame {code : Emission Outcome} (handles : Handles terms turns gained code temporaries)
    (more : List Register) :
    Handles terms turns (fun outcome => gained outcome ++ more) code (temporaries ++ more) := by
  induction code generalizing temporaries with
  | done outcome => exact congrArg (· ++ more) handles
  | fail error => exact handles
  | look next ih => exact fun generator same => ih generator (handles generator same)
  | take mark aliasName next ih =>
    exact ⟨handles.1, handles.2.1, fun register => ih register (handles.2.2 register)⟩
  | act action next ih =>
    rcases handles with ⟨treats, further⟩
    cases action with
    | write line =>
      refine ⟨⟨treats.straight, treats.isCode, fun index member => ?_, ?_⟩, ?_⟩
      · exact (treats.within index member).imp_left (Or.imp_right fun ⟨register, listed, same⟩ =>
          ⟨register, List.mem_append_left more listed, same⟩)
      · exact fun register member =>
          (treats.refers register member).imp_left (List.mem_append_left more)
      · exact ih () further
    | give register line =>
      refine ⟨List.mem_append_left more treats, ?_⟩
      have rest := ih () further
      rwa [Action.leaving, ← List.erase_append_left more treats] at rest
    | note number | remember label => exact ⟨trivial, ih () further⟩
    | bind id register | unbind id => cases treats

variable {next : First → Emission Outcome} {opcode : Opcode} {operands : List Operand}

/-- A program that has gained something is followed by one that holds it. -/
theorem andThen {middle : First → List Register}
    (first : Handles terms turns middle code temporaries)
    (second : ∀ outcome, Handles terms turns gained (next outcome) (middle outcome)) :
    Handles terms turns gained (code >>= next) temporaries := by
  show Handles terms turns gained (code.andThen next) temporaries
  induction code generalizing temporaries with
  | done outcome =>
    rw [show temporaries = middle outcome from first]
    exact second outcome
  | fail error => exact first
  | look further ih => exact fun generator same => ih generator (first generator same)
  | take mark aliasName further ih =>
    exact ⟨first.1, first.2.1, fun register => ih register (first.2.2 register)⟩
  | act action further ih =>
    refine ⟨first.1.mono ?_, ih () first.2⟩
    exact Or.imp_right fun fails => fails.before next

/-- A program runs on top of the temporaries. -/
theorem after {middle : First → List Register} (first : Handles terms turns middle code [])
    (second : ∀ outcome, Handles terms turns gained (next outcome)
      (middle outcome ++ temporaries)) :
    Handles terms turns gained (code >>= next) temporaries :=
  (first.frame temporaries).andThen second

/-- A value is computed on top of the temporaries. -/
theorem value {code : Emission Register} {next : Register → Emission Outcome}
    (first : Values terms code)
    (second : ∀ register, Handles terms turns gained (next register) (register :: temporaries)) :
    Handles terms turns gained (code >>= next) temporaries :=
  (first turns).after second

/-- A computation that does not emit. -/
theorem result {computed : Except Error First}
    (excused : ∀ error, computed = .error error → terms.Excuses error)
    (second : ∀ outcome, computed = .ok outcome →
      Handles terms turns gained (next outcome) temporaries) :
    Handles terms turns gained (Emission.result computed >>= next) temporaries := by
  cases computed with
  | ok outcome => exact second outcome rfl
  | error error => exact excused error rfl

/-- A temporary is taken. -/
theorem alloc {mark : Mark} {next : Register → Emission Outcome}
    (shown : terms.watch.Shows mark.line)
    (second : ∀ register, Handles terms turns gained (next register) (register :: temporaries)) :
    Handles terms turns gained (Emission.alloc mark >>= next) temporaries :=
  ⟨rfl, shown, second⟩

/-- An instruction on temporaries, and on what else may be referred to and written. -/
theorem treats_instruction {mayTurn : Prop}
    (straight : mayTurn ∨ (Line.instruction opcode operands).isStraight = true)
    (held : ∀ register ∈ (Line.instruction opcode operands).registers,
      register ∈ temporaries ∨ terms.known register ∧ terms.writes register.index) :
    Treats terms mayTurn temporaries (.instruction opcode operands) := by
  refine ⟨straight, rfl, fun index written => ?_, fun register member =>
    (held register member).imp_right And.left⟩
  rcases Line.exists_operand_of_mem_destinations written with ⟨operand, member, named⟩
  cases operand with
  | scratch => exact .inl (.inl (List.mem_singleton.mp named))
  | register register =>
    rw [List.mem_singleton.mp named]
    rcases held register (List.mem_filterMap.mpr ⟨_, member, rfl⟩) with temporary | ⟨-, writes⟩
    · exact .inl (.inr ⟨register, temporary, rfl⟩)
    · exact .inr writes
  | _ => cases named

/-- The next instruction works on temporaries. -/
theorem line {next : Unit → Emission Outcome}
    (second : Handles terms turns gained (next ()) temporaries)
    (straight : (turns = true ∨ Fails (next ())) ∨
      (Line.instruction opcode operands).isStraight = true)
    (held : ∀ register ∈ (Line.instruction opcode operands).registers,
      register ∈ temporaries ∨ terms.known register ∧ terms.writes register.index) :
    Handles terms turns gained (Emission.instruction opcode operands >>= next) temporaries :=
  ⟨treats_instruction straight held, second⟩

/-- The last instruction works on temporaries. -/
theorem last (straight : turns = true ∨ (Line.instruction opcode operands).isStraight = true)
    (held : ∀ register ∈ (Line.instruction opcode operands).registers,
      register ∈ temporaries ∨ terms.known register ∧ terms.writes register.index) :
    Handles terms turns (fun _ => temporaries) (Emission.instruction opcode operands) temporaries :=
  ⟨treats_instruction (straight.imp_left .inl) held, rfl⟩

/-- The temporary that was taken last is given back. -/
theorem dealloc {line : Nat} {next : Unit → Emission Outcome}
    (second : Handles terms turns gained (next ()) temporaries) :
    Handles terms turns gained (Emission.dealloc register line >>= next)
      (register :: temporaries) := by
  refine ⟨List.mem_cons_self, ?_⟩
  rw [Action.leaving, List.erase_cons_head]
  exact second

/-- The temporary that was taken before the last one is given back. -/
theorem deallocSecond {first second : Register} {line : Nat} {next : Unit → Emission Outcome}
    (rest : Handles terms turns gained (next ()) (first :: temporaries)) :
    Handles terms turns gained (Emission.dealloc second line >>= next)
      (first :: second :: temporaries) := by
  refine ⟨List.mem_cons_of_mem _ List.mem_cons_self, ?_⟩
  have erased : (first :: second :: temporaries).erase second = first :: temporaries := by
    by_cases same : first = second
    · simp [same]
    · simp [same]
  rw [Action.leaving, erased]
  exact rest

/-- The last thing is to give back a temporary. -/
theorem deallocLast {line : Nat} :
    Handles terms turns (fun _ => temporaries) (Emission.dealloc register line)
      (register :: temporaries) := by
  refine ⟨List.mem_cons_self, ?_⟩
  rw [Action.leaving, List.erase_cons_head]
  exact rfl

theorem onlyIf {condition : Bool} {code : Emission Unit}
    (handles : Handles terms turns (fun _ => temporaries) code temporaries) :
    Handles terms turns (fun _ => temporaries) (Emission.onlyIf condition code) temporaries := by
  cases condition with
  | false => exact rfl
  | true => exact handles

/-! ## Runs of such code -/

/-- What is held besides the temporaries is kept. -/
theorem sound {code : Emission Outcome} (handles : Handles terms turns gained code temporaries)
    {start current : Generator}
    (stands : Stands terms.env terms.watch current (temporaries ++ held))
    (nameless : ∀ register ∈ temporaries, Nameless register)
    (covers : Covers current held kept) (same : current.bindings = terms.bindings)
    (spares : turns = false → ∀ index, terms.writes index → index ∉ kept ∧ index < registerCount)
    (appends : turns = false → ¬ Fails code → Appends kept start current) :
    Sound terms.env terms.watch
      (fun error later => later.bindings = terms.bindings ∧ terms.Excuses error)
      (fun outcome later heldLater => heldLater = gained outcome ++ held ∧
        later.bindings = terms.bindings ∧ (turns = false → Appends kept start later) ∧
        ∀ register ∈ gained outcome, Nameless register)
      code current (temporaries ++ held) := by
  induction code generalizing temporaries current with
  | done outcome =>
    rw [show temporaries = gained outcome from handles] at stands nameless ⊢
    exact ⟨stands, rfl, same, fun straight => appends straight id, nameless⟩
  | fail error => exact ⟨stands, same, handles⟩
  | look next ih =>
    exact ⟨stands, ih current (handles current same) stands nameless covers same
      fun straight ends => appends straight fun fails => ends (fails current)⟩
  | take mark aliasName next ih =>
    refine ⟨stands, ⟨same, fun strict => ⟨handles.2.1 strict, rfl⟩⟩,
      fun register taken taking => ?_⟩
    rcases take_cases taking with ⟨called, bindings, lines⟩
    exact ih register (handles.2.2 register) (stands.take taking)
      (List.forall_mem_cons.mpr ⟨called.trans handles.1, nameless⟩) (covers.congr bindings)
      (bindings.trans same) fun straight ends =>
        (appends straight fun fails => ends (fails register)).trans (.of_lines lines)
  | act action next ih =>
    rcases handles with ⟨treats, further⟩
    cases action with
    | write line =>
      have refers (asked : terms.watch.named) : Refers current.bindings line := by
        intro register member
        rw [same]
        exact (treats.refers register member).elim (fun held => .inl (nameless register held))
          fun known => known asked
      refine ⟨stands, ⟨trivial, refers⟩, ?_⟩
      rintro changed ⟨⟩
      refine ih () further (stands.write fun asked => ⟨fun _ => treats.isCode, refers asked⟩)
        nameless (covers.congr rfl) same
        fun straight ends => (appends straight ends).trans (Appends.push ?_)
      have runs := treats.straight.resolve_left (by simpa [straight] using ends)
      exact ⟨runs, fun index written =>
        (treats.within index written).elim (stands.owned.spares covers) (spares straight index)⟩
    | give register line =>
      have member := List.mem_append_left held treats
      refine ⟨stands, ⟨member, fun _ => trivial⟩, fun changed performed => ?_⟩
      have after := stands.give member performed
      rcases give_cases performed with ⟨bindings, lines⟩
      show Sound _ _ _ _ _ _ ((temporaries ++ held).erase register)
      rw [List.erase_append_left held treats] at after ⊢
      exact ih () further after (fun other among => nameless other (List.mem_of_mem_erase among))
        (covers.congr bindings) (bindings.trans same)
        fun straight ends => (appends straight ends).trans (.of_lines lines)
    | note number | remember label =>
      refine ⟨stands, ⟨trivial, fun _ => trivial⟩, ?_⟩
      rintro changed ⟨⟩
      exact ih () further (stands.congr rfl rfl rfl) nameless (covers.congr rfl) same
        fun straight ends => (appends straight ends).trans (Appends.of_lines rfl)
    | bind id register | unbind id => cases treats

end Handles

/-- Straight code that handles its temporaries, wherever variables have their registers. -/
theorem Yields.of_handles (env : Env) {gained : Outcome → List Register} {code : Emission Outcome}
    (handles : ∀ bindings, Handles (watching env .lax bindings) false gained code []) :
    Yields gained code := by
  intro generator held kept outcome later owned covers ends
  have sound := (handles generator.bindings).sound (.lax owned) nofun covers rfl nofun
    fun _ _ => Appends.of_lines rfl
  rcases sound.run_ok ends with ⟨_, stands, rfl, bindings, appends, -⟩
  exact ⟨stands.owned, bindings, appends rfl⟩

end Covenant.Emission
