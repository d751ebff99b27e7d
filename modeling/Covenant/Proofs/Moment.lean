import Covenant.Proofs.Ownership

/-!
# Moments of emission

A run of an `Emission` passes through one moment after the other.  `Reaches`
names them: the generator as it is then, the registers that nodes hold, and
the program that is still to be run.  A register is held by a node from the
action that takes it to the action that gives it back or hands it over to a
variable.

`Obeys` is the program logic of the development.  Its rules follow the
constructors of `Emission`, so a function that is written with `do` is proved
by one step for each of its lines.
-/

namespace Covenant.Emission

variable {Outcome First Second : Type} {after : Generator} {code : Emission Outcome}
  {outcome : Outcome}

/-- The registers that nodes hold after an action. -/
def Action.holding (generator : Generator) (held : List Register) : Action → List Register
  | .give register _ => held.erase register
  | .bind _ register => held.erase register
  | .unbind id => (generator.bindings.lookup id).toList ++ held
  | _ => held

/--
Running the first program from the first generator comes to a moment at which
the second program is what remains and the second generator is the state.
-/
inductive Reaches : Emission Outcome → Generator → List Register →
    Emission Outcome → Generator → List Register → Prop where
  | here {code : Emission Outcome} {generator : Generator} {held : List Register} :
      Reaches code generator held code generator held
  | look {next : Generator → Emission Outcome} {rest : Emission Outcome}
      {generator later : Generator} {held heldLater : List Register}
      (further : Reaches (next generator) generator held rest later heldLater) :
      Reaches (.look next) generator held rest later heldLater
  | take {mark : Mark} {aliasName : Option String} {next : Register → Emission Outcome}
      {rest : Emission Outcome} {register : Register} {generator taken later : Generator}
      {held heldLater : List Register}
      (taking : generator.take mark aliasName = .ok (register, taken))
      (further : Reaches (next register) taken (register :: held) rest later heldLater) :
      Reaches (.take mark aliasName next) generator held rest later heldLater
  | act {action : Action} {next : Unit → Emission Outcome} {rest : Emission Outcome}
      {generator changed later : Generator} {held heldLater : List Register}
      (performed : action.perform generator = .ok changed)
      (further : Reaches (next ()) changed (action.holding generator held) rest later
        heldLater) :
      Reaches (.act action next) generator held rest later heldLater

/-! ## Runs -/

/-- The program, run from one generator, ends with an outcome and another generator. -/
def Ends {Outcome : Type} (code : Emission Outcome) (before : Generator) (outcome : Outcome)
    (after : Generator) : Prop :=
  code.run before = .ok (outcome, after)

/-- The run of a program fails with an error, and the last generator is the state then. -/
inductive Stops : Emission Outcome → Generator → Error → Generator → Prop where
  | fail {error : Error} {generator : Generator} : Stops (.fail error) generator error generator
  | look {next : Generator → Emission Outcome} {generator later : Generator} {error : Error}
      (further : Stops (next generator) generator error later) :
      Stops (.look next) generator error later
  | full {mark : Mark} {aliasName : Option String} {next : Register → Emission Outcome}
      {generator : Generator} {error : Error}
      (refused : generator.take mark aliasName = .error error) :
      Stops (.take mark aliasName next) generator error generator
  | take {mark : Mark} {aliasName : Option String} {next : Register → Emission Outcome}
      {register : Register} {generator taken later : Generator} {error : Error}
      (taking : generator.take mark aliasName = .ok (register, taken))
      (further : Stops (next register) taken error later) :
      Stops (.take mark aliasName next) generator error later
  | refused {action : Action} {next : Unit → Emission Outcome} {generator : Generator}
      {error : Error} (failed : action.perform generator = .error error) :
      Stops (.act action next) generator error generator
  | act {action : Action} {next : Unit → Emission Outcome} {generator changed later : Generator}
      {error : Error} (performed : action.perform generator = .ok changed)
      (further : Stops (next ()) changed error later) :
      Stops (.act action next) generator error later

/-- Programs that are put together in a row can be put together in any order. -/
theorem andThen_assoc {Third : Type} (code : Emission First)
    (following : First → Emission Second) (last : Second → Emission Third) :
    (code.andThen following).andThen last =
      code.andThen fun outcome => (following outcome).andThen last := by
  induction code with
  | done outcome | fail error => rfl
  | look next ih | take mark aliasName next ih | act action next ih =>
    exact congrArg _ (funext ih)

theorem andThen_done (code : Emission First) : code.andThen .done = code := by
  induction code with
  | done outcome | fail error => rfl
  | look next ih | take mark aliasName next ih | act action next ih =>
    exact congrArg _ (funext ih)

instance : LawfulMonad Emission :=
  LawfulMonad.mk' Emission andThen_done (fun _ _ => rfl) andThen_assoc

/-- A run of two programs is a run of the first and then of the second. -/
theorem run_bind (code : Emission First) (following : First → Emission Second)
    (generator : Generator) :
    (code >>= following).run generator =
      match code.run generator with
      | .ok (outcome, later) => (following outcome).run later
      | .error error => .error error := by
  show (code.andThen following).run generator = _
  induction code generalizing generator with
  | done outcome => rfl
  | fail error => rfl
  | look next ih => exact ih generator generator
  | take mark aliasName next ih =>
    simp only [andThen, run]
    cases generator.take mark aliasName with
    | error error => rfl
    | ok outcome => exact ih outcome.1 outcome.2
  | act action next ih =>
    simp only [andThen, run]
    cases action.perform generator with
    | error error => rfl
    | ok changed => exact ih () changed

/-- A run of two programs that succeeds passes through a moment between them. -/
theorem bind_ok {code : Emission First} {following : First → Emission Second}
    {generator : Generator} {outcome : Second}
    (succeeded : (code >>= following).run generator = .ok (outcome, after)) :
    ∃ first between, code.run generator = .ok (first, between) ∧
      (following first).run between = .ok (outcome, after) := by
  rw [run_bind] at succeeded
  cases ran : code.run generator with
  | error error => simp [ran] at succeeded
  | ok pair =>
    rcases pair with ⟨first, between⟩
    exact ⟨first, between, rfl, by simpa [ran] using succeeded⟩

/-- The result of a computation that does not emit leaves the generator alone. -/
theorem result_ok {computed : Except Error Outcome} {generator : Generator}
    (succeeded : (result computed).run generator = .ok (outcome, after)) :
    computed = .ok outcome ∧ after = generator := by
  cases computed with
  | error error => simp [result, run] at succeeded
  | ok value =>
    simp only [result, run, Except.ok.injEq, Prod.mk.injEq] at succeeded
    exact ⟨by rw [succeeded.1], succeeded.2.symm⟩

variable {error : Error} {generator later : Generator}

/-- A run fails exactly if it stops somewhere. -/
theorem run_error_iff :
    code.run generator = .error error ↔ ∃ later, Stops code generator error later := by
  constructor
  · intro failed
    induction code generalizing generator with
    | done outcome => cases failed
    | fail other =>
      cases failed
      exact ⟨generator, .fail⟩
    | look next ih =>
      rcases ih generator failed with ⟨later, stops⟩
      exact ⟨later, .look stops⟩
    | take mark aliasName next ih =>
      simp only [run] at failed
      cases taking : generator.take mark aliasName with
      | error other =>
        simp only [taking, Except.error.injEq] at failed
        subst failed
        exact ⟨generator, .full taking⟩
      | ok pair =>
        rw [taking] at failed
        rcases ih pair.1 failed with ⟨later, stops⟩
        exact ⟨later, .take taking stops⟩
    | act action next ih =>
      simp only [run] at failed
      cases performed : action.perform generator with
      | error other =>
        simp only [performed, Except.error.injEq] at failed
        subst failed
        exact ⟨generator, .refused performed⟩
      | ok changed =>
        rw [performed] at failed
        rcases ih () failed with ⟨later, stops⟩
        exact ⟨later, .act performed stops⟩
  · rintro ⟨later, stops⟩
    induction stops with
    | fail => rfl
    | look further ih => exact ih
    | full refused => simp [run, refused]
    | take taking further ih => simpa [run, taking] using ih
    | refused failed => simp [run, failed]
    | act performed further ih => simpa [run, performed] using ih

/-- A row of two programs stops in the first, or in the second once the first has ended. -/
theorem Stops.bind {code : Emission First} {following : First → Emission Second}
    (stops : Stops (code >>= following) generator error later) :
    Stops code generator error later ∨ ∃ outcome between,
      code.Ends generator outcome between ∧ Stops (following outcome) between error later := by
  replace stops : Stops (code.andThen following) generator error later := stops
  induction code generalizing generator with
  | done outcome => exact .inr ⟨outcome, generator, rfl, stops⟩
  | fail other =>
    cases stops
    exact .inl .fail
  | look next ih =>
    cases stops with
    | look further =>
      rcases ih generator further with first | ⟨outcome, between, ends, second⟩
      · exact .inl (.look first)
      · exact .inr ⟨outcome, between, ends, second⟩
  | take mark aliasName next ih =>
    cases stops with
    | full refused => exact .inl (.full refused)
    | take taking further =>
      rcases ih _ further with first | ⟨outcome, between, ends, second⟩
      · exact .inl (.take taking first)
      · exact .inr ⟨outcome, between, by simpa [Ends, run, taking] using ends, second⟩
  | act action next ih =>
    cases stops with
    | refused failed => exact .inl (.refused failed)
    | act performed further =>
      rcases ih () further with first | ⟨outcome, between, ends, second⟩
      · exact .inl (.act performed first)
      · exact .inr ⟨outcome, between, by simpa [Ends, run, performed] using ends, second⟩

/-! ## Single actions -/

/-- A register that is given back is held. -/
def Action.Possible (held : List Register) : Action → Prop
  | .give register _ => register ∈ held
  | _ => True

theorem Owned.performs {held : List Register} {action : Action} (owned : Owned generator held)
    (possible : action.Possible held) : ∃ changed, action.perform generator = .ok changed := by
  cases action with
  | give register line =>
    have holds := (owned.taken _).mpr (Generator.mem_indices_held possible)
    rcases RegisterFile.dealloc_of_holds holds line with ⟨file, returned⟩
    exact ⟨_, by rw [Action.perform, returned]; rfl⟩
  | _ => exact ⟨_, rfl⟩

variable {mark : Mark} {aliasName : Option String} {register : Register} {line : Nat}

/-- Taking a register changes the register file only. -/
theorem take_cases (taking : generator.take mark aliasName = .ok (register, later)) :
    register.aliasName = aliasName ∧ later.bindings = generator.bindings ∧
      later.lines = generator.lines := by
  rcases exists_of_map taking with ⟨⟨taken, file⟩, handed, ended⟩
  cases ended
  exact ⟨(RegisterFile.alloc_cases handed).2.2.2.1, rfl, rfl⟩

/-- A register can only be refused because none is left. -/
theorem take_error (refused : generator.take mark aliasName = .error error) :
    error = .internal mark.line .registersExhausted := by
  rw [Generator.take, RegisterFile.alloc, Change.outcome, RegisterFile.take_run] at refused
  cases found : generator.registers.lowest? with
  | some index => simp [found, Except.map] at refused
  | none =>
    simp only [found, Except.map, Except.error.injEq] at refused
    exact refused.symm

/-- Giving a register back changes the register file only. -/
theorem give_cases (performed : (Action.give register line).perform generator = .ok later) :
    later.bindings = generator.bindings ∧ later.lines = generator.lines := by
  rcases exists_of_map performed with ⟨file, -, rfl⟩
  exact ⟨rfl, rfl⟩

/-! ## A logic for programs -/

variable {holds : Generator → List Register → Prop}
  {allows : Generator → List Register → Action → Prop} {fails : Error → Generator → Prop}

/--
At every moment of a run `holds` is true, what is done is allowed, and if the run ends,
`post` holds of its outcome, of the generator and of the registers held.  A run that stops
does so with an error for which `fails` is true.
-/
def Obeys (holds : Generator → List Register → Prop)
    (allows : Generator → List Register → Action → Prop) (fails : Error → Generator → Prop)
    (post : Outcome → Generator → List Register → Prop) :
    Emission Outcome → Generator → List Register → Prop
  | .done outcome, generator, held => holds generator held ∧ post outcome generator held
  | .fail error, generator, held => holds generator held ∧ fails error generator
  | .look next, generator, held =>
    holds generator held ∧ Obeys holds allows fails post (next generator) generator held
  | .take mark aliasName next, generator, held =>
    holds generator held ∧ fails (.internal mark.line .registersExhausted) generator ∧
      ∀ register taken, generator.take mark aliasName = .ok (register, taken) →
        Obeys holds allows fails post (next register) taken (register :: held)
  | .act action next, generator, held =>
    holds generator held ∧ allows generator held action ∧
      ∀ changed, action.perform generator = .ok changed →
        Obeys holds allows fails post (next ()) changed (action.holding generator held)

namespace Obeys

variable {post : Outcome → Generator → List Register → Prop} {held : List Register}

/-- One program after the other: the second starts from what the first ends with. -/
theorem andThen {middle : First → Generator → List Register → Prop}
    {post : Second → Generator → List Register → Prop} {code : Emission First}
    {following : First → Emission Second}
    (first : Obeys holds allows fails middle code generator held)
    (second : ∀ outcome later heldLater, holds later heldLater → middle outcome later heldLater →
      Obeys holds allows fails post (following outcome) later heldLater) :
    Obeys holds allows fails post (code >>= following) generator held := by
  show Obeys holds allows fails post (code.andThen following) generator held
  induction code generalizing generator held with
  | done outcome => exact second outcome generator held first.1 first.2
  | fail error => exact first
  | look next ih => exact ⟨first.1, ih generator first.2⟩
  | take mark aliasName next ih =>
    exact ⟨first.1, first.2.1, fun register taken taking =>
      ih register (first.2.2 register taken taking)⟩
  | act action next ih =>
    exact ⟨first.1, first.2.1, fun changed performed => ih () (first.2.2 changed performed)⟩

/-- What is known of an error may be weakened, and what is known of a run that ends added. -/
theorem ending {excused : Error → Generator → Prop}
    {stronger : Outcome → Generator → List Register → Prop}
    (obeys : Obeys holds allows fails post code generator held)
    (excuses : ∀ error later, fails error later → excused error later)
    (known : ∀ outcome later heldLater, holds later heldLater → post outcome later heldLater →
      code.Ends generator outcome later → stronger outcome later heldLater) :
    Obeys holds allows excused stronger code generator held := by
  induction code generalizing generator held with
  | done outcome => exact ⟨obeys.1, known outcome generator held obeys.1 obeys.2 rfl⟩
  | fail error => exact ⟨obeys.1, excuses error generator obeys.2⟩
  | look next ih => exact ⟨obeys.1, ih generator obeys.2 known⟩
  | take mark aliasName next ih =>
    refine ⟨obeys.1, excuses _ generator obeys.2.1, fun register taken taking =>
      ih register (obeys.2.2 register taken taking) fun outcome later heldLater now after ends =>
        known outcome later heldLater now after ?_⟩
    simpa [Ends, run, taking] using ends
  | act action next ih =>
    refine ⟨obeys.1, obeys.2.1, fun changed performed =>
      ih () (obeys.2.2 changed performed) fun outcome later heldLater now after ends =>
        known outcome later heldLater now after ?_⟩
    simpa [Ends, run, performed] using ends

/-- What holds at the end may be weakened. -/
theorem mono {weaker : Outcome → Generator → List Register → Prop}
    (obeys : Obeys holds allows fails post code generator held)
    (weaken : ∀ outcome later heldLater, holds later heldLater →
      post outcome later heldLater → weaker outcome later heldLater) :
    Obeys holds allows fails weaker code generator held :=
  obeys.ending (fun _ _ failed => failed) fun outcome later heldLater now after _ =>
    weaken outcome later heldLater now after

/-- Code that runs only where a condition holds. -/
theorem onlyIf {post : Unit → Generator → List Register → Prop} {condition : Bool}
    {code : Emission Unit} (taken : Obeys holds allows fails post code generator held)
    (passed : Obeys holds allows fails post (pure ()) generator held) :
    Obeys holds allows fails post (Emission.onlyIf condition code) generator held := by
  cases condition with
  | false => exact passed
  | true => exact taken

/-- The start of a program is a moment like the others. -/
theorem start (obeys : Obeys holds allows fails post code generator held) :
    holds generator held := by
  cases code <;> exact obeys.1

/-- What remains at a moment of a run goes on obeying. -/
theorem reaches {rest : Emission Outcome} {heldLater : List Register}
    (obeys : Obeys holds allows fails post code generator held)
    (reached : Reaches code generator held rest later heldLater) :
    Obeys holds allows fails post rest later heldLater := by
  induction reached with
  | here => exact obeys
  | look further ih => exact ih obeys.2
  | take taking further ih => exact ih (obeys.2.2 _ _ taking)
  | act performed further ih => exact ih (obeys.2.2 _ performed)

/-- A run ends as promised. -/
theorem run_ok (obeys : Obeys holds allows fails post code generator held)
    (ends : code.Ends generator outcome after) :
    ∃ heldAfter, holds after heldAfter ∧ post outcome after heldAfter := by
  induction code generalizing generator held with
  | done value =>
    cases ends
    exact ⟨held, obeys⟩
  | fail error => cases ends
  | look next ih => exact ih generator obeys.2 ends
  | take mark aliasName next ih =>
    simp only [Ends, run] at ends
    cases taking : generator.take mark aliasName with
    | error error => simp [taking] at ends
    | ok pair =>
      rw [taking] at ends
      exact ih pair.1 (obeys.2.2 pair.1 pair.2 taking) ends
  | act action next ih =>
    simp only [Ends, run] at ends
    cases performed : action.perform generator with
    | error error => simp [performed] at ends
    | ok changed =>
      rw [performed] at ends
      exact ih () (obeys.2.2 changed performed) ends

end Obeys

end Covenant.Emission
