import Covenant.Proofs.Flow
import Covenant.Proofs.ValueRegisters

/-!
# The registers of statements

A statement gives back every temporary.  The only register it can leave
behind is the one of a variable that it is the first to assign, and the only
ones it takes away are those of the variables whose scope ends.  So whatever
nodes hold before a statement they hold after it, at every moment of a run the
registers in use are `Owned`, and the effect on the bindings can be told from
the statement.  A variable gets its register under an alias of its own, so
names stay in order where none of those in scope is ambiguous.

A statement fails as its expressions do, or because a variable of a scope that
ends was never assigned, or because it leaves a loop where there is none.
`Effects` says all this of a program at once.
-/

namespace Covenant

variable {register : Register} {id : VarId}

/-- The expressions of a selector. -/
def Selector.exprs : Selector → List Expr
  | .index position => [position]
  | _ => []

namespace Deed

/-- The expressions of a simple statement. -/
def exprs : Deed → List Expr
  | .comment _ | .raw _ => []
  | .assign _ _ selector value => selector.exprs ++ [value]
  | .discard _ expr => [expr]
  | .emit _ _ address value => [address, value]
  | .result _ value => value.toList

/-- The lines that a simple statement may name besides those of its expressions. -/
def shown : Deed → List Nat
  | .assign mark _ _ _ => [mark.line]
  | _ => []

/-- A simple statement that writes only to registers that it takes. -/
def keeps : Deed → Bool
  | .assign .. | .raw _ => false
  | _ => true

theorem target?_of_keeps (deed : Deed) (keeps : deed.keeps = true) : deed.target? = none := by
  cases deed with
  | assign => cases keeps
  | _ => rfl

end Deed

namespace Emission

variable {Outcome First Second : Type}

/-! ## Variables -/

section Variables

variable {env : Env} {watch : Watch} {scopes : List ScopeId} {generator : Generator}
  {held : List Register} {fails : Error → Generator → Prop}

/-- Variables with a register are declared in the scopes, if names are asked about. -/
def Within (env : Env) (watch : Watch) (scopes : List ScopeId) (generator : Generator) : Prop :=
  watch.named → BoundWithin env.scopes scopes generator

/-- The variables may get a register among those of the scopes. -/
def Admits (env : Env) (watch : Watch) (scopes : List ScopeId) (ids : List VarId) : Prop :=
  watch.named → env.scopes.Unambiguous scopes ∧ ∀ id ∈ ids, env.scopes.Declares scopes id

theorem Admits.subset {ids others : List VarId} (admits : Admits env watch scopes ids)
    (subset : others ⊆ ids) : Admits env watch scopes others :=
  fun asked => ⟨(admits asked).1, fun id member => (admits asked).2 id (subset member)⟩

theorem Admits.mem {ids : List VarId} (admits : Admits env watch scopes ids) (member : id ∈ ids) :
    Admits env watch scopes [id] :=
  admits.subset (by simpa using member)

theorem Within.congr {later : Generator} (inside : Within env watch scopes generator)
    (same : later.bindings = generator.bindings) : Within env watch scopes later :=
  fun asked => (inside asked).of_subset (by simp [same])

theorem binding_sound (id : VarId) (stands : Stands env watch generator held) :
    Sound env watch fails (fun found later heldLater => found = generator.bindings.lookup id ∧
        later = generator ∧ heldLater = held)
      (binding? id) generator held :=
  ⟨stands, stands, rfl, rfl, rfl⟩

theorem isBound_sound (id : VarId) (stands : Stands env watch generator held) :
    Sound env watch fails (fun bound later heldLater =>
        bound = (generator.bindings.lookup id).isSome ∧ later = generator ∧ heldLater = held)
      (isBound id) generator held :=
  ⟨stands, stands, rfl, rfl, rfl⟩

/-- The register of a variable that has one. -/
theorem operand_sound (line : Nat) (stands : Stands env watch generator held)
    (bound : generator.bindings.lookup id = some register) :
    Sound env watch fails (fun found later heldLater => found = register ∧ later = generator ∧
        heldLater = held)
      (operand env id line) generator held := by
  refine (binding_sound id stands).andThen ?_
  rintro found later heldLater - ⟨rfl, rfl, rfl⟩
  rw [bound]
  exact ⟨stands, rfl, rfl, rfl⟩

/-- What the assignment of a variable does to the bindings. -/
inductive Rebinds : Option VarId → Generator → Generator → Prop where
  | nothing {before after : Generator} (same : after.bindings = before.bindings) :
      Rebinds none before after
  | again {id : VarId} {before after : Generator}
      (bound : (before.bindings.lookup id).isSome) (same : after.bindings = before.bindings) :
      Rebinds (some id) before after
  | first {id : VarId} {before after : Generator} (register : Register)
      (unbound : before.bindings.lookup id = none)
      (added : after.bindings = (id, register) :: before.bindings) :
      Rebinds (some id) before after

namespace Rebinds

variable {target : Option VarId} {before after : Generator}

/-- A register that a variable has, it keeps. -/
theorem keeps (rebinds : Rebinds target before after)
    (bound : before.bindings.lookup id = some register) :
    after.bindings.lookup id = some register := by
  cases rebinds with
  | nothing same | again _ same => rw [same, bound]
  | @first assigned _ _ fresh unbound added =>
    have different : (id == assigned) = false := by
      simp only [beq_eq_false_iff_ne]
      rintro rfl
      simp [unbound] at bound
    rw [added, List.lookup_cons, different, bound]

/-- The variable assigned has a register afterwards, and no other has a new one. -/
theorem binds_iff (rebinds : Rebinds target before after) (id : VarId) :
    after.Binds id ↔ before.Binds id ∨ target = some id := by
  unfold Generator.Binds
  cases rebinds with
  | nothing same => simp [same]
  | @again assigned _ _ bound same =>
    rw [same]
    constructor
    · exact Or.inl
    · rintro (before | same)
      · exact before
      · rw [← Option.some.inj same]
        exact bound
  | @first assigned _ _ register unbound added =>
    rw [added, List.lookup_cons]
    by_cases same : id = assigned
    · subst same
      simp
    · have different : (id == assigned) = false := by simpa using same
      simp [different, Ne.symm same]

theorem congr {last : Generator} (rebinds : Rebinds target before after)
    (same : last.bindings = after.bindings) : Rebinds target before last := by
  cases rebinds with
  | nothing stays => exact .nothing (same.trans stays)
  | again bound stays => exact .again bound (same.trans stays)
  | first register unbound added => exact .first register unbound (same.trans added)

end Rebinds

/-- A variable that is assigned is declared in the scopes. -/
theorem Within.rebinds {target : Option VarId} {later : Generator}
    (inside : Within env watch scopes generator) (rebinds : Rebinds target generator later)
    (admits : Admits env watch scopes target.toList) : Within env watch scopes later := by
  intro asked id binds
  rcases (rebinds.binds_iff id).mp binds with before | assigned
  · exact inside asked id before
  · exact (admits asked).2 id (by simp [assigned])

/-- After a variable got a register, the ones held before are different from it. -/
theorem Owned.fresh_apart {later : Generator} (owned : Owned later held)
    (added : later.bindings = (id, register) :: generator.bindings) :
    register.index ∉ generator.indices held ∧ register.index < registerCount := by
  have distinct := owned.distinct
  have range := owned.range register.index
  simp only [Generator.indices, added, List.map_cons] at distinct range ⊢
  have apart := (List.nodup_cons.mp (List.perm_middle.nodup_iff.mp distinct)).1
  exact ⟨apart, (range (by simp)).2⟩

theorem takeRegister_sound {mark : Mark} (aliasName : Option String)
    (full : fails (.internal mark.line .registersExhausted) generator)
    (stands : Stands env watch generator held) :
    Sound env watch fails (fun register later heldLater => heldLater = register :: held ∧
        register.aliasName = aliasName ∧ later.bindings = generator.bindings ∧
        later.lines = generator.lines)
      (takeRegister mark aliasName) generator held :=
  ⟨stands, full, fun _ _ taking => ⟨stands.take taking, rfl, take_cases taking⟩⟩

theorem Owned.handed {mark : Mark} {aliasName : Option String} {later : Generator}
    (owned : Owned generator held)
    (ends : (takeRegister mark aliasName).Ends generator register later) :
    Owned later (register :: held) ∧ later.bindings = generator.bindings ∧
      later.lines = generator.lines := by
  rcases (@takeRegister_sound { moduleName := "" } _ _ _ (fun _ _ => True) _ _ trivial
    (.lax owned)).run_ok ends with ⟨_, stands, rfl, -, same⟩
  exact ⟨stands.owned, same⟩

/-- Giving a register to a variable that has none. -/
theorem bind_sound (line : Nat) (stands : Stands env watch generator (register :: held))
    (unbound : generator.bindings.lookup id = none)
    (named : watch.named → Named env watch.quiet
      { generator with bindings := (id, register) :: generator.bindings }) :
    Sound env watch fails (fun _ later heldLater => heldLater = held ∧
        later.lines = generator.lines ∧ later.bindings = (id, register) :: generator.bindings)
      (bind env id register line) generator (register :: held) := by
  refine (isBound_sound id stands).andThen ?_
  rintro bound generator heldLater - ⟨rfl, rfl, rfl⟩
  rw [unbound]
  refine ⟨stands, ⟨trivial, fun _ => trivial⟩, ?_⟩
  rintro changed ⟨⟩
  have handed := stands.owned.bind List.mem_cons_self unbound
  show Sound _ _ _ _ (.done ()) _ ((register :: held).erase register)
  rw [List.erase_cons_head] at handed ⊢
  exact ⟨⟨handed, named⟩, rfl, rfl, rfl⟩

/-- A register is taken under an alias that no variable has, and the alias stands for it. -/
theorem allocAlias_sound {mark : Mark} (aliasName : String) (kept : List Nat)
    (full : fails (.internal mark.line .registersExhausted) generator)
    (stands : Stands env watch generator held)
    (unused : watch.named → ∀ id register, (id, register) ∈ generator.bindings →
      register.aliasName ≠ some aliasName) :
    Sound env watch fails (fun register later heldLater => heldLater = register :: held ∧
        Adds kept generator later ∧ register.aliasName = some aliasName ∧
        denoted aliasName later.lines = some register.index)
      (allocAlias mark aliasName) generator held := by
  refine (takeRegister_sound _ full stands).andThen ?_
  rintro register taken heldLater stands ⟨rfl, called, same, sameLines⟩
  refine ⟨stands, ⟨trivial, fun _ => nofun⟩, ?_⟩
  rintro changed ⟨⟩
  refine ⟨⟨stands.owned.congr rfl rfl, fun asked => ?_⟩, rfl, ⟨same, ?_⟩, called, ?_⟩
  · exact (stands.named asked).introduce register.index (same ▸ unused asked)
  · exact (Appends.of_lines sameLines).trans (.push ⟨rfl, by simp [Line.destinations]⟩)
  · simp only [Generator.lines, Array.toList_push]
    rw [denoted_append, Line.renames, if_pos rfl]

/-- Making sure that a variable has a register, under an alias of its own. -/
theorem ensureBound_sound (id : VarId) {mark : Mark} (kept : List Nat)
    (full : fails (.internal mark.line .registersExhausted) generator)
    (stands : Stands env watch generator held) (inside : Within env watch scopes generator)
    (admits : Admits env watch scopes [id]) :
    Restores env watch fails
      (fun later => Rebinds (some id) generator later ∧ Appends kept generator later)
      (ensureBound env id mark) generator held := by
  refine (isBound_sound id stands).andThen ?_
  rintro bound generator held - ⟨rfl, rfl, rfl⟩
  cases present : (generator.bindings.lookup id).isSome with
  | true => exact ⟨stands, rfl, .again present rfl, Appends.of_lines rfl⟩
  | false =>
    have unbound := Option.isSome_eq_false_iff.mp present |> Option.isNone_iff_eq_none.mp
    have unused (asked : watch.named) := chosenName_unused (admits asked).1
      ((admits asked).2 id List.mem_cons_self) (stands.named asked) (inside asked) unbound
    refine ⟨stands, (allocAlias_sound _ kept full stands unused).andThen ?_⟩
    rintro register taken heldLater standsLater ⟨rfl, added, called, denotes⟩
    refine (bind_sound mark.line standsLater (added.bindings ▸ unbound) fun asked => ?_).andThen ?_
    · exact (standsLater.named asked).bind called (chosenName_own env generator id)
        (added.bindings ▸ unused asked) fun _ => denotes
    rintro - later held standsLast ⟨rfl, lines, bindings⟩
    rw [added.bindings] at bindings
    exact ⟨standsLast, rfl, .first register unbound bindings,
      added.appends.trans (Appends.of_lines lines)⟩

/-- Bindings without those of some variables. -/
def without (ids : List VarId) (bindings : List (VarId × Register)) :
    List (VarId × Register) :=
  bindings.filter fun binding => binding.1 ∉ ids

theorem without_nil (bindings : List (VarId × Register)) : without [] bindings = bindings := by
  simp [without]

theorem without_cons (id : VarId) (ids : List VarId) (bindings : List (VarId × Register)) :
    without (id :: ids) bindings = without ids (without [id] bindings) := by
  unfold without
  rw [List.filter_filter]
  refine List.filter_congr ?_
  intro binding _
  simp [Bool.and_comm]

/-- A variable that has no register can be left out. -/
theorem without_of_lookup_none {bindings : List (VarId × Register)}
    (unbound : bindings.lookup id = none) : without [id] bindings = bindings := by
  unfold without
  rw [List.filter_eq_self]
  intro binding member
  rw [List.lookup_eq_none_iff] at unbound
  have different : id ≠ binding.1 := by simpa using unbound binding member
  simpa using Ne.symm different

theorem lookup_without (ids : List VarId) (bindings : List (VarId × Register)) (id : VarId) :
    (without ids bindings).lookup id = if id ∈ ids then none else bindings.lookup id := by
  induction bindings with
  | nil => simp [without]
  | cons first rest ih =>
    rcases first with ⟨key, register⟩
    by_cases same : id = key
    · subst same
      by_cases listed : id ∈ ids
      · simpa [without, listed] using ih
      · simp [without, listed]
    · have differs : (id == key) = false := by simpa using same
      by_cases listed : key ∈ ids
      · simpa [without, listed, List.lookup_cons, differs] using ih
      · simpa [without, listed, List.lookup_cons, differs] using ih

theorem Within.without {ids : List VarId} {later : Generator}
    (inside : Within env watch scopes generator)
    (fewer : later.bindings = without ids generator.bindings) : Within env watch scopes later :=
  fun asked => (inside asked).of_subset fun _ member => (List.mem_filter.mp (fewer ▸ member)).1

/-- Giving back the register of a variable. -/
theorem release_sound (id : VarId) (line : Nat) (stands : Stands env watch generator held) :
    Sound env watch fails (fun released later heldLater => heldLater = held ∧
        (released = false → later = generator) ∧ later.lines = generator.lines ∧
        later.bindings = without [id] generator.bindings)
      (release id line) generator held := by
  refine (binding_sound id stands).andThen ?_
  rintro found generator held - ⟨rfl, rfl, rfl⟩
  cases bound : generator.bindings.lookup id with
  | none => exact ⟨stands, rfl, fun _ => rfl, rfl, (without_of_lookup_none bound).symm⟩
  | some register =>
    refine ⟨stands, ⟨trivial, fun _ => trivial⟩, ?_⟩
    rintro unbound ⟨⟩
    have freed : Stands env watch { generator with
        bindings := generator.bindings.filter fun pair => pair.1 != id } (register :: held) :=
      ⟨stands.owned.unbind bound, fun asked =>
        (stands.named asked).shrink (fun _ member => (List.mem_filter.mp member).1) rfl⟩
    simp only [Action.holding, bound, Option.toList_some]
    refine (dealloc_sound line freed).andThen ?_
    rintro - later held standsLast ⟨rfl, bindings, lines⟩
    refine ⟨standsLast, rfl, by simp, lines, bindings.trans (List.filter_congr ?_)⟩
    rintro ⟨other, _⟩ -
    by_cases same : other = id
    · simp [same]
    · simp [same]

end Variables

/-! ## How a run fails -/

variable {env : Env} {watch : Watch} {scopes : List ScopeId} {error : Error}
  {before between after generator : Generator} {held : List Register} {kept : List Nat}

/-- The variables that are to keep their registers have kept them. -/
def KeepsBound (watch : Watch) (before after : Generator) : Prop :=
  ∀ id, watch.keeps id → before.Binds id → after.Binds id

namespace KeepsBound

theorem of_bindings (same : after.bindings = before.bindings) : KeepsBound watch before after := by
  intro id _ bound
  unfold Generator.Binds at *
  rwa [same]

theorem of_rebinds {target : Option VarId} (rebinds : Rebinds target before after) :
    KeepsBound watch before after :=
  fun id _ bound => (rebinds.binds_iff id).mpr (.inl bound)

theorem of_without {ids : List VarId} (fewer : after.bindings = without ids before.bindings)
    (outside : ∀ id, watch.keeps id → id ∉ ids) : KeepsBound watch before after := by
  intro id kept bound
  simpa [Generator.Binds, fewer, lookup_without, outside id kept] using bound

theorem trans (first : KeepsBound watch before between)
    (second : KeepsBound watch between after) : KeepsBound watch before after :=
  fun id kept bound => second id kept (first id kept bound)

end KeepsBound

/-- Where a run stops, no variable has lost its register, and the error is as it should be. -/
structure Excused (env : Env) (watch : Watch) (before : Generator) (error : Error)
    (later : Generator) : Prop where
  keeps : KeepsBound watch before later
  blames : Blames env watch later.bindings error

/-- A program that comes after others that have taken no variable its register. -/
theorem Excused.preceded (excused : Excused env watch between error after)
    (keeps : KeepsBound watch before between) : Excused env watch before error after :=
  ⟨keeps.trans excused.keeps, excused.blames⟩

/-- Registers may run out. -/
theorem Excused.full {line : Nat} (shown : watch.Shows line)
    (same : after.bindings = before.bindings) :
    Excused env watch before (.internal line .registersExhausted) after :=
  ⟨.of_bindings same, fun strict => ⟨shown strict, rfl⟩⟩

/-- Code that handles its temporaries fails as it should. -/
theorem Handles.restores {turns : Bool} {gained : Outcome → List Register}
    {code : Emission Outcome} {temporaries : List Register} {writes : Nat → Prop}
    (handles : Handles (watching env watch generator.bindings writes) turns gained code temporaries)
    (stands : Stands env watch generator (temporaries ++ held))
    (nameless : ∀ register ∈ temporaries, Nameless register) (covers : Covers generator held kept)
    (spares : turns = false → ∀ index, writes index → index ∉ kept ∧ index < registerCount) :
    Sound env watch (Excused env watch generator)
      (fun outcome later heldLater => heldLater = gained outcome ++ held ∧
        later.bindings = generator.bindings ∧ (turns = false → Appends kept generator later) ∧
        ∀ register ∈ gained outcome, Nameless register)
      code generator (temporaries ++ held) :=
  (handles.sound stands nameless covers rfl spares fun _ _ => .of_lines rfl).ending
    (fun _ _ ⟨same, excuses⟩ => ⟨.of_bindings same, same ▸ excuses⟩) fun _ _ _ _ holds _ => holds

/-! ## Programs with an effect on the bindings -/

/--
Nodes hold the same registers before and after the program, only variables of the scopes have
one, and the program has an effect.
-/
def Effects (env : Env) (watch : Watch) (scopes : List ScopeId)
    (effect : Outcome → Generator → Generator → Prop) (code : Emission Outcome) : Prop :=
  ∀ generator held, Stands env watch generator held → Within env watch scopes generator →
    Sound env watch (Excused env watch generator)
      (fun outcome later heldLater => heldLater = held ∧ Within env watch scopes later ∧
        effect outcome generator later) code generator held

/-- The program takes no register from the variables that are to keep theirs. -/
abbrev Steady (env : Env) (watch : Watch) (scopes : List ScopeId)
    (code : Emission Outcome) : Prop :=
  Effects env watch scopes (fun _ => KeepsBound watch) code

/-- The program leaves all bindings alone. -/
abbrev Still (env : Env) (watch : Watch) (scopes : List ScopeId) (code : Emission Outcome) : Prop :=
  Effects env watch scopes (fun _ before after => after.bindings = before.bindings) code

namespace Effects

variable {code : Emission First} {following : First → Emission Second}
  {effect : Second → Generator → Generator → Prop}

theorem ends {effect : First → Generator → Generator → Prop} {outcome : First}
    (effects : Effects env .lax [] effect code) (owned : Owned before held)
    (ends : code.Ends before outcome after) : Owned after held ∧ effect outcome before after := by
  rcases (effects before held (.lax owned) False.elim).run_ok ends with ⟨_, stands, rfl, -, holds⟩
  exact ⟨stands.owned, holds⟩

theorem mono {effect weaker : First → Generator → Generator → Prop}
    (effects : Effects env watch scopes effect code)
    (weaken : ∀ outcome before after, effect outcome before after → weaker outcome before after) :
    Effects env watch scopes weaker code :=
  fun generator held stands inside => (effects generator held stands inside).mono
    fun outcome later _ _ holds => ⟨holds.1, holds.2.1, weaken outcome generator later holds.2.2⟩

theorem andThen {first : First → Generator → Generator → Prop}
    {second : First → Second → Generator → Generator → Prop}
    (one : Effects env watch scopes first code)
    (two : ∀ outcome, Effects env watch scopes (second outcome) (following outcome))
    (keeps : ∀ outcome before between, first outcome before between →
      KeepsBound watch before between)
    (joined : ∀ early late before between after, first early before between →
      second early late between after → effect late before after) :
    Effects env watch scopes effect (code >>= following) := by
  intro generator held stands inside
  refine (one generator held stands inside).andThen ?_
  rintro early between held standsBetween ⟨rfl, insideBetween, left⟩
  refine (two early between held standsBetween insideBetween).ending
    (fun _ _ excused => excused.preceded (keeps early generator between left)) ?_
  rintro late after held - ⟨rfl, insideAfter, right⟩ -
  exact ⟨rfl, insideAfter, joined early late generator between after left right⟩

theorem pure {effect : Outcome → Generator → Generator → Prop} {outcome : Outcome}
    (holds : ∀ generator, effect outcome generator generator) :
    Effects env watch scopes effect (pure outcome : Emission Outcome) :=
  fun generator _ stands inside => ⟨stands, rfl, inside, holds generator⟩

theorem returning (outcome : Outcome) :
    Effects env watch scopes (fun reported before after => after = before ∧ reported = outcome)
      (Pure.pure outcome) :=
  .pure fun _ => ⟨rfl, rfl⟩

theorem discard {effect : Generator → Generator → Prop}
    (effects : Effects env watch scopes (fun _ => effect) code) :
    Effects env watch scopes (fun _ => effect) (discard code) :=
  fun generator held stands inside => (effects generator held stands inside).andThen
    fun _ _ _ stands holds => ⟨stands, holds⟩

theorem onlyIf {effect : Generator → Generator → Prop} {condition : Bool} {code : Emission Unit}
    (effects : Effects env watch scopes (fun _ => effect) code)
    (reflexive : ∀ generator, effect generator generator) :
    Effects env watch scopes (fun _ => effect) (onlyIf condition code) := by
  cases condition with
  | false => exact .pure reflexive
  | true => exact effects

/-- A computation that does not emit. -/
theorem result {effect : First → Generator → Generator → Prop} {computed : Except Error First}
    (blames : ∀ error bindings, computed = .error error → Blames env watch bindings error)
    (holds : ∀ outcome generator, effect outcome generator generator) :
    Effects env watch scopes effect (Emission.result computed) := by
  cases computed with
  | ok outcome => exact .pure (holds outcome)
  | error error =>
    exact fun generator _ stands _ => ⟨stands, .of_bindings rfl, blames error _ rfl⟩

/-- A value is computed, used while something else is emitted, and given back. -/
theorem holding {code : Emission Register} {between : Register → Emission Unit}
    {effect : Generator → Generator → Prop}
    (values : ∀ bindings, Values (watching env watch bindings) code)
    (effects : ∀ register, Nameless register →
      Effects env watch scopes (fun _ => effect) (between register)) (line : Nat)
    (joined : ∀ before computed later after, computed.bindings = before.bindings →
      effect computed later → after.bindings = later.bindings → effect before after) :
    Effects env watch scopes (fun _ => effect)
      (code >>= fun register => between register >>= fun _ => dealloc register line) := by
  intro generator held stands inside
  refine ((values _ true).restores stands nofun (covers_indices generator held) nofun).andThen ?_
  rintro register computed heldLater stands ⟨rfl, same, -, nameless⟩
  refine (((effects register (nameless _ List.mem_cons_self) computed _ stands
    (inside.congr same)).andThen ?_).ending
    (fun _ _ excused => excused.preceded (.of_bindings same)) fun _ _ _ _ holds _ => holds)
  rintro - later heldLater stands ⟨rfl, inner, holds⟩
  refine (dealloc_sound line stands).mono ?_
  rintro - last heldLater - ⟨rfl, freed, -⟩
  exact ⟨rfl, inner.congr freed, joined generator computed later last same holds freed⟩

end Effects

namespace Still

variable {code : Emission First} {following : First → Emission Second}

theorem done : Still env watch scopes (pure ()) :=
  .pure fun _ => rfl

/-- Code that leaves nothing behind, whether it turns or not. -/
theorem of_handles
    (handles : ∀ bindings, Handles (watching env watch bindings) true (fun _ => []) code []) :
    Still env watch scopes code := by
  intro generator held stands inside
  refine ((handles generator.bindings).restores stands nofun (covers_indices generator held)
    nofun).mono ?_
  rintro outcome later heldLater - ⟨rfl, same, -⟩
  exact ⟨rfl, inside.congr same, same⟩

theorem spelled {line : Line} (spelled : ∀ bindings, watch.Spells bindings line) :
    Still env watch scopes (Emission.line line) := by
  intro generator held stands inside
  refine (line_sound stands (spelled generator.bindings)).mono ?_
  rintro - later heldLater - ⟨rfl, same, -⟩
  exact ⟨rfl, inside.congr same, same⟩

/-- A line of code on registers without a name. -/
theorem line {line : Line} (isCode : line.isCode = true)
    (nameless : ∀ register ∈ line.registers, Nameless register) :
    Still env watch scopes (Emission.line line) :=
  spelled fun _ _ => ⟨fun _ => isCode, fun register member => .inl (nameless register member)⟩

theorem andThen {effect : Second → Generator → Generator → Prop}
    (still : Still env watch scopes code)
    (effects : ∀ outcome, Effects env watch scopes effect (following outcome))
    (joined : ∀ outcome before between after, between.bindings = before.bindings →
      effect outcome between after → effect outcome before after) :
    Effects env watch scopes effect (code >>= following) :=
  Effects.andThen still effects (fun _ _ _ => .of_bindings)
    fun _ late before between after => joined late before between after

theorem next (first : Still env watch scopes code)
    (second : ∀ outcome, Still env watch scopes (following outcome)) :
    Still env watch scopes (code >>= following) :=
  first.andThen second fun _ _ _ _ same more => more.trans same

end Still

namespace Steady

variable {code : Emission First} {following : First → Emission Second}

theorem done (outcome : Outcome) : Steady env watch scopes (pure outcome : Emission Outcome) :=
  .pure fun _ => .of_bindings rfl

theorem andThen (first : Steady env watch scopes code)
    (second : ∀ outcome, Steady env watch scopes (following outcome)) :
    Steady env watch scopes (code >>= following) :=
  Effects.andThen first second (fun _ _ _ keeps => keeps) fun _ _ _ _ _ => .trans

theorem of_still (still : Still env watch scopes code) : Steady env watch scopes code :=
  still.mono fun _ _ _ => .of_bindings

theorem line {line : Line} (isCode : line.isCode = true)
    (nameless : ∀ register ∈ line.registers, Nameless register) :
    Steady env watch scopes (Emission.line line) :=
  .of_still (.line isCode nameless)

/-- A value is computed, used while something else is emitted, and given back. -/
theorem holding {code : Emission Register} {between : Register → Emission Unit}
    (values : ∀ bindings, Values (watching env watch bindings) code)
    (steady : ∀ register, Nameless register → Steady env watch scopes (between register))
    (line : Nat) :
    Steady env watch scopes
      (code >>= fun register => between register >>= fun _ => dealloc register line) :=
  Effects.holding values steady line fun _ _ _ _ same keeps freed =>
    ((KeepsBound.of_bindings same).trans keeps).trans (.of_bindings freed)

end Steady

/-! ## The end of a scope -/

/-- The local ones among some variables. -/
def locals (declarations : List Variable) : List VarId :=
  (declarations.filter fun declaration => declaration.storage = .local).map Variable.id

/-- At the end of a scope of local variables all of them lose their registers. -/
theorem mem_locals {tree : ScopeTree} (coherent : tree.Coherent) {scope : ScopeId}
    (isLocal : tree.IsLocal scope) {id : VarId} (member : id ∈ (tree.scope scope).variableIds) :
    id ∈ locals (tree.declaredIn scope) := by
  simp only [locals, ScopeTree.declaredIn, List.mem_map, List.mem_filter, decide_eq_true_eq]
  exact ⟨tree.declaration id, ⟨⟨id, member, rfl⟩, isLocal id member⟩,
    (coherent scope id member).1⟩

/-- A local variable that goes out of use may lose its register, and it has a line to be shown. -/
def Dropped (watch : Watch) (declarations : List Variable) : Prop :=
  ∀ declaration ∈ declarations, declaration.storage = .local →
    ¬ watch.keeps declaration.id ∧ watch.Shows declaration.line

theorem releaseLocal_effects (line : Nat) {declaration : Variable}
    (dropped : Dropped watch [declaration]) (isLocal : declaration.storage = .local) :
    Effects env watch scopes (fun _ before after => after.lines = before.lines ∧
        after.bindings = without [declaration.id] before.bindings)
      (releaseLocal line declaration) := by
  intro generator held stands inside
  refine (release_sound declaration.id line stands).andThen ?_
  rintro released later held standsLater ⟨rfl, same, lines, bindings⟩
  cases released with
  | false =>
    rcases same rfl
    exact ⟨standsLater, .of_bindings rfl, fun strict =>
      ⟨(dropped declaration List.mem_cons_self isLocal).2 strict, trivial⟩⟩
  | true => exact ⟨standsLater, rfl, inside.without bindings, lines, bindings⟩

/-- At the end of a scope its local variables lose their registers. -/
theorem releaseLocals_effects (line : Nat) {declarations : List Variable}
    (dropped : Dropped watch declarations) :
    Effects env watch scopes (fun _ before after => after.lines = before.lines ∧
        after.bindings = without (locals declarations) before.bindings)
      (releaseLocals line declarations) := by
  induction declarations with
  | nil => exact .pure fun _ => ⟨rfl, (without_nil _).symm⟩
  | cons declaration rest ih =>
    have further := ih fun other member => dropped other (List.mem_cons_of_mem _ member)
    unfold releaseLocals
    by_cases isLocal : declaration.storage = .local
    · have own : Dropped watch [declaration] := List.forall_mem_singleton.mpr
        (dropped declaration List.mem_cons_self)
      have listed : locals (declaration :: rest) = declaration.id :: locals rest := by
        simp [locals, isLocal]
      rw [onlyIf, if_pos (by simpa using isLocal), listed]
      refine (releaseLocal_effects line own isLocal).andThen (fun _ => further) ?_ ?_
      · rintro - before between ⟨-, bindings⟩
        refine .of_without bindings fun id kept member => ?_
        exact (own _ List.mem_cons_self isLocal).1 (List.mem_singleton.mp member ▸ kept)
      · rintro - - before between after ⟨lines, bindings⟩ ⟨sameLines, more⟩
        refine ⟨sameLines.trans lines, ?_⟩
        rw [more, bindings]
        exact (without_cons _ _ _).symm
    · have listed : locals (declaration :: rest) = locals rest := by
        simp [locals, isLocal]
      rw [onlyIf, if_neg (by simpa using isLocal), listed]
      exact further

theorem releaseLocals_ends {line : Nat} {declarations : List Variable}
    (owned : Owned before held) (ends : (releaseLocals line declarations).Ends before () after) :
    Owned after held ∧ after.lines = before.lines ∧
      after.bindings = without (locals declarations) before.bindings :=
  (@releaseLocals_effects { moduleName := "" } .lax [] line declarations
    fun _ _ _ => ⟨id, False.elim⟩).ends owned ends

section Leaving

variable {scope : ScopeId} (line : Nat) (dropped : Dropped watch (env.scopes.declaredIn scope))

include dropped

theorem Dropped.keeps
    (fewer : after.bindings = without (locals (env.scopes.declaredIn scope)) before.bindings) :
    KeepsBound watch before after := by
  refine .of_without fewer fun id kept member => ?_
  rcases List.mem_map.mp member with ⟨declaration, listed, rfl⟩
  rcases List.mem_filter.mp listed with ⟨among, isLocal⟩
  exact (dropped declaration among (by simpa using isLocal)).1 kept

theorem leaveScope_steady : Steady env watch scopes (leaveScope env scope line) :=
  (releaseLocals_effects line dropped).mono fun _ _ _ holds => dropped.keeps holds.2

/-- After a scope of local variables only those of the scopes around it have a register. -/
theorem leavingScope_steady {body : Emission Unit}
    (coherent : watch.named → env.scopes.Coherent ∧ env.scopes.IsLocal scope)
    (steady : Steady env watch (scope :: scopes) body) :
    Steady env watch scopes (body >>= fun _ => leaveScope env scope line) := by
  intro generator held stands inside
  have widened : Within env watch (scope :: scopes) generator := by
    intro asked id binds
    rcases inside asked id binds with ⟨holder, among, listed⟩
    exact ⟨holder, List.mem_cons_of_mem _ among, listed⟩
  refine (steady generator held stands widened).andThen ?_
  rintro - between held standsBetween ⟨rfl, within, keeps⟩
  refine (releaseLocals_effects line dropped between held standsBetween within).ending
    (fun _ _ excused => excused.preceded keeps) ?_
  rintro - after held - ⟨rfl, remaining, -, bindings⟩ -
  refine ⟨rfl, fun asked id binds => ?_, keeps.trans (dropped.keeps bindings)⟩
  rcases remaining asked id binds with ⟨holder, among, listed⟩
  rcases List.mem_cons.mp among with rfl | outer
  · have left := mem_locals (coherent asked).1 (coherent asked).2 listed
    simp [Generator.Binds, bindings, lookup_without, left] at binds
  · exact ⟨holder, outer, listed⟩

end Leaving

/-! ## Simple statements -/

section Handling

variable {terms : Terms} {turns : Bool}

theorem annotate_handles (env : Env) (number : Nat) :
    Handles terms turns (fun _ => []) (annotate env number) [] := by
  intro generator _
  show Handles terms turns (fun _ => []) (if _ then _ else _) []
  split
  · refine ⟨trivial, ?_⟩
    cases env.sourceLines[number - 1]? with
    | some text => exact ⟨⟨.inr rfl, rfl, nofun, nofun⟩, rfl⟩
    | none => exact rfl
  · exact rfl

theorem pushExpression_handles {expr : Expr}
    (readable : Readable terms.watch expr) (line : Nat) :
    Handles terms turns (fun _ => []) (pushExpression terms.env expr line) [] :=
  .value (expression_values readable) fun _ => .line .deallocLast (.inr rfl) newest_held

/-- A call whose result is forgotten; only an expectation turns. -/
theorem discarded_handles {expr : Expr} (readable : Readable terms.watch expr)
    (turnless : turns = true ∨ Deed.expectation? expr = none) (line : Nat) :
    Handles terms turns (fun _ => []) (discarded terms.env line expr) [] := by
  unfold discarded
  split
  · rename_i mark ty method typeArgument written
    have values : AllValues terms (arguments terms.env written) :=
      arguments_values fun argument member => expression_values (readable.child member)
    refine (call_handles values terms.env readable.shows ty readable.inside
      (turnless.imp_right fun none expects => ?_)).andThen fun outcome => ?_
    · rcases written with _ | ⟨condition, _ | ⟨message, further⟩⟩
      · simp [arguments]
      · simp [arguments]
      · simp [Deed.expectation?, expects] at none
    · cases outcome with
      | none => exact rfl
      | some register => exact .deallocLast
  · exact .value (expression_values readable) fun _ => .deallocLast

theorem comparison_values {subject : Register} (known : terms.known subject) {value : Expr}
    (readable : Readable terms.watch value) :
    Values terms (comparison terms.env subject value) := by
  refine fun _ => .value (expression_values readable) fun register =>
    ⟨⟨.inr rfl, rfl, ?_, ?_⟩, rfl⟩
  · simp [Line.destinations, Operand.indices]
  · simp [Line.registers, Operand.register?, known]

theorem test_handles {condition : Expr} (readable : Readable terms.watch condition)
    (opcode : Opcode) (target : Label) (line : Nat) :
    Handles terms true (fun _ => []) (test terms.env opcode condition target line) [] :=
  .value (expression_values readable) fun _ => .line .deallocLast (.inl (.inl rfl)) newest_held

theorem jumpTo_handles (target : Option Label) (keyword : String) {line : Nat}
    (shown : terms.watch.Shows line) :
    Handles terms true (fun _ => []) (jumpTo target (.outsideLoop line keyword)) [] := by
  cases target with
  | none => exact fun strict => ⟨shown strict, trivial⟩
  | some place => exact .last (.inl rfl) nofun

/-- Storing a value in a part of a variable. -/
theorem store_handles {value target : Register} (known : terms.known target)
    (writes : terms.writes target.index) {selector : Selector}
    (readable : ∀ expr ∈ selector.exprs, Readable terms.watch expr)
    (line : Nat) (fresh : Bool) :
    Handles terms turns (fun _ => [value]) (store terms.env line fresh value target selector)
      [value] := by
  have clear : Handles terms turns (fun _ => [value]) (clearFresh fresh target) [value] :=
    .onlyIf (.last (.inr rfl) (by simp [Line.registers, Operand.register?, known, writes]))
  cases selector with
  | whole => exact .last (.inr rfl) (by simp [Line.registers, Operand.register?, known, writes])
  | field name =>
    refine clear.andThen fun _ => .after (loadScratch_handles rfl) fun _ => ?_
    exact .last (.inr rfl) (by simp [Line.registers, Operand.register?, known, writes])
  | index position =>
    refine clear.andThen fun _ => .value (expression_values ?_) fun key => ?_
    · exact readable position List.mem_cons_self
    · exact .line .deallocLast (.inr rfl)
        (by simp [Line.registers, Operand.register?, known, writes])

/-- What does not assign a variable and is no assembly handles its temporaries. -/
theorem deed_handles {deed : Deed} (turnless : turns = true ∨ deed.turns = false)
    (readable : ∀ expr ∈ deed.exprs, Readable terms.watch expr)
    (keeps : deed.keeps = true) :
    Handles terms turns (fun _ => []) (deed.code terms.env) [] := by
  cases deed with
  | comment line => exact annotate_handles terms.env line
  | assign => cases keeps
  | discard line expr =>
    refine discarded_handles (readable expr List.mem_cons_self) (turnless.imp_right ?_) line
    exact fun straight => Option.isSome_eq_false_iff.mp straight |> Option.isNone_iff_eq_none.mp
  | emit line number address value =>
    refine (pushExpression_handles (readable value (by simp [Deed.exprs])) line).andThen ?_
    refine fun _ => (pushExpression_handles (readable address (by simp [Deed.exprs])) line).andThen
      fun _ => ?_
    exact (pushValue_handles rfl).andThen fun _ => hostCall_handles _
  | result line value =>
    cases value with
    | none => exact rfl
    | some value => exact pushExpression_handles (readable value List.mem_cons_self) line
  | raw => cases keeps

end Handling

/-- What a simple statement may have done. -/
structure Done (kept : List Nat) (deed : Deed) (before after : Generator) : Prop where
  rebinds : Rebinds deed.target? before after
  appends : deed.turns = false → Appends kept before after

/-- Variables that get a register in addition do not change what is covered. -/
theorem Covers.rebinds {later : Generator} {target : Option VarId}
    (covers : Covers generator held kept) (rebinds : Rebinds target generator later) :
    Covers later held kept := by
  cases rebinds with
  | nothing same | again _ same => exact covers.congr same
  | first register _ added =>
    intro index member
    have listed := covers index member
    simp only [Generator.indices, added, List.map_cons, List.mem_append, List.mem_cons]
      at listed ⊢
    rcases listed with held | bound
    · exact Or.inl held
    · exact Or.inr (Or.inr bound)

/-- The register of the variable that was assigned is none of those to be kept. -/
theorem Rebinds.apart {before after : Generator} {target : Register}
    (rebinds : Rebinds (some id) before after) (owned : Owned after held)
    (covers : Covers before held kept)
    (spared : ∀ register, before.bindings.lookup id = some register → register.index ∉ kept)
    (found : after.bindings.lookup id = some target) :
    target.index ∉ kept ∧ target.index < registerCount := by
  refine ⟨?_, (owned.range _ (Generator.mem_indices_bound found held)).2⟩
  cases rebinds with
  | again _ same =>
    rw [same] at found
    exact spared target found
  | first register _ added =>
    rw [added, List.lookup_cons_self] at found
    rw [← Option.some.inj found]
    intro listed
    exact (owned.fresh_apart added).1 (covers _ listed)

theorem assign_sound {mark : Mark} {selector : Selector} {value : Expr}
    (readable : ∀ expr ∈ selector.exprs ++ [value], Readable watch expr)
    (shown : watch.Shows mark.line) (admits : Admits env watch scopes [id])
    (stands : Stands env watch generator held) (inside : Within env watch scopes generator)
    (covers : Covers generator held kept)
    (spared : ∀ register, generator.bindings.lookup id = some register →
      register.index ∉ kept) :
    Restores env watch (Excused env watch generator)
      (fun later => Rebinds (some id) generator later ∧ Appends kept generator later)
      (assign env mark id selector value) generator held := by
  rw [List.forall_mem_append, List.forall_mem_singleton] at readable
  have values := @expression_values (watching env watch generator.bindings) value readable.2 false
  refine (values.restores stands nofun covers nofun).andThen ?_
  rintro register computed heldLater stands ⟨rfl, sameFirst, added, nameless⟩
  refine (ensureBound_sound id kept (.full shown sameFirst) stands (inside.congr sameFirst)
    admits).andThen ?_
  rintro fresh bound heldLater stands ⟨rfl, rebinds, appended⟩
  have binds := (rebinds.binds_iff id).mpr (.inr rfl)
  rcases Option.isSome_iff_exists.mp binds with ⟨target, found⟩
  refine (operand_sound mark.line stands found).andThen ?_
  rintro target bound heldLater - ⟨rfl, rfl, rfl⟩
  have covered : Covers computed ([register] ++ held) kept := (covers.congr sameFirst).cons rfl
  have apart := rebinds.apart stands.owned covered (fun other before =>
    spared other (by rwa [sameFirst] at before)) found
  have stored : Handles (watching env watch bound.bindings (· = target.index)) false (fun _ => [])
      (store env mark.line fresh register target selector >>= fun _ =>
        dealloc register mark.line) [register] :=
    (store_handles (Terms.bound _ found) rfl readable.1 mark.line fresh).andThen
      fun _ => .deallocLast
  have whole : Rebinds (some id) generator bound := by
    cases rebinds with
    | again present bindings =>
      rw [sameFirst] at present bindings
      exact .again present bindings
    | first other unbound more =>
      rw [sameFirst] at unbound more
      exact .first other unbound more
  refine (stored.restores stands nameless ((covers.congr sameFirst).rebinds rebinds)
    fun _ index same => same ▸ apart).ending
    (fun _ _ excused => excused.preceded (.of_rebinds whole)) ?_
  rintro - later heldLater - ⟨rfl, same, appends, -⟩ -
  exact ⟨rfl, whole.congr same, ((added rfl).trans appended).trans (appends rfl)⟩

theorem rawLines_still (loud : watch.named → ¬ watch.quiet) (lines : List String) :
    Still env watch scopes (rawLines lines) := by
  induction lines with
  | nil => exact .done
  | cons first rest ih =>
    simp only [rawLines]
    -- the text is trimmed: elaboration must not compute what is left of it
    generalize (!(Text.trimmed first).isEmpty) = shown
    refine Still.next (.onlyIf (Still.spelled fun _ asked => ?_) fun _ => rfl) fun _ => ih
    exact ⟨fun isQuiet => absurd isQuiet (loud asked), nofun⟩

/-- What a simple statement asks of its expressions and its line. -/
structure ReadableDeed (watch : Watch) (deed : Deed) : Prop where
  exprs : ∀ expr ∈ deed.exprs, Readable watch expr
  shown : ∀ line ∈ deed.shown, watch.Shows line

/-- What a simple statement asks of the names in its scopes. -/
structure SpelledDeed (env : Env) (quiet : Prop) (scopes : List ScopeId) (deed : Deed) : Prop where
  clear : env.scopes.Unambiguous scopes
  declared : ∀ id ∈ deed.target?.toList, env.scopes.Declares scopes id
  runs : quiet → deed.turns = false

section Deeds

variable {deed : Deed} (spelled : watch.named → SpelledDeed env watch.quiet scopes deed)

include spelled

theorem SpelledDeed.admits : Admits env watch scopes deed.target?.toList :=
  fun asked => ⟨(spelled asked).clear, (spelled asked).declared⟩

/-- Every simple statement leaves what is held alone. -/
theorem deed_sound (readable : ReadableDeed watch deed)
    (stands : Stands env watch generator held) (inside : Within env watch scopes generator)
    (covers : Covers generator held kept) (spared : ∀ id register, deed.target? = some id →
      generator.bindings.lookup id = some register → register.index ∉ kept) :
    Restores env watch (Excused env watch generator) (Done kept deed generator) (deed.code env)
      generator held := by
  have others (keeps : deed.keeps = true) : Restores env watch (Excused env watch generator)
      (Done kept deed generator) (deed.code env) generator held := by
    have handles := @deed_handles (watching env watch generator.bindings) deed.turns deed
      (by cases deed.turns <;> simp) readable.exprs keeps
    refine (handles.restores stands nofun covers nofun).mono ?_
    rintro - later heldLater - ⟨rfl, same, appends, -⟩
    refine ⟨rfl, ?_, appends⟩
    rw [deed.target?_of_keeps keeps]
    exact .nothing same
  cases deed with
  | assign mark target selector value =>
    refine (assign_sound readable.exprs (readable.shown _ List.mem_cons_self)
      (SpelledDeed.admits spelled) stands inside covers
      fun register => spared target register rfl).mono ?_
    rintro - later held - ⟨rfl, rebinds, appends⟩
    exact ⟨rfl, rebinds, fun _ => appends⟩
  | raw lines =>
    have loud (asked : watch.named) (isQuiet : watch.quiet) : False := by
      cases (spelled asked).runs isQuiet
    refine (rawLines_still loud lines generator held stands inside).mono ?_
    rintro - later held - ⟨rfl, -, bindings⟩
    exact ⟨rfl, .nothing bindings, by simp [Deed.turns]⟩
  | _ => exact others rfl

theorem deed_steady (readable : ReadableDeed watch deed) :
    Steady env watch scopes (deed.code env) := by
  intro generator held stands inside
  have covers : Covers generator held [] := by simp [Covers]
  refine (deed_sound spelled readable stands inside covers (by simp)).mono ?_
  rintro - later heldLater - ⟨rfl, done⟩
  exact ⟨rfl, inside.rebinds done.rebinds (SpelledDeed.admits spelled), .of_rebinds done.rebinds⟩

end Deeds

theorem deed_ends {deed : Deed} (owned : Owned before held) (covers : Covers before held kept)
    (spared : ∀ id register, deed.target? = some id →
      before.bindings.lookup id = some register → register.index ∉ kept)
    (ends : (deed.code env).Ends before () after) :
    Owned after held ∧ Done kept deed before after := by
  have readable : ReadableDeed .lax deed := ⟨fun _ _ => False.elim, fun _ _ => False.elim⟩
  have sound := @deed_sound env .lax [] before held kept deed False.elim readable (.lax owned)
    False.elim covers spared
  rcases sound.run_ok ends with ⟨_, stands, rfl, done⟩
  exact ⟨stands.owned, done⟩

/-! ## Constructs -/

/-- What a flow asks of its expressions and its lines. -/
def ReadableFlow (watch : Watch) : Plan → Prop
  | .simple _ deed | .giveBack _ deed => ReadableDeed watch deed
  | .seq first second => ReadableFlow watch first ∧ ReadableFlow watch second
  | .within _ _ _ body => ReadableFlow watch body
  | .expect _ condition message => Readable watch condition ∧ Readable watch message
  | .whileLoop _ _ value body | .doLoop _ _ body value | .switch _ value body =>
    Readable watch value ∧ ReadableFlow watch body
  | .branch _ value body other | .forLoop _ _ value body other | .arm _ _ value body other =>
    Readable watch value ∧ ReadableFlow watch body ∧ ReadableFlow watch other
  | .throw _ value => Readable watch value
  | .leave line | .next line => watch.Shows line
  | .skip => True

/-- What a flow asks of the names in the scopes around it and in its own. -/
def SpelledFlow (env : Env) (quiet : Prop) (scopes : List ScopeId) : Plan → Prop
  | .simple _ deed | .giveBack _ deed => SpelledDeed env quiet scopes deed
  | .within _ scope _ body =>
    env.scopes.IsLocal scope ∧ SpelledFlow env quiet (scope :: scopes) body
  | .whileLoop _ _ _ body | .doLoop _ _ body _ | .switch _ _ body =>
    SpelledFlow env quiet scopes body
  | .seq body other | .branch _ _ body other | .forLoop _ _ _ body other
  | .arm _ _ _ body other => SpelledFlow env quiet scopes body ∧ SpelledFlow env quiet scopes other
  | _ => True

theorem test_steady {condition : Expr} (readable : Readable watch condition) (opcode : Opcode)
    (target : Label) (line : Nat) :
    Steady env watch scopes (test env opcode condition target line) :=
  .of_still (.of_handles fun _ => test_handles readable opcode target line)

theorem label_steady (place : Label) : Steady env watch scopes (label place) :=
  .line rfl nofun

theorem jump_steady (place : Label) :
    Steady env watch scopes (instruction .jmp [.label place]) :=
  .line rfl nofun

theorem branching_steady (opcode : Opcode) (nameless : Nameless register) (place : Label) :
    Steady env watch scopes (instruction opcode [.register register, .label place]) :=
  .line rfl (List.forall_mem_singleton.mpr nameless)

theorem throwing_steady (nameless : Nameless register) :
    Steady env watch scopes (instruction .throw [.register register]) :=
  .line rfl (List.forall_mem_singleton.mpr nameless)

/-- A flow takes registers only from the variables of its scopes. -/
theorem flow_steady {exit : Label} {flow : Plan} {loops : LoopStack} {subject : Register}
    (dropped : ∀ scope, Dropped watch (env.scopes.declaredIn scope))
    (coherent : watch.named → env.scopes.Coherent) (readable : ReadableFlow watch flow)
    (spelled : watch.named → SpelledFlow env watch.quiet scopes flow)
    (nameless : Nameless subject) : Steady env watch scopes (flow.code env exit loops subject) := by
  have value {expr : Expr} (readable : Readable watch expr) (bindings : List (VarId × Register)) :
      Values (watching env watch bindings) (expression env expr) := expression_values readable
  induction flow generalizing loops subject scopes with
  | skip => exact Steady.done ()
  | simple _ deed => exact deed_steady spelled readable
  | seq first second firstIh secondIh =>
    exact (firstIh readable.1 (spelled · |>.1) nameless).andThen fun _ =>
      secondIh readable.2 (spelled · |>.2) nameless
  | within _ scope line body ih =>
    exact leavingScope_steady line (dropped scope)
      (fun asked => ⟨coherent asked, (spelled asked).1⟩)
      (ih readable (spelled · |>.2) nameless)
  | expect mark condition message =>
    have thrown : Steady env watch scopes (do
        let thrown ← expression env message
        instruction .throw [.register thrown]
        dealloc thrown mark.line) :=
      Steady.holding (value readable.2) (fun _ => throwing_steady) _
    have whole := Steady.holding (value readable.1)
      (fun tested nameless => (branching_steady .jmpIf nameless (.expectation mark.id)).andThen
        fun _ => thrown.andThen fun _ => label_steady (.expectation mark.id)) mark.line
    simpa [Flow.code] using whole
  | branch mark condition body other bodyIh otherIh =>
    refine (test_steady readable.1 _ _ _).andThen fun _ => ?_
    refine (bodyIh readable.2.1 (spelled · |>.1) nameless).andThen fun _ => ?_
    refine (jump_steady _).andThen fun _ => (label_steady _).andThen fun _ => ?_
    exact (otherIh readable.2.2 (spelled · |>.2) nameless).andThen fun _ => label_steady _
  | whileLoop _ mark condition body ih =>
    refine (label_steady _).andThen fun _ => (test_steady readable.1 _ _ _).andThen fun _ => ?_
    refine (ih readable.2 spelled nameless).andThen fun _ => ?_
    exact (jump_steady _).andThen fun _ => label_steady _
  | doLoop _ mark body condition ih =>
    refine (label_steady _).andThen fun _ => (ih readable.2 spelled nameless).andThen fun _ => ?_
    refine (label_steady _).andThen fun _ => ?_
    exact (test_steady readable.1 _ _ _).andThen fun _ => label_steady _
  | forLoop _ mark condition body step bodyIh stepIh =>
    refine (label_steady _).andThen fun _ => (test_steady readable.1 _ _ _).andThen fun _ => ?_
    refine (bodyIh readable.2.1 (spelled · |>.1) nameless).andThen fun _ => ?_
    refine (label_steady _).andThen fun _ => ?_
    refine (stepIh readable.2.2 (spelled · |>.2) nameless).andThen fun _ => ?_
    exact (jump_steady _).andThen fun _ => label_steady _
  | switch mark subject arms ih =>
    have whole := Steady.holding (value readable.1)
      (fun scrutinee nameless => (@ih scopes loops scrutinee readable.2 spelled nameless).andThen
        fun _ => label_steady (.caseEnd mark.id)) mark.line
    simpa [Flow.code] using whole
  | arm mark index compared body others bodyIh othersIh =>
    have compares (bindings : List (VarId × Register)) : Values (watching env watch bindings)
        (comparison env subject compared) := comparison_values (fun _ => .inl nameless) readable.1
    have rest := (Steady.holding compares (fun register nameless =>
      branching_steady .jmpNot nameless (.caseSkip mark.id index)) mark.line).andThen fun _ =>
        (@bodyIh scopes loops subject readable.2.1 (spelled · |>.1) nameless).andThen fun _ =>
          (jump_steady (.caseEnd mark.id)).andThen fun _ =>
            (label_steady (.caseSkip mark.id index)).andThen fun _ =>
              @othersIh scopes loops subject readable.2.2 (spelled · |>.2) nameless
    simpa [Flow.code] using rest
  | giveBack _ deed => exact (deed_steady spelled readable).andThen fun _ => jump_steady _
  | throw line thrown => exact Steady.holding (value readable) (fun _ => throwing_steady) line
  | leave line | next line =>
    exact .of_still (.of_handles fun _ => jumpTo_handles _ _ readable)

theorem comparison_computes (env : Env) (subject : Register) (value : Expr) :
    Computes (comparison env subject value) :=
  .of_handles env fun bindings =>
    @comparison_values (watching env .lax bindings) subject False.elim value False.elim false

end Emission

end Covenant
