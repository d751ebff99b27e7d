import Covenant.Proofs.Instruction
import Covenant.Proofs.Moment
import Covenant.Proofs.ScopeGrowth

/-!
# The names of registers

In the text of the code the register of a variable is written by an alias, and
the latest line that introduces the alias tells which register it is.  The
alias is the name of the variable, or the name and the number where a bound
register has that name already.  The second choice is not checked again, so
two registers can end up with one alias: this takes a variable whose name is
another name with a number behind it.

`Named` says that no two variables share an alias, and that every alias stands
for the register of its variable.  Registers without a variable have no name,
so a line is `Refers` if each of its registers is nameless or bound.
-/

namespace Covenant

variable {generator after : Generator} {register : Register} {name : String} {tree : ScopeTree}
  {line : Line}

/-! ## Names in the text -/

/-- The register that a name stands for behind a line, if it was `found` before the line. -/
def Line.renames (name : String) (found : Option Nat) : Line → Option Nat
  | .aliasing index other => if other = name then some index else found
  -- Assembly can introduce aliases of its own.
  | .raw _ => none
  | _ => found

/-- The register that a name stands for behind some lines: the latest alias decides. -/
def denoted (name : String) (lines : List Line) : Option Nat :=
  lines.foldl (Line.renames name) none

/-- Wherever a register is written by a name, the name stands for that register. -/
def Legible (lines : List Line) : Prop :=
  ∀ earlier line later, lines = earlier ++ line :: later →
    ∀ register ∈ line.registers, ∀ name, register.aliasName = some name →
      denoted name earlier = some register.index

theorem denoted_append (name : String) (lines : List Line) (line : Line) :
    denoted name (lines ++ [line]) = line.renames name (denoted name lines) := by
  simp [denoted]

theorem Line.renames_of_isCode (isCode : line.isCode = true) (name : String) (found : Option Nat) :
    line.renames name found = found := by
  cases line <;> simp_all [Line.renames, Line.isCode]

/-- One more line is legible if its names stand for its registers. -/
theorem Legible.append {lines : List Line} (legible : Legible lines)
    (stands : ∀ register ∈ line.registers, ∀ name, register.aliasName = some name →
      denoted name lines = some register.index) : Legible (lines ++ [line]) := by
  intro earlier other later split
  rcases List.append_eq_append_iff.mp split with ⟨between, rfl, rest⟩ | ⟨between, rfl, rest⟩
  · cases between with
    | nil =>
      cases rest
      simpa using stands
    | cons first more => simp at rest
  · cases between with
    | nil =>
      simp only [List.nil_append, List.cons.injEq] at rest
      rcases rest with ⟨rfl, -⟩
      simpa using stands
    | cons first more =>
      simp only [List.cons_append, List.cons.injEq] at rest
      rcases rest with ⟨rfl, -⟩
      exact legible earlier other more rfl

/-! ## The names of variables -/

namespace ScopeTree

/-- The name of a variable with its number behind it. -/
def numberedName (tree : ScopeTree) (id : VarId) : String :=
  s!"{(tree.declaration id).name}_{id}"

/-- The variables declared in some scopes. -/
def variablesOf (tree : ScopeTree) (scopes : List ScopeId) : List VarId :=
  scopes.flatMap fun scope => (tree.scope scope).variableIds

theorem mem_variablesOf {scopes : List ScopeId} {id : VarId} :
    id ∈ tree.variablesOf scopes ↔ tree.Declares scopes id := by
  simp [variablesOf, Declares]

/-- The variable may have to give up its name to another one. -/
def Contested (tree : ScopeTree) (scopes : List ScopeId) (id : VarId) : Prop :=
  ∃ other ∈ tree.variablesOf scopes, other ≠ id ∧
    ((tree.declaration other).name = (tree.declaration id).name ∨
      tree.numberedName other = (tree.declaration id).name)

/-- No variable of the scopes has the numbered name of one that may have to give up its name. -/
def Unambiguous (tree : ScopeTree) (scopes : List ScopeId) : Prop :=
  ∀ id ∈ tree.variablesOf scopes, tree.Contested scopes id →
    ∀ other ∈ tree.variablesOf scopes, (tree.declaration other).name ≠ tree.numberedName id

instance (tree : ScopeTree) (scopes : List ScopeId) (id : VarId) :
    Decidable (tree.Contested scopes id) :=
  inferInstanceAs (Decidable (∃ other ∈ tree.variablesOf scopes, _))

instance (tree : ScopeTree) (scopes : List ScopeId) : Decidable (tree.Unambiguous scopes) :=
  inferInstanceAs (Decidable (∀ id ∈ tree.variablesOf scopes, _))

/-- The last part of a text without a separator is unique. -/
theorem eq_of_append_cons_eq {α : Type} {separator : α} {first second one other : List α}
    (same : first ++ separator :: one = second ++ separator :: other) (inOne : separator ∉ one)
    (inOther : separator ∉ other) :
    one = other := by
  rcases List.append_eq_append_iff.mp same with ⟨between, -, rest⟩ | ⟨between, -, rest⟩
  · cases between with
    | nil => simpa using rest
    | cons head tail =>
      simp only [List.cons_append, List.cons.injEq] at rest
      exact absurd (rest.2 ▸ List.mem_append_right _ List.mem_cons_self) inOne
  · cases between with
    | nil => simpa using rest.symm
    | cons head tail =>
      simp only [List.cons_append, List.cons.injEq] at rest
      exact absurd (rest.2 ▸ List.mem_append_right _ List.mem_cons_self) inOther

theorem numberedName_toList (tree : ScopeTree) (id : VarId) :
    (tree.numberedName id).toList =
      (tree.declaration id).name.toList ++ '_' :: Nat.toDigits 10 id := by
  simp [numberedName, toString, Nat.repr]

theorem underscore_notMem_toDigits (number : Nat) : '_' ∉ Nat.toDigits 10 number := by
  intro member
  have digit := Nat.isDigit_of_mem_toDigits (by decide) (by decide) member
  simp [Char.isDigit] at digit

/-- Numbered names of different variables are different. -/
theorem numberedName_inj {id other : VarId}
    (same : tree.numberedName id = tree.numberedName other) : id = other := by
  have texts := congrArg String.toList same
  rw [numberedName_toList, numberedName_toList] at texts
  have digits := eq_of_append_cons_eq texts (underscore_notMem_toDigits id)
    (underscore_notMem_toDigits other)
  have numbers := congrArg (fun text => Nat.ofDigitChars 10 text 0) digits
  simpa [Nat.ofDigitChars_toDigits] using numbers

end ScopeTree

namespace Generator

/-- Variables that are bound at the same time have different aliases. -/
def AliasesDiffer (generator : Generator) : Prop :=
  ∀ one ∈ generator.bindings, ∀ other ∈ generator.bindings,
    one.2.aliasName = other.2.aliasName → one.1 = other.1

instance (generator : Generator) : Decidable generator.AliasesDiffer :=
  inferInstanceAs (Decidable (∀ one ∈ generator.bindings, ∀ other ∈ generator.bindings,
    one.2.aliasName = other.2.aliasName → one.1 = other.1))

/-- The alias of every bound variable stands for its register. -/
def AliasesDenote (generator : Generator) : Prop :=
  ∀ id register, (id, register) ∈ generator.bindings →
    ∀ name, register.aliasName = some name →
      denoted name generator.lines = some register.index

end Generator

namespace Emission

variable {env : Env} {quiet : Prop}

/-- Only the register of a variable has a name. -/
def Nameless (register : Register) : Prop :=
  register.aliasName = none

/-- The register has no name, or it is that of a variable. -/
def Known (bindings : List (VarId × Register)) (register : Register) : Prop :=
  Nameless register ∨ ∃ id, bindings.lookup id = some register

/-- The line refers to no register with a name, apart from those of variables. -/
def Refers (bindings : List (VarId × Register)) (line : Line) : Prop :=
  ∀ register ∈ line.registers, Known bindings register

/-- What is written refers to variables that are bound. -/
def Action.Refers (bindings : List (VarId × Register)) : Action → Prop
  | .write line => Emission.Refers bindings line
  | _ => True

/-- What is known of names at a moment; `quiet` is the absence of assembly. -/
structure Named (env : Env) (quiet : Prop) (generator : Generator) : Prop where
  /-- The alias of a variable is its name or its numbered name. -/
  own : ∀ id register, (id, register) ∈ generator.bindings →
    register.aliasName = some (env.scopes.declaration id).name ∨
      register.aliasName = some (env.scopes.numberedName id)
  differ : generator.AliasesDiffer
  denote : quiet → generator.AliasesDenote
  legible : quiet → Legible generator.lines

namespace Named

theorem start (env : Env) (quiet : Prop) : Named env quiet {} := by
  refine ⟨nofun, nofun, fun _ => nofun, ?_⟩
  intro _ earlier line later split
  simp [Generator.lines] at split

/-- Only the bindings and the lines matter. -/
theorem congr (named : Named env quiet generator) (bindings : after.bindings = generator.bindings)
    (lines : after.lines = generator.lines) : Named env quiet after := by
  refine ⟨?_, ?_, ?_, ?_⟩
  · rw [bindings]
    exact named.own
  · rw [Generator.AliasesDiffer, bindings]
    exact named.differ
  · rw [Generator.AliasesDenote, bindings, lines]
    exact named.denote
  · rw [lines]
    exact named.legible

/-- A register that is known has the name that stands for it. -/
theorem stands (named : Named env quiet generator) (isQuiet : quiet)
    (refers : Refers generator.bindings line) :
    ∀ register ∈ line.registers, ∀ name, register.aliasName = some name →
      denoted name generator.lines = some register.index := by
  intro register member name called
  rcases refers register member with nameless | ⟨id, bound⟩
  · rw [nameless] at called
    cases called
  · exact named.denote isQuiet id register (Generator.mem_bindings bound) name called

/-- A line that refers to bound variables may be written. -/
theorem write (named : Named env quiet generator) (isCode : quiet → line.isCode = true)
    (refers : Refers generator.bindings line) :
    Named env quiet { generator with output := generator.output.push line } := by
  refine ⟨named.own, named.differ, ?_, ?_⟩
  · intro isQuiet id register bound name called
    simp only [Generator.lines, Array.toList_push]
    rw [denoted_append, Line.renames_of_isCode (isCode isQuiet)]
    exact named.denote isQuiet id register bound name called
  · intro isQuiet
    simp only [Generator.lines, Array.toList_push]
    exact (named.legible isQuiet).append (named.stands isQuiet refers)

/-- Fewer variables may be bound. -/
theorem shrink (named : Named env quiet generator)
    (fewer : ∀ pair ∈ after.bindings, pair ∈ generator.bindings)
    (lines : after.lines = generator.lines) : Named env quiet after := by
  refine ⟨fun id register bound => named.own id register (fewer _ bound), ?_, ?_, ?_⟩
  · intro one first other second
    exact named.differ one (fewer _ first) other (fewer _ second)
  · intro isQuiet id register bound name called
    rw [lines]
    exact named.denote isQuiet id register (fewer _ bound) name called
  · rw [lines]
    exact named.legible

/-- An alias that no variable has may be given to a register. -/
theorem introduce (named : Named env quiet generator) (index : Nat)
    (unused : ∀ id register, (id, register) ∈ generator.bindings → register.aliasName ≠ some name) :
    Named env quiet
      { generator with output := generator.output.push (.aliasing index name) } := by
  refine ⟨named.own, named.differ, ?_, ?_⟩
  · intro isQuiet id register bound other called
    simp only [Generator.lines, Array.toList_push]
    rw [denoted_append, Line.renames, if_neg]
    · exact named.denote isQuiet id register bound other called
    · rintro rfl
      exact unused id register bound called
  · intro isQuiet
    simp only [Generator.lines, Array.toList_push]
    exact (named.legible isQuiet).append (by simp [Line.registers])

/-- A register may be bound under an alias that stands for it and that no variable has. -/
theorem bind (named : Named env quiet generator) {id : VarId}
    (called : register.aliasName = some name)
    (own : name = (env.scopes.declaration id).name ∨ name = env.scopes.numberedName id)
    (unused : ∀ id register, (id, register) ∈ generator.bindings → register.aliasName ≠ some name)
    (stands : quiet → denoted name generator.lines = some register.index) :
    Named env quiet { generator with bindings := (id, register) :: generator.bindings } := by
  refine ⟨?_, ?_, ?_, named.legible⟩
  · intro other second bound
    rcases List.mem_cons.mp bound with same | earlier
    · cases same
      rw [called]
      exact own.imp (congrArg some) (congrArg some)
    · exact named.own other second earlier
  · intro one left other right same
    rcases List.mem_cons.mp left with rfl | earlier <;>
      rcases List.mem_cons.mp right with rfl | earlierToo
    · rfl
    · exact absurd (same.symm.trans called) (unused _ _ earlierToo)
    · exact absurd (same.trans called) (unused _ _ earlier)
    · exact named.differ one earlier other earlierToo same
  · intro isQuiet other second bound text spelled
    rcases List.mem_cons.mp bound with same | earlier
    · cases same
      rw [called] at spelled
      cases spelled
      exact stands isQuiet
    · exact named.denote isQuiet other second earlier text spelled

end Named

/-! ## Variables in scope -/

variable {scopes : List ScopeId} {id : VarId}

/-- Every variable that has a register is declared in one of the scopes. -/
def BoundWithin (tree : ScopeTree) (scopes : List ScopeId) (generator : Generator) : Prop :=
  ∀ id, generator.Binds id → tree.Declares scopes id

/-- A variable with a register is declared in one of the scopes. -/
theorem declares_of_mem (bound : BoundWithin env.scopes scopes generator)
    (member : (id, register) ∈ generator.bindings) : env.scopes.Declares scopes id := by
  refine bound id ?_
  rw [Generator.Binds, List.lookup_isSome_iff]
  exact ⟨_, member, by simp⟩

theorem BoundWithin.of_subset (bound : BoundWithin tree scopes generator)
    (fewer : ∀ pair ∈ after.bindings, pair ∈ generator.bindings) :
    BoundWithin tree scopes after := by
  intro id binds
  rw [Generator.Binds, List.lookup_isSome_iff] at binds
  rcases binds with ⟨pair, member, same⟩
  refine bound id ?_
  rw [Generator.Binds, List.lookup_isSome_iff]
  exact ⟨pair, fewer pair member, same⟩

/-- The alias for a variable: its name, or its numbered name where the name is in use. -/
def chosenName (env : Env) (generator : Generator) (id : VarId) : String :=
  if generator.bindings.any fun (_, register) =>
      register.aliasName == some (env.scopes.declaration id).name then
    env.scopes.numberedName id
  else
    (env.scopes.declaration id).name

/-- If nothing is ambiguous, no bound variable has the alias that is chosen for a new one. -/
theorem chosenName_unused (clear : env.scopes.Unambiguous scopes)
    (declared : env.scopes.Declares scopes id) (named : Named env quiet generator)
    (bound : BoundWithin env.scopes scopes generator)
    (unbound : generator.bindings.lookup id = none) :
    ∀ other register, (other, register) ∈ generator.bindings →
      register.aliasName ≠ some (chosenName env generator id) := by
  intro other register member called
  have apart : ∀ third second, (third, second) ∈ generator.bindings → third ≠ id := by
    rintro third second listed rfl
    simpa using List.lookup_eq_none_iff.mp unbound _ listed
  unfold chosenName at called
  split at called
  · rename_i taken
    rcases List.any_eq_true.mp taken with ⟨⟨third, second⟩, listed, same⟩
    have sameName := beq_iff_eq.mp same
    have contested : env.scopes.Contested scopes id := by
      refine ⟨third, ScopeTree.mem_variablesOf.mpr (declares_of_mem bound listed),
        apart third second listed, ?_⟩
      exact (named.own third second listed).imp
        (fun own => Option.some.inj (own.symm.trans sameName))
        (fun own => Option.some.inj (own.symm.trans sameName))
    rcases named.own other register member with plain | numbered
    · exact clear id (ScopeTree.mem_variablesOf.mpr declared) contested other
        (ScopeTree.mem_variablesOf.mpr (declares_of_mem bound member))
        (Option.some.inj (plain.symm.trans called))
    · exact apart other register member
        (ScopeTree.numberedName_inj (Option.some.inj (numbered.symm.trans called)))
  · rename_i free
    refine free (List.any_eq_true.mpr ⟨_, member, ?_⟩)
    simpa using called

theorem chosenName_own (env : Env) (generator : Generator) (id : VarId) :
    chosenName env generator id = (env.scopes.declaration id).name ∨
      chosenName env generator id = env.scopes.numberedName id := by
  unfold chosenName
  split <;> simp

end Emission

end Covenant
