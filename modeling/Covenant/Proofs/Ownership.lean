import Covenant.Emission.Generator
import Covenant.Proofs.RegisterFile
import Covenant.Proofs.Requests

/-!
# Who owns a register

While a module is emitted, a register is held by a variable it is bound to or
by a node that has taken it and has neither given it back nor handed it over to
a variable.  Emission does not keep a list of the second kind; `Reaches` does,
beside the run: it follows the actions of a program one by one and says which
registers are held by nodes at each moment.

`Owned` is what holds at every such moment.  `Sound` says of a program that it
keeps this up to its end, whatever the moment it starts from, and what is true
when it ends.
-/

namespace Covenant

namespace Generator

/-- The lines emitted so far. -/
def lines (generator : Generator) : List Line :=
  generator.output.toList

/-- The variable has a register. -/
def Binds (generator : Generator) (id : VarId) : Prop :=
  (generator.bindings.lookup id).isSome = true

/-- The indices of the registers that nodes or variables hold. -/
def indices (generator : Generator) (held : List Register) : List Nat :=
  held.map Register.index ++ generator.bindings.map fun binding => binding.2.index

variable {generator : Generator} {register : Register}

theorem mem_indices_held {held : List Register} (member : register ∈ held) :
    register.index ∈ generator.indices held := by
  unfold indices
  exact List.mem_append_left _ (List.mem_map_of_mem member)

/-- The register of a variable is among the bindings. -/
theorem mem_bindings {id : VarId} (bound : generator.bindings.lookup id = some register) :
    (id, register) ∈ generator.bindings := by
  rcases List.lookup_eq_some_iff.mp bound with ⟨before, after, split, -⟩
  rw [split]
  exact List.mem_append_right _ List.mem_cons_self

theorem mem_indices_bound {id : VarId} (bound : generator.bindings.lookup id = some register)
    (held : List Register) : register.index ∈ generator.indices held := by
  unfold indices
  exact List.mem_append_right _ (List.mem_map.mpr ⟨(id, register), mem_bindings bound, rfl⟩)

end Generator

namespace Emission

/--
The slots of the register file that are taken are exactly the registers of
variables and the ones that nodes hold, no two of them are the same, and none
is register zero.  The counts go with them.
-/
structure Owned (generator : Generator) (held : List Register) : Prop where
  size : generator.registers.owners.length = registerCount
  taken : ∀ index, generator.registers.Holds index ↔ index ∈ generator.indices held
  distinct : (generator.indices held).Nodup
  range : ∀ index ∈ generator.indices held, 1 ≤ index ∧ index < registerCount
  unique : (generator.bindings.map Prod.fst).Nodup
  balance : generator.registers.stats.allocations =
    generator.registers.stats.deallocations + (generator.indices held).length
  peak : generator.registers.stats.peak ≤ registerCount - 1

namespace Owned

/-- Nothing is held at the start. -/
theorem start : Owned {} [] :=
  have ⟨size, taken, distinct, range, balance⟩ := RegisterFile.Tallies.start
  ⟨size, taken, distinct, range, List.nodup_nil, balance, Nat.zero_le _⟩

variable {generator after : Generator} {held : List Register} {register : Register} {id : VarId}

theorem tallies (owned : Owned generator held) :
    generator.registers.Tallies (generator.indices held) :=
  ⟨owned.size, owned.taken, owned.distinct, owned.range, owned.balance⟩

/-- Only the register file and the bindings matter, and the order of what is held does not. -/
theorem of_perm {others : List Register} (owned : Owned generator held)
    (same : after.registers = generator.registers) (unique : (after.bindings.map Prod.fst).Nodup)
    (perm : (after.indices others).Perm (generator.indices held)) :
    Owned after others where
  size := by rw [same]; exact owned.size
  taken index := by rw [same, owned.taken index]; exact perm.mem_iff.symm
  distinct := perm.nodup_iff.mpr owned.distinct
  range index member := owned.range index (perm.mem_iff.mp member)
  unique := unique
  balance := by rw [same, perm.length_eq]; exact owned.balance
  peak := by rw [same]; exact owned.peak

/-- Lines, notes and called routines have nothing to do with registers. -/
theorem congr (owned : Owned generator held) (registers : after.registers = generator.registers)
    (bindings : after.bindings = generator.bindings) : Owned after held := by
  have indices : after.indices held = generator.indices held := by
    simp [Generator.indices, bindings]
  refine owned.of_perm registers ?_ (by rw [indices])
  rw [bindings]
  exact owned.unique

/-- Register zero is never held. -/
theorem zero_not_held (owned : Owned generator held) : 0 ∉ generator.indices held := by
  intro member
  have range := owned.range 0 member
  omega

/-- A register that is taken was not held before. -/
theorem take {mark : Mark} {aliasName : Option String} (owned : Owned generator held)
    (taking : generator.take mark aliasName = .ok (register, after)) :
    Owned after (register :: held) ∧ register.index ∉ generator.indices held ∧
      1 ≤ register.index ∧ register.index < registerCount ∧
      register.aliasName = aliasName ∧
      after = { generator with registers := after.registers } := by
  rcases exists_of_map taking with ⟨⟨taken, file⟩, handed, ended⟩
  rcases Prod.mk.inj ended with ⟨rfl, rfl⟩
  rcases RegisterFile.alloc_cases handed with ⟨-, low, high, named, -, -, -, peak⟩
  rcases owned.tallies.alloc handed with ⟨tallies, fresh⟩
  have live := RegisterFile.live_le tallies.size tallies.scratch
  refine ⟨⟨tallies.size, tallies.taken, tallies.distinct, tallies.range, owned.unique,
    tallies.balance, ?_⟩, fresh, low, high, named, rfl⟩
  show file.stats.peak ≤ _
  rw [peak]
  exact Nat.max_le.mpr ⟨owned.peak, live⟩

/-- A register that a node holds can be given back. -/
theorem give {line : Nat} (owned : Owned generator held) (member : register ∈ held)
    (giving : (Action.give register line).perform generator = .ok after) :
    Owned after (held.erase register) ∧
      after = { generator with registers := after.registers } := by
  rcases exists_of_map giving with ⟨file, returned, rfl⟩
  have split := (List.perm_cons_erase member).map Register.index
  have tallies := owned.tallies.dealloc (split.append_right _) returned
  rcases RegisterFile.dealloc_cases returned with ⟨-, -, -, -, peak⟩
  exact ⟨⟨tallies.size, tallies.taken, tallies.distinct, tallies.range, owned.unique,
    tallies.balance, Nat.le_trans (Nat.le_of_eq peak) owned.peak⟩, rfl⟩

/-- A register that a node holds can be handed over to a variable that has none. -/
theorem bind (owned : Owned generator held) (member : register ∈ held)
    (unbound : generator.bindings.lookup id = none) :
    Owned { generator with bindings := (id, register) :: generator.bindings }
      (held.erase register) := by
  refine owned.of_perm rfl ?_ ?_
  · refine List.nodup_cons.mpr ⟨?_, owned.unique⟩
    intro listed
    rcases List.mem_map.mp listed with ⟨⟨bound, other⟩, found, rfl⟩
    rw [List.lookup_eq_none_iff] at unbound
    simp at unbound
    exact unbound bound other found rfl
  · have split := (List.perm_cons_erase member).map Register.index
    refine List.Perm.trans ?_ (split.append_right _).symm
    simp [Generator.indices]

/-- The binding of a variable and the bindings of the others. -/
theorem perm_bindings {bindings : List (VarId × Register)}
    (distinct : (bindings.map Prod.fst).Nodup) (bound : bindings.lookup id = some register) :
    bindings.Perm
      ((id, register) :: bindings.filter fun binding => binding.1 != id) := by
  induction bindings with
  | nil => simp at bound
  | cons first rest ih =>
    rcases first with ⟨key, value⟩
    rw [List.map_cons, List.nodup_cons] at distinct
    rcases distinct with ⟨absent, distinct⟩
    by_cases same : id = key
    · subst same
      simp only [List.lookup_cons_self, Option.some.injEq] at bound
      subst bound
      have others : rest.filter (fun binding => binding.1 != id) = rest := by
        rw [List.filter_eq_self]
        rintro ⟨other, register⟩ member
        have different : other ≠ id := by
          rintro rfl
          exact absent (List.mem_map.mpr ⟨_, member, rfl⟩)
        simpa using different
      simp [others]
    · have differs : (id == key) = false := by simpa using same
      have further : rest.lookup id = some register := by
        simpa only [List.lookup_cons, differs] using bound
      have kept : (key != id) = true := by simpa using Ne.symm same
      simp only [List.filter_cons, kept, if_true]
      exact ((ih distinct further).cons _).trans (List.Perm.swap _ _ _)

/-- The register of a variable can be taken away from it. -/
theorem unbind (owned : Owned generator held)
    (bound : generator.bindings.lookup id = some register) :
    Owned { generator with
        bindings := generator.bindings.filter fun (other, _) => other != id }
      (register :: held) := by
  have perm := perm_bindings owned.unique bound
  refine owned.of_perm rfl ?_ ?_
  · exact owned.unique.sublist (List.filter_sublist.map _)
  · have indices := perm.map fun binding : VarId × Register => binding.2.index
    refine List.Perm.trans ?_ (indices.append_left _).symm
    simpa [Generator.indices] using List.perm_middle.symm

/-- Two variables never have the same register. -/
theorem bindings_apart {first second : VarId} {one other : Register} (owned : Owned generator held)
    (bound : generator.bindings.lookup first = some one)
    (also : generator.bindings.lookup second = some other) (different : first ≠ second) :
    one.index ≠ other.index := by
  intro same
  have perm := perm_bindings owned.unique bound
  have distinct := owned.distinct
  unfold Generator.indices at distinct
  have bindings := (List.nodup_append.mp distinct).2.1
  rw [(perm.map _).nodup_iff, List.map_cons, List.nodup_cons] at bindings
  have member := perm.mem_iff.mp (Generator.mem_bindings also)
  rcases List.mem_cons.mp member with equal | listed
  · exact different (Prod.mk.inj equal).1.symm
  · exact bindings.1 (List.mem_map.mpr ⟨_, listed, same.symm⟩)

end Owned

end Emission

end Covenant
