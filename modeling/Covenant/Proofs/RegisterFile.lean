import Covenant.Machine.Register
import Covenant.Proofs.Requests

/-!
# What the register file does

A register is held exactly while its place in the file has an owner.  Handing
out a register changes the place of a free one, giving one back changes the
place of a held one, and no other place changes.  `Tallies` says which places
are held and gives the counts that go with them; both requests keep it.
-/

namespace Covenant.RegisterFile

def Holds (file : RegisterFile) (index : Nat) : Prop :=
  ∃ owner, file.owners[index]? = some (some owner)

theorem isFree_iff (file : RegisterFile) (index : Nat) :
    file.isFree index = true ↔ file.owners[index]? = some none := by
  simp [isFree]

variable {file after : RegisterFile} {register : Register} {line index : Nat}

/-- A free register is not held. -/
theorem not_holds_of_isFree (free : file.isFree index = true) : ¬ file.Holds index := by
  rintro ⟨owner, held⟩
  rw [isFree_iff, held] at free
  simp at free

/-- A place of the file is free or held. -/
theorem isFree_of_not_holds (inside : index < file.owners.length) (free : ¬ file.Holds index) :
    file.isFree index = true := by
  rw [isFree_iff]
  cases found : file.owners[index]? with
  | none =>
    have outside := List.getElem?_eq_none_iff.mp found
    omega
  | some owner =>
    cases owner with
    | none => rfl
    | some node => exact absurd ⟨node, found⟩ free

/-- Which places are held after one of them has changed. -/
theorem holds_set_iff {owners : List (Option Nat)} {changed : Nat}
    (stats : RegisterStats) (owner : Option Nat) (inside : changed < owners.length)
    (index : Nat) :
    Holds { owners := owners.set changed owner, stats } index ↔
      if index = changed then owner.isSome = true
      else ∃ node, owners[index]? = some (some node) := by
  unfold Holds
  by_cases same : index = changed
  · subst same
    simp [List.getElem?_set_self inside, Option.isSome_iff_exists]
  · simp [List.getElem?_set_ne (Ne.symm same), same]

/-! ## Handing out -/

/-- How handing out a register ends, and what it leaves behind. -/
theorem take_run (file : RegisterFile) (owner line : Nat) (aliasName : Option String) :
    take owner aliasName line file =
      match file.lowest? with
      | none => .error (.internal line .registersExhausted) file
      | some index =>
        let taken := { file with owners := file.owners.set index (some owner) }
        let stats := { file.stats with
          allocations := file.stats.allocations + 1
          peak := max file.stats.peak taken.live }
        .ok { index, aliasName } { taken with stats } := by
  rw [take, Change.get_bind]
  cases file.lowest? <;> rfl

theorem take_cautious (owner line : Nat) (aliasName : Option String) :
    (take owner aliasName line).Cautious := by
  intro file error after failed
  rw [take_run] at failed
  cases found : file.lowest? <;> rw [found] at failed <;> cases failed
  rfl

/-- All that handing out a register does. -/
theorem alloc_cases {owner : Nat} {aliasName : Option String}
    (handed : file.alloc owner aliasName line = .ok (register, after)) :
    file.isFree register.index = true ∧ 1 ≤ register.index ∧ register.index < registerCount ∧
      register.aliasName = aliasName ∧
      after.owners = file.owners.set register.index (some owner) ∧
      after.stats.allocations = file.stats.allocations + 1 ∧
      after.stats.deallocations = file.stats.deallocations ∧
      after.stats.peak = max file.stats.peak after.live := by
  unfold alloc Change.outcome at handed
  rw [take_run] at handed
  cases found : file.lowest? with
  | none => simp [found] at handed
  | some index =>
    simp only [found, Except.ok.injEq, Prod.mk.injEq] at handed
    rcases handed with ⟨rfl, rfl⟩
    have lowest := found
    unfold lowest? at lowest
    rw [List.find?_range'_eq_some] at lowest
    rcases lowest with ⟨free, member, -⟩
    rw [List.mem_range'_1] at member
    simp only [registerCount] at member
    refine ⟨free, member.1, ?_, rfl, rfl, rfl, rfl, rfl⟩
    simp only [registerCount]
    omega

/-- The place of a free register is inside the file. -/
theorem lt_length_of_isFree (free : file.isFree index = true) : index < file.owners.length := by
  rw [isFree_iff] at free
  exact (List.getElem?_eq_some_iff.mp free).1

/-- After handing out a register, it is held in addition to the others. -/
theorem holds_alloc_iff {owner : Nat} {aliasName : Option String}
    (handed : file.alloc owner aliasName line = .ok (register, after)) (index : Nat) :
    after.Holds index ↔ index = register.index ∨ file.Holds index := by
  rcases alloc_cases handed with ⟨free, -, -, -, owners, -⟩
  have inside := lt_length_of_isFree free
  have changed := holds_set_iff after.stats (some owner) inside index
  rw [← owners] at changed
  by_cases same : index = register.index
  · simpa [same] using changed
  · simpa [same, Holds] using changed

/-! ## Giving back -/

/-- How giving back a register ends, and what it leaves behind. -/
theorem giveBack_run (file : RegisterFile) (register : Register) (line : Nat) :
    giveBack register line file =
      match file.owners[register.index]? with
      | some (some _) =>
        .ok () { owners := file.owners.set register.index none
                 stats := { file.stats with deallocations := file.stats.deallocations + 1 } }
      | _ => .error (.internal line (.registerFree register.index)) file := by
  rw [giveBack, Change.get_bind]
  rcases file.owners[register.index]? with _ | _ | _ <;> rfl

theorem giveBack_cautious (register : Register) (line : Nat) :
    (giveBack register line).Cautious := by
  intro file error after failed
  rw [giveBack_run] at failed
  rcases held : file.owners[register.index]? with _ | _ | _ <;> rw [held] at failed <;>
    cases failed
  · rfl
  · rfl

/-- All that giving a register back does. -/
theorem dealloc_cases (returned : file.dealloc register line = .ok after) :
    file.Holds register.index ∧
      after.owners = file.owners.set register.index none ∧
      after.stats.allocations = file.stats.allocations ∧
      after.stats.deallocations = file.stats.deallocations + 1 ∧
      after.stats.peak = file.stats.peak := by
  unfold dealloc Change.outcome at returned
  rw [giveBack_run] at returned
  rcases held : file.owners[register.index]? with _ | _ | owner <;> rw [held] at returned
  · cases returned
  · cases returned
  · cases returned
    exact ⟨⟨owner, held⟩, rfl, rfl, rfl, rfl⟩

/-- After giving back a register, the others are still held. -/
theorem holds_dealloc_iff (returned : file.dealloc register line = .ok after) (index : Nat) :
    after.Holds index ↔ index ≠ register.index ∧ file.Holds index := by
  rcases dealloc_cases returned with ⟨⟨owner, held⟩, owners, -⟩
  have inside := (List.getElem?_eq_some_iff.mp held).1
  have changed := holds_set_iff after.stats none inside index
  rw [← owners] at changed
  by_cases same : index = register.index
  · simpa [same] using changed
  · simpa [same, Holds] using changed

/-- A register that is held can be given back. -/
theorem dealloc_of_holds (held : file.Holds register.index) (line : Nat) :
    ∃ after, file.dealloc register line = .ok after := by
  rcases held with ⟨owner, found⟩
  unfold dealloc Change.outcome
  rw [giveBack_run, found]
  exact ⟨_, rfl⟩

/-! ## Counts -/

/-- Register zero is never held, so at most thirty-one registers are. -/
theorem live_le (size : file.owners.length = registerCount) (scratch : ¬ file.Holds 0) :
    file.live ≤ registerCount - 1 := by
  unfold live
  cases owners : file.owners with
  | nil => simp
  | cons first rest =>
    have unowned : first = none := by
      cases first with
      | none => rfl
      | some node => exact absurd ⟨node, by simp [owners]⟩ scratch
    have bound : rest.countP Option.isSome ≤ rest.length := List.countP_le_length
    rw [owners, List.length_cons] at size
    simp only [unowned, List.countP_cons, Option.isSome_none]
    simp only [Bool.false_eq_true, if_false]
    omega

/-- Where no register is held, nothing is left over. -/
theorem verify_of_not_holds (free : ∀ index, ¬ file.Holds index) (line : Nat) :
    file.verify line = .ok () := by
  have empty : file.held = [] := by
    unfold held
    rw [List.filterMap_eq_nil_iff]
    rintro ⟨owner, index⟩ member
    cases owner with
    | none => rfl
    | some node =>
      rw [List.mem_zipIdx_iff_getElem?] at member
      exact absurd ⟨node, member⟩ (free index)
  simp [verify, empty]

/-! ## Registers and counts together -/

variable {indices : List Nat}

/-- The registers with these indices are held, and no others; the counts go with them. -/
structure Tallies (file : RegisterFile) (indices : List Nat) : Prop where
  size : file.owners.length = registerCount
  taken : ∀ index, file.Holds index ↔ index ∈ indices
  distinct : indices.Nodup
  range : ∀ index ∈ indices, 1 ≤ index ∧ index < registerCount
  balance : file.stats.allocations = file.stats.deallocations + indices.length

namespace Tallies

/-- Nothing is held at the start. -/
theorem start : Tallies {} [] := by
  refine ⟨rfl, fun index => ?_, List.nodup_nil, nofun, rfl⟩
  simp [Holds, List.getElem?_replicate]

/-- Register zero is never held. -/
theorem scratch (tallies : file.Tallies indices) : ¬ file.Holds 0 := by
  rw [tallies.taken]
  exact fun member => Nat.not_lt_zero 0 (tallies.range 0 member).1

/-- A register that is handed out is held in addition. -/
theorem alloc {owner : Nat} {aliasName : Option String} (tallies : file.Tallies indices)
    (handed : file.alloc owner aliasName line = .ok (register, after)) :
    after.Tallies (register.index :: indices) ∧ register.index ∉ indices := by
  rcases alloc_cases handed with ⟨free, low, high, -, owners, allocations, deallocations, -⟩
  have fresh : register.index ∉ indices := by
    rw [← tallies.taken]
    exact not_holds_of_isFree free
  have balance := tallies.balance
  refine ⟨⟨?_, fun index => ?_, List.nodup_cons.mpr ⟨fresh, tallies.distinct⟩,
    List.forall_mem_cons.mpr ⟨⟨low, high⟩, tallies.range⟩, ?_⟩, fresh⟩
  · rw [owners, List.length_set, tallies.size]
  · rw [holds_alloc_iff handed, tallies.taken, List.mem_cons]
  · rw [List.length_cons]
    omega

/-- A register that is given back is no longer held. -/
theorem dealloc {rest : List Nat} (tallies : file.Tallies indices)
    (perm : indices.Perm (register.index :: rest))
    (returned : file.dealloc register line = .ok after) : after.Tallies rest := by
  rcases dealloc_cases returned with ⟨-, owners, allocations, deallocations, -⟩
  rcases List.nodup_cons.mp (perm.nodup_iff.mp tallies.distinct) with ⟨fresh, distinct⟩
  have balance := tallies.balance
  refine ⟨?_, fun index => ?_, distinct, fun index member => ?_, ?_⟩
  · rw [owners, List.length_set, tallies.size]
  · rw [holds_dealloc_iff returned, tallies.taken, perm.mem_iff, List.mem_cons]
    exact ⟨fun ⟨other, listed⟩ => listed.resolve_left other,
      fun listed => ⟨fun same => fresh (same ▸ listed), .inr listed⟩⟩
  · exact tallies.range index (perm.mem_iff.mpr (List.mem_cons_of_mem _ member))
  · rw [perm.length_eq, List.length_cons] at balance
    omega

end Tallies

end Covenant.RegisterFile
