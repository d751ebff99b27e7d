import Covenant.Proofs.RegisterFile
import Covenant.Proofs.Requests
import Mathlib.Data.List.Induction
import Mathlib.Data.List.Nodup
import Mathlib.Data.List.Perm.Subperm
import Mathlib.Order.Bounds.Basic

/-!
# Registers under requests

Registers are taken and given back by requests.  A `Ledger` keeps the register
file together with the registers that were handed out and have not come back.
After any requests the two agree, and the counts are those of what has happened.
-/

namespace Covenant.RegisterFile

variable {file : RegisterFile} {indices : List Nat}

/-! ## Registers that are left -/

/-- As many places have an owner as there are indices. -/
theorem Tallies.live (tallies : file.Tallies indices) : file.live = indices.length := by
  have held : (file.owners.zipIdx.filter fun place => place.1.isSome).map Prod.snd
      |>.Perm indices := by
    refine (List.perm_ext_iff_of_nodup ?_ tallies.distinct).mpr fun index => ?_
    · refine List.Nodup.sublist (List.filter_sublist.map _) ?_
      rw [List.zipIdx_map_snd]
      exact List.nodup_range'
    · rw [← tallies.taken, Holds]
      simp [List.mem_zipIdx_iff_getElem?, Option.isSome_iff_exists]
  rw [← held.length_eq, List.length_map, ← List.countP_eq_length_filter, RegisterFile.live]
  conv_lhs => rw [← List.zipIdx_map_fst 0 file.owners, List.countP_map]
  rfl

/-- Handing out fails if there are thirty-one indices, and only then. -/
theorem Tallies.alloc_fails_iff (tallies : file.Tallies indices) (owner line : Nat)
    (aliasName : Option String) :
    (∃ error, file.alloc owner aliasName line = .error error) ↔ file.live = 31 := by
  have within : indices.Subperm (List.range' 1 31) := by
    refine List.subperm_of_subset tallies.distinct fun index member => ?_
    have range := tallies.range index member
    rw [List.mem_range'_1]
    exact ⟨range.1, range.2⟩
  have full : file.lowest? = none ↔ List.range' 1 31 ⊆ indices := by
    rw [lowest?, List.find?_eq_none]
    refine forall₂_congr fun index member => ?_
    rw [← tallies.taken]
    refine ⟨fun taken => ?_, fun held free => not_holds_of_isFree free held⟩
    by_contra unheld
    refine taken (isFree_of_not_holds ?_ unheld)
    rw [tallies.size]
    exact (List.mem_range'_1.mp member).2
  have failing : (∃ error, file.alloc owner aliasName line = .error error) ↔
      file.lowest? = none := by
    rw [RegisterFile.alloc, Change.outcome, take_run]
    cases file.lowest? <;> simp
  rw [failing, full, tallies.live]
  refine ⟨fun all => ?_, fun many => (within.perm_of_length_le many.ge).symm.subset⟩
  exact Nat.le_antisymm within.length_le
    (List.subperm_of_subset List.nodup_range' all).length_le

/-- Of the places that are left, the lowest is handed out. -/
theorem alloc_least {owner line : Nat} {aliasName : Option String} {register : Register}
    {later : RegisterFile} (size : file.owners.length = registerCount)
    (handed : file.alloc owner aliasName line = .ok (register, later)) :
    IsLeast {index | index ∈ Set.Icc 1 31 ∧ ¬ file.Holds index} register.index := by
  rcases alloc_cases handed with ⟨free, positive, inside, -⟩
  refine ⟨⟨⟨positive, Nat.le_of_lt_succ inside⟩, not_holds_of_isFree free⟩,
    fun index ⟨range, unheld⟩ => ?_⟩
  by_contra lower
  rw [alloc, Change.outcome, take_run] at handed
  cases found : file.lowest? with
  | none => simp [found] at handed
  | some lowest =>
    simp only [found, Except.ok.injEq, Prod.mk.injEq] at handed
    rcases handed with ⟨rfl, -⟩
    have skipped := (List.find?_range'_eq_some.mp found).2.2 index range.1 (by simpa using lower)
    simp [isFree_of_not_holds (size ▸ Nat.lt_succ_of_le range.2) unheld] at skipped

/-- Nothing is left over exactly if nothing is held. -/
theorem Tallies.verify_iff (tallies : file.Tallies indices) (line : Nat) :
    file.verify line = .ok () ↔ file.live = 0 := by
  rw [tallies.live, List.length_eq_zero_iff, List.eq_nil_iff_forall_not_mem]
  simp only [← tallies.taken]
  refine ⟨fun verified index ⟨owner, found⟩ => ?_, fun free => verify_of_not_holds free line⟩
  have listed : (index, owner) ∈ file.held := List.mem_filterMap.mpr
    ⟨(some owner, index), List.mem_zipIdx_iff_getElem?.mpr found, rfl⟩
  unfold verify at verified
  split at verified
  · simp_all
  · cases verified

/-- Giving back fails for a place without an owner, and only there. -/
theorem dealloc_fails_iff (register : Register) (line : Nat) :
    (∃ error, file.dealloc register line = .error error) ↔ ¬ file.Holds register.index := by
  constructor
  · rintro ⟨error, failed⟩ held
    rcases dealloc_of_holds held line with ⟨later, returned⟩
    simp [returned] at failed
  · intro free
    cases returned : file.dealloc register line with
    | error error => exact ⟨error, rfl⟩
    | ok later => exact absurd (dealloc_cases returned).1 free

/-! ## Requests -/

/-- A request to the register file. -/
inductive Request where
  | take (owner : Nat) (aliasName : Option String) (line : Nat)
  | give (register : Register) (line : Nat)

/-- The register file, and the registers that are out. -/
structure Ledger where
  file : RegisterFile := {}
  out : List Register := []

namespace Ledger

variable {ledger later : Ledger} {request : Request}

def perform : Request → Change Ledger Unit
  | .take owner aliasName line => fun ledger =>
    match RegisterFile.take owner aliasName line ledger.file with
    | .ok register file => .ok () { file, out := register :: ledger.out }
    | .error error file => .error error { ledger with file }
  | .give register line => fun ledger =>
    match RegisterFile.giveBack register line ledger.file with
    | .ok _ file =>
      .ok () { file, out := ledger.out.filter fun other => other.index ≠ register.index }
    | .error error file => .error error { ledger with file }

/-- The ledger after requests, some of which may have failed. -/
def after (requests : List Request) : Ledger :=
  requests.foldl (fun ledger request => (perform request).state ledger) {}

theorem perform_cautious (request : Request) : (perform request).Cautious := by
  intro ledger error later failed
  cases request with
  | take owner aliasName line =>
    cases run : RegisterFile.take owner aliasName line ledger.file with
    | ok register file => simp [perform, run] at failed
    | error reported file =>
      simp only [perform, run, EStateM.Result.error.injEq] at failed
      rw [← failed.2, take_cautious owner line aliasName _ _ _ run]
  | give register line =>
    cases run : RegisterFile.giveBack register line ledger.file with
    | ok _ file => simp [perform, run] at failed
    | error reported file =>
      simp only [perform, run, EStateM.Result.error.injEq] at failed
      rw [← failed.2, giveBack_cautious register line _ _ _ run]

/-- The registers that are out are those with an owner. -/
def Exact (ledger : Ledger) : Prop :=
  ledger.file.Tallies (ledger.out.map Register.index)

/-- A request keeps the ledger exact, and raises the peak to what is held then. -/
theorem Exact.perform (exact : ledger.Exact) (most : ledger.file.live ≤ ledger.file.stats.peak)
    (performed : perform request ledger = .ok () later) :
    later.Exact ∧ later.file.stats.peak = max later.file.live ledger.file.stats.peak := by
  cases request with
  | take owner aliasName line =>
    cases run : RegisterFile.take owner aliasName line ledger.file with
    | error error file => simp [Ledger.perform, run] at performed
    | ok register file =>
      simp only [Ledger.perform, run, EStateM.Result.ok.injEq, true_and] at performed
      subst performed
      have handed : ledger.file.alloc owner aliasName line = .ok (register, file) :=
        Change.outcome_of_run run
      rcases alloc_cases handed with ⟨-, -, -, -, -, -, -, peak⟩
      exact ⟨(Tallies.alloc exact handed).1, peak.trans (Nat.max_comm _ _)⟩
  | give register line =>
    cases run : RegisterFile.giveBack register line ledger.file with
    | error error file => simp [Ledger.perform, run] at performed
    | ok _ file =>
      simp only [Ledger.perform, run, EStateM.Result.ok.injEq, true_and] at performed
      subst performed
      have returned : ledger.file.dealloc register line = .ok file := by
        rw [dealloc, Change.outcome_of_run run]
        rfl
      rcases dealloc_cases returned with ⟨held, -, -, -, peak⟩
      have split := List.perm_cons_erase ((Tallies.taken exact _).mp held)
      rw [exact.distinct.erase_eq_filter, List.filter_map] at split
      have tallies := Tallies.dealloc exact split returned
      have fewer := split.length_eq
      rw [List.length_cons, ← tallies.live, ← exact.live] at fewer
      refine ⟨by simpa [Exact, Function.comp_def, bne, beq_eq_decide] using tallies, ?_⟩
      have least : file.live ≤ ledger.file.stats.peak := by omega
      rw [max_eq_right least, peak]

/-- The numbers of registers held after none of the requests, the first, the first two and so on. -/
def heights (requests : List Request) : Set Nat :=
  {live | ∃ earlier, earlier <+: requests ∧ (after earlier).file.live = live}

/-- After any requests the ledger is exact, and the peak is the most that was ever held. -/
theorem after_exact (requests : List Request) :
    (after requests).Exact ∧ IsGreatest (heights requests) (after requests).file.stats.peak := by
  induction requests using List.reverseRecOn with
  | nil =>
    refine ⟨Tallies.start, ⟨[], List.prefix_rfl, rfl⟩, ?_⟩
    rintro live ⟨earlier, within, rfl⟩
    rw [List.prefix_nil.mp within]
    exact Nat.le_refl 0
  | append_singleton earlier request ih =>
    rcases ih with ⟨exact, greatest⟩
    have most := greatest.2 ⟨earlier, List.prefix_rfl, rfl⟩
    have more : heights (earlier ++ [request]) =
        insert (after (earlier ++ [request])).file.live (heights earlier) := by
      ext live
      simp [heights, List.prefix_concat_iff, or_and_right, exists_or, eq_comm]
    rw [more, after, List.foldl_concat, ← after]
    refine (perform_cautious request).state (fun later => later.Exact ∧
      IsGreatest (insert later.file.live (heights earlier)) later.file.stats.peak) ?_ ?_
    · exact ⟨exact, max_eq_right most ▸ greatest.insert _⟩
    · intro _ later performed
      rcases exact.perform most performed with ⟨exact, peak⟩
      exact ⟨exact, peak ▸ greatest.insert _⟩

/--
After any requests, the registers that are out are distinct and are those with an owner, register
zero is not one of them, and the counts are exact.  The lowest register that is left is taken, and
none only if thirty-one are held; one that is not held cannot be given back; and a request that
fails changes nothing.
-/
theorem requests_exact (requests : List Request) :
    let ledger := after requests
    let file := ledger.file
    (ledger.Exact ∧ ¬ file.Holds 0) ∧
    (file.live + file.stats.deallocations = file.stats.allocations ∧
      IsGreatest (heights requests) file.stats.peak) ∧
    (∀ owner aliasName line,
      ((∃ error, file.alloc owner aliasName line = .error error) ↔ file.live = 31) ∧
      ∀ register later, file.alloc owner aliasName line = .ok (register, later) →
        IsLeast {index | index ∈ Set.Icc 1 31 ∧ ¬ file.Holds index} register.index) ∧
    (∀ register line, (∃ error, file.dealloc register line = .error error) ↔
      ¬ file.Holds register.index) ∧
    (∀ line, file.verify line = .ok () ↔ file.live = 0) ∧
    ∀ request error later, perform request ledger = .error error later → later = ledger := by
  rcases after_exact requests with ⟨exact, greatest⟩
  refine ⟨⟨exact, exact.scratch⟩, ⟨?_, greatest⟩, fun owner aliasName line => ⟨?_, fun _ _ => ?_⟩,
    dealloc_fails_iff, exact.verify_iff, fun request => perform_cautious request _⟩
  · rw [exact.live, exact.balance, Nat.add_comm]
  · exact exact.alloc_fails_iff owner line aliasName
  · exact alloc_least exact.size

end Ledger

end Covenant.RegisterFile
