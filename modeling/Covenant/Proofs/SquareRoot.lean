import Covenant.Callable.StandardRoutine
import Covenant.Proofs.RoutineRuns
import Mathlib.Tactic.Linarith

/-!
# The square root

The routine for square roots improves a guess as long as it gets smaller.  A
guess that is not below the root leads to one that is not below it either, and
where the next guess is not smaller, the square of the guess is small enough.
-/

namespace Covenant.Routine

open Datum (Reaches Returns Snapshot)

/-! ## Guesses -/

/-- The guess that follows a guess. -/
def improve (radicand guess : Nat) : Nat :=
  (guess + radicand / guess) / 2

variable {radicand guess : Nat}

theorem improve_pos (some : 0 < radicand) (positive : 0 < guess) : improve radicand guess ≠ 0 := by
  have large : 2 ≤ guess + radicand / guess := by
    rcases Nat.lt_or_ge guess 2 with small | large
    · obtain rfl : guess = 1 := by omega
      rw [Nat.div_one]
      omega
    · exact Nat.le_add_right_of_le large
  unfold improve
  omega

/-- The mean of two numbers is not below the root of their product. -/
theorem lt_square_improve (positive : 0 < guess) :
    radicand < (improve radicand guess + 1) * (improve radicand guess + 1) := by
  have product : radicand < guess * (radicand / guess + 1) := Nat.lt_mul_div_succ radicand positive
  have mean : guess + (radicand / guess + 1) ≤ 2 * (improve radicand guess + 1) := by
    unfold improve
    omega
  generalize improve radicand guess + 1 = next at mean ⊢
  generalize radicand / guess + 1 = other at product mean
  zify at product mean ⊢
  nlinarith [sq_nonneg ((guess : ℤ) - other)]

theorem square_le_of_le_improve (last : guess ≤ improve radicand guess) :
    guess * guess ≤ radicand := by
  have large : guess ≤ radicand / guess := by
    unfold improve at last
    omega
  exact (Nat.mul_le_mul_left guess large).trans (Nat.mul_div_le radicand guess)

/-! ## The code -/

theorem sqrtLoop_place :
    sqrtCode.idxOf? (.label (.named "@tomb_math_sqrt_loop")) = some 7 := by
  decide

theorem sqrtDone_place :
    sqrtCode.idxOf? (.label (.named "@tomb_math_sqrt_done")) = some 16 := by
  decide

variable {machine : Machine Datum} {next : Nat} {goal : Snapshot → Prop}

/-- One round of the loop. -/
theorem sqrt_round (given : machine.registers 1 = .number radicand)
    (guessed : machine.registers 2 = .number guess)
    (improved : machine.registers 3 = .number next) (smaller : next < guess) (some : next ≠ 0)
    (rest : ∀ later : Machine Datum, later.stack = machine.stack →
      later.registers 1 = .number radicand → later.registers 2 = .number next →
      later.registers 3 = .number (improve radicand next) → Reaches sqrtCode goal (7, later)) :
    Reaches sqrtCode goal (7, machine) := by
  refine .label rfl ?_
  refine .computes (.flag true) rfl rfl (by simp [improved, guessed, smaller]) ?_
  refine .falls rfl (by simp) ?_
  refine .copies rfl ?_
  refine .computes (.number (radicand / next : Nat)) rfl rfl (by simp [given, improved, some]) ?_
  refine .computes (.number (next + radicand / next : Nat)) rfl rfl (by simp [improved]) ?_
  refine .loads rfl rfl ?_
  refine .computes (.number (improve radicand next)) rfl rfl (Datum.binary_div two_ne_zero) ?_
  refine .jumps rfl sqrtLoop_place ?_
  exact rest _ rfl (by simp [given]) (by simp [improved]) (by simp)

/-- A guess that does not get smaller is handed over. -/
theorem sqrt_leaves (guessed : machine.registers 2 = .number guess)
    (improved : machine.registers 3 = .number next) (last : guess ≤ next) :
    Returns sqrtCode (.number guess :: machine.stack) (7, machine) := by
  refine .label rfl ?_
  refine .computes (.flag false) rfl rfl (by simp [improved, guessed, last]) ?_
  refine .turns rfl (by simp) sqrtDone_place ?_
  exact .label rfl (.pushes rfl (.here ⟨by simp [guessed], rfl⟩))

/-- From a guess that is not below the root the loop leads to the root. -/
theorem sqrt_loop (some : 0 < radicand) (positive : 0 < guess)
    (above : radicand < (guess + 1) * (guess + 1))
    (given : machine.registers 1 = .number radicand)
    (guessed : machine.registers 2 = .number guess)
    (improved : machine.registers 3 = .number (improve radicand guess)) :
    Returns sqrtCode (.number (Nat.sqrt radicand) :: machine.stack) (7, machine) := by
  induction guess using Nat.strong_induction_on generalizing machine with
  | _ guess ih =>
    rcases Nat.lt_or_ge (improve radicand guess) guess with smaller | last
    · have left := improve_pos some positive
      refine sqrt_round given guessed improved smaller left fun later stack kept next after => ?_
      rw [← stack]
      exact ih _ smaller (Nat.pos_of_ne_zero left) (lt_square_improve positive) kept next after
    · rw [← Nat.eq_sqrt.mpr ⟨square_le_of_le_improve last, above⟩]
      exact sqrt_leaves guessed improved last

/--
The routine for square roots ends without a failure, takes its argument off the
stack and leaves the largest number whose square does not exceed it.
-/
theorem sqrt_extracts (radicand : Nat) (registers : Nat → Datum) (stack : List Datum) :
    sqrt ∈ standard ∧ sqrt.body = sqrtCode.map Line.render ∧
    ∃ root : Nat, IsGreatest {number | number * number ≤ radicand} root ∧
      Returns sqrtCode (.number root :: stack) (0, ⟨registers, .number radicand :: stack⟩) := by
  have greatest : IsGreatest {number | number * number ≤ radicand} (Nat.sqrt radicand) :=
    ⟨Nat.sqrt_le radicand, fun number fits => Nat.le_sqrt.mpr fits⟩
  refine ⟨by simp [standard], rfl, Nat.sqrt radicand, greatest, ?_⟩
  refine .label rfl (.pops rfl rfl (.copies rfl (.loads rfl rfl ?_)))
  refine .computes (.number (radicand + 1 : Nat)) rfl rfl (by simp) ?_
  refine .loads rfl rfl ?_
  refine .computes (.number ((radicand + 1) / 2 : Nat)) rfl rfl (Datum.binary_div two_ne_zero) ?_
  rcases Nat.eq_zero_or_pos radicand with rfl | some
  · exact sqrt_leaves (by simp) (by simp) (Nat.le_refl 0)
  · have first : improve radicand radicand = (radicand + 1) / 2 := by
      simp [improve, Nat.div_self some]
    exact sqrt_loop some some (by nlinarith) (by simp) (by simp) (by simp [first])

end Covenant.Routine
