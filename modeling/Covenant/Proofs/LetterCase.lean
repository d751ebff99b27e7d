import Covenant.Callable.StandardRoutine
import Covenant.Proofs.RoutineRuns

/-!
# Changing the case of letters

The routines that change the case of letters take the characters of a text one
by one and look for each of them in an alphabet.  A character that is found is
replaced by the one in its place in another alphabet.
-/

namespace Covenant.Routine

open Datum (Reaches Returns Snapshot)

/-- What a character is replaced by. -/
def counterpart (sources targets : List Char) (character : Char) : Char :=
  ((sources.zip targets).lookup character).getD character

/-- Where the labels of the code stand. -/
structure Placed (name sources targets : String) : Prop where
  next : (convertCode name sources targets).idxOf? (.label (.named (name ++ "_next"))) = some 9
  scan : (convertCode name sources targets).idxOf? (.label (.named (name ++ "_scan"))) = some 14
  skip : (convertCode name sources targets).idxOf? (.label (.named (name ++ "_skip"))) = some 22
  append :
    (convertCode name sources targets).idxOf? (.label (.named (name ++ "_append"))) = some 25
  done : (convertCode name sources targets).idxOf? (.label (.named (name ++ "_done"))) = some 29

/-- The machine has converted some characters of a text. -/
structure Converting (sources targets : String) (content made : List Char) (place : Nat)
    (stack : List Datum) (machine : Machine Datum) : Prop where
  given : machine.registers 1 = .text content
  made : machine.registers 2 = .text made
  place : machine.registers 3 = .number place
  size : machine.registers 4 = .number content.length
  sources : machine.registers 10 = .text sources.toList
  targets : machine.registers 11 = .text targets.toList
  one : machine.registers 12 = .number (1 : Nat)
  all : machine.registers 13 = .number (26 : Nat)
  stack : machine.stack = stack

variable {name sources targets : String} {content made : List Char} {place : Nat}
  {stack : List Datum} {machine : Machine Datum} {goal : Snapshot → Prop}

/-- The registers in between can be used for anything. -/
theorem Converting.set (converting : Converting sources targets content made place stack machine)
    {index : Nat} (value : Datum) (low : 5 ≤ index) (high : index ≤ 8) :
    Converting sources targets content made place stack (machine.set index value) := by
  rcases converting with ⟨given, made, place, size, sources, targets, one, all, stack⟩
  refine ⟨?_, ?_, ?_, ?_, ?_, ?_, ?_, ?_, stack⟩ <;>
    rwa [Machine.registers_set_of_ne _ _ (by omega)]

/-- A character is looked for in what is left of the alphabet. -/
theorem scan_finds (placed : Placed name sources targets) {first : Nat} {left others : List Char}
    {character : Char} (converting : Converting sources targets content made place stack machine)
    (ahead : sources.toList.drop first = left) (beside : targets.toList.drop first = others)
    (paired : left.length = others.length) (whole : first + left.length = 26)
    (looked : machine.registers 6 = .text [character])
    (reached : machine.registers 7 = .number first)
    (rest : ∀ later, Converting sources targets content made place stack later →
      later.registers 6 = .text [counterpart left others character] →
      Reaches (convertCode name sources targets) goal (25, later)) :
    Reaches (convertCode name sources targets) goal (14, machine) := by
  refine .label rfl ?_
  induction left generalizing first others machine with
  | nil =>
    refine .computes (.flag false) rfl rfl (by simp [reached, converting.all, ← whole]) ?_
    refine .turns rfl (by simp) placed.append (rest _ (converting.set _ (by decide) (by decide)) ?_)
    simp [looked, counterpart]
  | cons head tail ih =>
    rcases others with _ | ⟨target, more⟩
    · cases paired
    rw [List.length_cons] at whole
    have inside : (first : Int) < 26 := by omega
    refine .computes (.flag true) rfl rfl (by simp [reached, converting.all, inside]) ?_
    have tested := converting.set (.flag true) (by decide : 5 ≤ 5) (by decide)
    refine .falls rfl (by simp) (.cuts rfl tested.sources reached tested.one ?_)
    have cut := tested.set (.text [head]) (by decide : 5 ≤ 8) (by decide)
    rw [ahead, List.take_succ_cons, List.take_zero]
    refine .computes (.flag (character = head)) rfl rfl (by simp [looked]) ?_
    have compared := cut.set (.flag (character = head)) (by decide : 5 ≤ 5) (by decide)
    by_cases same : character = head
    · refine .falls rfl (by simp [same]) (.cuts rfl compared.targets reached compared.one ?_)
      refine .jumps rfl placed.append (rest _ (compared.set _ (by decide) (by decide)) ?_)
      simp [beside, counterpart, same]
    · refine .turns rfl (by simp [same]) placed.skip (.label rfl (.increments rfl reached ?_))
      refine .jumps rfl placed.scan (.label rfl ?_)
      have tails {alphabet rest : List Char} {one : Char}
          (drop : alphabet.drop first = one :: rest) :
          alphabet.drop (first + 1) = rest := by
        rw [← List.drop_drop, drop]
        rfl
      refine ih (compared.set _ (by decide) (by decide)) (tails ahead) (tails beside)
        (Nat.succ.inj paired) (by omega) (by simpa using looked) (by simp)
        fun later converted found => rest later converted (found.trans ?_)
      have different : (character == head) = false := by simpa using same
      simp [counterpart, List.lookup_cons, different]

/-- One character after the other is converted. -/
theorem convert_rest (placed : Placed name sources targets) {ahead : List Char}
    (paired : sources.toList.length = 26 ∧ targets.toList.length = 26)
    (converting : Converting sources targets content made place stack machine)
    (left : content.drop place = ahead) :
    Returns (convertCode name sources targets)
      (.text (made ++ ahead.map (counterpart sources.toList targets.toList)) :: stack)
      (9, machine) := by
  refine .label rfl ?_
  induction ahead generalizing made place machine with
  | nil =>
    have last : content.length ≤ place := List.drop_eq_nil_iff.mp left
    refine .computes (.flag false) rfl rfl (by simp [converting.place, converting.size, last]) ?_
    refine .turns rfl (by simp) placed.done (.label rfl (.pushes rfl (.here ⟨?_, rfl⟩)))
    simp [converting.made, converting.stack]
  | cons head tail ih =>
    have inside : place < content.length := by
      have counted := congrArg List.length left
      simp only [List.length_drop, List.length_cons] at counted
      omega
    refine .computes (.flag true) rfl rfl (by simp [converting.place, converting.size, inside]) ?_
    have tested := converting.set (.flag true) (by decide : 5 ≤ 5) (by decide)
    refine .falls rfl (by simp) (.cuts rfl tested.given tested.place tested.one ?_)
    rw [left, List.take_succ_cons, List.take_zero]
    refine .loads rfl rfl ?_
    have taken := (tested.set (.text [head]) (by decide : 5 ≤ 6) (by decide)).set
      (.number (0 : Nat)) (by decide : 5 ≤ 7) (by decide)
    refine scan_finds placed taken List.drop_zero List.drop_zero (paired.1.trans paired.2.symm)
      (by rw [paired.1]) rfl rfl fun later converted found => ?_
    refine .label rfl (.computes (.text (made ++ [counterpart sources.toList targets.toList head]))
      rfl rfl ?_ ?_)
    · rw [converted.made, found]
      rfl
    · refine .increments rfl converted.place (.jumps rfl placed.next (.label rfl ?_))
      have onward : content.drop (place + 1) = tail := by
        rw [← List.drop_drop, left]
        rfl
      have further : Converting sources targets content
          (made ++ [counterpart sources.toList targets.toList head]) (place + 1) stack
          ((later.set 2 (.text (made ++ [counterpart sources.toList targets.toList head]))).set 3
            (.number (place + 1))) := by
        rcases converted with ⟨given, -, -, size, sources, targets, one, all, stack⟩
        exact ⟨given, rfl, rfl, size, sources, targets, one, all, stack⟩
      rw [List.map_cons, List.append_cons]
      exact ih further onward

/-! ## The two alphabets -/

theorem upper_placed : Placed "@tomb_string_toUpper" lowercase uppercase := by
  constructor <;> decide

theorem lower_placed : Placed "@tomb_string_toLower" uppercase lowercase := by
  constructor <;> decide

/-- What does not stand in the alphabet is not replaced. -/
theorem counterpart_of_not_mem {alphabet others : List Char} {character : Char}
    (missing : character ∉ alphabet) : counterpart alphabet others character = character := by
  have unpaired : (alphabet.zip others).lookup character = none := by
    rw [List.lookup_eq_none_iff]
    rintro ⟨source, target⟩ member
    simp only [bne_iff_ne, ne_eq]
    rintro rfl
    exact missing (List.of_mem_zip member).1
  simp [counterpart, unpaired]

/-- To change letters is to replace them, where the letters have numbers in a row. -/
theorem counterpart_eq {low : Nat} {alphabet others : List Char} {change : Char → Char}
    (letters : ∀ index < 26, Char.ofNat (low + index) ∈ alphabet)
    (changed : alphabet.map (counterpart alphabet others) = alphabet.map change)
    (kept : ∀ character : Char, ¬ (low ≤ character.toNat ∧ character.toNat ≤ low + 25) →
      change character = character) (character : Char) :
    counterpart alphabet others character = change character := by
  by_cases letter : character ∈ alphabet
  · exact List.map_inj_left.mp changed character letter
  · rw [counterpart_of_not_mem letter, kept character]
    rintro ⟨above, below⟩
    have listed := letters (character.toNat - low) (by omega)
    rw [Nat.add_sub_cancel' above, Char.ofNat_toNat] at listed
    exact letter listed

theorem counterpart_upper :
    counterpart lowercase.toList uppercase.toList = Char.toUpper :=
  funext (@counterpart_eq 97 _ _ _ (by decide) (by decide) fun _ other => dif_neg other)

theorem counterpart_lower :
    counterpart uppercase.toList lowercase.toList = Char.toLower :=
  funext (@counterpart_eq 65 _ _ _ (by decide) (by decide) fun _ other => dif_neg other)

/-- The code takes a text off the stack and leaves it with its characters replaced. -/
theorem convert_returns (placed : Placed name sources targets)
    (paired : sources.toList.length = 26 ∧ targets.toList.length = 26)
    (registers : Nat → Datum) (content : List Char) (stack : List Datum) :
    Returns (convertCode name sources targets)
      (.text (content.map (counterpart sources.toList targets.toList)) :: stack)
      (0, ⟨registers, .text content :: stack⟩) := by
  refine .label rfl (.pops rfl rfl (.loads rfl rfl (.loads rfl rfl (.counts rfl rfl ?_))))
  refine .loads rfl rfl (.loads rfl rfl (.loads rfl rfl (.loads rfl rfl ?_)))
  rw [← List.nil_append (content.map _)]
  exact convert_rest placed paired ⟨rfl, rfl, rfl, rfl, rfl, rfl, rfl, rfl, rfl⟩ List.drop_zero

/--
The routines that change the case of letters end without a failure.  They take a
text off the stack and leave it with every letter in the other case, and with
every other character as it was.
-/
theorem letters_converted (registers : Nat → Datum) (content : List Char) (stack : List Datum) :
    (toUpper ∈ standard ∧ toUpper.body = toUpperCode.map Line.render ∧
      Returns toUpperCode (.text (content.map Char.toUpper) :: stack)
        (0, ⟨registers, .text content :: stack⟩)) ∧
    toLower ∈ standard ∧ toLower.body = toLowerCode.map Line.render ∧
      Returns toLowerCode (.text (content.map Char.toLower) :: stack)
        (0, ⟨registers, .text content :: stack⟩) := by
  refine ⟨⟨by simp [standard], rfl, ?_⟩, by simp [standard], rfl, ?_⟩
  · rw [← counterpart_upper]
    exact convert_returns upper_placed (by decide) registers content stack
  · rw [← counterpart_lower]
    exact convert_returns lower_placed (by decide) registers content stack

end Covenant.Routine
