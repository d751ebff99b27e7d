import Covenant.Proofs.StackEffects
import Covenant.Proofs.Stepping

/-!
# The height of the stack

The machine that steps through code is given a stack, of which only the height
is known, counted from where the code starts.  If the lines lead from an empty
stack to an empty stack, then each place has one height, and the machine has
that height there whichever way it has come.
-/

namespace Covenant

/-! ## A machine with a stack -/

namespace Region

/-- The effect of the call at a place, if the calls of the region have these effects in order. -/
def effect? (region : Region) (effects : List Effect) (place : Nat) : Option Effect :=
  effects[(region.lines.take (place - region.base)).countP (·.stackUse = .call)]?

/--
With the outcomes that it was given at the start of the region the machine has
come to a place, with so many values on the stack and outcomes left.  It stops
where a line needs more than there is on the stack.
-/
inductive Climbs (region : Region) (exit : Label) (effects : List Effect)
    (outcomes : List Bool) : Nat → Nat → List Bool → Prop
  | start : Climbs region exit effects outcomes region.base 0 outcomes
  | go {place there height later : Nat} {rest last : List Bool} {sights : List Sight}
      {line : Line} (climbs : Climbs region exit effects outcomes place height rest)
      (stands : region.line? place = some line)
      (shifts : line.stackUse.shift? (region.effect? effects place) height = some later)
      (goes : region.step exit place rest = some (.go sights there last)) :
      Climbs region exit effects outcomes there later last

/-- The machine comes to the exit, by a jump or behind the last line, with so many values. -/
inductive Arrives (region : Region) (exit : Label) (effects : List Effect)
    (outcomes : List Bool) : Nat → Prop
  | through {height : Nat} {rest : List Bool}
      (climbs : Climbs region exit effects outcomes region.finish height rest) :
      Arrives region exit effects outcomes height
  | returned {place height : Nat} {rest : List Bool} {sights : List Sight}
      (climbs : Climbs region exit effects outcomes place height rest)
      (stops : region.step exit place rest = some (.stop sights .returned)) :
      Arrives region exit effects outcomes height

end Region

/-! ## Heights that are read off the code -/

theorem StackUse.Shifts.length_eq {use : StackUse} {used : List Effect} {before after : Nat}
    (shifts : use.Shifts used before after) : used.length = if use = .call then 1 else 0 := by
  cases shifts <;> rfl

/-- What a line does to the stack is what the machine does there. -/
theorem StackUse.Shifts.shift? {use : StackUse} {used : List Effect} {before after : Nat}
    (shifts : use.Shifts used before after) (others : List Effect) :
    use.shift? (used ++ others).head? before = some after := by
  cases shifts with
  | push | nothing => rfl
  | pop | call effect height => simp [StackUse.shift?]

namespace Line.Lifts

variable {exit : Label} {result : Nat} {line : Line} {used others : List Effect}
  {before after : Nat}

theorem length_eq (lifts : line.Lifts exit result used before after) :
    used.length = if line.stackUse = .call then 1 else 0 := by
  cases lifts with
  | straight runs shifts => exact shifts.length_eq
  | _ => rfl

/-- There is enough on the stack for the line. -/
theorem isSome_shift? (lifts : line.Lifts exit result used before after) (others : List Effect) :
    (line.stackUse.shift? (used ++ others).head? before).isSome = true := by
  cases lifts with
  | straight runs shifts => rw [shifts.shift?]; rfl
  | _ => rfl

/-- A line leads to one height only. -/
theorem unique (lifts : line.Lifts exit result used before after) {other : Nat}
    (again : line.Lifts exit result used before other) : other = after := by
  cases lifts with
  | straight runs shifts =>
    cases again with
    | straight _ second =>
      have first := shifts.shift? []
      rw [second.shift? []] at first
      exact Option.some.inj first
    | _ => cases runs
  | label place =>
    cases again with
    | straight runs => cases runs
    | label => rfl
  | jump inside | giveBack =>
    cases again with
    | straight runs => cases runs
    | jump => rfl
    | giveBack => rfl
  | jumpIf =>
    cases again with
    | straight runs => cases runs
    | jumpIf => rfl
  | jumpNot =>
    cases again with
    | straight runs => cases runs
    | jumpNot => rfl
  | throw =>
    cases again with
    | straight runs => cases runs
    | throw => rfl

end Line.Lifts

namespace Rises

variable {exit : Label} {result : Nat} {lines : List Line} {effects others : List Effect}
  {before after : Nat}

theorem length_eq (rises : Rises exit result lines effects before after) :
    effects.length = lines.countP (·.stackUse = .call) := by
  induction rises with
  | nil height => rfl
  | cons lifts further ih =>
    rw [List.length_append, lifts.length_eq, ih, List.countP_cons, Nat.add_comm]
    simp

theorem head {line : Line} (rises : Rises exit result (line :: lines) effects before after) :
    ∃ used others between, effects = used ++ others ∧
      line.Lifts exit result used before between ∧
      Rises exit result lines others between after := by
  cases rises with
  | cons lifts further => exact ⟨_, _, _, rfl, lifts, further⟩

/-- Lines lead to one height only. -/
theorem unique (rises : Rises exit result lines effects before after) {other : Nat}
    (again : Rises exit result lines effects before other) : other = after := by
  induction rises generalizing other with
  | nil height =>
    cases again
    rfl
  | cons lifts further ih =>
    rcases again.head with ⟨used, remaining, between, same, second, rest⟩
    rcases List.append_inj same (by rw [lifts.length_eq, second.length_eq]) with ⟨rfl, rfl⟩
    cases lifts.unique second
    exact ih rest

end Rises

namespace Region

variable {region : Region} {exit : Label} {result : Nat} {effects : List Effect}

/-- The lines before a place lead to the height, and those from there on lead to zero. -/
def HeightAt (region : Region) (exit : Label) (result : Nat) (effects : List Effect)
    (place height : Nat) : Prop :=
  ∃ front back used others, region.lines = front ++ back ∧ effects = used ++ others ∧
    place = region.base + front.length ∧ Rises exit result front used 0 height ∧
    Rises exit result back others height 0

variable {place height there : Nat} {outcomes rest : List Bool} {sights seen : List Sight}
  {target : Label}

/-- There is one height at a place only. -/
theorem HeightAt.unique {other : Nat} (first : region.HeightAt exit result effects place height)
    (second : region.HeightAt exit result effects place other) : other = height := by
  rcases first with ⟨front, back, used, others, lines, parts, rfl, rises, -⟩
  rcases second with ⟨before, after, early, late, sameLines, sameParts, place, again, -⟩
  rw [lines] at sameLines
  rcases List.append_inj sameLines (by omega) with ⟨rfl, rfl⟩
  rw [parts] at sameParts
  rcases List.append_inj sameParts (by rw [rises.length_eq, again.length_eq]) with ⟨rfl, rfl⟩
  exact rises.unique again

theorem heightAt_base (rises : Rises exit result region.lines effects 0 0) :
    region.HeightAt exit result effects region.base 0 :=
  ⟨[], region.lines, [], effects, rfl, rfl, rfl, .nil 0, rises⟩

/-- What is known of a line that stands at a place with a height. -/
structure LineAt (region : Region) (exit : Label) (result : Nat) (effects : List Effect)
    (place height : Nat) (line : Line) (used others : List Effect) (next : Nat) : Prop where
  lifts : line.Lifts exit result used height next
  effect : region.effect? effects place = (used ++ others).head?
  onward : region.HeightAt exit result effects (place + 1) next

/-- The line at a place leads from the height there to the height behind it. -/
theorem HeightAt.line (stays : region.HeightAt exit result effects place height) {line : Line}
    (stands : region.line? place = some line) :
    ∃ used others next, region.LineAt exit result effects place height line used others next := by
  rcases stays with ⟨front, back, before, after, lines, rfl, rfl, rises, further⟩
  have found : back[0]? = some line := by
    rw [line?, if_pos (Nat.le_add_right _ _), Nat.add_sub_cancel_left, lines,
      List.getElem?_append_right (Nat.le_refl _), Nat.sub_self] at stands
    exact stands
  cases back with
  | nil => cases found
  | cons head rest =>
    cases found
    rcases further.head with ⟨used, others, next, rfl, lifts, rest⟩
    refine ⟨used, others, next, lifts, ?_, front ++ [line], _, before ++ used, others, ?_, ?_, ?_,
      rises.append (.single lifts), rest⟩
    · rw [effect?, Nat.add_sub_cancel_left, lines, List.take_left, ← rises.length_eq,
        List.getElem?_append_right (Nat.le_refl _), Nat.sub_self, List.head?_eq_getElem?]
    · simp [lines]
    · simp
    · simp [Nat.add_assoc]

/-- Nothing is on the stack at a label. -/
theorem heightAt_label (rises : Rises exit result region.lines effects 0 0) {label : Label}
    (stands : region.line? place = some (.label label)) :
    region.HeightAt exit result effects place 0 := by
  unfold line? at stands
  split at stands
  · rename_i inside
    have split : region.lines = region.lines.take (place - region.base) ++
        region.lines.drop (place - region.base) := (List.take_append_drop _ _).symm
    rw [split] at rises
    rcases rises.split with ⟨used, others, height, parts, front, back⟩
    have short := (List.getElem?_eq_some_iff.mp stands).1
    have zero : height = 0 := by
      rw [List.drop_eq_getElem_cons short, (List.getElem?_eq_some_iff.mp stands).2] at back
      rcases back.head with ⟨_, _, _, -, lifts, -⟩
      cases lifts with
      | straight runs => cases runs
      | label => rfl
    subst zero
    refine ⟨_, _, used, others, split, parts, ?_, front, back⟩
    rw [List.length_take]
    omega
  · cases stands

theorem line?_of_place? {label : Label} (found : region.place? label = some place) :
    region.line? place = some (.label label) := by
  rcases Option.map_eq_some_iff.mp found with ⟨index, at?, rfl⟩
  rcases List.idxOf?_eq_some_iff.mp at? with ⟨inside, same, -⟩
  rw [line?, if_pos (Nat.le_add_right _ _), Nat.add_sub_cancel_left,
    List.getElem?_eq_getElem inside,
    same]

theorem exists_line_of_step
    (goes : region.step exit place outcomes = some (.go sights there rest)) :
    ∃ line, region.line? place = some line := by
  unfold step at goes
  split at goes
  · cases goes
  · rcases Option.bind_eq_some_iff.mp goes with ⟨line, stands, -⟩
    exact ⟨line, stands⟩

/-- A jump comes to a label, where nothing is on the stack. -/
theorem heightAt_of_jump (rises : Rises exit result region.lines effects 0 0)
    (jumps : region.jump exit target sights outcomes = some (.go seen there rest)) :
    region.HeightAt exit result effects there 0 := by
  unfold jump at jumps
  split at jumps
  · rename_i place found
    cases jumps
    exact heightAt_label rises (line?_of_place? found)
  · split at jumps <;> cases jumps

theorem heightAt_of_decision (rises : Rises exit result region.lines effects 0 0)
    (onward : region.HeightAt exit result effects (place + 1) 0) {holds : Bool}
    {register : Register} (decides : region.decision exit place holds register target outcomes =
      some (.go seen there rest)) : region.HeightAt exit result effects there 0 := by
  cases outcomes with
  | nil => cases decides
  | cons outcome others =>
    rw [decision] at decides
    split at decides
    · exact heightAt_of_jump rises decides
    · cases decides
      exact onward

/-- One step keeps to the heights that are read off the code. -/
theorem HeightAt.step (rises : Rises exit result region.lines effects 0 0)
    (outside : region.place? exit = none) {later : Nat}
    (stays : region.HeightAt exit result effects place height) {line : Line}
    (stands : region.line? place = some line)
    (shifts : line.stackUse.shift? (region.effect? effects place) height = some later)
    (goes : region.step exit place outcomes = some (.go sights there rest)) :
    region.HeightAt exit result effects there later := by
  rcases stays.line stands with ⟨used, others, next, lifts, effect, onward⟩
  rw [effect] at shifts
  rw [step_of_line stands] at goes
  cases lifts with
  | straight runs shifted =>
    rw [shifted.shift?] at shifts
    rw [act_straight runs] at goes
    cases shifts
    cases goes
    exact onward
  | label =>
    cases shifts
    cases goes
    exact onward
  | jump inside =>
    cases shifts
    exact heightAt_of_jump rises goes
  | giveBack =>
    replace goes : region.jump exit exit [] outcomes = some (.go sights there rest) := goes
    rw [jump, outside, if_pos rfl] at goes
    cases goes
  | jumpIf register inside | jumpNot register inside =>
    cases shifts
    exact heightAt_of_decision rises onward goes
  | throw => cases goes

/-- The machine keeps to the heights that are read off the code. -/
theorem Climbs.heightAt (rises : Rises exit result region.lines effects 0 0)
    (outside : region.place? exit = none)
    (climbs : Climbs region exit effects outcomes place height rest) :
    region.HeightAt exit result effects place height := by
  induction climbs with
  | start => exact heightAt_base rises
  | go climbs stands shifts goes ih => exact ih.step rises outside stands shifts goes

/-- Where the machine comes to the exit by a jump, the result is on the stack. -/
theorem HeightAt.eq_result (stays : region.HeightAt exit result effects place height)
    (stops : region.step exit place outcomes = some (.stop sights .returned)) :
    height = result := by
  unfold Region.step at stops
  split at stops
  · cases stops
  rcases Option.bind_eq_some_iff.mp stops with ⟨line, stands, acts⟩
  rcases stays.line stands with ⟨used, others, next, lifts, -, -⟩
  have turned : ∀ {target seen rest}, target ≠ exit →
      region.jump exit target seen rest ≠ some (.stop sights .returned) := by
    intro target seen rest inside
    unfold jump
    split
    · nofun
    · rw [if_neg inside]
      nofun
  have decided : ∀ {holds register target}, target ≠ exit →
      region.decision exit place holds register target outcomes ≠
        some (.stop sights .returned) := by
    intro holds register target inside
    unfold decision
    split
    · nofun
    · split
      · exact turned inside
      · nofun
  cases lifts with
  | straight runs =>
    rw [act_straight runs] at acts
    cases acts
  | label | throw => cases acts
  | jump inside => exact absurd acts (turned inside)
  | giveBack => rfl
  | jumpIf register inside | jumpNot register inside => exact absurd acts (decided inside)

/-! ## The machine without the stack -/

/-- Without its stack the machine comes to the same place. -/
theorem Climbs.leads (climbs : Climbs region exit effects outcomes place height rest) :
    ∃ sights, region.Leads exit region.base outcomes sights place rest := by
  induction climbs with
  | start => exact ⟨[], Leads.refl _ _⟩
  | go climbs stands shifts goes ih =>
    rcases ih with ⟨seen, leads⟩
    exact ⟨_, leads.trans (Leads.of_step goes)⟩

theorem jump_ne_through : region.jump exit target sights outcomes ≠ some (.stop seen .through) := by
  unfold jump
  split
  · nofun
  · split <;> nofun

theorem decision_ne_through {holds : Bool} {register : Register} :
    region.decision exit place holds register target outcomes ≠ some (.stop seen .through) := by
  unfold decision
  split
  · nofun
  · split
    · exact jump_ne_through
    · nofun

/-- The machine comes through behind the last line only. -/
theorem eq_finish_of_step (stops : region.step exit place outcomes = some (.stop sights .through)) :
    place = region.finish := by
  unfold step at stops
  split at stops
  · assumption
  · rcases Option.bind_eq_some_iff.mp stops with ⟨line, -, acts⟩
    unfold act at acts
    split at acts
    · cases acts
    · exact absurd acts jump_ne_through
    · exact absurd acts decision_ne_through
    · exact absurd acts decision_ne_through
    · cases acts
    · split at acts <;> cases acts

/-- Wherever the machine without a stack comes to the exit, the one with a stack does so too. -/
theorem Climbs.arrives (rises : Rises exit result region.lines effects 0 0)
    (outside : region.place? exit = none) {last : List Bool} {ending : Ending}
    (ends : ending = .returned ∨ ending = .through)
    (climbs : Climbs region exit effects outcomes place height rest)
    (runs : region.Runs exit place rest sights ending last) :
    ∃ height, Arrives region exit effects outcomes height := by
  induction runs generalizing height with
  | stop stops =>
    rcases ends with rfl | rfl
    · exact ⟨height, .returned climbs stops⟩
    · cases eq_finish_of_step stops
      exact ⟨height, .through climbs⟩
  | go goes further ih =>
    rcases exists_line_of_step goes with ⟨line, stands⟩
    rcases (climbs.heightAt rises outside).line stands with ⟨used, others, next, lifts, effect, -⟩
    have enough := lifts.isSome_shift? others
    rw [← effect] at enough
    rcases Option.isSome_iff_exists.mp enough with ⟨later, shifts⟩
    exact ih ends (.go climbs stands shifts goes)

end Region

end Covenant
