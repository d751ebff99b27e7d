import Covenant.Proofs.Control

/-!
# Stepping through code

A machine that knows the flow of control only: it runs a piece of code line by
line, jumps where it is told to, and takes the outcomes of conditional jumps
from a list.  A label that does not stand in the piece is the exit of the
method, or the machine is stuck.

What can be seen of a run are the places of the ordinary lines, the outcomes
of the tests and what is thrown.  A run that has used up its outcomes waits,
so a piece of code is known by its runs for all lists of outcomes.
-/

namespace Covenant

variable {place there : Nat} {sights : List Sight}

/-- A piece of code, with the number of lines that stand before it. -/
structure Region where
  base : Nat
  lines : List Line

/-- The code of a span. -/
def Span.region (span : Span) : Region :=
  ⟨span.before.lines.length, span.lines⟩

/-- What can be seen of a run. -/
inductive Sight where
  /-- An ordinary line is run. -/
  | ran (place : Nat)
  | asked (place : Nat) (register : Register) (holds : Bool)
  | threw (place : Nat) (register : Register)

/-- What the machine does next. -/
inductive Move where
  | go (sights : List Sight) (place : Nat) (outcomes : List Bool)
  | stop (sights : List Sight) (ending : Ending)

namespace Region

/-- Behind the last line. -/
def finish (region : Region) : Nat :=
  region.base + region.lines.length

def line? (region : Region) (place : Nat) : Option Line :=
  if region.base ≤ place then region.lines[place - region.base]? else none

def place? (region : Region) (label : Label) : Option Nat :=
  (region.lines.idxOf? (.label label)).map (region.base + ·)

/-- Go on at a label; from the exit there is no way back. -/
def jump (region : Region) (exit target : Label) (sights : List Sight) (outcomes : List Bool) :
    Option Move :=
  match region.place? target with
  | some place => some (.go sights place outcomes)
  | none => if target = exit then some (.stop sights .returned) else none

/-- Ask for an outcome and jump if it is the one that is waited for. -/
def decision (region : Region) (exit : Label) (place : Nat) (holds : Bool) (register : Register)
    (target : Label) : List Bool → Option Move
  | [] => some (.stop [] .waiting)
  | outcome :: rest =>
    if outcome = holds then region.jump exit target [.asked place register outcome] rest
    else some (.go [.asked place register outcome] (place + 1) rest)

/-- What the machine does at a line; it is stuck if there is no move. -/
def act (region : Region) (exit : Label) (place : Nat) (outcomes : List Bool) :
    Line → Option Move
  | .label _ => some (.go [] (place + 1) outcomes)
  | .instruction .jmp [.label target] => region.jump exit target [] outcomes
  | .instruction .jmpIf [.register register, .label target] =>
    region.decision exit place true register target outcomes
  | .instruction .jmpNot [.register register, .label target] =>
    region.decision exit place false register target outcomes
  | .instruction .throw [.register register] => some (.stop [.threw place register] .threw)
  | line => if line.isStraight then some (.go [.ran place] (place + 1) outcomes) else none

/-- One step of the machine. -/
def step (region : Region) (exit : Label) (place : Nat) (outcomes : List Bool) : Option Move :=
  if place = region.finish then some (.stop [] .through)
  else (region.line? place).bind (region.act exit place outcomes)

/-- A run of the machine, from a place to its end. -/
inductive Runs (region : Region) (exit : Label) :
    Nat → List Bool → List Sight → Ending → List Bool → Prop
  | stop {place : Nat} {outcomes : List Bool} {sights : List Sight} {ending : Ending}
      (stops : region.step exit place outcomes = some (.stop sights ending)) :
      Runs region exit place outcomes sights ending outcomes
  | go {place there : Nat} {outcomes rest last : List Bool} {sights later : List Sight}
      {ending : Ending} (goes : region.step exit place outcomes = some (.go sights there rest))
      (further : Runs region exit there rest later ending last) :
      Runs region exit place outcomes (sights ++ later) ending last

variable {region : Region} {exit : Label}

/-- There is no more than one run. -/
theorem Runs.unique {outcomes last otherLast : List Bool} {others : List Sight}
    {ending otherEnding : Ending} (first : Runs region exit place outcomes sights ending last)
    (second : Runs region exit place outcomes others otherEnding otherLast) :
    others = sights ∧ otherEnding = ending ∧ otherLast = last := by
  induction first generalizing others otherEnding otherLast with
  | stop stops =>
    cases second with
    | stop again =>
      rw [stops] at again
      cases again
      exact ⟨rfl, rfl, rfl⟩
    | go goes further =>
      rw [stops] at goes
      cases goes
  | go goes further ih =>
    cases second with
    | stop stops =>
      rw [goes] at stops
      cases stops
    | go again beyond =>
      rw [goes] at again
      cases again
      rcases ih beyond with ⟨rfl, rfl, rfl⟩
      exact ⟨rfl, rfl, rfl⟩

/-- The machine comes from one place to another. -/
def Leads (region : Region) (exit : Label) (place : Nat) (outcomes : List Bool)
    (sights : List Sight) (there : Nat) (rest : List Bool) : Prop :=
  ∀ later ending last, Runs region exit there rest later ending last →
    Runs region exit place outcomes (sights ++ later) ending last

namespace Leads

theorem refl (place : Nat) (outcomes : List Bool) :
    Leads region exit place outcomes [] place outcomes :=
  fun _ _ _ run => run

theorem of_step {outcomes rest : List Bool}
    (goes : region.step exit place outcomes = some (.go sights there rest)) :
    Leads region exit place outcomes sights there rest :=
  fun _ _ _ run => .go goes run

theorem trans {between : Nat} {outcomes middle rest : List Bool} {later : List Sight}
    (first : Leads region exit place outcomes sights between middle)
    (second : Leads region exit between middle later there rest) :
    Leads region exit place outcomes (sights ++ later) there rest := by
  intro last ending final run
  rw [List.append_assoc]
  exact first _ _ _ (second _ _ _ run)

end Leads

/-! ## Lines and labels -/

theorem lt_finish {line : Line} (stands : region.line? place = some line) :
    place < region.finish := by
  unfold line? at stands
  split at stands
  · have inside := (List.getElem?_eq_some_iff.mp stands).1
    unfold finish
    omega
  · cases stands

/-- Where a line stands, the machine does what the line says. -/
theorem step_of_line {line : Line} (stands : region.line? place = some line)
    (outcomes : List Bool) :
    region.step exit place outcomes = region.act exit place outcomes line := by
  have inside := lt_finish stands
  rw [step, if_neg (by omega), stands, Option.bind_some]

theorem act_straight {line : Line} (straight : line.isStraight = true) (place : Nat)
    (outcomes : List Bool) :
    region.act exit place outcomes line = some (.go [.ran place] (place + 1) outcomes) := by
  unfold act
  split
  · cases straight
  · cases straight
  · cases straight
  · cases straight
  · cases straight
  · rw [if_pos straight]

/-- The machine stops behind the last line. -/
theorem runs_finish (outcomes : List Bool) :
    Runs region exit region.finish outcomes [] .through outcomes :=
  .stop (by rw [step, if_pos rfl])

/-- Every label stands at one place only. -/
def Labelled (region : Region) : Prop :=
  ∀ place other label, region.line? place = some (.label label) →
    region.line? other = some (.label label) → place = other

theorem place?_of_line (labelled : region.Labelled) {label : Label}
    (stands : region.line? place = some (.label label)) : region.place? label = some place := by
  have member : Line.label label ∈ region.lines := by
    unfold line? at stands
    split at stands
    · exact List.mem_of_getElem? stands
    · cases stands
  cases found : region.lines.idxOf? (.label label) with
  | none => exact absurd member (List.idxOf?_eq_none_iff.mp found)
  | some index =>
    rcases List.idxOf?_eq_some_iff.mp found with ⟨inside, same, -⟩
    have lands : region.line? (region.base + index) = some (.label label) := by
      simp [line?, List.getElem?_eq_getElem inside, same]
    rw [place?, found, Option.map_some, labelled _ _ _ stands lands]

namespace Leads

/-- The machine passes a label. -/
theorem label {label : Label} (stands : region.line? place = some (.label label))
    (outcomes : List Bool) : Leads region exit place outcomes [] (place + 1) outcomes :=
  of_step (by rw [step_of_line stands]; rfl)

/-- The machine jumps to a label. -/
theorem jump (labelled : region.Labelled) {target : Label}
    (stands : region.line? place = some (.instruction .jmp [.label target]))
    (lands : region.line? there = some (.label target)) (outcomes : List Bool) :
    Leads region exit place outcomes [] there outcomes := by
  refine of_step ?_
  rw [step_of_line stands, act, Region.jump, place?_of_line labelled lands]

/-- The machine runs straight lines one after the other. -/
theorem straight (order : place ≤ there)
    (runs : ∀ between, place ≤ between → between < there →
      ∃ line, region.line? between = some line ∧ line.isStraight = true) (outcomes : List Bool) :
    Leads region exit place outcomes ((List.range' place (there - place)).map .ran) there
      outcomes := by
  induction gap : there - place generalizing place with
  | zero =>
    have same : place = there := by omega
    cases same
    exact refl there outcomes
  | succ fewer ih =>
    rcases runs place (Nat.le_refl place) (by omega) with ⟨line, stands, runsOn⟩
    have first : Leads region exit place outcomes [.ran place] (place + 1) outcomes :=
      of_step (by rw [step_of_line stands, act_straight runsOn])
    refine first.trans (ih (by omega) ?_ (by omega))
    intro between after before
    exact runs between (by omega) before

end Leads

/-! ## The parts of a region -/

/-- The lines stand in the region from a place on. -/
def Holds (region : Region) (place : Nat) (lines : List Line) : Prop :=
  ∃ before after, region.lines = before ++ lines ++ after ∧ place = region.base + before.length

namespace Holds

variable {place : Nat} {first second : List Line}

theorem whole (region : Region) : region.Holds region.base region.lines :=
  ⟨[], [], by simp, by simp⟩

theorem left (holds : region.Holds place (first ++ second)) : region.Holds place first := by
  rcases holds with ⟨before, after, lines, base⟩
  exact ⟨before, second ++ after, by simp [lines], base⟩

theorem right (holds : region.Holds place (first ++ second)) :
    region.Holds (place + first.length) second := by
  rcases holds with ⟨before, after, lines, base⟩
  exact ⟨before ++ first, after, by simp [lines], by simp [base, Nat.add_assoc]⟩

/-- Each of the lines stands in its place. -/
theorem line (holds : region.Holds place first) {index : Nat} {line : Line}
    (among : first[index]? = some line) : region.line? (place + index) = some line := by
  rcases holds with ⟨before, after, lines, rfl⟩
  have inside := (List.getElem?_eq_some_iff.mp among).1
  rw [line?, if_pos (by omega), show region.base + before.length + index - region.base =
    before.length + index by omega, lines, List.append_assoc, List.getElem?_append_right (by omega),
    Nat.add_sub_cancel_left, List.getElem?_append_left inside, among]

theorem head {line : Line} {rest : List Line} (holds : region.Holds place (line :: rest)) :
    region.line? place = some line := by
  have first : (line :: rest)[0]? = some line := rfl
  exact holds.line first

end Holds

end Region

end Covenant
